import AtlasProbe.Traceroute.Probes

/-!
# Probes with a chosen checksum

Routers that spread packets over several paths look at the checksum.  One word of the data is chosen
such that the checksum has a given value, whatever the time stamp in the packet (`Chooses`,
`Probe.inCksum`).
-/

namespace AtlasProbe.Traceroute

open List Wire Checksum Measurement

variable {host : Host} {io : Io} {s t : State}

/-! ### The word in the packet -/

lemma wordSum_be16_append (n : ℕ) (bytes : Bytes) :
    wordSum (be16 n ++ bytes) = n % 65536 + wordSum bytes := by
  change 256 * (UInt8.ofNat (n / 256)).toNat + (UInt8.ofNat n).toNat + wordSum bytes = _
  rw [UInt8.toNat_ofNat', UInt8.toNat_ofNat']
  omega

/-- A word at an even place adds to the sum. -/
lemma wordSum_word {before : Bytes} (heven : before.length % 2 = 0) (n : ℕ)
    (rest : Bytes) :
    wordSum (before ++ (be16 n ++ rest)) = wordSum (before ++ (be16 0 ++ rest)) + n % 65536 := by
  induction before using wordSum.induct with
  | case1 a b before ih =>
    have hrest : before.length % 2 = 0 := by
      rw [length_cons, length_cons] at heven
      omega
    simp only [cons_append, wordSum, ih hrest]
    omega
  | case2 a => cases heven
  | case3 =>
    rw [nil_append, nil_append, wordSum_be16_append, wordSum_be16_append]
    omega

/-- The word makes the checksum of a packet behind other parts, in both byte orders. -/
lemma cksum_word (parts : List Bytes) (before rest : Bytes) {val : ℕ}
    (heven : before.length % 2 = 0)
    (hlen : parts.flatten.length + (before.length + (2 + rest.length)) < 65536)
    (hpos : 0 < (parts.map wordSum).sum + wordSum (before ++ (be16 0 ++ rest)))
    (hval : val < 65535) :
    let n := (parts.map wordSum).sum + wordSum (before ++ (be16 0 ++ rest))
    let whole := parts ++ [before ++ (be16 (fudge n val) ++ rest)]
    complement (whole.map wordSum).sum = val ∧ hostCksum whole = val := by
  intro n whole
  have hwhole : complement (whole.map wordSum).sum = val := by
    have hparts := (swapped_parts parts).wordSum_le
    have hpacket := wordSum_le (before ++ (be16 0 ++ rest))
    rw [length_append, length_append, length_be16] at hpacket
    rw [map_append, sum_append, map_singleton, sum_singleton, wordSum_word heven,
      Nat.mod_eq_of_lt (fudge_lt _ _), ← Nat.add_assoc]
    exact complement_fudge (by omega) hval (.inl hpos)
  refine ⟨hwhole, (hostCksum_eq ?_).trans hwhole⟩
  rw [flatten_append, length_append, flatten_singleton, length_append, length_append]
  exact hlen

/-- The checksum that a UDP probe over IPv4 is to have. -/
def udp4Val (s : State) : ℕ := if s.opt.parismod ≠ 0 then s.seq else (s.index + 1) % 65536

/-- The parts of a UDP probe over IPv4 that the checksum is for. -/
def udp4Parts (s : State) : List Bytes :=
  [v4Ph s.locSin6 s.sin6 17 (8 + s.curpacksize),
    udpHeader s.locSin6 s.sin6 (8 + s.curpacksize) 0, udp4Data s]

lemma cksum_udp4 (hsrc : s.locSin6.addr.length ≤ 16) (hdst : s.sin6.addr.length ≤ 16)
    (hsize : s.curpacksize ≤ packetSize) (hval : udp4Val s < 65535) :
    complement ((udp4Parts s).map wordSum).sum = udp4Val s ∧
      hostCksum (udp4Parts s) = udp4Val s := by
  unfold packetSize maxDataSize at hsize
  have hlen : 8 ≤ wordSum (udpHeader s.locSin6 s.sin6 (8 + s.curpacksize) 0) := by
    unfold udpHeader
    simp only [append_assoc, wordSum_be16_append]
    omega
  refine cksum_word [_, _] [] _ rfl ?_ ?_ hval
  · simp [v4Ph, udpHeader]
    omega
  · rw [map_cons, map_singleton, sum_cons, sum_singleton]
    omega

lemma length_udp4 (h : 2 ≤ s.curpacksize) : (udp4Data s).length = s.curpacksize := by
  unfold udp4Data
  simp
  omega

lemma length_v6info {fuzz : ℕ} {pad : Bytes} (hpad : pad.length = 2) :
    (v6info host t fuzz pad).length = v6infoSize := by
  unfold v6info
  simp [hpad, host.length_timespecBytes]
  rfl

/-! ### The checksum of a probe -/

/-- `in_cksum`, `in_cksum_udp` and `in_cksum_icmp6` on the packet of a probe, with zero in the field
for the checksum. -/
def Probe.inCksum (pr : Probe) : ℕ :=
  let len := 8 + pr.data.length
  match pr.proto, pr.dst.inet6 with
  | .icmp, false => hostCksum [pr.data.take 2 ++ be16 0 ++ pr.data.drop 4]
  | .icmp, true => hostCksum [pr.pseudoHeader pr.data.length, pr.data]
  | _, _ => hostCksum [pr.pseudoHeader len, udpHeader pr.src pr.dst len 0, pr.data]

/-- The checksum that a probe is to have: the paris id for ICMP, with one added over IPv6, and for
UDP the number of the probe or, outside paris mode, the index and one. -/
def State.target (s : State) (pr : Probe) : ℕ :=
  match pr.proto with
  | .icmp => if s.sin6.inet6 then (s.paris + 1) % 65536 else s.paris
  | _ => if s.opt.parismod ≠ 0 then pr.seq else (s.index + 1) % 65536

/-- The checksum of the next probe is chosen, and the packet fits in the buffer. -/
structure Chooses (s : State) (proto : Proto) : Prop where
  mode : proto = .icmp ∧ s.opt.parismod ≠ 0 ∨ proto = .udp ∧ s.sin6.inet6 = false
  size : s.curpacksize ≤ maxDataSize
  src : s.locSin6.addr.length ≤ 16
  dst : s.sin6.addr.length ≤ 16

lemma cksum_icmp4 (hsize : s.curpacksize ≤ maxDataSize) (hparis : s.opt.parismod ≠ 0)
    (hval : s.paris < 65535) :
    hostCksum [(icmp4Packet host s).take 2 ++ be16 0 ++ (icmp4Packet host s).drop 4] = s.paris := by
  unfold maxDataSize at hsize
  obtain ⟨-, hword⟩ := cksum_word [] ([8, 0] ++ be16 0 ++ be16 (icmpId host s) ++ be16 s.seq)
    (filler (s.curpacksize - 2)) (by simp) (by simp; omega)
    (Nat.add_pos_right _ (Nat.add_pos_left (Nat.add_pos_left (by decide) _) _)) hval
  rw [map_nil, sum_nil, Nat.zero_add] at hword
  unfold icmp4Packet
  dsimp only
  rw [if_pos hparis]
  exact hword

lemma cksum_icmp6 (hsrc : s.locSin6.addr.length ≤ 16) (hdst : s.sin6.addr.length ≤ 16)
    (hfits : v6infoSize ≤ s.curpacksize) (hsize : s.curpacksize ≤ maxDataSize)
    (hparis : s.opt.parismod ≠ 0) (hval : (s.paris + 1) % 65536 < 65535) :
    hostCksum [v6Ph s.locSin6 s.sin6 58 (icmp6Packet host io s).length, icmp6Packet host io s] =
      (s.paris + 1) % 65536 := by
  have hlength : (icmp6Packet host io s).length = 8 + s.curpacksize := by
    unfold icmp6Packet
    simp only [length_append, length_v6info (length_bytesAt _ _ _), length_filler, length_be16,
      length_cons, length_nil]
    omega
  unfold maxDataSize at hsize
  obtain ⟨-, hword⟩ := cksum_word [v6Ph s.locSin6 s.sin6 58 (8 + s.curpacksize)]
    ([128, 0] ++ be16 0 ++ be16 host.myPid ++ be16 s.seq)
    (bytesAt io.packet 10 2 ++ be32 host.myPid ++ be32 s.index ++ be32 s.seq ++
      host.timespecBytes s.xmitTime ++ filler (s.curpacksize - v6infoSize))
    (by simp) (by simp [v6Ph, host.length_timespecBytes, v6infoSize]; omega)
    (Nat.add_pos_right _ (Nat.add_pos_left (Nat.add_pos_left (by decide) _) _)) hval
  rw [hlength]
  unfold icmp6Packet v6info
  dsimp only
  rw [if_pos hparis]
  exact hword

/-- An ICMP probe, with the state that it is sent from. -/
lemma inCksum_icmp (host : Host) (io : Io) (s : State) :
    (s.sentProbe host io .icmp).inCksum = if s.sin6.inet6 then
      let data := icmp6Packet host io (s.atLeast v6infoSize)
      hostCksum [v6Ph s.locSin6 s.sin6 58 data.length, data]
    else
      let data := icmp4Packet host (s.atLeast 2)
      hostCksum [data.take 2 ++ be16 0 ++ data.drop 4] := by
  unfold State.sentProbe prepare
  split_ifs with hinet
  · unfold Probe.inCksum Probe.pseudoHeader State.probe State.atLeast
    rw [hinet]
    rfl
  · unfold Probe.inCksum State.probe State.atLeast
    rw [Bool.eq_false_iff.mpr hinet]

/-- A UDP probe over IPv4, with the state that it is sent from. -/
lemma sentProbe_udp (host : Host) (io : Io) (hinet : s.sin6.inet6 = false) :
    ∃ u : State, s.sentProbe host io .udp = u.probe .udp (udp4Data u) ∧
      udp4Val u = s.target (u.probe .udp (udp4Data u)) ∧ u.sin6.inet6 = false ∧
        u.locSin6 = s.locSin6 ∧ u.sin6.addr = s.sin6.addr ∧
          u.curpacksize = max s.curpacksize 2 := by
  unfold State.sentProbe prepare
  dsimp only
  rw [if_neg (by simp [State.setPort, hinet])]
  split_ifs
  all_goals exact ⟨_, rfl, rfl, hinet, rfl, rfl, rfl⟩

/-- For every probe with a chosen checksum, of any length and between any addresses, the checksum is
the one that was chosen, whatever the time stamp and the other data. -/
theorem sentProbe_inCksum {proto : Proto} (host : Host) (io : Io) (h : Chooses s proto)
    (htarget : s.target (s.sentProbe host io proto) < 65535) :
    (s.sentProbe host io proto).inCksum = s.target (s.sentProbe host io proto) := by
  have hsize := h.size
  unfold maxDataSize at hsize
  rcases h.mode with ⟨rfl, hparis⟩ | ⟨rfl, hinet⟩
  · change (if s.sin6.inet6 then _ else _) < 65535 at htarget
    change _ = if s.sin6.inet6 then _ else _
    rw [inCksum_icmp]
    split_ifs at htarget ⊢ with hinet
    · exact cksum_icmp6 (s := s.atLeast v6infoSize) h.src h.dst (Nat.le_max_right _ _)
        (Nat.max_le.mpr ⟨hsize, by decide⟩) hparis htarget
    · exact cksum_icmp4 (s := s.atLeast 2) (Nat.max_le.mpr ⟨hsize, by decide⟩) hparis htarget
  · obtain ⟨u, hsent, hval, hinet', hsrc, hdst, hu⟩ := sentProbe_udp host io hinet
    rw [hsent, ← hval] at htarget ⊢
    have hsum := (cksum_udp4 (hsrc ▸ h.src) (hdst ▸ h.dst)
      (by unfold packetSize maxDataSize; omega) htarget).2
    rw [← hsum]
    unfold Probe.inCksum Probe.pseudoHeader State.probe
    dsimp only
    rw [length_udp4 (by omega), hinet']
    rfl

/-- A state in paris mode before the probe 300, for packets of an odd size. -/
def parisState : State :=
  { initState { plainOptions false false with parismod := 16 } 0 with
    sin6 := plainAddr, paris := 3, seq := 300, curpacksize := 41 }

/-- A UDP probe has its number as its checksum. -/
theorem sentProbe_inCksum_odd : (parisState.sentProbe plainHost plainIo .udp).inCksum = 300 := by
  have h : Chooses parisState .udp := ⟨.inr ⟨rfl, rfl⟩, by decide, by decide, by decide⟩
  exact sentProbe_inCksum plainHost plainIo h (by decide)

end AtlasProbe.Traceroute
