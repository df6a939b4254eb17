import AtlasProbe.Traceroute.Paris

/-!
# Quoted probes over IPv6

An ICMPv6 error that quotes a probe behind any options (`Quotes6`, `HasOptions`) is found to be for
the measurement and the probe that caused it, and for no other measurement (`Quoted6.infoForUs`).
-/

namespace AtlasProbe.Traceroute

open List Wire Checksum Measurement

/-! ### Messages -/

/-- An options header of IPv6, in front of a header of type `nxt`. -/
structure IsOptions (bytes : Bytes) (nxt : UInt8) : Prop where
  nxt : bytes.getD 0 0 = nxt
  length : bytes.length = 8 * ((bytes.getD 1 0).toNat + 1)

/-- An options header of type `type` may be there in front of a header of type `nxt`; `first` is the
type of the first of the two. -/
def HasOptions (type first : UInt8) (bytes : Bytes) (nxt : UInt8) : Prop :=
  first = nxt ∧ bytes = [] ∨ first = type ∧ IsOptions bytes nxt

/-- The packet is an ICMPv6 time exceeded or destination unreachable message that quotes all of a
probe, with the hop-by-hop and destination options that it was sent with. -/
def Quotes6 (p : Packet) (pr : Probe) : Prop :=
  ∃ icmp ip hopopts nxt dstopts, icmp.length = 8 ∧
    (icmp.getD 0 0 = 3 ∨ icmp.getD 0 0 = 1) ∧ ip.length = 40 ∧
    HasOptions 0 (ip.getD 6 0) hopopts nxt ∧ HasOptions 60 nxt dstopts (pr.proto.number true) ∧
    Holds p.buf 0 (icmp ++ ip ++ hopopts ++ dstopts ++ pr.payload) ∧
    (icmp ++ ip ++ hopopts ++ dstopts ++ pr.payload).length ≤ p.nrecv

/-! ### Extension headers -/

section Headers

variable {p : Packet} {c : Cursor} {bytes : Bytes} {first nxt : UInt8}

/-- An options header is passed. -/
lemma passOptions_eq (h : IsOptions bytes nxt) (hbuf : Holds p.buf c.ptr bytes)
    (hle : c.ptr + bytes.length ≤ p.nrecv) :
    ∃ size, passOptions p c =
      some (size, { c with nxt := nxt.toNat, ptr := c.ptr + bytes.length }) := by
  have hlength := h.length
  have hfirst : p.buf c.ptr = bytes.getD 0 0 := hbuf.getD (k := 0) (by omega)
  have hnxt : u8 p.buf c.ptr = nxt.toNat := by rw [u8, hfirst, h.nxt]
  have hsize : 8 * u8 p.buf (c.ptr + 1) + 8 = bytes.length := by
    rw [u8, hbuf.getD (by omega), hlength, Nat.mul_add_one]
  refine ⟨8 * u8 p.buf (c.ptr + 1), ?_⟩
  unfold passOptions
  rw [if_neg (by omega), if_neg (by omega), hnxt, hsize]

/-- The options of a type are passed, if there are any. -/
lemma pass_eq {type : UInt8} (h : HasOptions type first bytes nxt) (hfirst : c.nxt = first.toNat)
    (hnxt : nxt ≠ type) (hbuf : Holds p.buf c.ptr bytes) (hle : c.ptr + bytes.length ≤ p.nrecv)
    {note : ℕ × Cursor → Cursor} (hnote : ∀ x, (note x).nxt = x.2.nxt ∧ (note x).ptr = x.2.ptr) :
    ∃ c', (if c.nxt = type.toNat then (passOptions p c).map note else some c) = some c' ∧
      c'.nxt = nxt.toNat ∧ c'.ptr = c.ptr + bytes.length := by
  rcases h with ⟨rfl, rfl⟩ | ⟨rfl, hopt⟩
  · have hne : c.nxt ≠ type.toNat := fun heq => hnxt (UInt8.toNat_inj.mp (hfirst.symm.trans heq))
    exact ⟨c, if_neg hne, hfirst, rfl⟩
  · obtain ⟨size, hpass⟩ := passOptions_eq hopt hbuf hle
    rw [if_pos hfirst, hpass]
    exact ⟨_, rfl, hnote _⟩

end Headers

/-- The types of the headers that the options may be in front of. -/
lemma HasOptions.first_eq {type first nxt : UInt8} {bytes : Bytes}
    (h : HasOptions type first bytes nxt) : first = nxt ∨ first = type := by
  rcases h with ⟨hfirst, -⟩ | ⟨hfirst, -⟩
  · exact .inl hfirst
  · exact .inr hfirst

/-- The quoted packet as the cursor shows it. -/
structure Quoted6 (p : Packet) (pr : Probe) (c : Cursor) : Prop where
  type : u8 p.buf 0 ∈ [icmp6DstUnreach, icmp6PacketTooBig, icmp6TimeExceeded]
  header : innerHeader p = some c
  nxt : c.nxt = (pr.proto.number true).toNat
  payload : Holds p.buf c.ptr pr.payload
  length : c.ptr + pr.payload.length ≤ p.nrecv

/-- The number of bytes of the quoted packet that are needed. -/
def Proto.needed : Proto → ℕ
  | .tcp => 20
  | .udp | .icmp => 8 + v6infoSize

lemma Quotes6.quoted {p : Packet} {pr : Probe} (h : Quotes6 p pr)
    (hneeded : pr.proto.needed ≤ pr.payload.length) : ∃ c, Quoted6 p pr c := by
  obtain ⟨icmp, ip, hopopts, nxt, dstopts, hicmp, htype, hip, hhop, hdst, hbuf, hle⟩ := h
  have hpayload : Holds p.buf (48 + hopopts.length + dstopts.length) pr.payload :=
    hbuf.right (by simp only [length_append]; omega)
  have hdstbuf : Holds p.buf (48 + hopopts.length) dstopts :=
    hbuf.left.right (by simp only [length_append]; omega)
  have hhopbuf : Holds p.buf 48 hopopts := hbuf.left.left.right (by simp [hicmp, hip])
  have hipbuf : Holds p.buf 8 ip := hbuf.left.left.left.right (by simp [hicmp])
  have hicmpbuf : Holds p.buf 0 icmp := hbuf.left.left.left.left
  simp only [length_append] at hle
  have hfirst : u8 p.buf 14 = (ip.getD 6 0).toNat :=
    congrArg UInt8.toNat (hipbuf.getD (k := 6) (by omega))
  have hnum : pr.proto.number true = 6 ∨ pr.proto.number true = 17 ∨ pr.proto.number true = 58 := by
    cases pr.proto <;> decide
  have hnxt : nxt = 6 ∨ nxt = 17 ∨ nxt = 58 ∨ nxt = 60 := by
    rcases hdst.first_eq with heq | heq
    · rw [heq]
      tauto
    · tauto
  have hknown : knownHeader (u8 p.buf 14) = true := by
    rw [hfirst]
    rcases hhop.first_eq with heq | heq
    · rw [heq]
      rcases hnxt with rfl | rfl | rfl | rfl <;> decide
    · rw [heq]
      decide
  obtain ⟨c₁, hpass₁, hnxt₁, hptr₁⟩ : ∃ c₁, passHopopts p ⟨u8 p.buf 14, 48, 0, 0⟩ = some c₁ ∧ _ :=
    pass_eq hhop hfirst (by rcases hnxt with rfl | rfl | rfl | rfl <;> decide) hhopbuf
      (by dsimp only; omega) fun _ => ⟨rfl, rfl⟩
  have hpass₂ : passFragment p c₁ = some c₁ := by
    refine if_neg ?_
    rw [hnxt₁]
    rcases hnxt with rfl | rfl | rfl | rfl <;> decide
  obtain ⟨c₃, hpass₃, hnxt₃, hptr₃⟩ : ∃ c₃, passDstopts p c₁ = some c₃ ∧ _ :=
    pass_eq hdst hnxt₁ (by rcases hnum with heq | heq | heq <;> rw [heq] <;> decide)
      (hptr₁ ▸ hdstbuf) (by rw [hptr₁]; dsimp only; omega) fun _ => ⟨rfl, rfl⟩
  have hptr : c₃.ptr = 48 + hopopts.length + dstopts.length := by rw [hptr₃, hptr₁]
  refine ⟨c₃, ?_, ?_, hnxt₃, hptr ▸ hpayload, by omega⟩
  · rw [u8, hicmpbuf.getD (k := 0) (by omega)]
    rcases htype with heq | heq <;> rw [heq] <;> decide
  · unfold innerHeader
    rw [if_neg (by omega), if_pos hknown, hpass₁, Option.bind_some, hpass₂, Option.bind_some,
      hpass₃]
    refine if_neg ?_
    rw [hnxt₃]
    revert hneeded
    cases pr.proto <;> intro hneeded <;> simp only [Proto.needed] at hneeded <;>
      simp [Proto.number] <;> omega

/-! ### Probes -/

section Probes

variable {host : Host} {io : Io} {p : Packet} {s t u : State} {c : Cursor} {pr : Probe}
  {buf : ℕ → UInt8} {i : ℕ}

/-- What is made of a message that quotes a probe. -/
lemma Quoted6.reply6 (h : Quoted6 p pr c) : reply6 host p s =
    if quotes6 host p s c then some (.error c
      (if c.nxt = 6 then u32 p.buf (c.ptr + 4) &&& 0xffff else u32 p.buf (c.ptr + 8 + 12)))
    else none := by
  have hlong : 8 ≤ p.nrecv := by
    have hheader := h.header
    unfold innerHeader at hheader
    split_ifs at hheader
    omega
  unfold Traceroute.reply6 quote6
  rw [if_neg (by omega), if_pos h.type, h.header, Option.bind_some]
  split_ifs <;> rfl

/-- A payload with a `struct v6info` behind eight bytes. -/
def HasInfo (host : Host) (t : State) (payload : Bytes) : Prop :=
  ∃ header u fuzz pad rest, payload = header ++ (v6info host u fuzz pad ++ rest) ∧
    header.length = 8 ∧ pad.length = 2 ∧ u.index = t.index ∧ u.seq = t.seq

lemma hasInfo_udp6 (hinet : t.sin6.inet6 = true) :
    HasInfo host t (t.sentProbe host io .udp).payload := by
  have hport : t.setPort.sin6.inet6 = true := hinet
  have hprepare : prepare host io t .udp =
      (t.setPort.atLeast v6infoSize, udp6Data host io (t.setPort.atLeast v6infoSize)) := by
    unfold prepare
    rw [if_pos hport]
  unfold State.sentProbe
  rw [hprepare]
  exact ⟨_, t.setPort.atLeast v6infoSize, 0, _, _, rfl, rfl, length_bytesAt _ _ _, rfl, rfl⟩

/-- An ICMPv6 message with its checksum. -/
lemma hasInfo_icmp6Packet (t : State) (sum : ℕ) :
    HasInfo host t ((icmp6Packet host io t).take 2 ++ be16 sum ++ (icmp6Packet host io t).drop
      4) := by
  obtain ⟨fuzz, hpacket⟩ : ∃ fuzz, icmp6Packet host io t = [128, 0] ++ be16 0 ++ (be16 host.myPid ++
      be16 t.seq ++ (v6info host t fuzz (bytesAt io.packet 10 2) ++
        filler (t.curpacksize - v6infoSize))) := by
    unfold icmp6Packet
    exact ⟨_, rfl⟩
  rw [hpacket]
  exact ⟨[128, 0] ++ be16 sum ++ be16 host.myPid ++ be16 t.seq, t, fuzz, _, _, rfl, rfl,
    length_bytesAt _ _ _, rfl, rfl⟩

lemma hasInfo_icmp6 (hinet : t.sin6.inet6 = true) :
    HasInfo host t (t.sentProbe host io .icmp).payload := by
  have hprepare : prepare host io t .icmp =
      (t.atLeast v6infoSize, icmp6Packet host io (t.atLeast v6infoSize)) := by
    unfold prepare
    rw [if_pos hinet]
  have hpayload {data : Bytes} : ((t.atLeast v6infoSize).probe .icmp data).payload =
      data.take 2 ++ be16 ((t.atLeast v6infoSize).probe .icmp data).icmp6Sum ++ data.drop 4 :=
    if_pos hinet
  unfold State.sentProbe
  rw [hprepare, hpayload]
  exact hasInfo_icmp6Packet (t.atLeast v6infoSize) _

/-- A message that quotes a probe with a `struct v6info` is for the measurement with the same
index. -/
lemma Quoted6.infoForUs (h : SameRun s t) (hq : Quoted6 p pr c) (hinfo : HasInfo host t pr.payload)
    (s' : State) :
    infoForUs host p s' (c.ptr + 8) = (s'.index == s.index) ∧
      u32 p.buf (c.ptr + 8 + 12) = t.seq := by
  obtain ⟨header, u, fuzz, pad, rest, hpayload, hheader, hpad, hindex, hseq⟩ := hinfo
  have hbuf := hq.payload
  rw [hpayload] at hbuf
  have hinfo := hbuf.right (by rw [hheader])
  unfold v6info at hinfo
  simp only [append_assoc] at hinfo
  have hpid := (hinfo.right rfl).right (by rw [length_be16, hpad])
  have hind := hpid.right (k := c.ptr + 8 + 8) rfl
  have hnum := (hind.right (k := c.ptr + 8 + 12) rfl).left.u32
  have hlt := h.index
  have hlt' := h.seq_lt
  have hpid' : host.myPid % 4294967296 = host.myPid := Nat.mod_eq_of_lt host.myPid_lt
  have hind' : u.index % 4294967296 = s.index := by
    rw [hindex, h.index_eq]
    omega
  refine ⟨?_, by rw [hnum]; omega⟩
  unfold Traceroute.infoForUs
  rw [hpid.left.u32, hpid', hind.left.u32, hind', beq_self_eq_true, Bool.true_and, Bool.beq_comm]

/-- The number of bytes that are needed is there. -/
lemma HasInfo.needed_le {payload : Bytes} (h : HasInfo host t payload) :
    8 + v6infoSize ≤ payload.length := by
  obtain ⟨header, u, fuzz, pad, rest, rfl, hheader, hpad, -, -⟩ := h
  rw [length_append, length_append, length_v6info hpad]
  omega

/-- The cursor for a probe over IPv6. -/
lemma quoted6_sentProbe {proto : Proto} (h : Quotes6 p (t.sentProbe host io proto))
    (hinet : t.sin6.inet6 = true) : ∃ c, Quoted6 p (t.sentProbe host io proto) c := by
  refine h.quoted ?_
  cases proto with
  | tcp => exact (length_tcpPacket t).ge.trans' (Nat.le_add_right _ _)
  | udp => exact (hasInfo_udp6 hinet).needed_le
  | icmp => exact (hasInfo_icmp6 hinet).needed_le

/-- The measurement is one of the protocol. -/
def Options.uses (o : Options) : Proto → Bool
  | .tcp => o.doTcp
  | .udp => o.doUdp
  | .icmp => o.doIcmp

/-- What is read of a quoted probe over IPv6: a measurement is looked for under the index of the
one that sent it, and the number is that of the probe. -/
lemma Quoted6.quotes6 {proto : Proto} (h : SameRun s t)
    (hq : Quoted6 p (t.sentProbe host io proto) c) (hinet : s.sin6.inet6 = true) (s' : State) :
    quotes6 host p s' c = ((s'.index == s.index) && s'.opt.uses proto && s'.sin6.inet6 && s'.busy) ∧
      (if c.nxt = 6 then u32 p.buf (c.ptr + 4) &&& 0xffff else u32 p.buf (c.ptr + 8 + 12)) =
        t.seq := by
  have hnxt := hq.nxt
  unfold Traceroute.quotes6
  cases proto with
  | tcp =>
    obtain ⟨-, hnum⟩ := holds_tcpPacket hq.payload
    obtain ⟨hindex, hseq⟩ := tcpSeq_parts h
    rw [hnxt, hnum, hindex, hseq, Bool.beq_comm]
    exact ⟨rfl, rfl⟩
  | udp =>
    obtain ⟨hindex, hseq⟩ := Quoted6.infoForUs h hq (hasInfo_udp6 (h.inet6_eq.trans hinet)) s'
    rw [hnxt, hindex, hseq]
    exact ⟨rfl, rfl⟩
  | icmp =>
    obtain ⟨hindex, hseq⟩ := Quoted6.infoForUs h hq (hasInfo_icmp6 (h.inet6_eq.trans hinet)) s'
    rw [hnxt, hindex, hseq]
    exact ⟨rfl, rfl⟩

end Probes

end AtlasProbe.Traceroute
