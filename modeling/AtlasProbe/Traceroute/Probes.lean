import AtlasProbe.Traceroute.Invariant

/-!
# Probes on the wire

The kernel adds headers and checksums to a probe.  The index of the measurement and the number of
the probe are, for every probe of a run (`SameRun`), in the ports, the sequence number, the
identifier, the checksum or the data, depending on the protocol.
-/

namespace AtlasProbe.Traceroute

open Wire Checksum Measurement

/-! ### Packets on the wire -/

/-- The number of a protocol in the IP header. -/
def Proto.number (inet6 : Bool) : Proto → UInt8
  | .tcp => 6
  | .udp => 17
  | .icmp => if inet6 then 58 else 1

namespace Probe

variable (pr : Probe)

/-- The pseudo header for the checksum. -/
def pseudoHeader (len : ℕ) : Bytes :=
  if pr.dst.inet6 then v6Ph pr.src pr.dst (pr.proto.number true) len
  else v4Ph pr.src pr.dst (pr.proto.number false) len

/-- The UDP checksum that the kernel computes, with `0` sent as `0xffff`. -/
def udpSum : ℕ :=
  let len := 8 + pr.data.length
  let sum := complement (wordSum (pr.pseudoHeader len) + wordSum (udpHeader pr.src pr.dst len 0) +
    wordSum pr.data)
  if sum = 0 then 65535 else sum

/-- The ICMPv6 checksum that the kernel computes. -/
def icmp6Sum : ℕ := complement (wordSum (pr.pseudoHeader pr.data.length) + wordSum pr.data)

/-- What follows the IP headers on the wire.  The kernel adds the UDP header, and puts the checksum
in an ICMPv6 message. -/
def payload : Bytes :=
  match pr.proto with
  | .tcp => pr.data
  | .icmp =>
    if pr.dst.inet6 then pr.data.take 2 ++ be16 pr.icmp6Sum ++ pr.data.drop 4 else pr.data
  | .udp => udpHeader pr.src pr.dst (8 + pr.data.length) pr.udpSum ++ pr.data

end Probe

/-! ### Probes -/

/-- The state `t` in which a probe was made belongs to the run of the state `s` in which the message
arrives. -/
structure SameRun (s t : State) : Prop where
  busy : s.busy = true
  runId : t.runId = s.runId
  index : s.index < 4096
  pos : 0 < t.seq
  le : t.seq ≤ s.seq
  lt : s.seq < 65535

section Probes

variable {s t : State} {buf : ℕ → UInt8} {i : ℕ}

namespace SameRun

lemma opt_eq (h : SameRun s t) : t.opt = s.opt := (congrArg RunId.opt h.runId :)

lemma index_eq (h : SameRun s t) : t.index = s.index := (congrArg RunId.index h.runId :)

lemma locSin6_eq (h : SameRun s t) : t.locSin6 = s.locSin6 := (congrArg RunId.locSin6 h.runId :)

lemma inet6_eq (h : SameRun s t) : t.sin6.inet6 = s.sin6.inet6 := (congrArg RunId.inet6 h.runId :)

lemma seq_lt (h : SameRun s t) : t.seq < 65536 :=
  Nat.lt_of_le_of_lt h.le (Nat.lt_succ_of_lt h.lt)

end SameRun

@[simp]
lemma length_filler (n : ℕ) : (filler n).length = n := by
  unfold filler
  simp

/-! ### TCP -/

/-- The fields of a TCP probe that are read. -/
lemma holds_tcpPacket (h : Holds buf i (tcpPacket t)) :
    u16 buf i = t.locSin6.port % 65536 ∧ u32 buf (i + 4) = tcpSeq t % 4294967296 := by
  unfold tcpPacket tcpHeader at h
  simp only [List.append_assoc] at h
  exact ⟨h.left.u16, ((h.right rfl).right rfl).left.u32⟩

lemma length_tcpPacket (t : State) : (tcpPacket t).length = 20 + t.curpacksize := by
  unfold tcpPacket tcpHeader
  simp
  omega

/-- The index and the number in the sequence number of TCP. -/
lemma tcpSeq_parts (h : SameRun s t) :
    (tcpSeq t % 4294967296) >>> 16 = s.index ∧ tcpSeq t % 4294967296 &&& 0xffff = t.seq := by
  have hindex := h.index
  have hseq := h.seq_lt
  have heq : tcpSeq t = s.index * 65536 + t.seq := by
    unfold tcpSeq
    rw [← Nat.shiftLeft_add_eq_or_of_lt (by simpa using hseq), Nat.shiftLeft_eq, h.index_eq]
  have hmask : tcpSeq t % 4294967296 &&& 0xffff = tcpSeq t % 4294967296 % 65536 :=
    Nat.and_two_pow_sub_one_eq_mod _ 16
  rw [hmask, Nat.shiftRight_eq_div_pow, heq]
  omega

end Probes

end AtlasProbe.Traceroute
