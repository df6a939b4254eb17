import AtlasProbe.Traceroute.Reply

/-!
# Replies over IPv4

`ready_callback4` is called for every ICMP packet, and `ready_tcp4` for every TCP segment.  An ICMP
error quotes the packet that caused it, in which the index of the measurement and the number of the
probe are found again.
-/

namespace AtlasProbe.Traceroute

open Wire Measurement

/-! ### ICMP errors -/

/-- In what the branches for the protocols of the quoted packet differ. -/
structure Branch where
  dupText : Bytes
  /-- A duplicate of a time exceeded message counts as well. -/
  dupNotDone : Bool
  /-- The text for an unreachable port. -/
  portText : Bytes
  /-- The size of the headers, to be subtracted from an MTU. -/
  headers : ℕ

/-- The quoted packet is of TCP. -/
def tcpBranch : Branch := ⟨ascii " " ++ key "dup" ++ ascii "true", true, [], 20 + 20⟩

/-- The quoted packet is of UDP. -/
def udpBranch : Branch := ⟨ascii " " ++ key "dup" ++ ascii "true", true, [], 20 + 8⟩

/-- The quoted packet is of ICMP. -/
def icmpBranch : Branch :=
  ⟨key "dup" ++ ascii "true", false, ascii ", " ++ key "err" ++ quoted (ascii "p"), 20 + 8⟩

/-- `ICMP_TIME_EXCEEDED` -/
def icmpTimeExceeded : ℕ := 11

/-- `ICMP_DEST_UNREACH` -/
def icmpDestUnreach : ℕ := 3

/-- The code for a packet that must be fragmented. -/
def icmpUnreachNeedfrag : ℕ := 4

section Callback

variable (host : Host) (tabsiz : ℕ) (io : Io) (p : Packet) (s : State)

/-- The offset of the quoted IP header. -/
def eip : ℕ := hlen p.buf + 8

/-- The length of the quoted IP header. -/
def ehlen : ℕ := (u8 p.buf (eip p) &&& 15) * 4

/-- The offset of the header behind the quoted IP header. -/
def inner : ℕ := eip p + ehlen p

/-- The number of a UDP probe: its checksum in paris mode, unless that is too large, and otherwise
its port. -/
def udpSeq : ℕ :=
  if s.opt.parismod ≠ 0 then
    let seq := u16 p.buf (inner p + 6)
    if seq > s.seq then s.seq else seq
  else (u16 p.buf (inner p + 2) + 2 ^ 32 - basePort) % 2 ^ 32

/-- The quoted TCP segment is for this measurement. -/
def quotesTcp : Bool :=
  inner p + 8 ≤ p.nrecv && srcBasePort ≤ u16 p.buf (inner p) &&
    u16 p.buf (inner p) < srcBasePort + tabsiz && u32 p.buf (inner p + 4) >>> 16 == s.index &&
    !s.sin6.inet6 && s.opt.doTcp && s.busy

/-- The quoted UDP datagram is for this measurement. -/
def quotesUdp : Bool :=
  inner p + 8 ≤ p.nrecv && u16 p.buf (inner p) == srcBasePort + s.index && !s.sin6.inet6 &&
    !s.opt.doIcmp && s.busy

/-- An identifier is for this measurement. -/
def idForUs (id : ℕ) : Bool :=
  id >>> trtIcmp4InstanceIdShift == host.instanceId && id &&& 0xfff < tabsiz &&
    id &&& 0xfff == s.index && !s.sin6.inet6

/-- The quoted ICMP message is for this measurement. -/
def quotesIcmp : Bool :=
  inner p + 8 ≤ p.nrecv && u8 p.buf (inner p) == 8 && u8 p.buf (inner p + 1) == 0 &&
    idForUs host tabsiz s (u16 p.buf (inner p + 4)) && s.opt.doIcmp && s.busy

/-- The branch for the quoted packet, and the number of the probe; nothing if the packet is not for
this measurement. -/
def quote4 : Option (Branch × ℕ) :=
  if p.nrecv < inner p ∨ u8 p.buf (eip p) &&& 15 < 5 then none
  else if u8 p.buf (eip p + 9) = 6 then
    if quotesTcp tabsiz p s then some (tcpBranch, u32 p.buf (inner p + 4) &&& 0xffff) else none
  else if u8 p.buf (eip p + 9) = 17 then
    if quotesUdp p s then some (udpBranch, udpSeq p s) else none
  else if u8 p.buf (eip p + 9) = 1 then
    if quotesIcmp host tabsiz p s then some (icmpBranch, u16 p.buf (inner p + 6)) else none
  else none

/-- The text for the code of a destination unreachable message. -/
def unreachText4 (b : Branch) (code nextmtu : ℕ) : Bytes :=
  let err := fun (name : String) => ascii ", " ++ key "err" ++ quoted (ascii name)
  match code with
  | 0 => err "N"
  | 1 => err "H"
  | 2 => err "P"
  | 3 => b.portText
  | 4 => numberText "mtu" nextmtu
  | 13 => err "A"
  | code => numberText "err" code

/-- What an ICMP error says about the hop. -/
def noteError4 (b : Branch) (v : Verdict) (type code nextmtu : ℕ) : State :=
  let s := s.respond v
  if type = icmpTimeExceeded then
    if v = .current ∨ v = .dup ∧ b.dupNotDone then { s with notDone := true } else s
  else if v = .late then s
  else if code = icmpUnreachNeedfrag then
    { (s.limit b.headers nextmtu).arrive with notDone := true }
  else s.arrive

/-- The text for the extensions of an ICMP error. -/
def multiText4 : Bytes :=
  let prefixlen := (u16 p.buf (hlen p.buf + 4) &&& 0xff) * 4
  if prefixlen ≠ 0 then
    let offset := hlen p.buf + 8 + prefixlen
    if p.nrecv > offset then doIcmpMulti p.buf offset (p.nrecv - offset) false else []
  else if p.nrecv > hlen p.buf + 8 + 128 then
    doIcmpMulti p.buf (hlen p.buf + 8 + 128) (p.nrecv - (hlen p.buf + 8 + 128)) true
  else []

/-- The members for the quoted packet. -/
def quotedText4 : Bytes :=
  (if u8 p.buf (eip p + 8) ≠ 1 then numberText "ittl" (u8 p.buf (eip p + 8)) else []) ++
  (if u8 p.buf (eip p + 1) ≠ 0 ∨ s.opt.tos ≠ 0 then
    numberText "itos" (u8 p.buf (eip p + 1)) else []) ++
  (if bytesAt p.buf (eip p + 16) 4 ≠ s.sin6.addr then
    line (ascii ", " ++ key "edst" ++ quoted (inetNtoa p.buf (eip p + 16))) else [])

/-- The text for an ICMP error. -/
def errorText4 (b : Branch) (v : Verdict) (seq : ℕ) : Bytes :=
  verdictText s seq b.dupText v ++ fromText v (inetNtoa (fun i => p.remote.getD i 0) 0) ++
    ttlSizeText (u8 p.buf 8) (p.nrecv - 20 - 8) ++
    (if v = .late then [] else rttText (host.millis io.now s.xmitTime)) ++ quotedText4 p s ++
    (if u8 p.buf (hlen p.buf) = icmpDestUnreach then
      unreachText4 b (u8 p.buf (hlen p.buf + 1)) (u16 p.buf (hlen p.buf + 6)) else []) ++
    multiText4 p

/-- An ICMP error for the probe with number `seq`. -/
def errorReply4 (b : Branch) (seq : ℕ) : State :=
  let v := verdict s seq
  handleReply host io v (fun s => errorText4 host io p s b v seq)
    (fun s => noteError4 s b v (u8 p.buf (hlen p.buf)) (u8 p.buf (hlen p.buf + 1))
      (u16 p.buf (hlen p.buf + 6))) s

/-! ### Echo replies -/

/-- The echo reply is for this measurement. -/
def echoForUs4 : Bool :=
  u8 p.buf (hlen p.buf + 1) == 0 && idForUs host tabsiz s (u16 p.buf (hlen p.buf + 4)) && s.busy

/-- An echo reply to the probe with number `seq`; the destination has answered, however late. -/
def echoReply4 (seq : ℕ) : State :=
  let v := verdict s seq
  let text := fun s => verdictText s seq (key "dup" ++ ascii "true") v ++
    fromText v (inetNtoa (fun i => p.remote.getD i 0) 0) ++
    ttlSizeText (u8 p.buf 8) (p.nrecv - 20 - 8) ++
    (if u8 p.buf 1 ≠ 0 ∨ s.opt.tos ≠ 0 then numberText "tos" (u8 p.buf 1) else []) ++
    (if v = .late then [] else rttText (host.millis io.now s.xmitTime))
  handleReply host io v text .arrive s

/-! ### The callbacks -/

/-- What a packet is for this measurement: an ICMP error or an echo reply, for a probe. -/
inductive Reply4
  | error (b : Branch) (seq : ℕ)
  | echo (seq : ℕ)

/-- Find out what the packet is; nothing if it is not for this measurement. -/
def reply4 : Option Reply4 :=
  if p.nrecv < hlen p.buf + 8 ∨ u8 p.buf 0 &&& 15 < 5 then none
  else if u8 p.buf (hlen p.buf) = icmpTimeExceeded ∨ u8 p.buf (hlen p.buf) = icmpDestUnreach then
    (quote4 host tabsiz p s).map fun x => .error x.1 x.2
  else if u8 p.buf (hlen p.buf) = 0 then
    if echoForUs4 host tabsiz p s then some (.echo (u16 p.buf (hlen p.buf + 6))) else none
  else none

/-- `ready_callback4` -/
def readyCallback4 : State :=
  match reply4 host tabsiz p s with
  | none => s
  | some (.error b seq) => errorReply4 host io p s b seq
  | some (.echo seq) => echoReply4 host io p s seq

/-- The number of 32-bit words in the TCP header. -/
def doff4 : ℕ := u8 p.buf (hlen p.buf + 12) >>> 4

/-- The segment is complete, and for this measurement. -/
def segment4 : Bool :=
  hlen p.buf + 20 ≤ p.nrecv && 5 ≤ u8 p.buf 0 &&& 15 && hlen p.buf + doff4 p * 4 ≤ p.nrecv &&
    5 ≤ doff4 p && tcpForUs tabsiz p s false (hlen p.buf)

/-- `ready_tcp4` -/
def readyTcp4 : State :=
  if segment4 tabsiz p s then
    tcpReply host io p s (hlen p.buf) (doff4 p * 4) (inetNtoa (fun i => p.remote.getD i 0) 0)
      (u8 p.buf 8) (p.nrecv - 20 - 20) (u8 p.buf 1)
  else s

end Callback

end AtlasProbe.Traceroute
