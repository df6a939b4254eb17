import AtlasProbe.Traceroute.State

/-!
# Sending a probe

`send_pkt` ends a hop when all its probes have been sent, and the measurement after the last hop;
otherwise it sends the next probe (`transmit`).  The number of the probe and the index of the
measurement are put in different places of the packet, depending on the protocol (`prepare`).
-/

namespace AtlasProbe.Traceroute

open Wire Checksum Measurement

/-! ### Packets -/

/-- The text in the data of a probe. -/
def idText : Bytes := ascii "http://atlas.ripe.net Atlas says Hi!"

/-- The rest of the data: the text and zeros. -/
def filler (n : ℕ) : Bytes := (idText ++ List.replicate n 0).take n

/-- `struct v4_ph` -/
def v4Ph (src dst : Sockaddr) (proto : UInt8) (len : ℕ) : Bytes :=
  src.addr ++ dst.addr ++ [0, proto] ++ be16 len

/-- `struct v6_ph` -/
def v6Ph (src dst : Sockaddr) (nxt : UInt8) (len : ℕ) : Bytes :=
  src.addr ++ dst.addr ++ be32 len ++ [0, 0, 0, nxt]

/-- A TCP header with the flag `SYN`. -/
def tcpHeader (src dst : Sockaddr) (seq sum : ℕ) : Bytes :=
  be16 src.port ++ be16 dst.port ++ be32 seq ++ be32 0 ++ [80, 2] ++ be16 0 ++ be16 sum ++ be16 0

/-- A UDP header. -/
def udpHeader (src dst : Sockaddr) (len sum : ℕ) : Bytes :=
  be16 src.port ++ be16 dst.port ++ be16 len ++ be16 sum

section Packets

variable (host : Host) (io : Io) (s : State)

/-- The sequence number of a TCP probe: the index and the number of the probe. -/
def tcpSeq : ℕ := s.index <<< 16 ||| s.seq

/-- A TCP segment over IPv4 or IPv6. -/
def tcpPacket : Bytes :=
  let ph := fun len => if s.sin6.inet6 then v6Ph s.locSin6 s.sin6 6 len
    else v4Ph s.locSin6 s.sin6 6 len
  let packet := fun sum => tcpHeader s.locSin6 s.sin6 (tcpSeq s) sum ++ filler s.curpacksize
  let sum := complement (wordSum (ph (20 + s.curpacksize)) + wordSum (packet 0))
  packet sum

/-- The identifier of an ICMP probe over IPv4. -/
def icmpId : ℕ := s.index ||| host.instanceId <<< trtIcmp4InstanceIdShift

/-- An ICMP echo request over IPv4.  In paris mode the first word of the data makes `paris` the
checksum. -/
def icmp4Packet : Bytes :=
  let packet := fun sum data => [8, 0] ++ be16 sum ++ be16 (icmpId host s) ++ be16 s.seq ++
    be16 data ++ filler (s.curpacksize - 2)
  let data := if s.opt.parismod ≠ 0 then fudge (wordSum (packet 0 0)) s.paris else 0
  packet (cksum (packet 0 data)) data

/-- `struct v6info`, which has two bytes that are not written. -/
def v6info (fuzz : ℕ) (pad : Bytes) : Bytes :=
  be16 fuzz ++ pad ++ be32 host.myPid ++ be32 s.index ++ be32 s.seq ++ host.timespecBytes s.xmitTime

/-- An ICMP echo request over IPv6.  The kernel puts in the checksum; in paris mode the first word
of the data makes it `paris + 1`. -/
def icmp6Packet : Bytes :=
  let packet := fun fuzz => [128, 0] ++ be16 0 ++ be16 host.myPid ++ be16 s.seq ++
    v6info host s fuzz (bytesAt io.packet 10 2) ++ filler (s.curpacksize - v6infoSize)
  let ph := v6Ph s.locSin6 s.sin6 58 (8 + s.curpacksize)
  let fuzz := if s.opt.parismod ≠ 0 then
    fudge (wordSum ph + wordSum (packet 0)) ((s.paris + 1) % 65536) else 0
  packet fuzz

/-- The data of a UDP probe over IPv6. -/
def udp6Data : Bytes :=
  v6info host s 0 (bytesAt io.packet 2 2) ++ filler (s.curpacksize - v6infoSize)

/-- The data of a UDP probe over IPv4.  Its first word makes the number of the probe the checksum in
paris mode, and otherwise the index and one. -/
def udp4Data : Bytes :=
  let data := fun word => be16 word ++ filler (s.curpacksize - 2)
  let len := 8 + s.curpacksize
  let val := if s.opt.parismod ≠ 0 then s.seq else (s.index + 1) % 65536
  data (fudge (wordSum (v4Ph s.locSin6 s.sin6 17 len) +
    wordSum (udpHeader s.locSin6 s.sin6 len 0) + wordSum (data 0)) val)

/-- The destination port of a UDP probe. -/
def udpPort : ℕ := (basePort + if s.opt.parismod ≠ 0 then s.paris else s.seq) % 65536

/-- Make room for the data that the probe needs. -/
def State.atLeast (len : ℕ) : State := { s with curpacksize := max s.curpacksize len }

/-- Set the destination port. -/
def State.setPort : State := { s with sin6 := { s.sin6 with port := udpPort s } }

/-- Make the packet, which changes the packet size, the destination port and, in paris mode, a
number that is zero. -/
def prepare : Proto → State × Bytes
  | .tcp => (s, tcpPacket s)
  | .icmp =>
    if s.sin6.inet6 then
      let s := s.atLeast v6infoSize
      (s, icmp6Packet host io s)
    else
      let s := s.atLeast 2
      (s, icmp4Packet host s)
  | .udp =>
    let s := s.setPort
    if s.sin6.inet6 then
      let s := s.atLeast v6infoSize
      (s, udp6Data host io s)
    else
      let s := s.atLeast 2
      let s := if s.opt.parismod ≠ 0 ∧ s.seq = 0 then { s with seq := 1 } else s
      (s, udp4Data s)

end Packets

/-! ### `send_pkt` -/

section Send

variable (host : Host) (io : Io) (s : State)

/-- The end of a text that reports an error instead of a probe. -/
def errorText (text : Bytes) : Bytes :=
  line ((if s.sent ≠ 0 then ascii " \x7d, " else []) ++ ascii "\x7b " ++ key "error" ++
    quoted text ++ ascii " \x7d ] \x7d")

/-- A call has failed, and the measurement ends. -/
def sendFailed (text : Bytes) : State := report host io (s.addStr (errorText s text))

/-- The error of `set_tos`. -/
def tosText (inet6 : Bool) : Bytes :=
  ascii "setting " ++ (if inet6 then ascii "traffic class" else ascii "ToS") ++ ascii " failed"

/-- A probe has been sent, or is taken for one that has been sent: wait for the answer. -/
def launched : State :=
  let s := s.addStr ((if s.openResult then ascii " \x7d, " else []) ++ ascii "\x7b ")
  { s with openResult := false, sent := s.sent + 1 }.evtimerAdd s.opt.timeout

/-- `EACCES`, `EMSGSIZE` and `ECONNREFUSED` -/
def eacces : ℕ := 13

@[inherit_doc eacces]
def emsgsize : ℕ := 90

@[inherit_doc eacces]
def econnrefused : ℕ := 111

/-- The errors of `sendto` after which the measurement goes on. -/
def tolerated (inet6 : Bool) (proto : Proto) (e : ℕ) : Bool :=
  e = emsgsize ∨ inet6 ∧ proto ≠ .icmp ∧ (e = eacces ∨ e = econnrefused)

/-- The error number in the message: over IPv4 the one after the socket has been closed. -/
def sendErrno (inet6 : Bool) (proto : Proto) (e : ℕ) : ℕ :=
  if !inet6 ∧ proto ≠ .icmp then io.errno else e

/-- The probe that a state and a packet give. -/
def State.probe (proto : Proto) (data : Bytes) : Probe :=
  ⟨s.seq, s.hop, proto, s.locSin6, s.sin6, data⟩

/-- A probe goes out. -/
def State.emit (probe : Probe) : State := { s with acts := s.acts ++ [.sent probe] }

/-- Make a packet and send it. -/
def sendProbe (proto : Proto) : State :=
  let t := (prepare host io s proto).1
  match io.sendto with
  | none => launched (t.emit (t.probe proto (prepare host io s proto).2))
  | some e =>
    if tolerated t.sin6.inet6 proto e then launched t
    else sendFailed host io t
      (ascii "sendto failed: " ++ host.strerror (sendErrno io t.sin6.inet6 proto e))

/-- The protocol of the probes. -/
def Options.proto (o : Options) : Option Proto :=
  if o.doTcp then some .tcp
  else if o.doIcmp then some .icmp
  else if o.doUdp then some .udp
  else none

/-- The number and the time of the next probe. -/
def State.count : State := { s with seq := (s.seq + 1) % 65536, xmitTime := io.xmit }

/-- The next probe; other than for ICMP there is a new socket for it. -/
def transmit : State :=
  let s := s.count io
  match s.opt.proto with
  | none => launched s
  | some .icmp => sendProbe host io s .icmp
  | some proto =>
    if s.opt.tos ≠ 0 ∧ !io.setTos then sendFailed host io s (tosText s.sin6.inet6)
    else
      match io.bind with
      | some e => sendFailed host io s (ascii "bind failed: " ++ host.strerror e)
      | none => sendProbe host io s proto

/-- The text of a new hop. -/
def State.openHop : State :=
  { s.addStr (line (ascii ", \x7b " ++ key "hop" ++ natText s.hop ++ ascii ", " ++
      key "result" ++ ascii " [ ")) with openResult := false }

/-- The probes of a hop have been sent. -/
def State.closeHop : State := s.addStr (ascii " \x7d ] \x7d")

/-- Go on to the next hop. -/
def State.nextHop : State :=
  { s with hop := (s.hop + 1) % 256, sent := 0, done := false, notDone := false }

/-- Go on to the last hop. -/
def State.lastDitch : State := { s with lastditch := true, hop := 255 }

/-- No answer to the next probe yet. -/
def State.unanswered : State := { s with gotresp := false }

/-- `send_pkt` -/
def sendPkt : State :=
  let s := s.unanswered
  if s.opt.trtcount ≤ s.sent then
    let s := s.closeHop
    if s.opt.maxhops ≤ s.hop ∨ s.done ∧ !s.notDone then report host io s
    else
      let s := s.nextHop
      if s.lastResponseHop + s.opt.gaplimit < s.hop then
        if s.lastditch then report host io s else transmit host io s.lastDitch.openHop
      else transmit host io s.openHop
  else transmit host io s

end Send

end AtlasProbe.Traceroute
