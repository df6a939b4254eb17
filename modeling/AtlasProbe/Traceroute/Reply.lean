import AtlasProbe.Traceroute.Send

/-!
# What replies have in common

A packet is compared with the number of the last probe (`verdict`, `handleReply`): it may be an
answer to it, a further answer, an answer to an earlier probe, or something that cannot be an
answer.  The text of a reply has parts that describe ICMP extensions and TCP options (`doIcmpMulti`,
`reportHdropts`).
-/

namespace AtlasProbe.Traceroute

open Wire Checksum Measurement

/-- A packet that was received: the contents of `base->packet`, of which `nrecv` bytes belong to the
packet, the address that it came from, and the hop limit and the traffic class that the kernel
reports for IPv6. -/
structure Packet where
  buf : ℕ → UInt8
  nrecv : ℕ
  nrecv_le : nrecv ≤ packetSize
  remote : Bytes
  rcvdttl : Int32
  rcvdtclass : Int32

/-! ### Numbers of probes -/

/-- How a packet stands to the last probe. -/
inductive Verdict
  | future
  | late
  | dup
  | current
  deriving DecidableEq

/-- The packet does not answer the last probe for the first time. -/
def Verdict.again : Verdict → Bool
  | .late | .dup => true
  | .future | .current => false

/-- The verdict on a packet for the probe with number `seq`. -/
def verdict (s : State) (seq : ℕ) : Verdict :=
  if seq ≠ s.seq then if seq > s.seq then .future else .late
  else if s.gotresp then .dup else .current

/-- The verdict on a TCP segment that acknowledges `seq`. -/
def tcpVerdict (s : State) (seq : ℕ) : Verdict :=
  if (seq + 2 ^ 32 - s.seq) % 2 ^ 32 > 0x2000 then if seq > s.seq then .future else .late
  else if s.gotresp then .dup else .current

/-- What the verdict adds to the text. -/
def verdictText (s : State) (seq : ℕ) (dupText : Bytes) : Verdict → Bytes
  | .late => line (key "late" ++ natText (s.seq - seq))
  | .dup => dupText
  | .future | .current => []

/-- Where the packet came from. -/
def fromText (v : Verdict) (remote : Bytes) : Bytes :=
  line ((if v.again then ascii ", " else []) ++ key "from" ++ quoted remote)

/-- A member with a number. -/
def numberText (name : String) (n : ℤ) : Bytes := line (ascii ", " ++ key name ++ intText n)

/-- The members for the hop limit and the size of the packet. -/
def ttlSizeText (ttl size : ℤ) : Bytes :=
  line (ascii ", " ++ key "ttl" ++ intText ttl ++ ascii ", " ++ key "size" ++ intText size)

/-- The member for the round trip time. -/
def rttText (ms : Millis) : Bytes := line (ascii ", " ++ key "rtt" ++ ms.text)

/-- `inet_ntoa` for the address at `i` -/
def inetNtoa (buf : ℕ → UInt8) (i : ℕ) : Bytes :=
  natText (u8 buf i) ++ ascii "." ++ natText (u8 buf (i + 1)) ++ ascii "." ++
    natText (u8 buf (i + 2)) ++ ascii "." ++ natText (u8 buf (i + 3))

/-- Begin another object if there is text in the last one. -/
def State.separate (s : State) : State :=
  if s.openResult then s.addStr (ascii " \x7d, \x7b ") else s

/-- There is text in the last object. -/
def State.opened (s : State) : State := { s with openResult := true }

/-- The hop has answered. -/
def State.respond (s : State) (v : Verdict) : State :=
  if v = .current then { s with lastResponseHop := s.hop } else s

/-- The destination has answered. -/
def State.arrive (s : State) : State := { s with done := true }

/-- Make the probes small enough for an MTU. -/
def State.limit (s : State) (headers nextmtu : ℕ) : State :=
  if headers ≤ nextmtu ∧ nextmtu - headers < s.curpacksize then
    { s with curpacksize := nextmtu - headers }
  else s

/-- Wait for duplicates. -/
def State.awaitDups (s : State) : State := { s with gotresp := true }.evtimerAdd s.opt.duptimeout

/-- The end of a reply: after the first answer to the last probe, wait for duplicates or send the
next probe. -/
def finish (host : Host) (io : Io) (v : Verdict) (s : State) : State :=
  let s := s.opened
  if v = .current then
    if s.opt.duptimeout ≠ 0 then s.awaitDups else sendPkt host io s
  else s

/-- A packet for the measurement.  Unless it is for a probe that has not been sent, there is a text
for it, and what it says about the hop is noted. -/
def handleReply (host : Host) (io : Io) (v : Verdict) (text : State → Bytes)
    (note : State → State) (s : State) : State :=
  let s := s.separate
  if v = .future then s else finish host io v (note (s.addStr (text s)))

/-! ### ICMP extensions -/

section Extensions

variable (buf : ℕ → UInt8)

/-- An entry of an MPLS label stack. -/
def mplsEntry (first : Bool) (i : ℕ) : Bytes :=
  let v := u32 buf i
  snprintf 256 ((if first then [] else ascii ",") ++ ascii " \x7b " ++
    key "label" ++ natText (v >>> 12) ++ ascii ", " ++
    key "exp" ++ natText (v >>> 9 &&& 7) ++ ascii ", " ++
    key "s" ++ natText (if v &&& 0x100 ≠ 0 then 1 else 0) ++ ascii ", " ++
    key "ttl" ++ natText (v &&& 0xff) ++ ascii " \x7d")

/-- `do_mpls`, with `size / 4` entries -/
def doMpls (i size : ℕ) : Bytes :=
  ascii ", " ++ key "mpls" ++ ascii " [" ++
    (List.range (size / 4)).flatMap (fun k => mplsEntry buf (k == 0) (i + 4 * k)) ++ ascii " ]"

/-- The objects of an extension of `size` bytes at `i`, from the offset `o` on. -/
def icmpObjects (i size : ℕ) : ℕ → ℕ → Bytes
  | 0, _ => []
  | fuel + 1, o =>
    if o + 4 < size then
      let len := u16 buf (i + o)
      let cls := u8 buf (i + o + 2)
      let ctype := u8 buf (i + o + 3)
      let text := snprintf 256 ((if o = 4 then [] else ascii ",") ++ ascii " \x7b " ++
        key "class" ++ natText cls ++ ascii ", " ++ key "type" ++ natText ctype)
      if len < 4 ∨ o + len > size then text ++ ascii " \x7d"
      else
        text ++ (if cls = 1 ∧ ctype = 1 then doMpls buf (i + o + 4) (len - 4) else []) ++
          ascii " \x7d" ++ icmpObjects i size fuel (o + len)
    else []

/-- `do_icmp_multi` -/
def doIcmpMulti (i size : ℕ) (preRfc4884 : Bool) : Bytes :=
  if size < 4 then []
  else if cksum (bytesAt buf i size) ≠ 0 then []
  else
    snprintf 256 (ascii ", " ++ key "icmpext" ++ ascii " \x7b " ++
      key "version" ++ natText (u8 buf i >>> 4) ++ ascii ", " ++
      key "rfc4884" ++ natText (if preRfc4884 then 0 else 1)) ++
    ascii ", " ++ key "obj" ++ ascii " [" ++ icmpObjects buf i size size 4 ++ ascii " ] \x7d"

/-! ### TCP options -/

/-- The options from `i` up to `e`. -/
def hdropts (start e : ℕ) : ℕ → ℕ → Bytes
  | 0, _ => []
  | fuel + 1, i =>
    let comma := if i ≠ start then ascii ", " else []
    if i < e then
      if u8 buf i = 2 then
        let len := u8 buf (i + 1)
        if len < 4 ∨ i + len > e then []
        else
          line (comma ++ ascii "\x7b " ++ key "mss" ++ natText (u16 buf (i + 2)) ++ ascii " \x7d")
            ++
            hdropts start e fuel (i + len)
      else
        line (comma ++ ascii "\x7b " ++ key "unknown-opt" ++ natText (u8 buf i) ++ ascii " \x7d")
    else []

/-- `report_hdropts` -/
def reportHdropts (i e : ℕ) : Bytes :=
  ascii ", " ++ key "hdropts" ++ ascii " [ " ++ hdropts buf i e (e - i) i ++ ascii " ]"

/-- The flags of the TCP header at `i`. -/
def flagsText (i : ℕ) : Bytes :=
  let flags := u8 buf (i + 13)
  let flag := fun (bit : ℕ) (name : String) => if flags.testBit bit then ascii name else []
  line (ascii ", " ++ key "flags" ++ quoted (flag 0 "F" ++ flag 1 "S" ++ flag 2 "R" ++
    flag 3 "P" ++ flag 4 "A" ++ flag 5 "U"))

end Extensions

/-! ### TCP segments -/

section Tcp

variable (host : Host) (tabsiz : ℕ) (io : Io) (p : Packet) (s : State)

/-- Whether the TCP header at `i` is for this measurement. -/
def tcpForUs (inet6 : Bool) (i : ℕ) : Bool :=
  let myport := u16 p.buf (i + 2)
  srcBasePort ≤ myport && myport < srcBasePort + tabsiz && u32 p.buf (i + 8) >>> 16 == s.index &&
    s.sin6.inet6 == inet6 && s.opt.doTcp && s.busy

/-- What `ready_tcp4` and `ready_tcp6` do with a segment for the measurement; its header is at `i`
and has `tcpHlen` bytes. -/
def tcpReply (i tcpHlen : ℕ) (remote : Bytes) (ttl size tos : ℤ) : State :=
  let seq := u32 p.buf (i + 8) &&& 0xffff
  let v := tcpVerdict s seq
  let text := fun s => verdictText s seq (key "dup" ++ ascii "true") v ++ fromText v remote ++
    ttlSizeText ttl size ++
    (if tos ≠ 0 ∨ s.opt.tos ≠ 0 then numberText "tos" tos else []) ++
    flagsText p.buf i ++
    (if tcpHlen > 20 then reportHdropts p.buf (i + 20) (i + tcpHlen) else []) ++
    (if v = .late then [] else rttText (host.millis io.now s.xmitTime))
  handleReply host io v text .arrive s

end Tcp

end AtlasProbe.Traceroute
