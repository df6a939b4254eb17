import AtlasProbe.Traceroute.Reply

/-!
# Replies over IPv6

`ready_callback6` is called for every ICMPv6 packet, and `ready_tcp6` for every TCP segment.  The
kernel has taken off the IPv6 header.  The packet that an error quotes may have extension headers;
the index of the measurement and the number of the probe are in its data, or in the sequence number
of TCP.
-/

namespace AtlasProbe.Traceroute

open Wire Measurement

/-! ### The quoted packet -/

/-- `ICMP6_DST_UNREACH` -/
def icmp6DstUnreach : ℕ := 1

/-- `ICMP6_PACKET_TOO_BIG` -/
def icmp6PacketTooBig : ℕ := 2

/-- `ICMP6_TIME_EXCEEDED` -/
def icmp6TimeExceeded : ℕ := 3

/-- The place behind the extension headers that have been passed: the type of the next header, its
offset, and the sizes of the options. -/
structure Cursor where
  nxt : ℕ
  ptr : ℕ
  hbhoptsize : ℕ
  dstoptsize : ℕ

section Quote

variable (p : Packet)

/-- Pass an options header: its size without the first eight bytes, and the place behind it; nothing
if it is not complete. -/
def passOptions (c : Cursor) : Option (ℕ × Cursor) :=
  let size := 8 * u8 p.buf (c.ptr + 1)
  if c.ptr + 2 > p.nrecv then none
  else if c.ptr + (size + 8) > p.nrecv then none
  else some (size, { c with nxt := u8 p.buf c.ptr, ptr := c.ptr + (size + 8) })

/-- Pass the hop-by-hop options, if there are any. -/
def passHopopts (c : Cursor) : Option Cursor :=
  if c.nxt = 0 then (passOptions p c).map fun x => { x.2 with hbhoptsize := x.1 } else some c

/-- Pass a fragment header, if there is one; nothing if it is not the one of the first fragment. -/
def passFragment (c : Cursor) : Option Cursor :=
  if c.nxt = 44 then
    if c.ptr + 8 > p.nrecv then none
    else if u16 p.buf (c.ptr + 2) &&& 0xfffc ≠ 0 then none
    else some { c with nxt := u8 p.buf c.ptr, ptr := c.ptr + 8 }
  else some c

/-- Pass the destination options, if there are any. -/
def passDstopts (c : Cursor) : Option Cursor :=
  if c.nxt = 60 then (passOptions p c).map fun x => { x.2 with dstoptsize := x.1 } else some c

/-- The headers that may follow the quoted IPv6 header. -/
def knownHeader (nxt : ℕ) : Bool := nxt ∈ [44, 0, 60, 6, 17, 58]

/-- The header behind the quoted IPv6 header and its extension headers; nothing if the packet does
not have all of it. -/
def innerHeader : Option Cursor :=
  if p.nrecv < 8 + 40 then none
  else if knownHeader (u8 p.buf 14) then
    (passHopopts p ⟨u8 p.buf 14, 48, 0, 0⟩).bind fun c =>
      (passFragment p c).bind fun c =>
        (passDstopts p c).bind fun c =>
          let siz := if c.nxt = 6 then 20 else 8
          let v6infoSiz := if c.nxt = 6 then 0 else v6infoSize
          if c.ptr + siz + v6infoSiz > p.nrecv then none else some c
  else none

end Quote

section Callback

variable (host : Host) (tabsiz : ℕ) (io : Io) (p : Packet) (s : State)

/-- The `struct v6info` at `i` is from this process, and for this measurement. -/
def infoForUs (i : ℕ) : Bool := u32 p.buf (i + 4) == host.myPid && u32 p.buf (i + 8) == s.index

/-- The quoted packet is for this measurement. -/
def quotes6 (c : Cursor) : Bool :=
  (if c.nxt = 6 then u32 p.buf (c.ptr + 4) >>> 16 == s.index && s.opt.doTcp
    else infoForUs host p s (c.ptr + 8) && if c.nxt = 17 then s.opt.doUdp else s.opt.doIcmp) &&
  s.sin6.inet6 && s.busy

/-- The place of the quoted packet, and the number of the probe; nothing if the packet is not for
this measurement. -/
def quote6 : Option (Cursor × ℕ) :=
  (innerHeader p).bind fun c =>
    if quotes6 host p s c then
      some (c, if c.nxt = 6 then u32 p.buf (c.ptr + 4) &&& 0xffff else u32 p.buf (c.ptr + 8 + 12))
    else none

/-- The time that is reported, with the one in the `struct v6info` at `i` for a late packet. -/
def infoMillis (v : Verdict) (i : ℕ) : Millis :=
  if v = .late then host.millis io.now (host.timespecOf (bytesAt p.buf (i + 16) 16))
  else host.millis io.now s.xmitTime

/-- The time that is reported for the quoted packet; a late TCP segment has none. -/
def quotedMillis (v : Verdict) (c : Cursor) : Millis :=
  if c.nxt = 6 ∧ v = .late then minus42 else infoMillis host io p s v (c.ptr + 8)

/-- The members for the hop limit, the time and the size. -/
def ttlRttSizeText (ms : Millis) : Bytes :=
  line (ascii ", " ++ key "ttl" ++ intText p.rcvdttl.toInt ++ ascii ", " ++ key "rtt" ++ ms.text ++
    ascii ", " ++ key "size" ++ intText (p.nrecv - 8))

/-- The members for the quoted packet. -/
def quotedText6 (c : Cursor) : Bytes :=
  let tos := u32 p.buf 8 >>> 20 &&& 0xff
  (if u8 p.buf 15 ≠ 1 then numberText "ittl" (u8 p.buf 15) else []) ++
  (if tos ≠ 0 ∨ s.opt.tos ≠ 0 then numberText "itos" tos else []) ++
  (if c.hbhoptsize ≠ 0 then numberText "hbhoptsize" c.hbhoptsize else []) ++
  (if c.dstoptsize ≠ 0 then numberText "dstoptsize" c.dstoptsize else [])

/-- The text for the code of a destination unreachable message. -/
def unreachText6 (code : ℕ) : Bytes :=
  let err := fun (name : String) => ascii ", " ++ key "err" ++ quoted (ascii name)
  match code with
  | 0 => err "N"
  | 1 => err "A"
  | 2 => err "h"
  | 3 => err "H"
  | 4 => []
  | code => numberText "err" code

/-- An unsigned number as `%d` prints it. -/
def asInt (n : ℕ) : ℤ := if n < 2 ^ 31 then n else n - 2 ^ 32

/-- The size of the headers of the quoted packet, to be subtracted from an MTU. -/
def headers6 (c : Cursor) : ℕ := 40 + if c.nxt = 6 then 20 else 8

/-- What an ICMP error says about the hop. -/
def noteError6 (c : Cursor) (v : Verdict) (type mtu : ℕ) : State :=
  let s := s.respond v
  if type = icmp6TimeExceeded then if v = .current then { s with notDone := true } else s
  else if v = .late then s
  else if type = icmp6PacketTooBig then
    { s.limit (headers6 c) (max mtu 1200) with notDone := true }
  else s.arrive

/-- The text for the extensions of an ICMP error. -/
def multiText6 : Bytes :=
  let prefixlen := u8 p.buf 4 * 8
  if prefixlen ≠ 0 then
    let offset := 8 + prefixlen
    if p.nrecv > offset then doIcmpMulti p.buf offset (p.nrecv - offset) false else []
  else if p.nrecv > 128 then
    if p.nrecv > 8 + 128 then doIcmpMulti p.buf (8 + 128) (p.nrecv - (8 + 128)) true else []
  else []

/-- The text for an ICMP error. -/
def errorText6 (c : Cursor) (v : Verdict) (seq : ℕ) : Bytes :=
  verdictText s seq (key "dup" ++ ascii "true") v ++ fromText v (host.inetNtop p.remote) ++
    ttlRttSizeText p (quotedMillis host io p s v c) ++ quotedText6 p s c ++
    (if u8 p.buf 0 = icmp6PacketTooBig then numberText "mtu" (asInt (u32 p.buf 4))
      else if u8 p.buf 0 = icmp6DstUnreach then unreachText6 (u8 p.buf 1) else []) ++
    multiText6 p

/-- An ICMP error for the probe with number `seq`. -/
def errorReply6 (c : Cursor) (seq : ℕ) : State :=
  let v := verdict s seq
  handleReply host io v (fun s => errorText6 host io p s c v seq)
    (fun s => noteError6 s c v (u8 p.buf 0) (u32 p.buf 4)) s

/-! ### Echo replies -/

/-- The echo reply is for this measurement. -/
def echoForUs6 : Bool :=
  8 + v6infoSize ≤ p.nrecv && infoForUs host p s 8 && s.sin6.inet6 && s.opt.doIcmp && s.busy

/-- What an echo reply says about the hop. -/
def noteEcho6 (v : Verdict) : State := if v = .current then (s.respond v).arrive else s

/-- An echo reply to the probe with number `seq`. -/
def echoReply6 (seq : ℕ) : State :=
  let v := verdict s seq
  let text := fun s => verdictText s seq (key "dup" ++ ascii "true") v ++
    fromText v (host.inetNtop p.remote) ++ ttlRttSizeText p (infoMillis host io p s v 8) ++
    (if p.rcvdtclass ≠ 0 ∨ s.opt.tos ≠ 0 then numberText "itos" p.rcvdtclass.toInt else [])
  handleReply host io v text (noteEcho6 · v) s

/-! ### The callbacks -/

/-- What a packet is for this measurement: an ICMP error or an echo reply, for a probe. -/
inductive Reply6
  | error (c : Cursor) (seq : ℕ)
  | echo (seq : ℕ)

/-- Find out what the packet is; nothing if it is not for this measurement. -/
def reply6 : Option Reply6 :=
  if p.nrecv < 8 then none
  else if u8 p.buf 0 ∈ [icmp6DstUnreach, icmp6PacketTooBig, icmp6TimeExceeded] then
    (quote6 host p s).map fun x => .error x.1 x.2
  else if u8 p.buf 0 = 129 then
    if echoForUs6 host p s then some (.echo (u32 p.buf (8 + 12))) else none
  else none

/-- `ready_callback6` -/
def readyCallback6 : State :=
  match reply6 host p s with
  | none => s
  | some (.error c seq) => errorReply6 host io p s c seq
  | some (.echo seq) => echoReply6 host io p s seq

/-- The number of 32-bit words in the TCP header. -/
def doff6 : ℕ := u8 p.buf 12 >>> 4

/-- The segment is complete, and for this measurement. -/
def segment6 : Bool := doff6 p * 4 ≤ p.nrecv && 5 ≤ doff6 p && tcpForUs tabsiz p s true 0

/-- `ready_tcp6` -/
def readyTcp6 : State :=
  if segment6 tabsiz p s then
    tcpReply host io p s 0 (doff6 p * 4) (host.inetNtop p.remote) p.rcvdttl.toInt (p.nrecv - 20)
      p.rcvdtclass.toInt
  else s

end Callback

end AtlasProbe.Traceroute
