import AtlasProbe.Ping.State
import AtlasProbe.Lib.Reactive
import AtlasProbe.Lib.Checksum

/-!
# Runs of a ping measurement

A measurement is started, its name is resolved, the socket is made and the first request is sent
(`pingStart`, `dnsCb`, `pingXmit`).  From then on packets and timeouts drive it (`step`).  When the
timer expires after the last request the result is written.
-/

namespace AtlasProbe.Ping

open Wire Checksum Measurement

/-! ### Requests -/

section Requests

variable (env : Env) (io : Io) (s : State)

/-- The size of the data: there is room for `struct evdata`, and it fits the buffer. -/
def State.fitSize : State :=
  { s with cursize := min (max s.cursize evdataSize) (maxDataSize - icmpMinlen) }

/-- The state in which a request is made. -/
def State.prepared : State := { s.fitSize with locSin6 := io.sockname }

/-- The text with the number of the probe. -/
def probeIdLine : Bytes :=
  match io.probeId with
  | none => ascii "RIPE Atlas probe <unknown>"
  | some id => ascii "RIPE Atlas probe " ++ natText id

/-- `struct evdata` and what follows it.  The index is in the order of the host, which reads it back
in the same order. -/
def evdata : Bytes :=
  env.timespecBytes io.now ++ be32 s.index ++ s.cookie ++ List.replicate 4 0 ++
    ((if s.opt.includeProbeId then snprintf 80 (probeIdLine io) else []) ++
      List.replicate (s.cursize - evdataSize) 0).take (s.cursize - evdataSize)

/-- `fmticmp4`; the identifier is in the order of the host. -/
def fmticmp4 : Bytes :=
  let packet := fun sum => [8, 0] ++ be16 sum ++ be16 (env.myPid &&& 0x0fff) ++ be16 s.seq ++
    evdata env io s
  packet (cksum (packet 0))

/-- `fmticmp6`; the kernel puts in the checksum. -/
def fmticmp6 : Bytes :=
  [128, 0] ++ be16 0 ++ be16 (env.myPid &&& 0xffff) ++ be16 s.seq ++ evdata env io s

/-- The request for the family of the address. -/
def request : Bytes := if s.sin6.inet6 then fmticmp6 env io s else fmticmp4 env io s

/-- A request has been given to the kernel. -/
def State.sent : State :=
  { s with
    sentpkts := s.sentpkts + 1
    acts := s.acts ++ [.sendto s.seq (request env io s) io.sendto] }

/-- `sendto` has failed. -/
def State.failed : State := { s with sendError := true }

/-- The end of the measurement, when all requests have been sent. -/
def finish : State :=
  let s := pingCbDone env io s s.cursize s.rcvdTtl
  s.callDone s.error

/-- The next request. -/
def transmit : State :=
  let s := (s.prepared io).sent env io
  let s := match io.sendto with
    | none => s
    | some errno => pingCbSendto env s.failed errno
  s.evtimerAdd

/-- `ping_xmit` -/
def pingXmit : State := if s.sentpkts ≥ s.maxpkts then finish env io s else transmit env io s

/-- The sequence number of the next request. -/
def State.nextSeq : State := { s with seq := (s.seq + 1) % 256 }

/-- There was no reply to the last request, unless there was a reply or an error before. -/
def State.missed : State :=
  if !s.gotReply && !s.sendError then (pingCbTimeout env s).nextSeq else s

/-- `noreply_callback` -/
def noreplyCallback : State := pingXmit env io (s.missed env)

end Requests

/-! ### Packets -/

/-- A packet that was received: the contents of `base->packet`, of which `nrecv` bytes belong to the
packet, and for IPv6 the hop limit and the destination address, if the kernel reports them. -/
structure Packet where
  buf : ℕ → UInt8
  nrecv : ℕ
  nrecv_le : nrecv ≤ maxDataSize
  hoplimit : Option ℕ
  pktinfo : Option Bytes

/-- What an ICMP message for the measurement is. -/
inductive Kind
  | request
  | reply
  | other
  deriving DecidableEq

section Packets

variable (env : Env) (io : Io) (p : Packet) (s : State)

/-- The message with its ICMP header at `i` carries the identifier, and behind the header the index
and the cookie of the measurement. -/
def forUs (mask i : ℕ) : Bool :=
  u16 p.buf (i + 4) == env.myPid &&& mask && u32 p.buf (i + 8 + 16) == s.index &&
    bytesAt p.buf (i + 8 + 20) 8 == s.cookie

/-- The kind of a message by its type. -/
def kindOf (request reply type : ℕ) : Kind :=
  if type = request then .request else if type = reply then .reply else .other

/-- The kind of a message over IPv4; nothing if the packet is not for this measurement. -/
def message4 : Option Kind :=
  if p.nrecv < hlen p.buf + icmpMinlen + evdataSize ∨ u8 p.buf 0 &&& 15 < 5 then none
  else if forUs env p s 0x0fff (hlen p.buf) then some (kindOf 8 0 (u8 p.buf (hlen p.buf)))
  else none

/-- The kind of a message over IPv6; nothing if the packet is not for this measurement. -/
def message6 : Option Kind :=
  if p.nrecv < icmpMinlen + evdataSize then none
  else if forUs env p s 0xffff 0 then some (kindOf 128 129 (u8 p.buf 0))
  else none

/-- The time since the request was sent, in nanoseconds, as the data of the reply say. -/
def elapsed (now ts : Timespec) : ℤ :=
  if now.nsec < ts.sec then (now.sec - ts.sec - 1) * 10 ^ 9 + (now.nsec + 10 ^ 9 - ts.nsec)
  else (now.sec - ts.sec) * 10 ^ 9 + (now.nsec - ts.nsec)

/-- The time in the data of a message with its header at `i`. -/
def sentAt (i : ℕ) : Timespec := env.timespecOf (bytesAt p.buf (i + 8) 16)

/-- The sequence number of a message with its header at `i`. -/
def seqAt (i : ℕ) : ℕ := u16 p.buf (i + 6)

/-- The hop limit of the last reply. -/
def State.received (ttl : ℕ) : State := { s with rcvdTtl := ttl }

/-- There has been a reply. -/
def State.answered : State := { s with gotReply := true }

/-- An echo reply over IPv4. -/
def reply4 : State :=
  let s := s.received (u8 p.buf 8)
  let dup : Bool := seqAt p (hlen p.buf) ≠ s.seq
  let s := pingCbReply env s dup (p.nrecv - iphdr - icmpMinlen)
    (some ⟨false, bytesAt p.buf 16 4, 0⟩) (u8 p.buf 8) (elapsed io.now (sentAt env p (hlen p.buf)))
  if dup then s else s.answered.nextSeq

/-- An echo reply over IPv6; the sequence number goes on for a duplicate as well. -/
def reply6 : State :=
  let s := s.received (p.hoplimit.getD s.rcvdTtl)
  let dup : Bool := seqAt p 0 ≠ s.seq
  let s := (pingCbReply env s dup (p.nrecv - icmpMinlen)
    (p.pktinfo.map fun addr => ⟨true, addr, 0⟩) s.rcvdTtl (elapsed io.now (sentAt env p 0))).nextSeq
  if dup then s else s.answered

/-- `ready_callback4` -/
def readyCallback4 : State :=
  match message4 env p s with
  | none | some .request => s
  | some .reply => reply4 env io p s
  | some .other => noreplyCallback env io s

/-- `ready_callback6` -/
def readyCallback6 : State :=
  match message6 env p s with
  | none | some .request => s
  | some .reply => reply6 env io p s
  | some .other => noreplyCallback env io s

end Packets

/-! ### The start -/

/-- What the calls of `ping_start2` return. -/
structure SocketIo where
  socket : Option ℕ
  bindInterface : Bool
  connect : Option ℕ
  sockname : Option Sockaddr

section Start

variable (env : Env) (io : Io)

/-- The socket cannot be set up, and the measurement ends. -/
def setupFailed (s : State) (text : Bytes) : State :=
  (report env io { s with result := s.result ++ snprintf 80 (ascii "\x7b " ++ key "error" ++
    quoted text ++ ascii " \x7d") }).callDone true

/-- The variables at the start. -/
def State.restart (s : State) : State :=
  { s with
    sentpkts := 0
    cursize := s.opt.maxsize
    sendError := false
    gotReply := false
    noDst := false
    noSrc := false
    error := false }

/-- The socket is there, and replies are waited for. -/
def State.opened (sockname : Option Sockaddr) (s : State) : State :=
  { s with locSin6 := sockname, reading := true }

/-- `ping_start2` -/
def pingStart2 (sio : SocketIo) (s : State) : State :=
  let s := s.restart
  match sio.socket with
  | some e => setupFailed env io s (ascii "socket failed: " ++ env.strerror e)
  | none =>
    if s.opt.interface && !sio.bindInterface then
      setupFailed env io s (ascii "bind to interface failed")
    else
      match sio.connect with
      | some e => setupFailed env io s (ascii "connect failed: " ++ env.strerror e)
      | none => pingXmit env io (s.opened sio.sockname)

/-- The name resolution has ended. -/
def State.resolved (ttr : Bytes) (s : State) : State := { s with ttr := ttr, dnsip := false }

/-- The address to send to. -/
def State.setAddr (sin6 : Sockaddr) (s : State) : State := { s with sin6 := sin6 }

/-- `dns_cb`; the second call of `ping_cb` for an error finds that the measurement has ended. -/
def dnsCb (ttr : Bytes) (r : DnsResult) (sio : SocketIo) (s : State) : State :=
  if !s.dnsip then s
  else
    let s := s.resolved ttr
    match r with
    | .failed message =>
      (pingCbDone env io (pingCbDns env io s message) s.opt.maxsize 0).callDone true
    | .resolved sin6 allowed =>
      let s := s.setAddr sin6
      if allowed then pingStart2 env io sio s
      else (pingCbDone env io (pingCbBadAddr env io s) s.opt.maxsize 0).callDone true
    | .noAddr => (pingCbNoAddr s).callDone true

/-- The variables of a new run. -/
def State.started (s : State) : State :=
  { s with
    result := []
    first := true
    gotReply := false
    noDst := true
    busy := true
    maxpkts := s.opt.pingcount }

/-- The name is being resolved. -/
def State.resolving (s : State) : State := { s with dnsip := true }

/-- `ping_start` -/
def pingStart (sio : SocketIo) (s : State) : State :=
  if s.busy then s
  else
    let s := s.started
    if s.opt.delayNameRes then s.resolving else pingStart2 env io sio s

/-! ### Events -/

/-- What happens to a measurement. -/
inductive Event
  | start (sio : SocketIo)
  | dns (ttr : Bytes) (r : DnsResult) (sio : SocketIo)
  | packet (p : Packet)
  | timeout

/-- The timer has expired. -/
def State.expired (s : State) : State := { s with timer := false }

/-- An event is handled, if it is waited for. -/
def step (s : State) : Event × Io → State
  | (.start sio, io) => pingStart env io sio s
  | (.dns ttr r sio, io) => dnsCb env io ttr r sio s
  | (.packet p, io) =>
    if s.reading then
      if s.opt.inet6 then readyCallback6 env io p s else readyCallback4 env io p s
    else s
  | (.timeout, io) => if s.timer then noreplyCallback env io s.expired else s

end Start

/-- The state behind `ping_init`. -/
def initState (opt : Options) (index : ℕ) (cookie : Bytes) (sin6 : Sockaddr) : State where
  opt := opt
  index := index
  cookie := cookie
  sin6 := sin6
  locSin6 := none
  busy := false
  gotReply := false
  first := false
  noDst := false
  noSrc := false
  error := false
  ttl := 0
  size := 0
  result := []
  maxpkts := 0
  seq := 1
  rcvdTtl := 0
  dnsip := false
  sendError := false
  ttr := ascii "0.000000"
  cursize := 0
  sentpkts := 0
  timer := false
  reading := false
  acts := []

/-! ### A plain measurement -/

/-- An environment in which every text is plain. -/
def plainEnv : Env := { plainHost with millis6 := fun _ => ascii "0.000000" }

/-- The options of a measurement over IPv4. -/
def plainArgs (count : ℕ) : Args where
  v4 := true
  stub := false
  probeId := false
  count := count
  size := 0
  atlas := none
  bundle := none
  outOk := true
  interval := 1000
  interface := false
  hostname := plainName

/-- The options as they are stored. -/
def plainOptions (count : ℕ) : Options := (pingInit (plainArgs count) none).get rfl

/-- No call fails. -/
def plainIo : Io := ⟨⟨0, 0⟩, none, none, none, 0, 0⟩

/-- The socket is made. -/
def plainSocket : SocketIo := ⟨none, true, none, none⟩

/-- The measurement before its first run. -/
def plainState (count : ℕ) : State :=
  initState (plainOptions count) 0 (List.replicate 8 0) plainAddr

/-- The name is resolved. -/
def plainDns : Event × Io :=
  (.dns (ascii "0.000000") (.resolved plainAddr true) plainSocket, plainIo)

/-- The bytes of an ICMP message for the measurement, over IPv4. -/
def plainMessage (type : UInt8) (seq : ℕ) : Bytes :=
  plainIpHeader 1 ++ [type, 0, 0, 0, 0, 1] ++ be16 seq ++ List.replicate 32 0

/-- An ICMP message for the measurement. -/
def plainPacket (type : UInt8) (seq : ℕ) : Event × Io :=
  (.packet ⟨fun i => (plainMessage type seq).getD i 0, 60, by decide, none, none⟩, plainIo)

end AtlasProbe.Ping
