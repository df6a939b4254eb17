import AtlasProbe.Ntp.Format
import AtlasProbe.Lib.Reactive

/-!
# Runs of an NTP measurement

`ntp.c` sends a number of requests to a server.  Two timers are started with each request: one for
the reply and one for the gap before the next request.  The next request is sent (`sendPkt`) when
there was a reply or its timer has expired, and the gap is over (`readyCallback`, `noreplyCallback`,
`gapCallback`).
-/

namespace AtlasProbe.Ntp

open Wire Measurement

/-! ### Options -/

/-- `NTP_PORT` -/
def ntpPort : ℕ := 123

/-- `MAX_DATA_SIZE` -/
def maxDataSize : ℕ := 4096

/-- What `getopt32` stores for the options. -/
structure Args where
  v6 : Bool
  count : ℕ
  interface : Bool
  size : ℕ
  timeout : ℕ
  gap : ℕ
  atlas : Option CString
  bundle : Option CString
  /-- The name of the output file is accepted, and the file can be opened. -/
  outOk : Bool
  hostname : CString

/-- The parameters in `struct ntpstate`; the times are in microseconds. -/
structure Options where
  atlas : Option CString
  bundle : Option CString
  hostname : CString
  interface : Bool
  doV6 : Bool
  count : ℤ
  size : ℕ
  timeout : ℕ
  gap : ℕ

/-- `ntp_init`, as far as it checks the options and stores them. -/
def ntpInit (host : Host) (a : Args) : Option Options :=
  if a.gap < 2000 ∨ a.gap > 60000 then none
  else if !a.outOk then none
  else if !a.atlas.all (validateAtlasId ·.bytes) then none
  else if !a.bundle.all (validateAtlasId ·.bytes) then none
  else if a.size > maxDataSize - headerSize then none
  else if a.size > 1184 then none
  else if 0 < a.size ∧ a.size < 28 then none
  else if a.size % 4 ≠ 0 then none
  else some
    { atlas := a.atlas
      bundle := a.bundle
      hostname := a.hostname
      interface := a.interface
      doV6 := a.v6
      count := host.toChar a.count
      size := a.size
      timeout := a.timeout * 1000 % 2 ^ 32
      gap := a.gap * 1000 % 2 ^ 32 }

/-! ### States -/

/-- What a measurement does to the outside. -/
inductive Act
  /-- A request is given to the kernel, which may return an error. -/
  | sendto (packet : Bytes) (error : Option ℕ)
  | timeoutTimer (usec : ℕ)
  | gapTimer (usec : ℕ)
  | written (text : Bytes)
  | done
  deriving DecidableEq

/-- `struct ntpstate`.  A timer, the event for the socket and the name resolution are on if they are
waited for; `acts` is what has been done, in order. -/
structure State where
  opt : Options
  sin6 : Sockaddr
  /-- There is no address before the first socket. -/
  locSin6 : Option Sockaddr
  sent : ℕ
  first : Bool
  busy : Bool
  gotresp : Bool
  dnsip : Bool
  reportDst : Bool
  starttime : ℕ
  /-- The time to resolve the name, as it is printed. -/
  ttr : Bytes
  /-- The first reply. -/
  hdr : Header
  timerTimeout : Bool
  timerGap : Bool
  result : Bytes
  openResult : Bool
  reading : Bool
  resolving : Bool
  acts : List Act

/-- What the calls return while an event is handled.  The number that `sendto` has is that of an
error. -/
structure Io where
  now : Timeval
  sendto : Option ℕ
  atlasTime : ℕ
  time : ℕ
  timesync : Int32

/-! ### `report` -/

section Report

variable (env : Env) (io : Io) (s : State)

/-- The members for the identifiers and the time. -/
def atlasText : Bytes :=
  identText env.toHost s.opt.atlas s.opt.bundle io.timesync (key "time" ++ natText s.starttime)

/-- The members for the addresses. -/
def addrsText : Bytes :=
  (if env.isNumeric s.opt.hostname.bytes then [] else ascii ", " ++ key "ttr" ++ s.ttr) ++
  (if !s.dnsip || s.reportDst then
    ascii ", " ++ key "dst_addr" ++ quoted (env.getnameinfo s.sin6) ++
      match s.locSin6 with
      | none => []
      | some loc => ascii ", " ++ key "src_addr" ++ quoted (env.getnameinfo loc)
  else [])

/-- What `report` writes. -/
def reportText : Bytes :=
  resultText (atlasText env io s) s.opt.hostname
    (addrsText env s ++ ascii ", " ++ key "proto" ++ quoted (ascii "UDP") ++
      ascii ", " ++ member "af"
        (natText (if (if s.dnsip then s.opt.doV6 else s.sin6.inet6) then 6 else 4)) ++
      if !s.first && !s.dnsip then headerText env s.hdr else [])
    s.result

/-- `report` -/
def report : State :=
  { s with
    timerTimeout := false
    timerGap := false
    result := []
    reading := false
    busy := false
    acts := s.acts ++ [.written (reportText env io s), .done] }

end Report

/-! ### Requests -/

section Requests

variable (env : Env) (io : Io) (s : State)

/-- `add_str` -/
def State.addStr (text : Bytes) : State := { s with result := s.result ++ text }

/-- The request: the header, and an extension that asks for nothing. -/
def request : Bytes :=
  [35, 0, 0, 0] ++ List.replicate 8 0 ++ ascii "RIPE" ++ List.replicate 24 0 ++
    be32 (io.now.sec + ntp1970) ++ be32 (env.fraction io.now.usec) ++
    if 0 < s.opt.size then be16 2 ++ be16 s.opt.size ++ List.replicate (s.opt.size - 4) 0 else []

/-- No reply has come for the next request. -/
def State.forgot : State := { s with gotresp := false }

/-- The request has been given to the kernel. -/
def State.transmitted : State :=
  { s with
    sin6 := { s.sin6 with port := ntpPort }
    acts := s.acts ++ [.sendto (request env io s) io.sendto] }

/-- The errors of `sendto` that end the measurement: all but `EACCES`, `ECONNREFUSED` and `EMSGSIZE`
over IPv6, and all but `EMSGSIZE` over IPv4. -/
def isFatal (inet6 : Bool) (errno : ℕ) : Bool :=
  if inet6 then errno != 13 && errno != 111 && errno != 90 else errno != 90

/-- The text for an error, which ends the list as well. -/
def sendtoFailed (errno : ℕ) : Bytes :=
  line ((if s.sent = 0 then [] else ascii " \x7d, ") ++ ascii "\x7b " ++ key "error" ++
    quoted (ascii "sendto failed: " ++ env.strerror errno) ++ ascii " \x7d ] \x7d")

/-- The entries for the request begin. -/
def State.nextResult : State :=
  { s with
    result := s.result ++ (if s.openResult then ascii " \x7d, " else []) ++ ascii "\x7b "
    openResult := false
    sent := s.sent + 1 }

/-- `evtimer_add` for both timers -/
def State.armed : State :=
  { s with
    timerTimeout := true
    timerGap := true
    acts := s.acts ++ [.timeoutTimer s.opt.timeout, .gapTimer s.opt.gap] }

/-- The next request. -/
def transmit : State :=
  let s := s.transmitted env io
  match io.sendto with
  | some errno =>
    if isFatal s.sin6.inet6 errno then report env io (s.addStr (sendtoFailed env s errno))
    else s.nextResult.armed
  | none => s.nextResult.armed

/-- All requests have been sent. -/
def State.isLast : Bool := s.opt.count ≤ s.sent

/-- `send_pkt` -/
def sendPkt : State :=
  let s := s.forgot
  if s.isLast then report env io (s.addStr (ascii " \x7d")) else transmit env io s

/-! ### Callbacks -/

/-- A packet as `recvfrom` leaves it. -/
structure Packet where
  buf : ℕ → UInt8
  nrecv : ℕ

/-- The text of an entry is opened, behind another one if there is one for the same request. -/
def State.separated : State := if s.openResult then s.addStr (ascii " \x7d, \x7b ") else s

/-- The text of an entry has been written. -/
def State.wrote (text : Bytes) : State := { s.separated.addStr text with openResult := true }

/-- The next request is sent if the gap is over; the measurement ends if there is none. -/
def goOn : State := if !s.timerGap || s.isLast then sendPkt env io s else s

/-- The text of the entry for a reply. -/
def replyText (h : Header) : Bytes :=
  let d := if s.first then .empty else changes env s.hdr h
  d.text ++ timesText env d.head h (env.timestamp io.now)

/-- The fields of the first reply are kept. -/
def State.keepHeader (h : Header) : State :=
  if s.first then { s with hdr := h, first := false } else s

/-- The timer for the reply is deleted. -/
def State.answered : State := { s with gotresp := true, timerTimeout := false }

/-- `ready_callback` -/
def readyCallback (p : Packet) : State :=
  if p.nrecv < headerSize then s
  else if !s.busy then s
  else
    let h := headerOf p.buf
    goOn env io ((s.wrote (replyText env io s h)).keepHeader h).answered

/-- The text of the entry for a request without a reply. -/
def timeoutText : Bytes := key "x" ++ quoted (ascii "*")

/-- `noreply_callback` -/
def noreplyCallback : State := goOn env io (s.wrote timeoutText)

/-- `gap_callback` -/
def gapCallback : State := if s.gotresp || !s.timerTimeout then sendPkt env io s else s

end Requests

/-! ### The start -/

/-- What the calls of `create_socket` return. -/
structure SocketIo where
  socket : Option ℕ
  bindInterface : Bool
  connect : Option ℕ
  sockname : Sockaddr

section Start

variable (env : Env) (io : Io) (s : State)

/-- The measurement ends with an error as its only entry. -/
def fails (size : ℕ) (text : Bytes) : State :=
  report env io (s.addStr (snprintf size (ascii "\x7b " ++ key "error" ++ quoted text ++
    ascii " \x7d")))

/-- The variables of a run. -/
def State.restart : State :=
  { s with
    sent := 0
    first := true
    result := []
    openResult := false
    starttime := io.atlasTime }

/-- The socket is there, and replies are waited for. -/
def State.opened (sockname : Sockaddr) : State :=
  { s with locSin6 := some sockname, reading := true }

/-- `ntp_start2` with `create_socket` -/
def ntpStart2 (sio : SocketIo) : State :=
  if !s.busy then s
  else
    let s := s.restart io
    match sio.socket with
    | some e => fails env io s 80 (ascii "socket failed: " ++ env.strerror e)
    | none =>
      if s.opt.interface && !sio.bindInterface then
        fails env io s 80 (ascii "bind_interface failed")
      else
        match sio.connect with
        | some e => fails env io s 80 (ascii "connect failed: " ++ env.strerror e)
        | none => sendPkt env io (s.opened sio.sockname)

/-- The name resolution has ended. -/
def State.heard (ttr : Bytes) : State := { s with ttr := ttr, resolving := false }

/-- The text is empty, for an error before the first request. -/
def State.cleared : State := { s with result := [], starttime := io.time }

/-- The name has an address. -/
def State.resolved : State := { s with dnsip := false, reportDst := false }

/-- The address to send to. -/
def State.setAddr (sin6 : Sockaddr) : State := { s with sin6 := sin6 }

/-- The name is reported as if it had no address, with the address. -/
def State.refused : State := { s with dnsip := true, reportDst := true }

/-- `dns_cb` -/
def dnsCb (ttr : Bytes) (r : DnsResult) (sio : SocketIo) : State :=
  let s := s.heard ttr
  match r with
  | .failed message =>
    fails env io (s.cleared io) 160 (ascii "name resolution failed: " ++ message)
  | .resolved sin6 allowed =>
    let s := s.resolved.setAddr sin6
    if allowed then ntpStart2 env io s sio
    else fails env io (s.cleared io).refused 160 (ascii "address not allowed")
  | .noAddr =>
    report env io (s.resolved.addStr (snprintf 160 ((if s.sent = 0 then [] else ascii " \x7d, ") ++
      ascii "\x7b " ++ key "error" ++ quoted (ascii "name resolution failed: out of addresses") ++
      ascii " \x7d ] \x7d")))

/-- The name is being resolved. -/
def State.started : State := { s with busy := true, dnsip := true, resolving := true }

/-- `ntp_start` -/
def ntpStart : State := if s.busy then s else s.started

/-! ### Events -/

/-- What happens to a measurement. -/
inductive Event
  | start
  | dns (ttr : Bytes) (r : DnsResult) (sio : SocketIo)
  | packet (p : Packet)
  | timeout
  | gap

/-- The timer for the reply has expired. -/
def State.timeoutExpired : State := { s with timerTimeout := false }

/-- The timer for the gap has expired. -/
def State.gapExpired : State := { s with timerGap := false }

/-- An event is handled, if it is waited for. -/
def step : Event × Io → State
  | (.start, _) => ntpStart s
  | (.dns ttr r sio, io) => if s.resolving then dnsCb env io s ttr r sio else s
  | (.packet p, io) => if s.reading then readyCallback env io s p else s
  | (.timeout, io) => if s.timerTimeout then noreplyCallback env io s.timeoutExpired else s
  | (.gap, io) => if s.timerGap then gapCallback env io s.gapExpired else s

end Start

/-- The state behind `ntp_init`. -/
def initState (opt : Options) (sin6 : Sockaddr) : State where
  opt := opt
  sin6 := sin6
  locSin6 := none
  sent := 0
  first := false
  busy := false
  gotresp := false
  dnsip := false
  reportDst := false
  starttime := 0
  ttr := ascii "0.000000"
  hdr := headerOf fun _ => 0
  timerTimeout := false
  timerGap := false
  result := []
  openResult := false
  reading := false
  resolving := false
  acts := []

/-! ### A plain measurement -/

/-- An environment in which every text is that of the number zero, and the powers of two are not
printed. -/
def plainEnv : Env where
  toHost := plainHost
  shortText := fun _ => ascii "0"
  powText := fun _ => ascii "0.5"
  tsText := fun _ => ascii "0.000000000"
  secondsText := fun _ => ascii "0.000000"
  halfText := fun _ => ascii "0.000000"
  fraction := fun _ => 0
  fraction_lt := fun _ => by decide

/-- The options of a measurement over IPv4. -/
def plainArgs (count : ℕ) : Args where
  v6 := false
  count := count
  interface := false
  size := 0
  timeout := 1000
  gap := 4000
  atlas := none
  bundle := none
  outOk := true
  hostname := plainName

/-- The parameters for these options. -/
def plainOptions (count : ℕ) : Options := (ntpInit plainEnv.toHost (plainArgs count)).get rfl

lemma ntpInit_plainArgs (count : ℕ) :
    ntpInit plainEnv.toHost (plainArgs count) = some (plainOptions count) :=
  (Option.some_get _).symm

/-- The time at which the time stamps of NTP begin again at zero. -/
def plainTime : ℕ := 2 ^ 32 - ntp1970

/-- Every call succeeds, and the time stamp of the host is zero. -/
def plainIo : Io := ⟨⟨plainTime, 0⟩, none, plainTime, plainTime, 0⟩

/-- The name resolution gives an address. -/
def plainDns : Event × Io :=
  (.dns (ascii "0.000000") (.resolved plainAddr true)
    ⟨none, true, none, plainAddr⟩, plainIo)

/-- A reply. -/
def plainPacket : Event × Io := (.packet ⟨fun _ => 0, headerSize⟩, plainIo)

end AtlasProbe.Ntp
