import AtlasProbe.Traceroute.Reply4
import AtlasProbe.Traceroute.Reply6

/-!
# Runs of a measurement

A measurement is started, its name is resolved, the sockets are made and the first probe is sent.
From then on packets and timeouts drive it (`step`), until the result is written.
-/

namespace AtlasProbe.Traceroute

open Measurement

/-! ### Sockets -/

/-- What the calls of `create_socket` return. -/
structure SocketIo where
  socket : Option ℕ
  bindInterface : Bool
  connect : Option ℕ
  sockname : Sockaddr
  socketAgain : Option ℕ
  bindInterfaceAgain : Bool
  setTos : Bool
  socketTcp : Option ℕ
  bindInterfaceTcp : Bool
  connectTcp : Option ℕ

section Start

variable (host : Host) (io : Io)

/-- A socket cannot be set up, and the measurement ends. -/
def setupFailed (s : State) (text : Bytes) : State :=
  report host io (s.addStr (line (ascii ", " ++ key "error" ++ quoted text ++ ascii " \x7d")))

/-- The part of `create_socket` for the TCP socket. -/
def createTcpSocket (sio : SocketIo) (s : State) : Except State State :=
  match sio.socketTcp with
  | some e => .error (setupFailed host io s (ascii "socket failed: " ++ host.strerror e))
  | none =>
    if s.opt.interface && !sio.bindInterfaceTcp then
      .error (setupFailed host io s (ascii "bind_interface failed"))
    else
      match sio.connectTcp with
      | some e => .error (setupFailed host io s (ascii "connect failed: " ++ host.strerror e))
      | none => .ok { s with socketTcp := true }

/-- The part of `create_socket` behind the first socket, which is only made to find out the local
address. -/
def createIcmpSocket (sio : SocketIo) (doTcp : Bool) (s : State) : Except State State :=
  match sio.socketAgain with
  | some e => .error (setupFailed host io s (ascii "socket failed: " ++ host.strerror e))
  | none =>
    if s.opt.interface && !sio.bindInterfaceAgain then
      .error (setupFailed host io s (ascii "bind_interface failed"))
    else if s.opt.tos ≠ 0 ∧ !sio.setTos then .error (setupFailed host io s (tosText s.opt.doV6))
    else
      let s := { s with socketIcmp := true }
      if doTcp then createTcpSocket host io sio s else .ok s

/-- `create_socket` -/
def createSocket (sio : SocketIo) (doTcp : Bool) (s : State) : Except State State :=
  match sio.socket with
  | some e => .error (setupFailed host io s (ascii "socket failed: " ++ host.strerror e))
  | none =>
    if s.opt.interface && !sio.bindInterface then
      .error (setupFailed host io s (ascii "bind_interface failed"))
    else
      match sio.connect with
      | some e => .error (setupFailed host io s (ascii "connect failed: " ++ host.strerror e))
      | none => createIcmpSocket host io sio doTcp { s with locSin6 := sio.sockname }

/-! ### The start -/

/-- The variables at the start. -/
def restart (s : State) : State :=
  { s with
    hop := s.opt.firsthop
    sent := 0
    seq := 0
    paris := if s.opt.parismod ≠ 0 then
      ((s.paris + 1 + s.opt.parismod - s.opt.parisbase) % s.opt.parismod + s.opt.parisbase) % 65536
      else s.paris
    lastResponseHop := if s.opt.firsthop > 1 then s.opt.firsthop - 1 else 0
    done := false
    notDone := false
    lastditch := false
    curpacksize := s.opt.maxpacksize
    result := line (ascii "\x7b " ++ key "hop" ++ natText s.opt.firsthop)
    openResult := false
    starttime := io.atlasTime
    socketTcp := false }

/-- `traceroute_start2` -/
def tracerouteStart2 (sio : SocketIo) (s : State) : State :=
  if !s.busy then s
  else
    let s := restart io s
    match createSocket host io sio (!s.opt.doIcmp && !s.opt.doUdp && s.opt.doTcp) s with
    | .error s => s
    | .ok s =>
      let s := if s.opt.doIcmp then s
        else { s with locSin6 := { s.locSin6 with port := (srcBasePort + s.index) % 65536 } }
      sendPkt host io (s.addStr (ascii ", " ++ key "result" ++ ascii " [ "))

/-- `dns_cb` -/
def dnsCb (ttr : Bool × ℕ) (r : DnsResult) (sio : SocketIo) (s : State) : State :=
  if !s.dnsip then s
  else
    let s := { s with ttr := ttr }
    match r with
    | .failed message =>
      report host io
        { s with
          starttime := io.atlasTime
          result := snprintf 160 (ascii "\x7b " ++ key "error" ++
            quoted (ascii "name resolution failed: " ++ message) ++ ascii " \x7d") }
    | .resolved sin6 allowed =>
      let s := { s with dnsip := false, noSrc := false, sin6 := sin6 }
      if allowed then tracerouteStart2 host io sio s
      else
        report host io
          { s with
            starttime := io.atlasTime
            result := snprintf 160 (ascii "\x7b " ++ key "error" ++
              quoted (ascii "address not allowed") ++ ascii " \x7d")
            noSrc := true }
    | .noAddr =>
      report host io ({ s with dnsip := false, noSrc := false }.addStr
        (snprintf 160 ((if s.sent ≠ 0 then ascii " \x7d, " else []) ++ ascii "\x7b " ++
          key "error" ++ quoted (ascii "name resolution failed: out of addresses") ++
          ascii " \x7d ] \x7d")))

/-- `traceroute_start` -/
def tracerouteStart (s : State) : State :=
  if s.busy then s else { s with busy := true, socketIcmp := false, dnsip := true }

/-- `noreply_callback` -/
def noreplyCallback (s : State) : State :=
  sendPkt host io (if s.gotresp then s
    else (s.separate.addStr (key "x" ++ quoted (ascii "*"))).opened)

/-- The timer has expired. -/
def State.expired (s : State) : State := { s with timer := false }

/-! ### Events -/

/-- What happens to a measurement. -/
inductive Event
  | start
  | dns (ttr : Bool × ℕ) (r : DnsResult) (sio : SocketIo)
  | icmp (p : Packet)
  | tcp (p : Packet)
  | timeout

/-- An event is handled, if it is waited for. -/
def step (s : State) : Event → State
  | .start => tracerouteStart s
  | .dns ttr r sio => if s.busy && s.dnsip then dnsCb host io ttr r sio s else s
  | .icmp p =>
    if s.socketIcmp then
      if s.opt.doV6 then readyCallback6 host io p s else readyCallback4 host io.tabsiz io p s
    else s
  | .tcp p =>
    if s.socketTcp then
      if s.opt.doV6 then readyTcp6 host io.tabsiz io p s else readyTcp4 host io.tabsiz io p s
    else s
  | .timeout => if s.timer then noreplyCallback host io s.expired else s

end Start

/-- The state behind `traceroute_init`. -/
def initState (opt : Options) (index : ℕ) : State where
  opt := opt
  index := index
  sin6 := ⟨false, [], 0⟩
  locSin6 := ⟨false, [], 0⟩
  sent := 0
  hop := 0
  paris := opt.parisbase
  seq := 0
  curpacksize := 0
  lastResponseHop := 0
  done := false
  notDone := false
  lastditch := false
  busy := false
  gotresp := false
  dnsip := false
  noSrc := false
  starttime := 0
  xmitTime := ⟨0, 0⟩
  ttr := (false, 0)
  result := []
  openResult := false
  timer := false
  socketIcmp := false
  socketTcp := false
  acts := []

/-- A measurement goes through events. -/
def steps (host : Host) : List (Event × Io) → State → State
  | [], s => s
  | (e, io) :: events, s => steps host events (step host io s e)

/-- What every event keeps holds behind any events. -/
lemma steps_inv {host : Host} {P : State → Prop} {Q : Event × Io → Prop}
    (hstep : ∀ s e io, P s → Q (e, io) → P (step host io s e)) {events : List (Event × Io)}
    (hevents : ∀ x ∈ events, Q x) {s : State} (hs : P s) : P (steps host events s) := by
  induction events generalizing s with
  | nil => exact hs
  | cons x events ih =>
    obtain ⟨hx, hrest⟩ := List.forall_mem_cons.mp hevents
    exact ih hrest (hstep s x.1 x.2 hs hx)

/-! ### A plain measurement -/

/-- The options of a measurement over IPv4. -/
def plainArgs (icmp tcp : Bool) : Args where
  v6 := false
  icmp := icmp
  tcp := tcp
  parismod := 0
  parisbase := 0
  count := 3
  firsthop := 1
  gaplimit := 5
  maxhops := 32
  tos := 0
  timeout := 4000
  duptimeout := 10
  atlas := none
  bundle := none
  outOk := true
  maxpacksize := 40
  hbhoptsize := 0
  destoptsize := 0
  interface := false
  hostname := plainName

/-- The options as they are stored. -/
def plainOptions (icmp tcp : Bool) : Options :=
  (tracerouteInit plainHost (plainArgs icmp tcp)).get (by cases icmp <;> cases tcp <;> decide)

/-- No call fails. -/
def plainIo : Io where
  tabsiz := 10
  now := ⟨0, 0⟩
  xmit := ⟨0, 0⟩
  packet := fun _ => 0
  setTos := true
  bind := none
  sendto := none
  errno := 0
  atlasTime := 0
  timesync := 0

/-- The sockets are made. -/
def plainSockets : SocketIo := ⟨none, true, none, plainAddr, none, true, true, none, true, none⟩

/-- Options with many probes for each hop and all hops. -/
def longArgs : Args := { plainArgs false false with count := 127, gaplimit := 255, maxhops := 255 }

/-- The options as they are stored. -/
def longOptions : Options := (tracerouteInit plainHost longArgs).get (by decide)

/-- A run starts, and then nothing is received for some timeouts. -/
def plainEvents (timeouts : ℕ) : List (Event × Io) :=
  (.start, plainIo) :: (.dns (false, 0) (.resolved plainAddr true) plainSockets, plainIo) ::
    List.replicate timeouts (.timeout, plainIo)

end AtlasProbe.Traceroute
