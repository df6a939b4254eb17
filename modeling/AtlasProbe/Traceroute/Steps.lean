import AtlasProbe.Traceroute.Run

/-!
# What a step can do

A packet changes the text, the flags of the hop, the packet size and the timer (`Handled`), and it
may be that the next probe is sent then.  Only sending, and the start of a run, change the counters
(`sendPkt_cases`).  A call that fails ends the run (`CallError`).
-/

namespace AtlasProbe.Traceroute

open Measurement

/-! ### Quiet steps -/

/-- What replies do not change. -/
def State.core (s : State) : State :=
  { s with
    done := false
    notDone := false
    gotresp := false
    curpacksize := 0
    lastResponseHop := 0
    result := []
    openResult := false
    timer := false
    acts := [] }

/-- What an answer says nothing about: all but the notes about the hop and the packet size. -/
def State.outline (s : State) : State :=
  { s with done := false, notDone := false, curpacksize := 0, lastResponseHop := 0 }

/-- Only the text, the flags, the packet size and the timer have changed. -/
structure Quiet (s s' : State) : Prop where
  core : s'.core = s.core
  acts : ∃ us : List ℕ, s'.acts = s.acts ++ us.map Act.timer

/-- A step that has no effect but on the text. -/
structure OnlyReported (s s' : State) : Prop where
  done : s'.done = s.done
  notDone : s'.notDone = s.notDone
  gotresp : s'.gotresp = s.gotresp
  lastResponseHop : s'.lastResponseHop = s.lastResponseHop
  curpacksize : s'.curpacksize = s.curpacksize
  hop : s'.hop = s.hop
  sent : s'.sent = s.sent
  acts : s'.acts = s.acts

/-- A step that is quiet, or that sends the next probe after a quiet change. -/
def Handled (host : Host) (io : Io) (s s' : State) : Prop :=
  Quiet s s' ∨ ∃ t, Quiet s t ∧ s' = sendPkt host io t

section Quiet

variable {host : Host} {tabsiz : ℕ} {io : Io} {p : Packet} {s t u : State} {v : Verdict}

/-- A change of what replies may change, without an effect. -/
lemma Quiet.of_core (hcore : t.core = s.core) (hacts : t.acts = s.acts) : Quiet s t :=
  ⟨hcore, [], by rw [hacts, List.map_nil, List.append_nil]⟩

lemma Quiet.refl (s : State) : Quiet s s := .of_core rfl rfl

lemma Quiet.trans (h : Quiet s t) (h' : Quiet t u) : Quiet s u := by
  obtain ⟨us, hus⟩ := h.acts
  obtain ⟨us', hus'⟩ := h'.acts
  refine ⟨h'.core.trans h.core, us ++ us', ?_⟩
  rw [hus', hus, List.map_append, List.append_assoc]

lemma Quiet.of_outline (h : t.outline = s.outline) : Quiet s t :=
  .of_core (congrArg State.core h :) (congrArg State.acts h :)

lemma quiet_opened (s : State) : Quiet s s.opened := .of_core rfl rfl

lemma quiet_separate (s : State) : Quiet s s.separate := by
  unfold State.separate
  split
  · exact .of_core rfl rfl
  · exact .refl s

lemma Quiet.separate_addStr (s : State) (text : Bytes) : Quiet s (s.separate.addStr text) :=
  (quiet_separate s).trans (.of_core rfl rfl)

/-- A further object in the text is only reported. -/
lemma onlyReported_text (s : State) (text : Bytes) :
    OnlyReported s (s.separate.addStr text).opened := by
  unfold State.separate
  split <;> exact ⟨rfl, rfl, rfl, rfl, rfl, rfl, rfl, rfl⟩

lemma outline_respond (s : State) (v : Verdict) : (s.respond v).outline = s.outline := by
  unfold State.respond
  split <;> rfl

lemma outline_limit (s : State) (headers nextmtu : ℕ) :
    (s.limit headers nextmtu).outline = s.outline := by
  unfold State.limit
  split <;> rfl

lemma outline_noteError4 (s : State) (b : Branch) (v : Verdict) (type code nextmtu : ℕ) :
    (noteError4 s b v type code nextmtu).outline = s.outline := by
  rw [← outline_respond s v]
  unfold noteError4
  generalize s.respond v = s
  split_ifs
  · rfl
  · rfl
  · rfl
  · exact outline_limit s _ _
  · rfl

lemma outline_noteError6 (s : State) (c : Cursor) (v : Verdict) (type mtu : ℕ) :
    (noteError6 s c v type mtu).outline = s.outline := by
  rw [← outline_respond s v]
  unfold noteError6
  generalize s.respond v = s
  split_ifs
  · rfl
  · rfl
  · rfl
  · exact outline_limit s _ _
  · rfl

lemma outline_noteEcho6 (s : State) (v : Verdict) : (noteEcho6 s v).outline = s.outline := by
  unfold noteEcho6
  split
  · exact outline_respond s v
  · rfl

/-- The end of a reply after a quiet change. -/
lemma Quiet.finish (h : Quiet s t) : Handled host io s (finish host io v t) := by
  unfold Traceroute.finish
  have hopen : Quiet s t.opened := h.trans (quiet_opened t)
  dsimp only
  split_ifs
  · refine .inl (hopen.trans ⟨rfl, [t.opt.duptimeout], rfl⟩)
  · exact .inr ⟨_, hopen, rfl⟩
  · exact .inl hopen

/-- A packet is handled. -/
lemma handled_handleReply {text : State → Bytes} {note : State → State}
    (hnote : ∀ s, (note s).outline = s.outline) :
    Handled host io s (handleReply host io v text note s) := by
  unfold handleReply
  dsimp only
  split
  · exact .inl (quiet_separate s)
  · exact ((Quiet.separate_addStr s _).trans (.of_outline (hnote _))).finish

lemma handled_readyCallback4 : Handled host io s (readyCallback4 host tabsiz io p s) := by
  unfold readyCallback4 errorReply4 echoReply4
  split
  · exact .inl (.refl s)
  · exact handled_handleReply fun s => outline_noteError4 s _ _ _ _ _
  · exact handled_handleReply fun _ => rfl

lemma handled_readyCallback6 : Handled host io s (readyCallback6 host io p s) := by
  unfold readyCallback6 errorReply6 echoReply6
  split
  · exact .inl (.refl s)
  · exact handled_handleReply fun s => outline_noteError6 s _ _ _ _
  · exact handled_handleReply fun s => outline_noteEcho6 s _

lemma handled_readyTcp4 : Handled host io s (readyTcp4 host tabsiz io p s) := by
  unfold readyTcp4 tcpReply
  split
  · exact handled_handleReply fun _ => rfl
  · exact .inl (.refl s)

lemma handled_readyTcp6 : Handled host io s (readyTcp6 host tabsiz io p s) := by
  unfold readyTcp6 tcpReply
  split
  · exact handled_handleReply fun _ => rfl
  · exact .inl (.refl s)

variable (host io) in
/-- The last timeout was waited for, and the next probe is sent. -/
lemma timeout_eq (htimer : s.timer = true) :
    ∃ t, Quiet s t ∧ step host io s .timeout = sendPkt host io t ∧ OnlyReported s t := by
  have hexpired : Quiet s s.expired := .of_core rfl rfl
  unfold step noreplyCallback
  dsimp only
  rw [if_pos htimer]
  split
  · exact ⟨_, hexpired, rfl, by constructor <;> rfl⟩
  · have honly := onlyReported_text s.expired (key "x" ++ quoted (ascii "*"))
    exact ⟨_, hexpired.trans ((Quiet.separate_addStr _ _).trans (quiet_opened _)), rfl,
      ⟨honly.done, honly.notDone, honly.gotresp, honly.lastResponseHop, honly.curpacksize,
        honly.hop, honly.sent, honly.acts⟩⟩

end Quiet

/-- A step does nothing, starts a run, ends the name resolution, or handles a packet or a timeout
that was waited for. -/
lemma step_cases (host : Host) (io : Io) (s : State) (e : Event) :
    step host io s e = s ∨ step host io s e = tracerouteStart s ∨
      (s.busy = true ∧ s.dnsip = true ∧
        ∃ ttr r sio, e = .dns ttr r sio ∧ step host io s e = dnsCb host io ttr r sio s) ∨
      ((s.socketIcmp = true ∨ s.socketTcp = true ∨ s.timer = true) ∧
        Handled host io s (step host io s e)) := by
  cases e with
  | start => exact .inr (.inl rfl)
  | dns ttr r sio =>
    unfold step
    dsimp only
    split
    · next h =>
      obtain ⟨hbusy, hdns⟩ := Bool.and_eq_true_iff.mp h
      exact .inr (.inr (.inl ⟨hbusy, hdns, ttr, r, sio, rfl, rfl⟩))
    · exact .inl rfl
  | icmp p =>
    unfold step
    dsimp only
    split
    · next h =>
      refine .inr (.inr (.inr ⟨.inl h, ?_⟩))
      split
      · exact handled_readyCallback6
      · exact handled_readyCallback4
    · exact .inl rfl
  | tcp p =>
    unfold step
    dsimp only
    split
    · next h =>
      refine .inr (.inr (.inr ⟨.inr (.inl h), ?_⟩))
      split
      · exact handled_readyTcp6
      · exact handled_readyTcp4
    · exact .inl rfl
  | timeout =>
    by_cases h : s.timer = true
    · obtain ⟨t, hquiet, heq, -⟩ := timeout_eq host io h
      exact .inr (.inr (.inr ⟨.inr (.inr h), .inr ⟨t, hquiet, heq⟩⟩))
    · exact .inl (if_neg h)

/-! ### Sending -/

/-- The errors of calls that end a run: one of the given calls has failed, or the socket cannot be
bound to the interface, or its type of service cannot be set. -/
inductive CallError (host : Host) (calls : List String) : Bytes → Prop
  | failed {call : String} (hcall : call ∈ calls) (e : ℕ) :
      CallError host calls (ascii call ++ host.strerror e)
  | interface : CallError host calls (ascii "bind_interface failed")
  | tos (inet6 : Bool) : CallError host calls (tosText inet6)

/-- The errors while a probe is sent. -/
abbrev SendError (host : Host) : Bytes → Prop :=
  CallError host ["bind failed: ", "sendto failed: "]

/-- The errors while the sockets are made. -/
abbrev SetupError (host : Host) : Bytes → Prop :=
  CallError host ["socket failed: ", "connect failed: "]

/-- What making a packet does not change. -/
def State.unsent (s : State) : State :=
  { s with
    seq := 0
    xmitTime := ⟨0, 0⟩
    curpacksize := 0
    sin6 := { s.sin6 with port := 0 } }

section Sending

variable (host : Host) (io : Io) (s : State) (proto : Proto)

/-- Only the number, the time and the size of the probe and the port that it goes to have changed;
the number is the next one, and in any case one instead of zero. -/
structure Prepared (s t : State) : Prop where
  unsent : t.unsent = s.unsent
  seq : t.seq = (s.seq + 1) % 65536 ∨ (s.seq + 1) % 65536 = 0 ∧ t.seq = 1

lemma unsent_prepare : (prepare host io s proto).1.unsent = s.unsent := by
  unfold prepare
  split
  · rfl
  · split <;> rfl
  · dsimp only
    split_ifs <;> rfl

lemma seq_prepare :
    (prepare host io s proto).1.seq = s.seq ∨ s.seq = 0 ∧ (prepare host io s proto).1.seq = 1 := by
  unfold prepare
  split
  · exact .inl rfl
  · split <;> exact .inl rfl
  · dsimp only
    split_ifs with h6 hzero
    · exact .inl rfl
    · exact .inr ⟨hzero.2, rfl⟩
    · exact .inl rfl

lemma prepared_count : Prepared s (s.count io) := ⟨rfl, .inl rfl⟩

lemma prepared_prepare : Prepared s (prepare host io (s.count io) proto).1 :=
  ⟨(unsent_prepare host io _ proto).trans rfl, seq_prepare host io (s.count io) proto⟩

/-- A probe that has been sent in a state. -/
def State.sentProbe (proto : Proto) : Probe :=
  (prepare host io s proto).1.probe proto (prepare host io s proto).2

/-- What `transmit` can do: a call fails and the measurement ends, the probe is sent, or it is only
taken for one that has been sent. -/
inductive Transmits : State → Prop
  | failed {t : State} {text : Bytes} (ht : Prepared s t) (htext : SendError host text) :
      Transmits (sendFailed host io t text)
  | sent {proto : Proto} (hproto : s.opt.proto = some proto) :
      Transmits (launched ((prepare host io (s.count io) proto).1.emit
        ((s.count io).sentProbe host io proto)))
  | unsent {t : State} (ht : Prepared s t) : Transmits (launched t)

lemma transmits_sendProbe {proto : Proto} (hproto : s.opt.proto = some proto) :
    Transmits host io s (sendProbe host io (s.count io) proto) := by
  have hprep := prepared_prepare host io s proto
  unfold sendProbe
  dsimp only
  split
  · exact .sent hproto
  · split
    · exact .unsent hprep
    · exact .failed hprep (.failed (by decide) _)

lemma transmits_transmit : Transmits host io s (transmit host io s) := by
  have hcount := prepared_count io s
  unfold transmit
  dsimp only
  split
  · exact .unsent hcount
  · next h => exact transmits_sendProbe host io s h
  · next proto _ h =>
    split_ifs
    · exact .failed hcount (.tos _)
    · split
      · exact .failed hcount (.failed (by decide) _)
      · exact transmits_sendProbe host io s h

/-- No call fails. -/
structure Io.Sends (io : Io) : Prop where
  setTos : io.setTos = true
  bind : io.bind = none
  sendto : io.sendto = none

variable {io} in
lemma transmit_of_sends (hio : io.Sends) {proto : Proto} (hproto : s.opt.proto = some proto) :
    transmit host io s = launched ((prepare host io (s.count io) proto).1.emit
      ((s.count io).sentProbe host io proto)) := by
  have hsend : sendProbe host io (s.count io) proto =
      launched ((prepare host io (s.count io) proto).1.emit
        ((s.count io).sentProbe host io proto)) := by
    unfold sendProbe
    rw [hio.sendto]
    rfl
  have hcount : (s.count io).opt.proto = some proto := hproto
  unfold transmit
  dsimp only
  rw [hcount]
  cases proto with
  | icmp => exact hsend
  | tcp | udp => simpa only [hio.setTos, hio.bind, Bool.not_true, Bool.false_eq_true, and_false,
      if_false] using hsend

/-- The state at the end of a hop. -/
def State.endHop : State := s.unanswered.closeHop

/-- What `send_pkt` can do: send another probe of the hop, or end the measurement, or go on to the
next hop or to the last one. -/
lemma sendPkt_cases :
    (s.sent < s.opt.trtcount ∧ sendPkt host io s = transmit host io s.unanswered) ∨
    (s.opt.trtcount ≤ s.sent ∧ (s.opt.maxhops ≤ s.hop ∨ s.done = true ∧ s.notDone = false) ∧
      sendPkt host io s = report host io s.endHop) ∨
    (s.opt.trtcount ≤ s.sent ∧ s.hop < s.opt.maxhops ∧ ¬(s.done = true ∧ s.notDone = false) ∧
      ((s.lastResponseHop + s.opt.gaplimit < (s.hop + 1) % 256 ∧
        ((s.lastditch = true ∧ sendPkt host io s = report host io s.endHop.nextHop) ∨
        (s.lastditch = false ∧
          sendPkt host io s = transmit host io s.endHop.nextHop.lastDitch.openHop))) ∨
      ((s.hop + 1) % 256 ≤ s.lastResponseHop + s.opt.gaplimit ∧
        sendPkt host io s = transmit host io s.endHop.nextHop.openHop))) := by
  have hend (hsent : s.opt.trtcount ≤ s.sent) : sendPkt host io s =
      if s.opt.maxhops ≤ s.hop ∨ s.done = true ∧ (!s.notDone) = true then report host io s.endHop
      else if s.lastResponseHop + s.opt.gaplimit < (s.hop + 1) % 256 then
        if s.lastditch = true then report host io s.endHop.nextHop
        else transmit host io s.endHop.nextHop.lastDitch.openHop
      else transmit host io s.endHop.nextHop.openHop := if_pos hsent
  by_cases hsent : s.opt.trtcount ≤ s.sent
  · rw [hend hsent]
    refine .inr ?_
    split_ifs with hlast hgap hditch
    · exact .inl ⟨hsent, by simpa using hlast, rfl⟩
    all_goals
      obtain ⟨hhop, hdone⟩ := not_or.mp hlast
      refine .inr ⟨hsent, Nat.lt_of_not_le hhop, by simpa using hdone, ?_⟩
    · exact .inl ⟨hgap, .inl ⟨hditch, rfl⟩⟩
    · exact .inl ⟨hgap, .inr ⟨Bool.eq_false_iff.mpr hditch, rfl⟩⟩
    · exact .inr ⟨Nat.le_of_not_lt hgap, rfl⟩
  · exact .inl ⟨Int.lt_of_not_ge hsent, if_neg hsent⟩

/-- `transmit` does something to the outside. -/
lemma length_acts_transmit : s.acts.length < (transmit host io s).acts.length := by
  have hacts {t : State} (ht : Prepared s t) : t.acts = s.acts := (congrArg State.acts ht.unsent :)
  have htransmits := transmits_transmit host io s
  generalize transmit host io s = u at htransmits ⊢
  obtain ⟨ht, -⟩ | @⟨proto, hproto⟩ | @⟨t, ht⟩ := htransmits
  · simp [sendFailed, report, State.addStr, hacts ht]
  · simp [launched, State.evtimerAdd, State.addStr, State.emit,
      hacts (prepared_prepare host io s proto)]
  · simp [launched, State.evtimerAdd, State.addStr, hacts ht]

/-- `send_pkt` does something to the outside. -/
lemma length_acts_sendPkt : s.acts.length < (sendPkt host io s).acts.length := by
  rcases sendPkt_cases host io s with
    ⟨-, heq⟩ | ⟨-, -, heq⟩ | ⟨-, -, -, ⟨-, ⟨-, heq⟩ | ⟨-, heq⟩⟩ | ⟨-, heq⟩⟩
  · rw [heq]
    exact length_acts_transmit host io s.unanswered
  · rw [heq]
    simp [report, State.endHop, State.closeHop, State.addStr, State.unanswered]
  · rw [heq]
    simp [report, State.endHop, State.closeHop, State.addStr, State.unanswered, State.nextHop]
  · rw [heq]
    exact length_acts_transmit host io s.endHop.nextHop.lastDitch.openHop
  · rw [heq]
    exact length_acts_transmit host io s.endHop.nextHop.openHop

end Sending

/-! ### The start -/

section Start

variable (host : Host) (io : Io) (s : State) (sio : SocketIo) (doTcp : Bool)

/-- What belongs to the measurement and not to a run. -/
def State.ident : Options × ℕ := (s.opt, s.index)

/-- The local address of the probes. -/
def localAddr (sockname : Sockaddr) (doIcmp : Bool) (index : ℕ) : Sockaddr :=
  if doIcmp then sockname else { sockname with port := (srcBasePort + index) % 65536 }

/-- The state with an address to probe. -/
def State.resolved (ttr : Bool × ℕ) (sin6 : Sockaddr) : State :=
  { s with ttr := ttr, dnsip := false, noSrc := false, sin6 := sin6 }

/-- The state in which the first probe of a run is sent. -/
def State.begun (sockname : Sockaddr) (tcp : Bool) : State :=
  { restart io s with
    locSin6 := localAddr sockname s.opt.doIcmp s.index
    socketIcmp := true
    socketTcp := tcp }.addStr (ascii ", " ++ key "result" ++ ascii " [ ")

lemma createTcpSocket_cases :
    (∃ text, createTcpSocket host io sio s = .error (setupFailed host io s text) ∧
      SetupError host text) ∨ createTcpSocket host io sio s = .ok { s with socketTcp := true } := by
  unfold createTcpSocket
  split
  · exact .inl ⟨_, rfl, .failed (by decide) _⟩
  · split_ifs
    · exact .inl ⟨_, rfl, .interface⟩
    · split
      · exact .inl ⟨_, rfl, .failed (by decide) _⟩
      · exact .inr rfl

lemma createIcmpSocket_cases :
    (∃ icmp text, createIcmpSocket host io sio doTcp s =
      .error (setupFailed host io { s with socketIcmp := icmp } text) ∧ SetupError host text) ∨
    ∃ tcp, createIcmpSocket host io sio doTcp s =
      .ok { s with socketIcmp := true, socketTcp := tcp } := by
  unfold createIcmpSocket
  split
  · exact .inl ⟨s.socketIcmp, _, rfl, .failed (by decide) _⟩
  · split_ifs
    · exact .inl ⟨s.socketIcmp, _, rfl, .interface⟩
    · exact .inl ⟨s.socketIcmp, _, rfl, .tos _⟩
    · rcases createTcpSocket_cases host io { s with socketIcmp := true } sio with ⟨text, ht⟩ | ht
      · exact .inl ⟨true, text, ht⟩
      · exact .inr ⟨true, ht⟩
    · exact .inr ⟨s.socketTcp, rfl⟩

lemma createSocket_cases :
    (∃ loc icmp text, createSocket host io sio doTcp s =
      .error (setupFailed host io { s with locSin6 := loc, socketIcmp := icmp } text) ∧
        SetupError host text) ∨
    ∃ tcp, createSocket host io sio doTcp s =
      .ok { s with locSin6 := sio.sockname, socketIcmp := true, socketTcp := tcp } := by
  unfold createSocket
  split
  · exact .inl ⟨s.locSin6, s.socketIcmp, _, rfl, .failed (by decide) _⟩
  · split_ifs
    · exact .inl ⟨s.locSin6, s.socketIcmp, _, rfl, .interface⟩
    · split
      · exact .inl ⟨s.locSin6, s.socketIcmp, _, rfl, .failed (by decide) _⟩
      · rcases createIcmpSocket_cases host io { s with locSin6 := sio.sockname } sio doTcp with
          ⟨icmp, text, ht⟩ | ht
        · exact .inl ⟨sio.sockname, icmp, text, ht⟩
        · exact .inr ht

/-- No call fails while the sockets are made. -/
structure SocketIo.Works (sio : SocketIo) : Prop where
  socket : sio.socket = none
  bindInterface : sio.bindInterface = true
  connect : sio.connect = none
  socketAgain : sio.socketAgain = none
  bindInterfaceAgain : sio.bindInterfaceAgain = true
  setTos : sio.setTos = true
  socketTcp : sio.socketTcp = none
  bindInterfaceTcp : sio.bindInterfaceTcp = true
  connectTcp : sio.connectTcp = none

lemma createSocket_of_works {sio : SocketIo} (h : sio.Works) (doTcp : Bool) :
    ∃ t, createSocket host io sio doTcp s = .ok t := by
  unfold createSocket createIcmpSocket createTcpSocket
  simp only [h.socket, h.bindInterface, h.connect, h.socketAgain, h.bindInterfaceAgain, h.setTos,
    h.socketTcp, h.bindInterfaceTcp, h.connectTcp, Bool.not_true, Bool.and_false,
    Bool.false_eq_true, and_false, if_false]
  split
  · exact ⟨_, rfl⟩
  · exact ⟨_, rfl⟩

/-- The sockets are made and the first probe is sent, or a call has failed. -/
lemma tracerouteStart2_cases (hbusy : s.busy = true) :
    (∃ loc icmp text, tracerouteStart2 host io sio s =
      setupFailed host io { restart io s with locSin6 := loc, socketIcmp := icmp } text ∧
        SetupError host text ∧ ¬sio.Works) ∨
    ∃ tcp, tracerouteStart2 host io sio s = sendPkt host io (s.begun io sio.sockname tcp) := by
  unfold tracerouteStart2
  rw [hbusy, Bool.not_true, if_neg Bool.false_ne_true]
  dsimp only
  rcases createSocket_cases host io (restart io s) sio
    (!s.opt.doIcmp && !s.opt.doUdp && s.opt.doTcp) with ⟨loc, icmp, text, ht, htext⟩ | ⟨tcp, ht⟩
  · refine .inl ⟨loc, icmp, text, ?_, htext, fun hworks => ?_⟩
    · erw [ht]
    · obtain ⟨t', ht'⟩ := createSocket_of_works host io (restart io s) hworks
        (!s.opt.doIcmp && !s.opt.doUdp && s.opt.doTcp)
      have hne := ht.symm.trans ht'
      injection hne
  · refine .inr ⟨tcp, ?_⟩
    erw [ht]
    refine congrArg (fun s : State => sendPkt host io (s.addStr _)) ?_
    unfold localAddr
    rw [apply_ite (fun loc => ({ restart io s with
      locSin6 := loc, socketIcmp := true, socketTcp := tcp } : State))]
    rfl

/-- The end of the name resolution ends the measurement, or the first probe is sent. -/
lemma dnsCb_cases (ttr : Bool × ℕ) (r : DnsResult) (sio : SocketIo) (hbusy : s.busy = true)
    (hdns : s.dnsip = true) :
    (∃ t, dnsCb host io ttr r sio s = report host io t ∧ t.ident = s.ident) ∨
      ∃ sin6 tcp, r = .resolved sin6 true ∧ dnsCb host io ttr r sio s =
        sendPkt host io ((s.resolved ttr sin6).begun io sio.sockname tcp) := by
  unfold dnsCb
  rw [hdns, Bool.not_true, if_neg Bool.false_ne_true]
  split
  · exact .inl ⟨_, rfl, rfl⟩
  · next sin6 allowed =>
    split_ifs with hallowed
    · rcases tracerouteStart2_cases host io (s.resolved ttr sin6) sio hbusy with
        ⟨loc, icmp, text, ht, -⟩ | ⟨tcp, ht⟩
      · exact .inl ⟨_, ht, rfl⟩
      · exact .inr ⟨sin6, tcp, by rw [hallowed], ht⟩
    · exact .inl ⟨_, rfl, rfl⟩
  · exact .inl ⟨_, rfl, rfl⟩

end Start

end AtlasProbe.Traceroute
