import AtlasProbe.Ping.Steps

/-!
# A run ends once

A measurement is idle (`Idle`), or its name is being resolved (`Resolving`), or it pings
(`Pinging`): then it waits for replies, and the timer is on.  The timer is not stopped when the
result is written, so the end must not come while it is on: a message that is taken for a timeout
may only come before the last request (`Orderly`, `Course.step`).
-/

namespace AtlasProbe.Ping

open List Reactive Measurement

/-! ### Phases -/

/-- The measurement has the options `opt`, and waits for nothing. -/
structure Idle (opt : Options) (s : State) : Prop where
  opt_eq : s.opt = opt
  busy : s.busy = false
  dnsip : s.dnsip = false
  reading : s.reading = false
  timer : s.timer = false

/-- The name is being resolved. -/
structure Resolving (opt : Options) (s : State) : Prop where
  opt_eq : s.opt = opt
  busy : s.busy = true
  dnsip : s.dnsip = true
  reading : s.reading = false
  timer : s.timer = false
  maxpkts : s.maxpkts = opt.pingcount

/-- Requests can be sent, and replies are waited for. -/
structure Sending (opt : Options) (s : State) : Prop where
  opt_eq : s.opt = opt
  busy : s.busy = true
  dnsip : s.dnsip = false
  reading : s.reading = true
  maxpkts : s.maxpkts = opt.pingcount

/-- A request has been sent, and its timer is on. -/
structure Pinging (opt : Options) (s : State) : Prop extends Sending opt s where
  timer : s.timer = true
  sentpkts_pos : 0 < s.sentpkts
  sentpkts_le : s.sentpkts ≤ s.maxpkts

/-- No message that is taken for a timeout comes behind the last request, and a name resolution that
has not failed gives an address. -/
def Orderly (env : Env) (s : State) (x : Event × Io) : Prop :=
  match x.1 with
  | .packet p => s.reading = true → ∀ number, message env s p = some (.other, number) →
      s.sentpkts < s.maxpkts
  | .dns _ .noAddr _ => s.dnsip = false
  | .dns _ (.failed _) _ | .dns _ (.resolved _ _) _ | .start _ | .timeout => True

/-- The timer expires. -/
def expires (s : State) (x : Event × Io) : Bool :=
  match x.1 with
  | .timeout => s.timer
  | .start _ | .dns _ _ _ | .packet _ => false

/-- How many timeouts there can be until the run ends. -/
def rank (s : State) : ℕ :=
  if s.busy then if s.dnsip then s.maxpkts else s.maxpkts + 1 - s.sentpkts else 0

/-- A request, or its timer. -/
def Act.IsRequest : Act → Prop
  | .sendto _ _ _ | .timer _ => True
  | .written _ | .done _ => False

/-- Where a run is that began with the acts `base`: there are requests only, and at the end one
result and one call of `done`. -/
inductive Course (opt : Options) (base : List Act) (s : State) : Prop
  | resolving (h : Resolving opt s) (hacts : s.acts = base)
  | pinging (h : Pinging opt s) {new : List Act} (hacts : s.acts = base ++ new)
      (hnew : ∀ a ∈ new, a.IsRequest)
  | ended (h : Idle opt s) {new : List Act} {text : Bytes} {error : Bool}
      (hacts : s.acts = base ++ new ++ [.written text, .done error])
      (hnew : ∀ a ∈ new, a.IsRequest)

section Phases

variable (env : Env) (io : Io) {opt : Options} {s t : State} {base new : List Act} {x : Event × Io}

lemma rank_of_ended (h : Ended s t) : rank t = 0 := by
  unfold rank
  rw [h.busy, if_neg Bool.false_ne_true]

lemma Pinging.rank_eq (h : Pinging opt s) : rank s = s.maxpkts + 1 - s.sentpkts := by
  unfold rank
  rw [h.busy, h.dnsip, if_pos rfl, if_neg Bool.false_ne_true]

lemma Resolving.rank_eq (h : Resolving opt s) : rank s = s.maxpkts := by
  unfold rank
  rw [h.busy, h.dnsip, if_pos rfl, if_pos rfl]

lemma Ended.idle (h : Ended s t) (hopt : s.opt = opt) (hdnsip : s.dnsip = false)
    (htimer : s.timer = false) : Idle opt t :=
  ⟨h.opt.trans hopt, h.busy, h.dnsip.trans hdnsip, h.reading, h.timer.trans htimer⟩

/-- Replies change nothing that matters here. -/
lemma Sending.framed (h : Sending opt s) (hframed : Framed s t) : Sending opt t :=
  ⟨hframed.opt.trans h.opt_eq, hframed.busy.trans h.busy, hframed.dnsip.trans h.dnsip,
    hframed.reading.trans h.reading, hframed.maxpkts.trans h.maxpkts⟩

lemma Pinging.framed (h : Pinging opt s) (hframed : Framed s t) : Pinging opt t where
  toSending := h.toSending.framed hframed
  timer := hframed.timer.trans h.timer
  sentpkts_pos := by rw [hframed.sentpkts]; exact h.sentpkts_pos
  sentpkts_le := by rw [hframed.sentpkts, hframed.maxpkts]; exact h.sentpkts_le

variable {env io} in
lemma Sending.pinging (hs : Sending opt s) (h : Transmitted env io s t)
    (hlt : s.sentpkts < s.maxpkts) : Pinging opt t where
  opt_eq := h.opt.trans hs.opt_eq
  busy := h.busy.trans hs.busy
  dnsip := h.dnsip.trans hs.dnsip
  reading := h.reading.trans hs.reading
  timer := h.timer
  maxpkts := h.maxpkts.trans hs.maxpkts
  sentpkts_pos := by rw [h.sentpkts]; exact Nat.succ_pos _
  sentpkts_le := by rw [h.sentpkts, h.maxpkts]; exact hlt

section Requests

variable (hacts : s.acts = base ++ new) (hnew : ∀ a ∈ new, a.IsRequest)

include hacts hnew

lemma Ended.course (h : Ended s t) (hopt : s.opt = opt) (hdnsip : s.dnsip = false)
    (htimer : s.timer = false) : Course opt base t := by
  obtain ⟨text, error, hended⟩ := h.acts
  rw [hacts] at hended
  exact .ended (h.idle hopt hdnsip htimer) hended hnew

variable (hs : Sending opt s) (htimer : s.maxpkts ≤ s.sentpkts → s.timer = false)

include hs htimer

/-- `ping_xmit` goes on with the run; if it ends it, then the timer must be off. -/
lemma course_pingXmit :
    Course opt base (pingXmit env io s) ∧ rank (pingXmit env io s) ≤ s.maxpkts - s.sentpkts := by
  rcases pingXmit_cases env io s hs.busy with ⟨hle, hend⟩ | ⟨hlt, hsent⟩
  · refine ⟨hend.toEnded.course hacts hnew hs.opt_eq hs.dnsip (htimer hle), ?_⟩
    rw [rank_of_ended hend.toEnded]
    exact Nat.zero_le _
  · have hping := hs.pinging hsent hlt
    obtain ⟨packet, hsends⟩ := hsent.acts
    constructor
    · rw [hacts, append_assoc] at hsends
      refine .pinging hping hsends ?_
      intro a ha
      rcases mem_append.mp ha with ha | ha
      · exact hnew a ha
      · rcases mem_pair.mp ha with rfl | rfl <;> trivial
    · rw [hping.rank_eq, hsent.sentpkts, hsent.maxpkts]
      omega

/-- There was no reply: the run goes on, or ends if the timer is off. -/
lemma course_noreplyCallback :
    Course opt base (noreplyCallback env io s) ∧
      rank (noreplyCallback env io s) ≤ s.maxpkts - s.sentpkts := by
  have hframed := framed_missed env s
  rw [← hframed.maxpkts, ← hframed.sentpkts]
  refine course_pingXmit env io (hframed.acts.trans hacts) hnew (hs.framed hframed) ?_
  rw [hframed.maxpkts, hframed.sentpkts, hframed.timer]
  exact htimer

end Requests

lemma course_pingStart2 {sio : SocketIo} (hopt : s.opt = opt) (hbusy : s.busy = true)
    (hdnsip : s.dnsip = false) (htimer : s.timer = false) (hmax : s.maxpkts = opt.pingcount)
    (hacts : s.acts = base) :
    Course opt base (pingStart2 env io sio s) ∧ rank (pingStart2 env io sio s) ≤ s.maxpkts := by
  have hacts' : s.acts = base ++ [] := hacts.trans (append_nil base).symm
  have hnil : ∀ a ∈ ([] : List Act), a.IsRequest := nofun
  rcases pingStart2_cases env io s sio with hend | heq
  · refine ⟨hend.course hacts' hnil hopt hdnsip htimer, ?_⟩
    rw [rank_of_ended hend]
    exact Nat.zero_le _
  · rw [heq]
    exact course_pingXmit env io hacts' hnil ⟨hopt, hbusy, hdnsip, rfl, hmax⟩ fun _ => htimer

/-! ### Steps -/

variable {env} in
/-- An event that changes nothing. -/
lemma Course.same (h : Course opt base s) (hstep : step env s x = s)
    (hexpires : expires s x = false) :
    Course opt base (step env s x) ∧
      (if expires s x then 1 else 0) + rank (step env s x) ≤ rank s := by
  rw [hstep, hexpires]
  exact ⟨h, (Nat.zero_add _).le⟩

variable {env} in
lemma Pinging.step (h : Pinging opt s) (hx : Orderly env s x) (hacts : s.acts = base ++ new)
    (hnew : ∀ a ∈ new, a.IsRequest) :
    Course opt base (step env s x) ∧
      (if expires s x then 1 else 0) + rank (step env s x) ≤ rank s := by
  have hle := h.sentpkts_le
  have hrank := h.rank_eq
  obtain ⟨e, io⟩ := x
  cases e with
  | start sio => exact (Course.pinging h hacts hnew).same (if_pos h.busy) rfl
  | dns ttr r sio =>
    exact (Course.pinging h hacts hnew).same (if_pos (by rw [h.dnsip]; rfl)) rfl
  | packet p =>
    have hstep : Ping.step env s (.packet p, io) =
        if s.opt.inet6 then readyCallback6 env io p s else readyCallback4 env io p s :=
      if_pos h.reading
    rw [hstep]
    change _ ∧ 0 + _ ≤ _
    rcases packet_cases env io p s with ⟨-, heq⟩ | ⟨number, -, hreply⟩ | ⟨number, hother, heq⟩
    · rw [heq]
      exact ⟨.pinging h hacts hnew, (Nat.zero_add _).le⟩
    · have hping := h.framed hreply.toFramed
      refine ⟨.pinging hping (hreply.acts.trans hacts) hnew, ?_⟩
      rw [hping.rank_eq, hreply.maxpkts, hreply.sentpkts, hrank, Nat.zero_add]
    · have hlt := hx h.reading number hother
      obtain ⟨hcourse, hless⟩ := course_noreplyCallback env io hacts hnew h.toSending
        fun hge => absurd hge (by omega)
      rw [heq]
      exact ⟨hcourse, by omega⟩
  | timeout =>
    have hstep : Ping.step env s (.timeout, io) = noreplyCallback env io s.expired := if_pos h.timer
    have hexpires : expires s (.timeout, io) = true := h.timer
    obtain ⟨hcourse, hless⟩ := course_noreplyCallback env io (s := s.expired) hacts hnew
      ⟨h.opt_eq, h.busy, h.dnsip, h.reading, h.maxpkts⟩ fun _ => rfl
    rw [hstep, hexpires, if_pos rfl]
    change rank _ ≤ s.maxpkts - s.sentpkts at hless
    exact ⟨hcourse, by omega⟩

variable {env} in
lemma Resolving.step (h : Resolving opt s) (hx : Orderly env s x) (hacts : s.acts = base) :
    Course opt base (step env s x) ∧
      (if expires s x then 1 else 0) + rank (step env s x) ≤ rank s := by
  have hrank := h.rank_eq
  obtain ⟨e, io⟩ := x
  cases e with
  | start sio => exact (Course.resolving h hacts).same (if_pos h.busy) rfl
  | dns ttr r sio =>
    change Course opt base (dnsCb env io ttr r sio s) ∧ 0 + rank (dnsCb env io ttr r sio s) ≤ rank s
    have hr : r ≠ .noAddr := by
      rintro rfl
      exact Bool.false_ne_true (hx.symm.trans h.dnsip)
    rw [Nat.zero_add, hrank]
    rcases dnsCb_cases env io s ttr r sio h.busy h.dnsip hr with hend | ⟨sin6, -, heq⟩
    · refine ⟨Ended.course (s := s.resolved ttr) (hacts.trans (append_nil base).symm) nofun hend
        h.opt_eq rfl h.timer, ?_⟩
      rw [rank_of_ended hend]
      exact Nat.zero_le _
    · rw [heq]
      exact course_pingStart2 env io h.opt_eq h.busy rfl h.timer h.maxpkts hacts
  | packet p =>
    exact (Course.resolving h hacts).same (if_neg (ne_true_of_eq_false h.reading)) rfl
  | timeout =>
    exact (Course.resolving h hacts).same (if_neg (ne_true_of_eq_false h.timer)) h.timer

/-- An idle measurement only reacts to a start. -/
lemma Idle.step_eq (h : Idle opt s) (hx : ∀ sio, x.1 ≠ .start sio) :
    step env s x = s ∧ expires s x = false := by
  obtain ⟨e, io⟩ := x
  cases e with
  | start sio => exact absurd rfl (hx sio)
  | dns ttr r sio => exact ⟨if_pos (by rw [h.dnsip]; rfl), rfl⟩
  | packet p => exact ⟨if_neg (ne_true_of_eq_false h.reading), rfl⟩
  | timeout => exact ⟨if_neg (ne_true_of_eq_false h.timer), h.timer⟩

/-- A run begins. -/
lemma Idle.start (h : Idle opt s) (sio : SocketIo) :
    Course opt s.acts (step env s (.start sio, io)) ∧
      rank (step env s (.start sio, io)) ≤ opt.pingcount := by
  have hstep : step env s (.start sio, io) =
      if s.opt.delayNameRes then s.started.resolving else pingStart2 env io sio s.started :=
    if_neg (ne_true_of_eq_false h.busy)
  rw [hstep]
  split
  · have hresolving : Resolving opt s.started.resolving :=
      ⟨h.opt_eq, rfl, rfl, h.reading, h.timer, congrArg Options.pingcount h.opt_eq⟩
    exact ⟨.resolving hresolving rfl, hresolving.rank_eq.le.trans hresolving.maxpkts.le⟩
  · have hmax : s.started.maxpkts = opt.pingcount := congrArg Options.pingcount h.opt_eq
    rw [← hmax]
    exact course_pingStart2 env io h.opt_eq rfl h.dnsip h.timer hmax rfl

variable {env} in
/-- A run goes on with any event but a start. -/
lemma Course.step (h : Course opt base s) (hx : Orderly env s x)
    (hstart : ∀ sio, x.1 ≠ .start sio) :
    Course opt base (step env s x) ∧
      (if expires s x then 1 else 0) + rank (step env s x) ≤ rank s := by
  cases h with
  | resolving h hacts => exact h.step hx hacts
  | pinging h hacts hnew => exact h.step hx hacts hnew
  | ended h hacts hnew =>
    obtain ⟨hstep, hexpires⟩ := h.step_eq env hstart
    exact (Course.ended h hacts hnew).same hstep hexpires

end Phases

/-! ### Runs -/

/-- The measurement is idle before its first run, or it is in a run. -/
def Reached (opt : Options) (s : State) : Prop := Idle opt s ∨ ∃ base, Course opt base s

section Reached

variable {opt : Options} {s : State}

lemma Course.idle {base : List Act} (h : Course opt base s) (hbusy : s.busy = false) :
    Idle opt s := by
  cases h with
  | resolving h hacts | pinging h hacts hnew =>
    exact absurd (hbusy.symm.trans h.busy) Bool.false_ne_true
  | ended h hacts hnew => exact h

lemma Reached.idle (h : Reached opt s) (hbusy : s.busy = false) : Idle opt s := by
  rcases h with h | ⟨base, h⟩
  · exact h
  · exact h.idle hbusy

lemma Reached.step {env : Env} {x : Event × Io} (h : Reached opt s) (hx : Orderly env s x) :
    Reached opt (step env s x) := by
  by_cases hstart : ∃ sio, x.1 = .start sio
  · obtain ⟨e, io⟩ := x
    obtain ⟨sio, rfl⟩ := hstart
    by_cases hbusy : s.busy = true
    · have hstep : Ping.step env s (.start sio, io) = s := if_pos hbusy
      rwa [hstep]
    · exact .inr ⟨_, ((h.idle (Bool.eq_false_iff.mpr hbusy)).start env io sio).1⟩
  · have hother : ∀ sio, x.1 ≠ .start sio := fun sio heq => hstart ⟨sio, heq⟩
    rcases h with h | ⟨base, h⟩
    · obtain ⟨hstep, -⟩ := h.step_eq env hother
      rw [hstep]
      exact .inl h
    · exact .inr ⟨base, (h.step hx hother).1⟩

end Reached

/-- From a start on, requests are sent until one result is written and `done` is called; then the
timer is off and nothing happens until the next start.  As long as the run goes on its name is being
resolved or the timer is on, and it ends when the timer has expired as often as there are requests.
This is if no message that is taken for a timeout comes behind the last request. -/
theorem run_ends_once (env : Env) (opt : Options) (index : ℕ) (cookie : Bytes)
    (sin6 : Sockaddr) (history : List (Event × Io))
    (hhistory : Along (step env) (Orderly env) history (initState opt index cookie sin6))
    {s : State} (hs : s = run (step env) history (initState opt index cookie sin6))
    (hbusy : s.busy = false) (sio : SocketIo) (io : Io) (events : List (Event × Io))
    (hevents : Along (step env) (fun s x => Orderly env s x ∧ ∀ sio, x.1 ≠ .start sio) events
      (step env s (.start sio, io)))
    {t : State} (ht : t = run (step env) events (step env s (.start sio, io))) :
    (∃ new, (∀ a ∈ new, a.IsRequest) ∧
      (t.busy = true ∧ t.acts = s.acts ++ new ∧ (t.dnsip = true ∨ t.timer = true) ∨
      t.busy = false ∧ t.timer = false ∧ t.dnsip = false ∧ t.reading = false ∧
        ∃ text error, t.acts = s.acts ++ new ++ [.written text, .done error])) ∧
    (t.dnsip = false → s.opt.pingcount ≤ countAlong (step env) expires events
      (step env s (.start sio, io)) → t.busy = false) := by
  have hreached : Reached opt s := by
    rw [hs]
    exact hhistory.invariant (fun _ _ h hx => h.step hx) (.inl ⟨rfl, rfl, rfl, rfl, rfl⟩)
  have hidle := hreached.idle hbusy
  obtain ⟨hfirst, hrank⟩ := hidle.start env io sio
  rw [hidle.opt_eq]
  have hcourse : Course opt s.acts t := by
    rw [ht]
    exact hevents.invariant (fun _ _ h hx => (h.step hx.1 hx.2).1) hfirst
  have hcount := hevents.countAlong_add_le rank
    (fun _ _ h hx => (Course.step h hx.1 hx.2).1) (fun _ _ h hx => (h.step hx.1 hx.2).2) hfirst
  rw [← ht] at hcount
  cases hcourse with
  | resolving h hacts =>
    refine ⟨⟨[], nofun, .inl ⟨h.busy, ?_, .inl h.dnsip⟩⟩, ?_⟩
    · rw [hacts, append_nil]
    · intro hdnsip
      exact absurd (hdnsip.symm.trans h.dnsip) Bool.false_ne_true
  | pinging h hacts hnew =>
    refine ⟨⟨_, hnew, .inl ⟨h.busy, hacts, .inr h.timer⟩⟩, ?_⟩
    intro _ hmany
    have hless := h.rank_eq
    have hle := h.sentpkts_le
    omega
  | ended h hacts hnew =>
    exact ⟨⟨_, hnew, .inr ⟨h.busy, h.timer, h.dnsip, h.reading, _, _, hacts⟩⟩, fun _ _ => h.busy⟩

/-- The state in which a plain run begins. -/
def plainStart (count : ℕ) : State :=
  step plainEnv (plainState count) (.start plainSocket, plainIo)

/-- A run with two requests, of which the first is answered, ends when the timer has expired
twice. -/
theorem run_ends_once_reply :
    (run (step plainEnv) [plainDns, plainPacket 0 1, (.timeout, plainIo), (.timeout, plainIo)]
      (plainStart 2)).busy = false := by
  have hmessage : message plainEnv (step plainEnv (plainStart 2) plainDns)
      ⟨fun i => (plainMessage 0 1).getD i 0, 60, by decide, none, none⟩ = some (.reply, 1) := by
    decide +kernel
  have hevents : Along (step plainEnv) (fun s x => Orderly plainEnv s x ∧ ∀ sio, x.1 ≠ .start sio)
      [plainDns, plainPacket 0 1, (.timeout, plainIo), (.timeout, plainIo)] (plainStart 2) := by
    refine ⟨⟨trivial, nofun⟩, ⟨?_, nofun⟩, ⟨trivial, nofun⟩, ⟨trivial, nofun⟩, trivial⟩
    intro _ number h
    cases hmessage.symm.trans h
  have hend := run_ends_once plainEnv (plainOptions 2) 0 (replicate 8 0) plainAddr
    [] trivial rfl rfl plainSocket plainIo _ hevents rfl
  exact hend.2 (by decide +kernel) (by decide +kernel)

/-- How often `done` has been called. -/
def dones (acts : List Act) : ℕ :=
  acts.countP fun
    | .done _ => true
    | .sendto _ _ _ | .timer _ | .written _ => false

/-- An ICMP message that is neither a request nor a reply ends the run while the timer is on, and
`done` is called again when it expires. -/
theorem done_called_again :
    (run (step plainEnv) [plainDns, plainPacket 13 1] (plainStart 1)).busy = false ∧
    (run (step plainEnv) [plainDns, plainPacket 13 1] (plainStart 1)).timer = true ∧
    dones (run (step plainEnv) [plainDns, plainPacket 13 1, (.timeout, plainIo)]
      (plainStart 1)).acts = 2 := by
  decide +kernel

end AtlasProbe.Ping
