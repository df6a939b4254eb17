import AtlasProbe.Evtdig.Refinement

/-!
# What a query writes

A query that is started when it is idle (`Idle`) writes one result: one `RESULT` line, with an
element for each resolver if there are any (`Complete`).  A timer that is left over from a send loop
that ended with an error is the exception.  `Sound` is what holds along a run (`sound_of_run`).
-/

namespace AtlasProbe.Evtdig

open Tasks

/-! ### Idle queries -/

/-- A query that is idle, with the options `c` and `r`. -/
structure Idle (c : Bool) (r : ℕ) (qry : Qry) : Prop where
  conf : qry.optResolvConf = c
  retryMax : qry.optRetryMax = r
  qst : qry.qst = .free
  retry : qry.retry = 0
  events : qry.events = {}
  result : qry.result = []
  index : qry.optResolvConf = true → qry.resolvMax ≤ qry.resolvI

section Idle

variable {c : Bool} {r : ℕ} {qry : Qry} {i : StartInput}

/-- An idle query prints a single element. -/
lemma Idle.printReply (h : Idle c r qry)
    (hindex : qry.optResolvConf = true → qry.resolvMax ≤ qry.resolvI + 1) :
    Idle c r (qry.printReply none) ∧
      (qry.printReply none).written = qry.written ++ [.result [qry.element none]] := by
  have hqst : qry.qst ≠ .retransmitQuery := by
    rw [h.qst]
    decide
  have hevents : qry.events.freed qry.optProto = {} := by
    rw [h.events]
    cases qry.optProto <;> rfl
  rw [printReply_last none hindex hqst, hevents, h.result]
  exact ⟨⟨h.conf, h.retryMax, rfl, rfl, rfl, rfl, fun hconf => by
    rw [if_pos hconf]
    exact hindex hconf⟩, rfl⟩

lemma Idle.tdigStart (h : Idle c r qry) (i : StartInput) : qry.tdigStart i = qry.startFree i := by
  unfold Qry.tdigStart
  rw [h.qst]

/-- Without a name to look up, the start writes a result. -/
lemma Idle.start_unexpanded (h : Idle c r qry) (hi : i.expanded = false) :
    Idle c r (qry.tdigStart i) ∧ ∃ es, (qry.tdigStart i).written = qry.written ++ [.result es] := by
  rw [h.tdigStart]
  unfold Qry.startFree
  rw [if_neg (by simp [hi])]
  generalize bufAdd qry.err _ = err
  have hprint := @Idle.printReply c r { qry with err := err } { h with }
    fun hconf => Nat.le_succ_of_le (h.index hconf)
  exact ⟨hprint.1, _, hprint.2⟩

/-- Without a resolver, the start writes a result with one element. -/
lemma Idle.start_nil (h : Idle true r qry) (hi : i.expanded = true) (hnslist : i.nslist = []) :
    Idle true r (qry.tdigStart i) ∧
      ∃ e, (qry.tdigStart i).written = qry.written ++ [.result [e]] ∧ e.sub = some (1, 0) := by
  rw [h.tdigStart]
  dsimp only [Qry.startFree]
  rw [if_pos hi, if_pos h.conf, hnslist]
  dsimp only [Qry.startResolvers]
  generalize bufAdd qry.err _ = err
  have hprint := @Idle.printReply true r
    { qry with nslist := [], resolvI := 0, resolvMax := 0, serverName := none, err := err }
    { h with index := fun _ => le_rfl } fun _ => Nat.zero_le _
  exact ⟨hprint.1, _, hprint.2, if_pos h.conf⟩

/-- Without `--resolv`, the run is that of a single element. -/
lemma Idle.start_single (h : Idle false r qry) (hi : i.expanded = true) :
    Refines qry.written [(none, qry.serverName)] false (qry.tdigStart i)
      (Progress.first 1 r one_ne_zero) := by
  rw [h.tdigStart]
  dsimp only [Qry.startFree]
  rw [if_pos hi, if_neg (by simp [h.conf]), resolve_eq (by exact h.events)]
  have hno {P : Prop} (htrue : qry.optResolvConf = true) : P := by
    rw [h.conf] at htrue
    cases htrue
  refine ⟨h.conf, h.retryMax, h.retry, rfl, rfl, fun htcp _ => if_pos htcp, fun _ => rfl,
    fun _ => ?_, nofun⟩
  exact ⟨rfl, congrArg (List.map _) h.result, rfl, fun _ => rfl, hno, hno, hno⟩

/-- With `--resolv`, the run is that of the resolvers. -/
lemma Idle.start_resolvers (h : Idle true r qry) (hi : i.expanded = true)
    (hne : (resolverPlan i.nslist).length ≠ 0) :
    Refines qry.written (resolverPlan i.nslist) true (qry.tdigStart i)
      (Progress.first _ r hne) := by
  rw [h.tdigStart]
  dsimp only [Qry.startFree]
  rw [if_pos hi, if_pos h.conf]
  unfold Qry.startResolvers
  generalize i.nslist = nslist at hne ⊢
  cases nslist with
  | nil => exact absurd rfl hne
  | cons name names =>
    dsimp only
    rw [resolve_eq (by exact h.events)]
    refine ⟨h.conf, h.retryMax, h.retry, rfl, rfl, fun htcp _ => if_pos htcp, fun _ => rfl,
      fun _ => ?_, nofun⟩
    refine ⟨rfl, congrArg (List.map _) h.result, rfl, ?_, fun _ => rfl, fun _ => rfl, fun _ => rfl⟩
    exact fun hfalse => absurd (h.conf.symm.trans hfalse) (by decide)

end Idle

/-! ### Reached queries -/

/-- A query that is idle or works off a plan. -/
def Sound (c : Bool) (r : ℕ) (qry : Qry) : Prop :=
  Idle c r qry ∨ ∃ (w : List Line) (plan : List Label) (a : Progress plan.length r),
    Refines w plan c qry a ∧ a.phase ≠ .finished

section Sound

variable {w : List Line} {plan : List Label} {c : Bool} {r : ℕ} {qry qry' : Qry}
  {a : Progress plan.length r} {es : List Event}

/-- A run that is finished leaves the query idle. -/
lemma Refines.idle (h : Refines w plan c qry a) (ha : a.phase = .finished) : Idle c r qry := by
  have hwritten := h.finished ha
  have hevents := h.events
  have hstatus := h.status
  rw [ha] at hevents hstatus
  exact ⟨h.conf, h.retryMax, hstatus, hwritten.retry, hevents, hwritten.result, hwritten.index⟩

lemma Refines.sound (h : Refines w plan c qry a) : Sound c r qry := by
  by_cases ha : a.phase = .finished
  · exact .inl (h.idle ha)
  · exact .inr ⟨w, plan, a, h, ha⟩

/-- A query that is not finished is not idle. -/
lemma Refines.qst_ne_free (h : Refines w plan c qry a) (ha : a.phase ≠ .finished) :
    qry.qst ≠ .free := by
  have hstatus := h.status
  cases hphase : a.phase with
  | paused =>
    rw [hphase] at hstatus
    rcases hstatus with hqst | hqst <;> rw [hqst] <;> decide
  | preparing =>
    rw [hphase] at hstatus
    rw [show qry.qst = .dnsResolv from hstatus]
    decide
  | waiting =>
    rw [hphase] at hstatus
    rw [hstatus]
    cases qry.optProto <;> decide
  | finished => exact absurd hphase ha

/-- A start of an idle query. -/
lemma Idle.sound_start (h : Idle c r qry) (i : StartInput) : Sound c r (qry.tdigStart i) := by
  cases hi : i.expanded with
  | false => exact .inl (h.start_unexpanded hi).1
  | true =>
    cases c with
    | false => exact (h.start_single hi).sound
    | true =>
      by_cases hnslist : i.nslist = []
      · exact .inl (h.start_nil hi hnslist).1
      · exact (h.start_resolvers hi (by simpa using hnslist)).sound

/-- A clean step keeps a query sound. -/
lemma Sound.step {e : Event} (h : Sound c r qry) (hstep : CleanStep qry e qry') :
    Sound c r qry' := by
  obtain ⟨⟨henabled, rfl⟩, hclean⟩ := hstep
  cases hstart : e.isStart with
  | true =>
    obtain ⟨i, rfl⟩ : ∃ i, e = .start i := by cases e <;> simp_all [Event.isStart]
    obtain h | ⟨w, plan, a, h, ha⟩ := h
    · exact h.sound_start i
    · exact absurd hclean (h.qst_ne_free ha)
  | false =>
    obtain h | ⟨w, plan, a, h, ha⟩ := h
    · exact (not_enabled_finished henabled hstart h.events).elim
    · obtain ⟨b, hb, -⟩ := simulates w plan c r _ _ _ _ h ⟨⟨⟨henabled, rfl⟩, hclean⟩, hstart⟩
      exact hb.sound

/-- The states that are reached from a new query are sound. -/
lemma sound_of_run {proto : Proto} {timeout : ℕ} {serverName : Option Bytes}
    (h : Run CleanStep (tdigInit proto c r timeout serverName) es qry) : Sound c r qry :=
  h.invariant (fun _ _ _ hsound hstep => hsound.step hstep)
    (.inl ⟨rfl, rfl, rfl, rfl, rfl, rfl, fun _ => le_rfl⟩)

lemma Sound.idle (h : Sound c r qry) (hqst : qry.qst = .free) : Idle c r qry := by
  obtain h | ⟨w, plan, a, h, ha⟩ := h
  · exact h
  · exact absurd hqst (h.qst_ne_free ha)

/-- Nothing happens to an idle query until it is started. -/
lemma Idle.not_step (h : Idle c r qry) (e : Event) (qry' : Qry) : ¬ CleanStepWithin qry e qry' :=
  fun ⟨⟨⟨henabled, _⟩, _⟩, hstart⟩ => not_enabled_finished henabled hstart h.events

lemma Idle.run_eq (h : Idle c r qry) (hrun : Run CleanStepWithin qry es qry') :
    es = [] ∧ qry' = qry := by
  induction hrun with
  | nil => exact ⟨rfl, rfl⟩
  | snoc _ hlast ih =>
    obtain ⟨rfl, rfl⟩ := ih
    exact absurd hlast (h.not_step _ _)

end Sound

/-! ### Results without `--resolv` -/

/-- Between two starts at most one `RESULT` line is written, and then nothing is pending. -/
theorem run_writes_at_most_one (retryMax timeout : ℕ) (serverName : Bytes)
    {es es' : List Event} {qry qry' : Qry} (i : StartInput)
    (hrun : Run CleanStep (tdigInit .udp false retryMax timeout (some serverName)) es qry)
    (hidle : qry.qst = .free) (hrun' : Run CleanStepWithin (qry.tdigStart i) es' qry') :
    qry'.written = qry.written ∨
      (∃ elements, qry'.written = qry.written ++ [.result elements]) ∧ qry'.events = {} := by
  have h := (sound_of_run hrun).idle hidle
  cases hi : i.expanded with
  | false =>
    obtain ⟨hstarted, hwritten⟩ := h.start_unexpanded hi
    rw [(hstarted.run_eq hrun').2]
    exact .inr ⟨hwritten, hstarted.events⟩
  | true =>
    obtain ⟨b, hb, -⟩ := (simulates _ _ _ _).run (h.start_single hi) hrun'
    by_cases hphase : b.phase = .finished
    · obtain ⟨elements, hwritten, -⟩ := (hb.finished hphase).written
      exact .inr ⟨⟨elements, hwritten⟩, (hb.idle hphase).events⟩
    · exact .inl (hb.underway hphase).written

/-- An address to which the query is sent. -/
def reachable : Addr where
  socket := none
  bound := true
  allowed := true
  connect := none
  getsockname := none
  mkDnsBuff := some 7
  send := none
  inet := true

/-- A name that can be looked up, and a list of resolvers. -/
def startWith (nslist : List Bytes) (h : nslist.length ≤ maxNs) : StartInput :=
  ⟨true, nslist, h⟩

/-- An address that cannot be connected to. -/
def unreachable : Addr := { reachable with connect := some (ascii "Network is unreachable") }

/-- A reply to the query. -/
theorem run_writes_at_most_one_reply :
    ∃ qry', Run CleanStepWithin
        ((tdigInit .udp false 1 5000 (some (ascii "ns.example"))).tdigStart
          (startWith [] (by decide)))
        [.dnsAnswer reachable [], .packet (some [0, 7, 0, 0, 0, 0, 0, 0, 0, 0, 0, 0])] qry' ∧
      qry'.written.length = 1 ∧
      (qry'.written = [] ∨
        (∃ elements, qry'.written = [] ++ [.result elements]) ∧ qry'.events = {}) := by
  have hrun : Run CleanStepWithin
      ((tdigInit .udp false 1 5000 (some (ascii "ns.example"))).tdigStart
        (startWith [] (by decide)))
      [.dnsAnswer reachable [], .packet (some [0, 7, 0, 0, 0, 0, 0, 0, 0, 0, 0, 0])] _ :=
    .snoc (.snoc .nil ⟨⟨⟨by decide, rfl⟩, fun _ _ => by decide⟩, rfl⟩)
      ⟨⟨⟨by decide, rfl⟩, trivial⟩, rfl⟩
  exact ⟨_, hrun, by decide +kernel, run_writes_at_most_one 1 5000 _ _ .nil rfl hrun⟩

/-- The query is sent to the first address, and the second one cannot be connected to: the result is
written, `noreply_timer` fires, and a second result follows. -/
theorem stale_timer_writes_twice :
    ∃ qry' e₁ e₂, Run StepWithin
        ((tdigInit .udp false 0 5000 (some (ascii "ns.example"))).tdigStart
          (startWith [] (by decide)))
        [.dnsAnswer reachable [unreachable], .noreply] qry' ∧
      qry'.written = [.result e₁, .result e₂] := by
  refine ⟨_, _, _, .snoc (.snoc .nil ⟨⟨?_, rfl⟩, rfl⟩) ⟨⟨?_, rfl⟩, rfl⟩, rfl⟩
  · decide
  · decide +kernel

/-! ### Result sets -/

/-- A timer is set, or a DNS request has not been answered. -/
def Qry.Awaits (qry : Qry) : Prop :=
  qry.events.nextQryTimer = true ∨ qry.events.noreplyTimer = true ∨ qry.events.timer = true ∨
    0 < qry.events.dns

/-- A result set that is complete for a list of resolvers. -/
structure Complete (nslist : List Bytes) (elements : List Element) : Prop where
  length : elements.length = max nslist.length 1
  subid : ∀ (k : ℕ) (e : Element), elements[k]? = some e → e.sub.map Prod.fst = some (k + 1)
  submax : nslist ≠ [] → ∀ (k : ℕ) (e : Element), elements[k]? = some e →
    e.sub.map Prod.snd = some nslist.length
  measured : nslist ≠ [] → ∀ (k : ℕ) (e : Element), elements[k]? = some e → e.target = nslist[k]?

/-- When a resolver is done, the next one starts without retries. -/
def Qry.ResetsRetry (qry : Qry) : Prop :=
  ∀ e qry₁, CleanStepWithin qry e qry₁ → qry₁.resolvI ≠ qry.resolvI →
    qry₁.retry = 0 ∧ ∀ e' qry₂, CleanStepWithin qry₁ e' qry₂ → qry₂.retry = 0

/-- The elements that are planned for a list of resolvers are a complete result set. -/
lemma complete_of_plan {nslist : List Bytes} {elements : List Element} (hne : nslist ≠ [])
    (h : elements.map Element.label = resolverPlan nslist) : Complete nslist elements := by
  have hlength : elements.length = nslist.length := by
    rw [← List.length_map, h, length_resolverPlan]
  have hlabel {k : ℕ} {e : Element} (hk : elements[k]? = some e) :
      e.label = (some (k + 1, nslist.length), nslist[k]?) := by
    have hlt : k < nslist.length := hlength ▸ (List.getElem?_eq_some_iff.1 hk).1
    have hplan := getElem?_resolverPlan nslist hlt
    rw [← h, List.getElem?_map, hk] at hplan
    exact Option.some.inj hplan
  refine ⟨?_, ?_, ?_, ?_⟩
  · rw [hlength, max_eq_left (List.length_pos_iff.2 hne)]
  · exact fun k e hk => congrArg (fun label : Label => label.1.map Prod.fst) (hlabel hk)
  · exact fun _ k e hk => congrArg (fun label : Label => label.1.map Prod.snd) (hlabel hk)
  · exact fun _ k e hk => congrArg Prod.snd (hlabel hk)

/-- The single element that is written without a resolver. -/
lemma complete_nil {e : Element} (h : e.sub = some (1, 0)) : Complete [] [e] where
  length := rfl
  subid k e' hk := by
    obtain ⟨hlt, rfl⟩ := List.getElem?_eq_some_iff.1 hk
    obtain rfl : k = 0 := by simpa using hlt
    exact congrArg (Option.map Prod.fst) h
  submax hne := absurd rfl hne
  measured hne := absurd rfl hne

section Resolvers

variable {w : List Line} {plan : List Label} {c : Bool} {r : ℕ} {qry : Qry}
  {a : Progress plan.length r}

/-- A query that is not finished waits for a timer or the answer to a DNS request. -/
lemma Refines.awaits (h : Refines w plan c qry a) (ha : a.phase ≠ .finished) : qry.Awaits := by
  unfold Qry.Awaits
  rw [h.events]
  cases hphase : a.phase with
  | paused => exact .inl rfl
  | preparing => exact .inr (.inr (.inr Nat.zero_lt_one))
  | waiting => cases qry.optProto <;> decide
  | finished => exact absurd hphase ha

lemma Refines.resetsRetry (h : Refines w plan c qry a) : qry.ResetsRetry := by
  intro e qry₁ hstep hne
  obtain ⟨b, hb, hmove⟩ := simulates w plan c r _ _ _ _ h hstep
  by_cases ha : a.phase = .finished
  · exact absurd hstep ((h.idle ha).not_step e qry₁)
  by_cases hphase : b.phase = .finished
  · refine ⟨(hb.finished hphase).retry, fun e' qry₂ hstep' => ?_⟩
    exact absurd hstep' ((hb.idle hphase).not_step e' qry₂)
  · rw [(hb.underway hphase).index, (h.underway ha).index] at hne
    obtain hmove | ⟨rfl, -⟩ := hmove
    · obtain ⟨hretry, hpaused | hfinished⟩ := hmove.of_position_ne hne
      · refine ⟨hb.retry.trans hretry, fun e' qry₂ hstep' => ?_⟩
        obtain ⟨⟨⟨henabled, rfl⟩, -⟩, hstart⟩ := hstep'
        obtain ⟨d, hd, hmove'⟩ := hb.step_paused henabled hstart hpaused
        exact hd.retry.trans ((hmove'.retry_of_paused hpaused).trans hretry)
      · exact absurd hfinished hphase
    · exact absurd rfl hne

end Resolvers

/-- A run with `--resolv` writes one `RESULT` line, which is complete: it is written when the query
is idle again, and until then a timer or the answer to a DNS request is to come, of which there are
not too many. -/
theorem resultset_complete (proto : Proto) (retryMax timeout : ℕ)
    (serverName : Option Bytes) {es es' : List Event} {qry qry' : Qry} (i : StartInput)
    (hrun : Run CleanStep (tdigInit proto true retryMax timeout serverName) es qry)
    (hidle : qry.qst = .free) (hi : i.expanded = true)
    (hrun' : Run CleanStepWithin (qry.tdigStart i) es' qry') :
    (qry'.qst = .free → ∃ elements, qry'.written = qry.written ++ [.result elements] ∧
      Complete i.nslist elements) ∧
    (qry'.qst ≠ .free → qry'.written = qry.written ∧ qry'.Awaits) ∧
    es'.countP Event.awaited ≤ 3 * (i.nslist.length * (retryMax + 1)) + 1 ∧
    qry'.ResetsRetry := by
  have h := (sound_of_run hrun).idle hidle
  by_cases hnslist : i.nslist = []
  · obtain ⟨hstarted, e, hwritten, hsub⟩ := h.start_nil hi hnslist
    obtain ⟨rfl, rfl⟩ := hstarted.run_eq hrun'
    rw [hnslist]
    refine ⟨fun _ => ⟨[e], hwritten, complete_nil hsub⟩, fun hbusy => absurd hstarted.qst hbusy,
      Nat.zero_le _, fun e' qry₁ hstep => absurd hstep (hstarted.not_step e' qry₁)⟩
  · have hstarted := h.start_resolvers hi (by simpa using hnslist)
    have hsim := simulates qry.written (resolverPlan i.nslist) true retryMax
    obtain ⟨b, hb, hcount⟩ := hsim.countP_le (fun a b => Move.rank_lt) hstarted hrun'
    have hbound := (Nat.le_add_right _ _).trans hcount
    rw [rank_first, length_resolverPlan] at hbound
    refine ⟨fun hfree => ?_, fun hbusy => ?_, hbound, hb.resetsRetry⟩
    · have hphase : b.phase = .finished := by
        by_contra hne
        exact hb.qst_ne_free hne hfree
      obtain ⟨elements, hwritten, hlabels⟩ := (hb.finished hphase).written
      exact ⟨elements, hwritten, complete_of_plan hnslist hlabels⟩
    · have hphase : b.phase ≠ .finished := fun heq => hbusy (hb.idle heq).qst
      exact ⟨(hb.underway hphase).written, hb.awaits hphase⟩

/-- A reply from the first resolver; the name of the second one cannot be resolved. -/
theorem resultset_complete_two :
    ∃ qry', Run CleanStepWithin
        ((tdigInit .udp true 0 5000 none).tdigStart
          (startWith [ascii "192.0.2.1", ascii "ns.example"] (by decide)))
        [.dnsAnswer reachable [], .packet (some [0, 7, 0, 0, 0, 0, 0, 0, 0, 0, 0, 0]),
          .nextQry (startWith [] (by decide)), .dnsError (ascii "nodename nor servname provided")]
        qry' ∧
      qry'.qst = .free ∧
      ∃ elements, qry'.written = [] ++ [.result elements] ∧
        Complete [ascii "192.0.2.1", ascii "ns.example"] elements := by
  have hrun : Run CleanStepWithin
      ((tdigInit .udp true 0 5000 none).tdigStart
        (startWith [ascii "192.0.2.1", ascii "ns.example"] (by decide)))
      [.dnsAnswer reachable [], .packet (some [0, 7, 0, 0, 0, 0, 0, 0, 0, 0, 0, 0]),
        .nextQry (startWith [] (by decide)),
        .dnsError (ascii "nodename nor servname provided")] _ :=
    .snoc (.snoc (.snoc (.snoc .nil ⟨⟨⟨by decide, rfl⟩, fun _ _ => by decide⟩, rfl⟩)
      ⟨⟨⟨by decide, rfl⟩, trivial⟩, rfl⟩) ⟨⟨⟨by decide +kernel, rfl⟩, trivial⟩, rfl⟩)
      ⟨⟨⟨by decide +kernel, rfl⟩, trivial⟩, rfl⟩
  exact ⟨_, hrun, by decide +kernel,
    (resultset_complete .udp 0 5000 none _ .nil rfl rfl hrun).1 (by decide +kernel)⟩

/-- A resolver with two addresses, the second of which cannot be connected to: the result set is
written, `noreply_timer` fires, and a second one follows. -/
theorem stale_timer_writes_two_sets :
    ∃ qry' e₁ e₂, Run StepWithin
        ((tdigInit .udp true 0 5000 none).tdigStart (startWith [ascii "localhost"] (by decide)))
        [.dnsAnswer reachable [unreachable], .noreply] qry' ∧
      qry'.written = [.result e₁, .result e₂] := by
  refine ⟨_, _, _, .snoc (.snoc .nil ⟨⟨?_, rfl⟩, rfl⟩) ⟨⟨?_, rfl⟩, rfl⟩, rfl⟩
  · decide +kernel
  · decide

end AtlasProbe.Evtdig
