import AtlasProbe.Traceroute.Noted

/-!
# The hops of a run

The probes of a run go through the hops in order, with the same number of probes for each of them
(`Plan`, `InOrder`).  If too many hops in a row have not answered there is one last group of probes
with the largest hop limit (`LastGroup`).  `Walking` is what holds in a run (`Walking.step`).
-/

namespace AtlasProbe.Traceroute

open List Wire Measurement

/-! ### Hop limits -/

/-- The hop limit of a probe that is sent. -/
def Act.hopLimit : Act → Option ℕ
  | .sent probe => some probe.hop
  | .timer _ | .written _ => none

/-- The hop limits of the probes that are sent. -/
def hopLimits (acts : List Act) : List ℕ := acts.filterMap Act.hopLimit

lemma hopLimits_append (acts more : List Act) :
    hopLimits (acts ++ more) = hopLimits acts ++ hopLimits more := filterMap_append

lemma hopLimits_timers (usecs : List ℕ) : hopLimits (usecs.map Act.timer) = [] := by
  induction usecs with
  | nil => rfl
  | cons usec usecs ih => exact ih

/-- Whole groups of probes for `n` hops. -/
def groups (count first n : ℕ) : List ℕ :=
  (List.range n).flatMap fun k => List.replicate count (first + k)

lemma groups_succ (count first n : ℕ) :
    groups count first (n + 1) = groups count first n ++ List.replicate count (first + n) := by
  unfold groups
  rw [range_succ]
  simp

lemma length_groups (count first n : ℕ) : (groups count first n).length = n * count := by
  induction n with
  | zero => simp [groups]
  | succ n ih => rw [groups_succ, length_append, ih, length_replicate, Nat.add_one_mul]

lemma lt_of_mem_groups {count first n hop : ℕ} (h : hop ∈ groups count first n) :
    hop < first + n := by
  obtain ⟨k, hk, hmem⟩ := mem_flatMap.mp h
  rw [eq_of_mem_replicate hmem]
  exact Nat.add_lt_add_left (mem_range.mp hk) first

/-- The options that a run is asked for: how many probes for each hop, the first and the last hop,
and how many hops in a row may be without an answer. -/
structure Plan where
  count : ℕ
  firsthop : ℕ
  maxhops : ℕ
  gaplimit : ℕ
  count_pos : 1 ≤ count
  count_le : count ≤ 127
  firsthop_pos : 1 ≤ firsthop
  firsthop_le : firsthop ≤ maxhops
  maxhops_le : maxhops ≤ 255
  gaplimit_pos : 1 ≤ gaplimit
  gaplimit_le : gaplimit ≤ 255

/-- The hop limits of a run up to `k` probes with the hop limit `hop`, when some hops have answered:
the hops are in order, and there may be a last group with hop limit 255 behind at least as many hops
without an answer as the plan says. -/
inductive Itinerary (plan : Plan) (answered : List ℕ) : ℕ → ℕ → List ℕ → Prop
  | inOrder {hop k : ℕ} (hfirst : plan.firsthop ≤ hop) (hmax : hop ≤ plan.maxhops) :
      Itinerary plan answered hop k
        (groups plan.count plan.firsthop (hop - plan.firsthop) ++ List.replicate k hop)
  | lastDitch {hop k : ℕ} (hfirst : plan.firsthop + plan.gaplimit ≤ hop + 1)
      (hmax : hop < plan.maxhops)
      (hgap : ∀ h ∈ answered, h ≤ hop → h + plan.gaplimit ≤ hop) :
      Itinerary plan answered 255 k
        (groups plan.count plan.firsthop (hop + 1 - plan.firsthop) ++ List.replicate k 255)

lemma Itinerary.length_le {plan : Plan} {answered hops : List ℕ} {hop k : ℕ}
    (h : Itinerary plan answered hop k hops) (hk : k ≤ plan.count) :
    hops.length ≤ 255 * plan.count := by
  have hmax := plan.maxhops_le
  have hfirst := plan.firsthop_pos
  have hgroups {n : ℕ} (hn : n + 1 ≤ 255) : n * plan.count + k ≤ 255 * plan.count :=
    calc n * plan.count + k ≤ n * plan.count + plan.count := Nat.add_le_add_left hk _
      _ = (n + 1) * plan.count := (Nat.add_one_mul _ _).symm
      _ ≤ 255 * plan.count := Nat.mul_le_mul_right _ hn
  cases h with
  | inOrder hfirst hmax | lastDitch hfirst hmax hgap =>
    rw [length_append, length_groups, length_replicate]
    exact hgroups (by omega)

/-! ### Runs -/

/-- The options are those of a plan. -/
structure Options.Follows (o : Options) (plan : Plan) : Prop where
  trtcount : o.trtcount = plan.count
  firsthop : o.firsthop = plan.firsthop
  maxhops : o.maxhops = plan.maxhops
  gaplimit : o.gaplimit = plan.gaplimit
  proto : ∃ proto, o.proto = some proto

/-- The hops are still in order, and the answers up to the last hop have been noted. -/
structure InOrder (plan : Plan) (new : List Act) (answered : List ℕ) (s : State) : Prop where
  lastditch : s.lastditch = false
  hop_le : s.hop ≤ plan.maxhops
  limits : hopLimits new = groups plan.count plan.firsthop (s.hop - plan.firsthop) ++
    List.replicate s.sent s.hop
  noted : Noted s
  firsthop_le : plan.firsthop ≤ s.lastResponseHop + 1
  answered : ∀ h ∈ answered, h ≤ s.lastResponseHop ∨ h = s.hop ∧ Settled s

/-- The run is in its last group. -/
structure LastGroup (plan : Plan) (new : List Act) (answered : List ℕ) (s : State) : Prop where
  hop_eq : s.hop = 255
  limits : ∃ hop, plan.firsthop + plan.gaplimit ≤ hop + 1 ∧ hop < plan.maxhops ∧
    (∀ h ∈ answered, h ≤ hop → h + plan.gaplimit ≤ hop) ∧
    hopLimits new = groups plan.count plan.firsthop (hop + 1 - plan.firsthop) ++
      List.replicate s.sent 255

/-- How far a run is: what it has done since it was started, and which hops have answered. -/
structure Walking (host : Host) (plan : Plan) (base new : List Act) (answered : List ℕ)
    (s : State) : Prop where
  live : Live host (fun _ => True) s
  follows : s.opt.Follows plan
  sent_le : s.sent ≤ plan.count
  acts : s.acts = base ++ new
  unwritten : ∀ text, .written text ∉ new
  seq : s.seq = (hopLimits new).length
  state : InOrder plan new answered s ∨ LastGroup plan new answered s

/-- The probes of a hop have all been sent, and the run does not go on: it is the last hop, or the
destination has answered. -/
def HopEnds (plan : Plan) (s : State) : Prop :=
  s.sent = plan.count ∧ (s.hop = plan.maxhops ∨ s.hop = 255 ∨ s.done = true ∧ s.notDone = false)

/-- The run has ended with its result. -/
structure Ended (plan : Plan) (base new : List Act) (answered : List ℕ) (s : State) : Prop where
  idle : Idle s
  busy : s.busy = false
  acts : ∃ text, s.acts = base ++ new ++ [.written text]
  unwritten : ∀ text, .written text ∉ new
  itinerary : Itinerary plan answered s.hop s.sent (hopLimits new)
  ends : HopEnds plan s

section Walking

variable {host : Host} {plan : Plan} {base new : List Act} {answered more : List ℕ} {io : Io}
  {s t : State} {e : Event} {events : List (Event × Io)}

/-- Making a packet keeps what has been noted. -/
lemma Prepared.noted (h : Prepared s t) (hs : Noted s) : Noted t := by
  have hunsent : Noted t.unsent := by
    rw [h.unsent]
    exact ⟨hs.notDone, hs.gotresp, hs.le⟩
  exact ⟨hunsent.notDone, hunsent.gotresp, hunsent.le⟩

lemma Prepared.settled (h : Prepared s t) (hs : Settled s) : Settled t := by
  have hunsent : Settled t.unsent := by
    rw [h.unsent]
    exact hs
  exact hunsent

lemma notes_unanswered (s : State) : KeepsNotes s s.unanswered :=
  ⟨.of_core rfl rfl, fun h => ⟨h.notDone, nofun, h.le⟩, fun _ h => h, .inl rfl⟩

/-- All answers of a hop that does not end the run have been noted. -/
lemma InOrder.answered_le (h : InOrder plan new answered s)
    (hdone : ¬(s.done = true ∧ s.notDone = false)) : ∀ k ∈ answered, k ≤ s.lastResponseHop := by
  intro k hk
  rcases h.answered k hk with hle | ⟨hhop, hlast | hend⟩
  · exact hle
  · exact (hhop.trans hlast.symm).le
  · exact absurd hend hdone

section Sending

variable (h : Walking host plan base new answered s)

include h

lemma Walking.first_le : plan.firsthop ≤ s.hop :=
  h.follows.firsthop ▸ h.live.firsthop_le

lemma Walking.itinerary : Itinerary plan answered s.hop s.sent (hopLimits new) := by
  have hfirst := h.first_le
  rcases h.state with hin | hlast
  · rw [hin.limits]
    exact .inOrder hfirst hin.hop_le
  · obtain ⟨hop, hgap, hmax, hanswered, hlimits⟩ := hlast.limits
    rw [hlimits, hlast.hop_eq]
    exact .lastDitch hgap hmax hanswered

/-- A step within a hop that sends `k` probes, and keeps what has been noted. -/
structure Moves (more : List Act) (k : ℕ) (s t : State) : Prop where
  opt : t.opt = s.opt
  hop : t.hop = s.hop
  sent : t.sent = s.sent + k
  seq : t.seq = s.seq + k
  lastditch : t.lastditch = s.lastditch
  acts : t.acts = s.acts ++ more
  unwritten : ∀ text, .written text ∉ more
  limits : hopLimits more = List.replicate k s.hop
  noted : Noted s → Noted t ∧ s.lastResponseHop ≤ t.lastResponseHop ∧ (Settled s → Settled t)

lemma Walking.moves {acts : List Act} {k : ℕ} (hm : Moves acts k s t)
    (hlive : Live host (fun _ => True) t) (hsent : s.sent + k ≤ plan.count)
    (hmore : ∀ j ∈ more, j = s.hop ∧ (Noted s → Settled t)) :
    Walking host plan base (new ++ acts) (answered ++ more) t := by
  have hlimits {l : List ℕ} {hop : ℕ} (hhop : s.hop = hop)
      (hnew : hopLimits new = l ++ List.replicate s.sent hop) :
      hopLimits (new ++ acts) = l ++ List.replicate t.sent hop := by
    rw [hopLimits_append, hm.limits, hnew, hhop, append_assoc, replicate_append_replicate, hm.sent]
  refine ⟨hlive, hm.opt ▸ h.follows, hm.sent ▸ hsent, ?_, fun text hmem => ?_, ?_, ?_⟩
  · rw [hm.acts, h.acts, append_assoc]
  · exact (mem_append.mp hmem).elim (h.unwritten text) (hm.unwritten text)
  · rw [hm.seq, h.seq, hopLimits_append, length_append, hm.limits, length_replicate]
  · rcases h.state with hin | hlast
    · obtain ⟨hnoted, hle, hsettled⟩ := hm.noted hin.noted
      refine .inl ⟨hm.lastditch.trans hin.lastditch, hm.hop ▸ hin.hop_le, ?_, hnoted,
        hin.firsthop_le.trans (Nat.succ_le_succ hle), fun j hj => ?_⟩ <;> rw [hm.hop]
      · exact hlimits rfl hin.limits
      · rcases mem_append.mp hj with hold | hnew
        · exact (hin.answered j hold).imp (·.trans hle) (And.imp_right hsettled)
        · exact .inr ((hmore j hnew).imp_right fun hset => hset hin.noted)
    · obtain ⟨hop, hgap, hmax, hanswered, heq⟩ := hlast.limits
      refine .inr ⟨hm.hop.trans hlast.hop_eq, hop, hgap, hmax, fun j hj hle => ?_,
        hlimits hlast.hop_eq heq⟩
      rcases mem_append.mp hj with hold | hnew
      · exact hanswered j hold hle
      · have hhop := (hmore j hnew).1
        have h255 := hlast.hop_eq
        have hplan := plan.maxhops_le
        omega

/-- The hop of an answer is noted, and nothing else happens. -/
lemma Walking.notes (hnotes : KeepsNotes s t)
    (hmore : ∀ j ∈ more, j = s.hop ∧ (Noted s → Settled t)) :
    ∃ new', Walking host plan base new' (answered ++ more) t ∧ hopLimits new' = hopLimits new := by
  obtain ⟨usecs, hacts⟩ := hnotes.quiet.acts
  have hsame := hnotes.quiet.sameHop
  have hm : Moves (usecs.map Act.timer) 0 s t := by
    refine ⟨hsame.opt, hsame.hop, hsame.sent, (congrArg State.seq hnotes.quiet.core :),
      (congrArg State.lastditch hnotes.quiet.core :), hacts, ?_, hopLimits_timers usecs,
      fun hs => ⟨hnotes.noted hs, ?_, hnotes.settled hs⟩⟩
    · rintro text hmem
      obtain ⟨usec, -, ⟨⟩⟩ := mem_map.mp hmem
    · have hle := hs.le
      rcases hnotes.lastResponseHop with heq | heq <;> omega
  refine ⟨_, h.moves hm (h.live.quiet hnotes.quiet) h.sent_le hmore, ?_⟩
  rw [hopLimits_append, hopLimits_timers, append_nil]

/-! ### Sending -/

/-- The next probe is sent. -/
lemma Walking.transmit (hio : io.Sends) (hsent : s.sent < plan.count) :
    ∃ new', Walking host plan base new' answered (transmit host io s) ∧
      (transmit host io s).timer = true ∧
      (hopLimits new').length = (hopLimits new).length + 1 := by
  have hcount := plan.count_le
  obtain ⟨proto, hproto⟩ := h.follows.proto
  have heq := transmit_of_sends host s hio hproto
  have hlive : Idle (Traceroute.transmit host io s) ∨
      Live host (fun _ => True) (Traceroute.transmit host io s) := h.live.transmit (by omega)
  rw [heq] at hlive ⊢
  have ht := prepared_prepare host io s proto
  have hseq := h.live.seq_prepared (by omega) ht
  have hacts : (prepare host io (s.count io) proto).1.acts = s.acts :=
    (congrArg State.acts ht.unsent :)
  have hditch : (prepare host io (s.count io) proto).1.lastditch = s.lastditch :=
    (congrArg State.lastditch ht.unsent :)
  have hlast : (prepare host io (s.count io) proto).1.lastResponseHop = s.lastResponseHop :=
    (congrArg State.lastResponseHop ht.unsent :)
  have hsame := ht.sameHop
  have hprobe : ((s.count io).sentProbe host io proto).hop = s.hop := hsame.hop
  generalize (s.count io).sentProbe host io proto = probe at hprobe hlive ⊢
  generalize (prepare host io (s.count io) proto).1 = t at *
  have hm : Moves [.sent probe, .timer t.opt.timeout] 1 s (launched (t.emit probe)) := by
    refine ⟨hsame.opt, hsame.hop, congrArg (· + 1) hsame.sent, hseq, hditch, ?_, by simp,
      congrArg (fun hop => [hop]) hprobe, fun hs => ?_⟩
    · change t.acts ++ [.sent probe] ++ [.timer t.opt.timeout] = _
      rw [hacts, append_assoc]
      rfl
    · have hnoted := ht.noted hs
      exact ⟨⟨hnoted.notDone, hnoted.gotresp, hnoted.le⟩, hlast.ge, ht.settled⟩
  have hwalk : Walking host plan base _ (answered ++ []) _ := h.moves hm
    (hlive.resolve_left fun hidle => Bool.false_ne_true hidle.timer.symm) hsent nofun
  rw [append_nil] at hwalk
  refine ⟨_, hwalk, rfl, ?_⟩
  rw [hopLimits_append, length_append, hm.limits, length_replicate]

/-- A run that does not go on has ended. -/
lemma Walking.report (hends : HopEnds plan s) :
    Ended plan base new answered (report host io s.endHop) := by
  refine ⟨idle_report _, rfl, ⟨reportText host io s.endHop, ?_⟩, h.unwritten, h.itinerary, hends⟩
  rw [← h.acts]
  rfl

/-- The next hop in order. -/
lemma Walking.nextHop (hin : InOrder plan new answered s) (hsent : s.sent = plan.count)
    (hhop : s.hop < plan.maxhops) (hdone : ¬(s.done = true ∧ s.notDone = false)) :
    Walking host plan base new answered s.endHop.nextHop.openHop := by
  have hmax := plan.maxhops_le
  have hle := hin.noted.le
  have hfirst := h.first_le
  have hnext : (s.hop + 1) % 256 = s.hop + 1 := Nat.mod_eq_of_lt (by omega)
  refine ⟨(h.live.nextHop (by omega)).openHop, h.follows, Nat.zero_le _, h.acts, h.unwritten, h.seq,
    .inl ⟨hin.lastditch, ?_, ?_, ⟨?_, ?_, ?_⟩, hin.firsthop_le, ?_⟩⟩
  · change (s.hop + 1) % 256 ≤ plan.maxhops
    omega
  · change _ = groups plan.count plan.firsthop ((s.hop + 1) % 256 - plan.firsthop) ++ []
    rw [hin.limits, hsent, hnext, Nat.sub_add_comm hfirst, groups_succ, append_nil,
      Nat.add_sub_cancel' hfirst]
  · exact nofun
  · exact nofun
  · change s.lastResponseHop ≤ (s.hop + 1) % 256
    omega
  · exact fun k hk => .inl (hin.answered_le hdone k hk)

/-- The last group, behind a gap. -/
lemma Walking.lastDitch (hin : InOrder plan new answered s) (hsent : s.sent = plan.count)
    (hhop : s.hop < plan.maxhops) (hdone : ¬(s.done = true ∧ s.notDone = false))
    (hgap : s.lastResponseHop + plan.gaplimit < s.hop + 1) :
    Walking host plan base new answered s.endHop.nextHop.lastDitch.openHop := by
  have hmax := plan.maxhops_le
  have hfirst := h.first_le
  refine ⟨(h.live.nextHop (by omega)).lastDitch.openHop, h.follows, Nat.zero_le _, h.acts,
    h.unwritten, h.seq, .inr ⟨rfl, s.hop, ?_, hhop, ?_, ?_⟩⟩
  · have hle := hin.firsthop_le
    omega
  · intro k hk hle
    have hnoted := hin.answered_le hdone k hk
    omega
  · change _ = _ ++ []
    rw [hin.limits, hsent, Nat.sub_add_comm hfirst, groups_succ, append_nil,
      Nat.add_sub_cancel' hfirst]

/-- `send_pkt` sends the next probe, or ends the run exactly if the hop does. -/
lemma Walking.sendPkt (hio : io.Sends) :
    (∃ new', Walking host plan base new' answered (sendPkt host io s) ∧
      (sendPkt host io s).timer = true ∧
      (hopLimits new').length = (hopLimits new).length + 1 ∧ ¬HopEnds plan s) ∨
    (Ended plan base new answered (sendPkt host io s) ∧ HopEnds plan s) := by
  have hsent := h.sent_le
  have hcount := h.follows.trtcount
  have hpos := plan.count_pos
  have hmaxhops := h.follows.maxhops
  rcases sendPkt_cases host io s with ⟨hmore, heq⟩ | ⟨hall, hlast, heq⟩ | ⟨hall, hhop, hdone, hnext⟩
  · rw [heq]
    obtain ⟨new', hwalk, hlimits⟩ := h.notes (notes_unanswered s) (forall_mem_nil _)
    rw [append_nil] at hwalk
    have hless : s.sent < plan.count := by omega
    obtain ⟨new'', hwalk', htimer, hlength⟩ := hwalk.transmit hio hless
    refine .inl ⟨new'', hwalk', htimer, hlength.trans (by rw [hlimits]), fun hends => ?_⟩
    exact hless.ne hends.1
  · have hends : HopEnds plan s := by
      refine ⟨by omega, ?_⟩
      rcases hlast with hhop | hdone
      · rcases h.state with hin | hgroup
        · have hle := hin.hop_le
          exact .inl (by omega)
        · exact .inr (.inl hgroup.hop_eq)
      · exact .inr (.inr hdone)
    rw [heq]
    exact .inr ⟨h.report hends, hends⟩
  · have hmax := plan.maxhops_le
    rw [hmaxhops] at hhop
    have hin : InOrder plan new answered s := h.state.resolve_right fun hgroup => by
      have h255 := hgroup.hop_eq
      omega
    have hfull : s.sent = plan.count := by omega
    have hwrap : (s.hop + 1) % 256 = s.hop + 1 := Nat.mod_eq_of_lt (by omega)
    have hends : ¬HopEnds plan s := by
      rintro ⟨-, hlast | hlast | hlast⟩
      · omega
      · omega
      · exact hdone hlast
    rw [h.follows.gaplimit, hwrap] at hnext
    rcases hnext with ⟨hgap, ⟨hditch, -⟩ | ⟨-, heq⟩⟩ | ⟨-, heq⟩
    · exact absurd (hin.lastditch.symm.trans hditch) Bool.false_ne_true
    · rw [heq]
      obtain ⟨new', hwalk, htimer, hlength⟩ :=
        (h.lastDitch hin hfull hhop hdone hgap).transmit hio hpos
      exact .inl ⟨new', hwalk, htimer, hlength, hends⟩
    · rw [heq]
      obtain ⟨new', hwalk, htimer, hlength⟩ := (h.nextHop hin hfull hhop hdone).transmit hio hpos
      exact .inl ⟨new', hwalk, htimer, hlength, hends⟩

end Sending

/-! ### Events of a run -/

/-- What drives a run: packets and timeouts. -/
def Event.Drives : Event → Prop
  | .icmp _ | .tcp _ | .timeout => True
  | .start | .dns _ _ _ => False

/-- The timer has expired. -/
def Event.isTimeout : Event → Bool
  | .timeout => true
  | .start | .dns _ _ _ | .icmp _ | .tcp _ => false

/-- `send_pkt` is called in the state `t` while an event is handled. -/
def SendsFrom (host : Host) (io : Io) (s : State) (e : Event) (t : State) : Prop :=
  Quiet s t ∧ step host io s e = sendPkt host io t

/-- The hop of an event that answers the last probe. -/
def answeredHop (host : Host) (io : Io) (s : State) (e : Event) : List ℕ :=
  if AnswersLast host io.tabsiz s e then [s.hop] else []

/-- The run goes on, with at least `n` probes. -/
def GoesOn (host : Host) (plan : Plan) (base : List Act) (answered : List ℕ) (n : ℕ) (s : State) :
    Prop :=
  ∃ new, Walking host plan base new answered s ∧ s.timer = true ∧ n ≤ (hopLimits new).length

/-- The state in which `send_pkt` is called is that of a run, so that the run goes on with another
probe, or ends. -/
lemma Walking.sends (h : Walking host plan base new answered t) (hio : io.Sends)
    (hsends : SendsFrom host io s e t) :
    GoesOn host plan base answered ((hopLimits new).length + 1) (step host io s e) ∨
      (∃ new', Ended plan base new' answered (step host io s e)) ∧
        ∃ t, SendsFrom host io s e t ∧ HopEnds plan t := by
  rw [hsends.2]
  rcases h.sendPkt hio with ⟨new', hwalk, htimer, hlength, -⟩ | ⟨hended, hends⟩
  · exact .inl ⟨new', hwalk, htimer, hlength.ge⟩
  · exact .inr ⟨⟨new, hended⟩, t, hsends, hends⟩

/-- An event of a run: the run goes on, and after a timeout with another probe, or it ends. -/
lemma Walking.step (h : Walking host plan base new answered s) (htimer : s.timer = true)
    (he : e.Drives) (hio : io.Sends) (hspoils : ¬Spoils host io.tabsiz s e) :
    GoesOn host plan base (answered ++ answeredHop host io s e)
        ((hopLimits new).length + if e.isTimeout then 1 else 0) (step host io s e) ∨
      (∃ new', Ended plan base new' (answered ++ answeredHop host io s e) (step host io s e)) ∧
        ∃ t, SendsFrom host io s e t ∧ HopEnds plan t := by
  have hbound : s.seq < 65535 := by
    have hseq := h.live.seq_le
    have hsent := h.live.sent_le
    have hhop := h.live.hop_le
    omega
  by_cases htimeout : e = .timeout
  · subst htimeout
    obtain ⟨t, hquiet, hsends, honly⟩ := timeout_eq host io htimer
    obtain ⟨new', hwalk, hlimits⟩ := h.notes (.of_onlyReported hquiet honly) fun _ hj =>
      absurd hj not_mem_nil
    rw [← hlimits]
    exact hwalk.sends hio ⟨hquiet, hsends⟩
  · have hhandled : HandledBy host io (AnswersLast host io.tabsiz s e) s
        (Traceroute.step host io s e) := by
      cases e with
      | icmp p => exact handledBy_icmp hspoils
      | tcp p => exact handledBy_tcp hbound
      | timeout => exact absurd rfl htimeout
      | start | dns => exact he.elim
    have hzero : (if e.isTimeout then 1 else 0) = 0 := by
      cases e with
      | timeout => exact absurd rfl htimeout
      | icmp | tcp | start | dns => rfl
    obtain ⟨t, hnotes, hans, hstep⟩ := hhandled
    have hmore : ∀ j ∈ answeredHop host io s e, j = s.hop ∧ (Noted s → Settled t) := by
      unfold answeredHop
      split
      · next hanswers => exact fun j hj => ⟨mem_singleton.mp hj, hans hanswers⟩
      · exact nofun
    obtain ⟨new', hwalk, hlimits⟩ := h.notes hnotes.toKeepsNotes hmore
    rw [hzero, ← hlimits]
    rcases hstep with heq | heq
    · rw [heq]
      exact .inl ⟨new', hwalk, hnotes.timer htimer, Nat.le_refl _⟩
    · refine (hwalk.sends hio ⟨hnotes.quiet, heq⟩).imp_left ?_
      rintro ⟨new'', hwalk', htimer', hlength⟩
      exact ⟨new'', hwalk', htimer', (Nat.le_succ _).trans hlength⟩

/-- The run ends exactly if a hop ends that it does not go on from. -/
lemma Walking.ends_iff (h : Walking host plan base new answered s) (htimer : s.timer = true)
    (he : e.Drives) (hio : io.Sends) (hspoils : ¬Spoils host io.tabsiz s e) :
    (Traceroute.step host io s e).busy = false ↔ ∃ t, SendsFrom host io s e t ∧ HopEnds plan t := by
  constructor
  · intro hbusy
    rcases h.step htimer he hio hspoils with ⟨new', hwalk, -, -⟩ | ⟨-, hends⟩
    · exact absurd (hwalk.live.busy.symm.trans hbusy) (by decide)
    · exact hends
  · rintro ⟨t, ⟨hquiet, heq⟩, hfull, hlast⟩
    have hopt : t.opt = s.opt := hquiet.sameHop.opt
    have hcount := h.follows.trtcount
    have hmax := h.follows.maxhops
    have hle := plan.maxhops_le
    rw [← hopt] at hcount hmax
    rcases sendPkt_cases host io t with ⟨hmore, -⟩ | ⟨-, -, hreport⟩ | ⟨-, hhop, hdone, -⟩
    · omega
    · rw [heq, hreport]
      rfl
    · rcases hlast with hhop' | hhop' | hdone'
      · omega
      · omega
      · exact absurd hdone' hdone

/-! ### Whole runs -/

/-- The hops that have answered their last probe. -/
def answeredHops (host : Host) : List (Event × Io) → State → List ℕ
  | [], _ => []
  | (e, io) :: events, s => answeredHop host io s e ++ answeredHops host events (step host io s e)

/-- No note of an answer is taken back. -/
def Unspoiled (host : Host) : List (Event × Io) → State → Prop
  | [], _ => True
  | (e, io) :: events, s => ¬Spoils host io.tabsiz s e ∧ Unspoiled host events (step host io s e)

/-- How often the timer has expired. -/
def timeouts (events : List (Event × Io)) : ℕ := events.countP fun x => x.1.isTimeout

variable (host io) in
/-- Nothing happens behind the end. -/
lemma Ended.step (h : Ended plan base new answered s) (he : e.Drives) :
    Traceroute.step host io s e = s ∧ answeredHop host io s e = [] := by
  have hanswer : ¬AnswersLast host io.tabsiz s e := by
    unfold AnswersLast
    cases e <;> simp [answer, h.idle.socketIcmp, h.idle.socketTcp]
  refine ⟨?_, if_neg hanswer⟩
  cases e with
  | icmp p => exact if_neg (by rw [h.idle.socketIcmp]; decide)
  | tcp p => exact if_neg (by rw [h.idle.socketTcp]; decide)
  | timeout => exact if_neg (by rw [h.idle.timer]; decide)
  | start | dns => exact he.elim

variable (host) in
lemma Ended.steps (h : Ended plan base new answered s) (hevents : ∀ x ∈ events, x.1.Drives) :
    steps host events s = s ∧ answeredHops host events s = [] := by
  induction events with
  | nil => exact ⟨rfl, rfl⟩
  | cons x events ih =>
    obtain ⟨hx, hrest⟩ := forall_mem_cons.mp hevents
    obtain ⟨hstep, hhop⟩ := h.step host x.2 hx
    unfold Traceroute.steps answeredHops
    rw [hstep, hhop]
    exact ih hrest

/-- Behind any events the run goes on with at least a probe for each timeout, or has ended. -/
lemma GoesOn.steps {n : ℕ} (h : GoesOn host plan base answered n s)
    (hevents : ∀ x ∈ events, x.1.Drives ∧ x.2.Sends) (hspoils : Unspoiled host events s) :
    GoesOn host plan base (answered ++ answeredHops host events s) (n + timeouts events)
        (steps host events s) ∨
      ∃ new, Ended plan base new (answered ++ answeredHops host events s)
        (steps host events s) := by
  induction events generalizing answered n s with
  | nil =>
    rw [answeredHops, append_nil]
    exact .inl h
  | cons x events ih =>
    obtain ⟨⟨hx, hio⟩, hrest⟩ := forall_mem_cons.mp hevents
    obtain ⟨hnot, hspoils⟩ := hspoils
    obtain ⟨new, hwalk, htimer, hlength⟩ := h
    unfold Traceroute.steps answeredHops timeouts
    rw [← append_assoc, countP_cons]
    rcases hwalk.step htimer hx hio hnot with ⟨new', hwalk', htimer', hlength'⟩ | ⟨⟨new', hend⟩, -⟩
    · have hgoes : GoesOn host plan base (answered ++ answeredHop host x.2 s x.1)
          (n + if x.1.isTimeout then 1 else 0) (Traceroute.step host x.2 s x.1) :=
        ⟨new', hwalk', htimer', by omega⟩
      have hrun := ih hgoes hrest hspoils
      rw [Nat.add_right_comm, Nat.add_assoc] at hrun
      exact hrun
    · obtain ⟨hsteps, hhops⟩ := hend.steps host fun y hy => (hrest y hy).1
      rw [hsteps, hhops, append_nil]
      exact .inr ⟨new', hend⟩

/-- The options ask for a plan. -/
structure Args.Asks (a : Args) (plan : Plan) : Prop where
  count : a.count = plan.count
  firsthop : a.firsthop = plan.firsthop
  maxhops : a.maxhops = plan.maxhops
  gaplimit : a.gaplimit = plan.gaplimit

lemma follows_of_init {args : Args} {opt : Options} (h : tracerouteInit host args = some opt)
    (hasks : args.Asks plan) : opt.Follows plan := by
  have hcount := plan.count_le
  have hfirst := plan.firsthop_le
  have hmax := plan.maxhops_le
  have hbyte {m n : ℕ} (heq : m = n) (hn : n ≤ 255) : m % 256 = n := by omega
  unfold tracerouteInit at h
  split_ifs at h
  obtain rfl := Option.some.inj h
  refine ⟨?_, hbyte hasks.firsthop (by omega), hbyte hasks.maxhops hmax,
    hbyte hasks.gaplimit plan.gaplimit_le, ?_⟩
  · rw [hasks.count]
    exact host.toChar_of_le hcount
  · unfold Options.proto
    cases args.tcp <;> cases args.icmp <;> exact ⟨_, rfl⟩

/-- The run begins with its first probe. -/
lemma Idle.goesOn (h : Idle s) (hbusy : s.busy = true) (hdns : s.dnsip = true)
    (hopt : s.opt.Bounded) (hfollows : s.opt.Follows plan) (hio : io.Sends) {sio : SocketIo}
    (hworks : sio.Works) (ttr : Bool × ℕ) (sin6 : Sockaddr) :
    GoesOn host plan s.acts [] 1 (step host io s (.dns ttr (.resolved sin6 true) sio)) := by
  have hstep : step host io s (.dns ttr (.resolved sin6 true) sio) =
      dnsCb host io ttr (.resolved sin6 true) sio s := if_pos (by rw [hbusy, hdns]; rfl)
  obtain ⟨-, -, -, -, -, hfails⟩ | ⟨tcp, hstart⟩ :=
    tracerouteStart2_cases host io (s.resolved ttr sin6) sio hbusy
  · exact absurd hworks hfails
  have hpos := plan.count_pos
  have hfirst := plan.firsthop_le
  have hlive : Live host (fun _ => True) ((s.resolved ttr sin6).begun io sio.sockname tcp) :=
    h.begun hbusy hopt trivial
  have hsend : sendPkt host io ((s.resolved ttr sin6).begun io sio.sockname tcp) =
      transmit host io ((s.resolved ttr sin6).begun io sio.sockname tcp).unanswered := by
    refine if_neg ?_
    change ¬s.opt.trtcount ≤ (0 : ℕ)
    rw [hfollows.trtcount]
    omega
  have hwalk : Walking host plan s.acts [] []
      ((s.resolved ttr sin6).begun io sio.sockname tcp).unanswered := by
    refine ⟨hlive.unanswered, hfollows, Nat.zero_le _, (append_nil _).symm,
      fun _ => not_mem_nil, rfl, .inl ⟨rfl, ?_, ?_, ⟨?_, ?_, ?_⟩, ?_, ?_⟩⟩
    · change s.opt.firsthop ≤ plan.maxhops
      rw [hfollows.firsthop]
      exact hfirst
    · change [] = groups plan.count plan.firsthop (s.opt.firsthop - plan.firsthop) ++ []
      rw [hfollows.firsthop, Nat.sub_self]
      rfl
    · exact nofun
    · exact nofun
    · change (if s.opt.firsthop > 1 then s.opt.firsthop - 1 else 0) ≤ s.opt.firsthop
      split <;> omega
    · change plan.firsthop ≤ (if s.opt.firsthop > 1 then s.opt.firsthop - 1 else 0) + 1
      rw [hfollows.firsthop]
      split <;> omega
    · exact nofun
  obtain ⟨new, hwalk', htimer, hlength⟩ := hwalk.transmit hio hpos
  rw [hstep, dnsCb, hdns, Bool.not_true]
  change GoesOn host plan s.acts [] 1 (tracerouteStart2 host io sio (s.resolved ttr sin6))
  rw [hstart, hsend]
  exact ⟨new, hwalk', htimer, hlength.ge⟩

end Walking

/-- The probes of a run go through the hops in order, with the same number of probes for each of
them; there is a last group with hop limit 255 only behind as many hops without an answer as the
gap limit says.  As long as the run goes on the timer is on, and it ends exactly at the end of the
last hop or of a hop where the destination has answered, after a bounded number of timeouts.  This
is if no note of an answer is taken back. -/
theorem hops_in_order_until_end {host : Host} {args : Args} {opt : Options} {index : ℕ}
    {plan : Plan} (hopt : tracerouteInit host args = some opt) (hasks : args.Asks plan)
    (history : List (Event × Io)) {s : State} (hs : s = steps host history (initState opt index))
    (hbusy : s.busy = true) (hdns : s.dnsip = true) {io : Io} (hio : io.Sends) (ttr : Bool × ℕ)
    (sin6 : Sockaddr) {sio : SocketIo} (hworks : sio.Works) {s₁ : State}
    (hs₁ : s₁ = step host io s (.dns ttr (.resolved sin6 true) sio)) (events : List (Event × Io))
    (hevents : ∀ x ∈ events, x.1.Drives ∧ x.2.Sends) (hspoils : Unspoiled host events s₁)
    {u : State} (hu : u = steps host events s₁) :
    (∃ new, Itinerary plan (answeredHops host events s₁) u.hop u.sent (hopLimits new) ∧
      u.sent ≤ plan.count ∧ (∀ text, .written text ∉ new) ∧
      ((u.busy = true ∧ u.timer = true ∧ u.acts = s.acts ++ new ∧
        timeouts events < (hopLimits new).length ∧
        ∀ (e : Event) (io : Io), e.Drives → io.Sends → ¬Spoils host io.tabsiz u e →
          ((step host io u e).busy = false ↔ ∃ t, SendsFrom host io u e t ∧ HopEnds plan t)) ∨
      (u.busy = false ∧ (∃ text, u.acts = s.acts ++ new ++ [.written text]) ∧ HopEnds plan u))) ∧
    (255 * plan.count ≤ timeouts events → u.busy = false) := by
  have hbounded := bounded_of_init hopt
  have hinv : Inv host (fun _ => True) opt index s := by
    rw [hs]
    refine inv_steps hbounded fun x _ => ?_
    unfold Event.Starts
    split <;> trivial
  have hidle : Idle s := hinv.state.resolve_right fun hlive =>
    absurd (hlive.dnsip.symm.trans hdns) Bool.false_ne_true
  have hfollows : s.opt.Follows plan := by
    rw [hinv.opt]
    exact follows_of_init hopt hasks
  have hstart : GoesOn host plan s.acts [] 1 s₁ := by
    rw [hs₁]
    refine hidle.goesOn hbusy hdns ?_ hfollows hio hworks ttr sin6
    rw [hinv.opt]
    exact hbounded
  have hrun := hstart.steps hevents hspoils
  rw [nil_append, ← hu] at hrun
  rcases hrun with ⟨new, hwalk, htimer, hlength⟩ | ⟨new, hend⟩
  · have hle := hwalk.itinerary.length_le hwalk.sent_le
    refine ⟨⟨new, hwalk.itinerary, hwalk.sent_le, hwalk.unwritten, .inl ⟨hwalk.live.busy, htimer,
      hwalk.acts, by omega, ?_⟩⟩, fun hmany => absurd hmany (by omega)⟩
    intro e io' he hio' hnot
    exact hwalk.ends_iff htimer he hio' hnot
  · exact ⟨⟨new, hend.itinerary, hend.ends.1.le, hend.unwritten,
      .inr ⟨hend.busy, hend.acts, hend.ends⟩⟩, fun _ => hend.busy⟩

/-- One probe for each hop, and the last group behind one hop without an answer. -/
def shortPlan : Plan :=
  ⟨1, 1, 32, 1, by decide, by decide, by decide, by decide, by decide, by decide, by decide⟩

/-- The options of a TCP measurement over IPv4 for the plan. -/
def shortArgs : Args := { plainArgs false true with count := 1, gaplimit := 1 }

/-- The options as they are stored. -/
def shortOptions : Options := (tracerouteInit plainHost shortArgs).get (by decide)

/-- The state behind the first probe. -/
def shortState : State :=
  step plainHost plainIo (steps plainHost [(.start, plainIo)] (initState shortOptions 0))
    (.dns (false, 0) (.resolved plainAddr true) plainSockets)

/-- The first hop does not answer, and the destination answers the probe of the last group. -/
def shortEvents : List (Event × Io) :=
  [(.timeout, plainIo), (.tcp (plainSegment 2), plainIo), (.timeout, plainIo)]

/-- The hops are in order, and the run has ended. -/
theorem hops_in_order_last_group :
    let u := steps plainHost shortEvents shortState
    u.busy = false ∧ ∃ new, Itinerary shortPlan [255] u.hop u.sent (hopLimits new) := by
  have hopt : tracerouteInit plainHost shortArgs = some shortOptions := (Option.some_get _).symm
  have hasks : shortArgs.Asks shortPlan := ⟨rfl, rfl, rfl, rfl⟩
  have hstart : steps plainHost [(.start, plainIo)] (initState shortOptions 0) =
      steps plainHost [(.start, plainIo)] (initState shortOptions 0) := rfl
  have hio : plainIo.Sends := ⟨rfl, rfl, rfl⟩
  have hworks : plainSockets.Works := ⟨rfl, rfl, rfl, rfl, rfl, rfl, rfl, rfl, rfl⟩
  have hevents : ∀ x ∈ shortEvents, x.1.Drives ∧ x.2.Sends := by
    simp [shortEvents, Event.Drives, hio]
  have hrun := hops_in_order_until_end hopt hasks [(.start, plainIo)] hstart (by decide +kernel)
    (by decide +kernel) hio (false, 0) plainAddr hworks rfl shortEvents hevents
    ⟨id, id, id, trivial⟩ rfl
  have hanswered : answeredHops plainHost shortEvents shortState = [255] := by decide +kernel
  obtain ⟨new, hitinerary, -⟩ := hrun.1
  exact ⟨by decide +kernel, new, hanswered ▸ hitinerary⟩

/-- A time exceeded message that quotes the first TCP probe of the measurement with index 0. -/
def plainExceeded : Packet where
  buf := fun i => (plainIpHeader 1 ++ [11, 0, 0, 0, 0, 0, 0, 0] ++ plainIpHeader 6 ++
    be16 srcBasePort ++ be16 80 ++ be32 1).getD i 0
  nrecv := 56
  nrecv_le := by decide
  remote := [127, 0, 0, 1]
  rcvdttl := 0
  rcvdtclass := 0

/-- The destination answers the first probe, and then a router answers it as well. -/
def twoAnswers : List (Event × Io) :=
  [(.tcp (plainSegment 1), plainIo), (.icmp plainExceeded, plainIo), (.timeout, plainIo)]

/-- The first hop has answered its probe, and the last group comes right behind it. -/
theorem answered_hop_before_last_group :
    answeredHops plainHost twoAnswers shortState = [1, 1] ∧
      hopLimits (steps plainHost twoAnswers shortState).acts = [1, 255] ∧
      ∀ hop k, ¬Itinerary shortPlan [1, 1] hop k [1, 255] := by
  refine ⟨by decide +kernel, by decide +kernel, ?_⟩
  intro hop k h
  generalize hl : [1, 255] = l at h
  cases h with
  | inOrder hfirst hmax =>
    have hl : [1, 255] = groups 1 1 (hop - 1) ++ List.replicate k hop := hl
    have hmem : 255 ∈ groups 1 1 (hop - 1) ++ List.replicate k hop := by
      rw [← hl]
      decide
    have hmax : hop ≤ 32 := hmax
    rcases mem_append.mp hmem with hgroup | hlast
    · have hlt := lt_of_mem_groups hgroup
      omega
    · have hhop := eq_of_mem_replicate hlast
      omega
  | @lastDitch hop k hfirst hmax hgap =>
    have hfirst : 1 + 1 ≤ hop + 1 := hfirst
    have hgap : 1 + 1 ≤ hop := hgap 1 (by decide) (by omega)
    have hlength : 2 = (groups 1 1 (hop + 1 - 1) ++ List.replicate k 255).length :=
      congrArg List.length hl
    rw [length_append, length_groups, length_replicate] at hlength
    obtain ⟨rfl, rfl⟩ : hop = 2 ∧ k = 0 := by omega
    exact absurd hl (by decide)

end AtlasProbe.Traceroute
