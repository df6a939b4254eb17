import AtlasProbe.Traceroute.Steps

/-!
# Invariants of a measurement

Between its runs a measurement waits for nothing (`Idle`).  In a run (`Live`) the number of the last
probe is bounded by the hop and the probes that it has had, so that it never wraps, and every probe
that has been sent was made from the same options, index and addresses (`RunId`).  `inv_steps` has
this for every run.
-/

namespace AtlasProbe.Traceroute

open List Measurement

/-! ### Probes of a run -/

/-- The probes that have been sent since the last result was written. -/
def probes (acts : List Act) : List Probe :=
  acts.foldl (fun sent act =>
    match act with
    | .sent probe => sent ++ [probe]
    | .timer _ => sent
    | .written _ => []) []

variable (acts : List Act)

lemma probes_sent (probe : Probe) : probes (acts ++ [.sent probe]) = probes acts ++ [probe] := by
  unfold probes
  rw [foldl_append]
  rfl

lemma probes_timer (usec : ℕ) : probes (acts ++ [.timer usec]) = probes acts := by
  unfold probes
  rw [foldl_append]
  rfl

lemma probes_timers (usecs : List ℕ) : probes (acts ++ usecs.map Act.timer) = probes acts := by
  induction usecs generalizing acts with
  | nil => rw [map_nil, append_nil]
  | cons usec usecs ih => rw [map_cons, append_cons, ih, probes_timer]

/-- What all probes of a run have in common. -/
structure RunId where
  opt : Options
  index : ℕ
  locSin6 : Sockaddr
  inet6 : Bool
  addr : Bytes

/-- What the probes of the run have in common. -/
def State.runId (s : State) : RunId := ⟨s.opt, s.index, s.locSin6, s.sin6.inet6, s.sin6.addr⟩

/-- A probe of a run. -/
def IsProbe (host : Host) (run : RunId) (probe : Probe) : Prop :=
  ∃ (io : Io) (t : State) (proto : Proto), t.runId = run ∧ 0 < t.seq ∧ run.opt.proto = some proto ∧
    probe = t.sentProbe host io proto

/-! ### Idle and live states -/

/-- The values that `traceroute_init` stores are of eight bits. -/
structure Options.Bounded (o : Options) : Prop where
  trtcount : o.trtcount ≤ 255
  firsthop : o.firsthop ≤ 255
  maxhops : o.maxhops ≤ 255

lemma bounded_of_init {host : Host} {args : Args} {opt : Options}
    (h : tracerouteInit host args = some opt) : opt.Bounded := by
  unfold tracerouteInit at h
  split_ifs at h
  obtain rfl := Option.some.inj h
  exact ⟨host.toChar_le _, Nat.le_of_lt_succ (Nat.mod_lt _ (by decide)),
    Nat.le_of_lt_succ (Nat.mod_lt _ (by decide))⟩

/-- The measurement waits for nothing, or for its name to be resolved. -/
structure Idle (s : State) : Prop where
  waiting : s.busy = false ∨ s.dnsip = true
  timer : s.timer = false
  socketIcmp : s.socketIcmp = false
  socketTcp : s.socketTcp = false
  probes : probes s.acts = []

/-- A run is going on: `R` is what is known about its options and addresses. -/
structure Live (host : Host) (R : RunId → Prop) (s : State) : Prop where
  busy : s.busy = true
  dnsip : s.dnsip = false
  run : R s.runId
  loc : ∃ sockname, s.locSin6 = localAddr sockname s.opt.doIcmp s.index
  firsthop_le : s.opt.firsthop ≤ s.hop
  hop_le : s.hop ≤ 255
  sent_le : s.sent ≤ 255
  seq_le : s.seq ≤ 255 * (s.hop - s.opt.firsthop) + s.sent
  probes : ∀ probe ∈ probes s.acts, IsProbe host s.runId probe ∧ 0 < probe.seq ∧ probe.seq ≤ s.seq

section Inv

variable {host : Host} {R : RunId → Prop} {io : Io} {s t : State}

lemma Live.seq_lt (h : Live host R s) : s.seq < 65536 := by
  have := h.seq_le
  have := h.sent_le
  have := h.hop_le
  omega

lemma idle_report (s : State) : Idle (report host io s) :=
  ⟨.inl rfl, rfl, rfl, rfl, foldl_append⟩

lemma Idle.start (h : Idle s) : Idle (tracerouteStart s) := by
  unfold tracerouteStart
  split
  · exact h
  · exact ⟨.inr rfl, h.timer, rfl, h.socketTcp, h.probes⟩

lemma Live.start (h : Live host R s) : tracerouteStart s = s := if_pos h.busy

/-! ### Steps of a live run -/

/-- The same run at the same hop, with the same probes of it. -/
structure SameHop (s t : State) : Prop where
  runId : t.runId = s.runId
  busy : t.busy = s.busy
  dnsip : t.dnsip = s.dnsip
  hop : t.hop = s.hop
  sent : t.sent = s.sent

lemma Quiet.sameHop (h : Quiet s t) : SameHop s t :=
  ⟨(congrArg State.runId h.core :), (congrArg State.busy h.core :), (congrArg State.dnsip h.core :),
    (congrArg State.hop h.core :), (congrArg State.sent h.core :)⟩

lemma Prepared.sameHop (h : Prepared s t) : SameHop s t :=
  ⟨(congrArg State.runId h.unsent :), (congrArg State.busy h.unsent :),
    (congrArg State.dnsip h.unsent :), (congrArg State.hop h.unsent :),
    (congrArg State.sent h.unsent :)⟩

lemma SameHop.opt (h : SameHop s t) : t.opt = s.opt := (congrArg RunId.opt h.runId :)

lemma SameHop.loc (h : SameHop s t) (hloc : ∃ sockname,
    s.locSin6 = localAddr sockname s.opt.doIcmp s.index) :
    ∃ sockname, t.locSin6 = localAddr sockname t.opt.doIcmp t.index := by
  have hsin6 : t.locSin6 = s.locSin6 := (congrArg RunId.locSin6 h.runId :)
  have hindex : t.index = s.index := (congrArg RunId.index h.runId :)
  rw [hsin6, h.opt, hindex]
  exact hloc

section Steps

variable (h : Live host R s)

include h

lemma Live.quiet (hq : Quiet s t) : Live host R t := by
  obtain ⟨usecs, hacts⟩ := hq.acts
  have hsame := hq.sameHop
  have hseq : t.seq = s.seq := (congrArg State.seq hq.core :)
  refine ⟨hsame.busy.trans h.busy, hsame.dnsip.trans h.dnsip, ?_, hsame.loc h.loc, ?_, ?_, ?_, ?_,
    ?_⟩
  · rw [hsame.runId]
    exact h.run
  · rw [hsame.opt, hsame.hop]
    exact h.firsthop_le
  · rw [hsame.hop]
    exact h.hop_le
  · rw [hsame.sent]
    exact h.sent_le
  · rw [hseq, hsame.hop, hsame.opt, hsame.sent]
    exact h.seq_le
  · rw [hacts, probes_timers, hsame.runId, hseq]
    exact h.probes

lemma Live.unanswered : Live host R s.unanswered :=
  h.quiet (.of_core rfl rfl)

lemma Live.openHop : Live host R s.openHop :=
  h.quiet (.of_core rfl rfl)

lemma Live.nextHop (hhop : s.hop < 255) : Live host R s.endHop.nextHop := by
  refine ⟨h.busy, h.dnsip, h.run, h.loc, ?_, ?_, Nat.zero_le _, ?_, h.probes⟩
  · change s.opt.firsthop ≤ (s.hop + 1) % 256
    have := h.firsthop_le
    omega
  · change (s.hop + 1) % 256 ≤ 255
    omega
  · change s.seq ≤ 255 * ((s.hop + 1) % 256 - s.opt.firsthop) + 0
    have := h.firsthop_le
    have := h.seq_le
    have := h.sent_le
    omega

lemma Live.lastDitch : Live host R s.lastDitch := by
  have hhop := h.hop_le
  refine ⟨h.busy, h.dnsip, h.run, h.loc, h.firsthop_le.trans hhop, Nat.le_refl _, h.sent_le, ?_,
    h.probes⟩
  change s.seq ≤ 255 * (255 - s.opt.firsthop) + s.sent
  have := h.seq_le
  omega

/-- The number of the next probe does not wrap. -/
lemma Live.seq_prepared (hsent : s.sent < 255) (ht : Prepared s t) : t.seq = s.seq + 1 := by
  have := h.seq_le
  have := h.hop_le
  rcases ht.seq with hseq | ⟨hseq, -⟩ <;> omega

/-- A probe has been sent, or is taken for one that has been sent. -/
lemma Live.launched (hsent : s.sent < 255) (hsame : SameHop s t)
    (hseq : t.seq = s.seq + 1) (hprobes : ∀ probe ∈ Traceroute.probes t.acts,
      probe ∈ Traceroute.probes s.acts ∨ IsProbe host s.runId probe ∧ probe.seq = s.seq + 1) :
    Live host R (launched t) := by
  refine ⟨hsame.busy.trans h.busy, hsame.dnsip.trans h.dnsip, ?_, hsame.loc h.loc, ?_, ?_, ?_, ?_,
    ?_⟩
  · change R t.runId
    rw [hsame.runId]
    exact h.run
  · change t.opt.firsthop ≤ t.hop
    rw [hsame.opt, hsame.hop]
    exact h.firsthop_le
  · change t.hop ≤ 255
    rw [hsame.hop]
    exact h.hop_le
  · change t.sent + 1 ≤ 255
    rw [hsame.sent]
    exact hsent
  · change t.seq ≤ 255 * (t.hop - t.opt.firsthop) + (t.sent + 1)
    rw [hseq, hsame.hop, hsame.opt, hsame.sent]
    exact Nat.succ_le_succ h.seq_le
  · change ∀ probe ∈ Traceroute.probes (t.acts ++ [.timer t.opt.timeout]),
      IsProbe host t.runId probe ∧ 0 < probe.seq ∧ probe.seq ≤ t.seq
    rw [probes_timer, hsame.runId, hseq]
    intro probe hmem
    rcases hprobes probe hmem with hold | ⟨hnew, hnum⟩
    · obtain ⟨his, hpos, hle⟩ := h.probes probe hold
      exact ⟨his, hpos, Nat.le_succ_of_le hle⟩
    · exact ⟨hnew, by omega, by omega⟩

lemma Live.transmit (hsent : s.sent < 255) :
    Idle (transmit host io s) ∨ Live host R (transmit host io s) := by
  have hacts {t : State} (ht : Prepared s t) : t.acts = s.acts := (congrArg State.acts ht.unsent :)
  have htransmits := transmits_transmit host io s
  generalize Traceroute.transmit host io s = u at htransmits ⊢
  obtain ⟨ht, -⟩ | @⟨proto, hproto⟩ | ht := htransmits
  · exact .inl (idle_report _)
  · have ht := prepared_prepare host io s proto
    have hsame := ht.sameHop
    refine .inr (h.launched hsent ⟨hsame.runId, hsame.busy, hsame.dnsip, hsame.hop, hsame.sent⟩
      (h.seq_prepared hsent ht :) ?_)
    unfold State.emit
    rw [hacts ht, probes_sent]
    intro probe hmem
    rcases mem_append.mp hmem with hold | hnew
    · exact .inl hold
    · rw [mem_singleton.mp hnew]
      have hcount : (s.count io).seq = s.seq + 1 := h.seq_prepared hsent (prepared_count io s)
      exact .inr ⟨⟨io, s.count io, proto, rfl, by omega, hproto, rfl⟩, h.seq_prepared hsent ht⟩
  · refine .inr (h.launched hsent ht.sameHop (h.seq_prepared hsent ht) ?_)
    rw [hacts ht]
    exact fun probe hmem => .inl hmem

/-- `send_pkt` ends the run or keeps it alive. -/
lemma Live.sendPkt (hopt : s.opt.Bounded) :
    Idle (sendPkt host io s) ∨ Live host R (sendPkt host io s) := by
  have hcount := hopt.trtcount
  have hmax := hopt.maxhops
  rcases sendPkt_cases host io s with ⟨hsent, heq⟩ | ⟨-, -, heq⟩ | ⟨-, hhop, -, hnext⟩
  · rw [heq]
    exact h.unanswered.transmit (by change s.sent < 255; omega)
  · rw [heq]
    exact .inl (idle_report _)
  · have hlive := h.nextHop (Nat.lt_of_lt_of_le hhop hmax)
    rcases hnext with ⟨-, ⟨-, heq⟩ | ⟨-, heq⟩⟩ | ⟨-, heq⟩
    · rw [heq]
      exact .inl (idle_report _)
    · rw [heq]
      exact hlive.lastDitch.openHop.transmit (by decide : 0 < 255)
    · rw [heq]
      exact hlive.openHop.transmit (by decide : 0 < 255)

end Steps

/-! ### Runs -/

/-- The first state of a run. -/
lemma Idle.begun (h : Idle s) (hbusy : s.busy = true) (hopt : s.opt.Bounded) {ttr : Bool × ℕ}
    {sin6 sockname : Sockaddr} {tcp : Bool}
    (hR : R ⟨s.opt, s.index, localAddr sockname s.opt.doIcmp s.index, sin6.inet6, sin6.addr⟩) :
    Live host R ((s.resolved ttr sin6).begun io sockname tcp) where
  busy := hbusy
  dnsip := rfl
  run := hR
  loc := ⟨sockname, rfl⟩
  firsthop_le := Nat.le_refl _
  hop_le := hopt.firsthop
  sent_le := Nat.zero_le _
  seq_le := Nat.zero_le _
  probes := by
    change ∀ probe ∈ Traceroute.probes s.acts, _
    rw [h.probes]
    exact nofun

/-- The options, the index and the addresses of a run that the name resolution starts are of the
kind that `R` says. -/
def Event.Starts (R : RunId → Prop) (opt : Options) (index : ℕ) : Event → Prop
  | .dns _ (.resolved sin6 true) sio =>
    R ⟨opt, index, localAddr sio.sockname opt.doIcmp index, sin6.inet6, sin6.addr⟩
  | _ => True

/-- `transmit` keeps the options and the index. -/
lemma ident_transmit (s : State) : (transmit host io s).ident = s.ident := by
  have hprepared {t : State} (ht : Prepared s t) : t.ident = s.ident :=
    (congrArg State.ident ht.unsent :)
  have htransmits := transmits_transmit host io s
  generalize transmit host io s = u at htransmits ⊢
  obtain ⟨ht, -⟩ | @⟨proto, hproto⟩ | ht := htransmits
  · exact (hprepared ht :)
  · exact (hprepared (prepared_prepare host io s proto) :)
  · exact (hprepared ht :)

/-- `send_pkt` keeps the options and the index. -/
lemma ident_sendPkt (s : State) : (sendPkt host io s).ident = s.ident := by
  rcases sendPkt_cases host io s with
    ⟨-, heq⟩ | ⟨-, -, heq⟩ | ⟨-, -, -, ⟨-, ⟨-, heq⟩ | ⟨-, heq⟩⟩ | ⟨-, heq⟩⟩
  · rw [heq]
    exact ident_transmit _
  · rw [heq]
    rfl
  · rw [heq]
    rfl
  · rw [heq]
    exact ident_transmit _
  · rw [heq]
    exact ident_transmit _

/-- An event keeps the options and the index. -/
lemma ident_step (s : State) (e : Event) : (step host io s e).ident = s.ident := by
  have hquiet {t : State} (ht : Quiet s t) : t.ident = s.ident := (congrArg State.ident ht.core :)
  rcases step_cases host io s e with heq | heq | ⟨hbusy, hdns, ttr, r, sio, he, heq⟩ | ⟨-, hquick⟩
  · rw [heq]
  · rw [heq]
    unfold tracerouteStart
    split <;> rfl
  · rw [heq]
    rcases dnsCb_cases host io s ttr r sio hbusy hdns with ⟨t, ht, hid⟩ | ⟨sin6, tcp, -, ht⟩
    · rw [ht]
      exact hid
    · rw [ht]
      exact ident_sendPkt _
  · rcases hquick with ht | ⟨t, ht, heq⟩
    · exact hquiet ht
    · rw [heq]
      exact (ident_sendPkt t).trans (hquiet ht)

/-- What one event keeps. -/
lemma inv_step (hopt : s.opt.Bounded) (h : Idle s ∨ Live host R s) (e : Event)
    (hstarts : e.Starts R s.opt s.index) :
    Idle (step host io s e) ∨ Live host R (step host io s e) := by
  rcases step_cases host io s e with heq | heq | ⟨hbusy, hdns, ttr, r, sio, he, heq⟩ |
    ⟨hopen, hquick⟩
  · rw [heq]
    exact h
  · rw [heq]
    rcases h with hidle | hlive
    · exact .inl hidle.start
    · rw [hlive.start]
      exact .inr hlive
  · subst he
    rw [heq]
    have hidle : Idle s := h.resolve_right fun hlive => by
      rw [hlive.dnsip] at hdns
      exact absurd hdns Bool.false_ne_true
    rcases dnsCb_cases host io s ttr r sio hbusy hdns with ⟨t, ht, -⟩ | ⟨sin6, tcp, rfl, ht⟩
    · rw [ht]
      exact .inl (idle_report t)
    · rw [ht]
      exact (hidle.begun hbusy hopt hstarts).sendPkt hopt
  · rcases h with hidle | hlive
    · rw [hidle.socketIcmp, hidle.socketTcp, hidle.timer] at hopen
      exact absurd hopen (by decide)
    · rcases hquick with ht | ⟨t, ht, heq⟩
      · exact .inr (hlive.quiet ht)
      · rw [heq]
        have hsame : t.opt = s.opt := ht.sameHop.opt
        exact (hlive.quiet ht).sendPkt (hsame ▸ hopt)

end Inv

/-- A measurement with the options and the index that it was made with, between runs or in one. -/
structure Inv (host : Host) (R : RunId → Prop) (opt : Options) (index : ℕ) (s : State) : Prop where
  opt : s.opt = opt
  index : s.index = index
  state : Idle s ∨ Live host R s

/-- A run in which probes have been sent is going on. -/
lemma Inv.live {host : Host} {R : RunId → Prop} {opt : Options} {index : ℕ} {s : State}
    (h : Inv host R opt index s) {probe : Probe} (hmem : probe ∈ probes s.acts) : Live host R s :=
  h.state.resolve_left fun hidle => by
    rw [hidle.probes] at hmem
    exact not_mem_nil hmem

/-- The invariant holds behind any events. -/
theorem inv_steps {host : Host} {R : RunId → Prop} {opt : Options} {index : ℕ}
    (hopt : opt.Bounded) {events : List (Event × Io)}
    (hevents : ∀ x ∈ events, x.1.Starts R opt index) :
    Inv host R opt index (steps host events (initState opt index)) := by
  refine steps_inv ?_ hevents ?_
  · intro s e io hinv hstarts
    have hident : (step host io s e).ident = s.ident := ident_step s e
    obtain ⟨rfl, rfl, hstate⟩ := hinv
    exact ⟨(congrArg Prod.fst hident :), (congrArg Prod.snd hident :), inv_step hopt hstate e
      hstarts⟩
  · exact ⟨rfl, rfl, .inl ⟨.inl rfl, rfl, rfl, rfl, rfl⟩⟩

end AtlasProbe.Traceroute
