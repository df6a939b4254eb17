import AtlasProbe.Traceroute.Invariant

/-!
# Late replies

A packet may answer a probe that was sent before the last one (`answer`).  It should only be
reported, without an effect on the hop or on what happens next (`OnlyReported`,
`onlyReported_step_iff`).
-/

namespace AtlasProbe.Traceroute

open Wire Measurement

/-! ### Answers -/

/-- How a packet answers a probe: an ICMP error, an echo reply over IPv6 or IPv4, or a TCP segment,
for the probe with a number. -/
inductive Answer
  | error (seq : ℕ)
  | echo (inet6 : Bool) (seq : ℕ)
  | segment (seq : ℕ)
  deriving DecidableEq

/-- The number of the probe. -/
def Answer.seq : Answer → ℕ
  | .error seq | .echo _ seq | .segment seq => seq

/-- The number of the probe that a TCP segment answers: a segment acknowledges the number after the
one of the probe. -/
def ackedSeq (p : Packet) (i : ℕ) : ℕ := ((u32 p.buf (i + 8) &&& 0xffff) + 65535) % 65536

/-- How an event answers a probe of the measurement. -/
def answer (host : Host) (tabsiz : ℕ) (s : State) : Event → Option Answer
  | .icmp p =>
    if s.socketIcmp then
      if s.opt.doV6 then
        (reply6 host p s).map fun
          | .error _ seq => .error seq
          | .echo seq => .echo true seq
      else
        (reply4 host tabsiz p s).map fun
          | .error _ seq => .error seq
          | .echo seq => .echo false seq
    else none
  | .tcp p =>
    if s.socketTcp then
      if s.opt.doV6 then if segment6 tabsiz p s then some (.segment (ackedSeq p 0)) else none
      else if segment4 tabsiz p s then some (.segment (ackedSeq p (hlen p.buf))) else none
    else none
  | .start | .dns _ _ _ | .timeout => none

/-- The late answers that have no effect.  An echo reply over IPv4 and a TCP segment always say that
the destination has answered, and a segment that answers the probe before the last one is taken for
an answer to the last one. -/
def Answer.Harmless (s : State) : Answer → Prop
  | .error _ | .echo true _ => True
  | .echo false _ => s.done = true
  | .segment seq => s.done = true ∧ (seq + 1 < s.seq ∨ s.gotresp = true)

section Late

variable {host : Host} {tabsiz : ℕ} {io : Io} {p : Packet} {s : State} {seq : ℕ} {v : Verdict}
  {text : State → Bytes}

lemma verdict_of_lt (h : seq < s.seq) : verdict s seq = .late := by
  unfold verdict
  rw [if_pos h.ne, if_neg h.not_gt]

lemma noteError4_late (hv : v = .late) (s : State) (b : Branch) (type code nextmtu : ℕ) :
    noteError4 s b v type code nextmtu = s := by
  unfold noteError4 State.respond
  simp [hv]

lemma noteError6_late (hv : v = .late) (s : State) (c : Cursor) (type mtu : ℕ) :
    noteError6 s c v type mtu = s := by
  unfold noteError6 State.respond
  simp [hv]

/-- A late packet that says nothing about the hop. -/
lemma onlyReported_late {note : State → State} (hv : v = .late) (hnote : ∀ s, note s = s) :
    OnlyReported s (handleReply host io v text note s) := by
  subst hv
  unfold handleReply
  dsimp only
  rw [hnote]
  exact onlyReported_text s _

/-- A further packet that says that the destination has answered is only reported if it had answered
before. -/
lemma onlyReported_arrive_iff (hv : v.again = true) :
    OnlyReported s (handleReply host io v text .arrive s) ↔ s.done = true := by
  have htext := onlyReported_text s (text s.separate)
  have heq : handleReply host io v text .arrive s =
      (s.separate.addStr (text s.separate)).arrive.opened := by
    cases v with
    | late | dup => rfl
    | future | current => cases hv
  rw [heq]
  constructor
  · intro h
    exact h.done.symm
  · intro hdone
    exact ⟨hdone.symm, htext.notDone, htext.gotresp, htext.lastResponseHop, htext.curpacksize,
      htext.hop, htext.sent, htext.acts⟩

/-! ### TCP segments -/

/-- The verdict on a segment that answers an earlier probe. -/
lemma tcpVerdict_of_lt (hseq : seq + 1 < s.seq) (hbound : s.seq < 65536) :
    tcpVerdict s (seq + 1) = .late := by
  unfold tcpVerdict
  rw [if_pos (by omega), if_neg hseq.not_gt]

/-- The verdict on a segment that answers the probe before the last one. -/
lemma tcpVerdict_of_eq (hseq : seq + 1 = s.seq) :
    tcpVerdict s (seq + 1) = if s.gotresp then .dup else .current := by
  unfold tcpVerdict
  rw [if_neg (by omega)]

/-- An answer to the last probe is not only reported. -/
lemma not_onlyReported_finish {t : State} (hgotresp : s.gotresp = false) (hacts : t.acts = s.acts) :
    ¬OnlyReported s (finish host io .current t) := by
  intro h
  unfold finish at h
  rw [if_pos rfl] at h
  split_ifs at h with hdup
  · exact Bool.false_ne_true (h.gotresp.trans hgotresp).symm
  · have hlonger := length_acts_sendPkt host io t.opened
    rw [h.acts] at hlonger
    exact absurd (congrArg List.length hacts) hlonger.ne

lemma onlyReported_tcpReply_iff {i tcpHlen : ℕ} {remote : Bytes} {ttl size tos : ℤ}
    (hlate : ackedSeq p i < s.seq) (hbound : s.seq < 65536) :
    OnlyReported s (tcpReply host io p s i tcpHlen remote ttl size tos) ↔
      s.done = true ∧ (ackedSeq p i + 1 < s.seq ∨ s.gotresp = true) := by
  have hack : u32 p.buf (i + 8) &&& 0xffff = ackedSeq p i + 1 := by
    have hand : u32 p.buf (i + 8) &&& 0xffff ≤ 0xffff := Nat.and_le_right
    unfold ackedSeq at hlate ⊢
    omega
  unfold tcpReply
  rw [hack]
  dsimp only
  rcases Nat.lt_or_eq_of_le (Nat.succ_le_of_lt hlate) with hlt | heq
  · rw [tcpVerdict_of_lt hlt hbound]
    exact (onlyReported_arrive_iff rfl).trans (and_iff_left (.inl hlt)).symm
  · rw [tcpVerdict_of_eq heq]
    rcases Bool.eq_false_or_eq_true s.gotresp with hgot | hgot
    · rw [hgot]
      exact (onlyReported_arrive_iff rfl).trans (and_iff_left (.inr rfl)).symm
    · rw [hgot]
      refine iff_of_false (not_onlyReported_finish hgot (onlyReported_text s _).acts) ?_
      rintro ⟨-, hlt | hgot⟩
      · exact hlt.ne heq
      · exact Bool.false_ne_true hgot

/-- What a late answer does. -/
lemma onlyReported_step_iff {e : Event} {a : Answer} (hbound : s.seq < 65536)
    (ha : answer host io.tabsiz s e = some a) (hlate : a.seq < s.seq) :
    OnlyReported s (step host io s e) ↔ a.Harmless s := by
  cases e with
  | icmp p =>
    unfold answer at ha
    unfold step
    dsimp only at ha ⊢
    split_ifs at ha ⊢ with hopen hv6
    · obtain ⟨reply, hreply, rfl⟩ := Option.map_eq_some_iff.mp ha
      unfold readyCallback6 errorReply6 echoReply6
      rw [hreply]
      have hv := verdict_of_lt hlate
      cases reply with
      | error c seq =>
        exact iff_of_true (onlyReported_late hv fun s => noteError6_late hv s _ _ _) trivial
      | echo seq =>
        refine iff_of_true (onlyReported_late hv fun s => if_neg ?_) trivial
        exact hv.trans_ne (by decide)
    · obtain ⟨reply, hreply, rfl⟩ := Option.map_eq_some_iff.mp ha
      unfold readyCallback4 errorReply4 echoReply4
      rw [hreply]
      have hv := verdict_of_lt hlate
      cases reply with
      | error b seq =>
        exact iff_of_true (onlyReported_late hv fun s => noteError4_late hv s _ _ _ _) trivial
      | echo seq => exact onlyReported_arrive_iff (congrArg Verdict.again hv)
  | tcp p =>
    unfold answer at ha
    unfold step
    dsimp only at ha ⊢
    unfold readyTcp6 readyTcp4
    split_ifs at ha ⊢ with hopen hv6 hseg hseg
    · obtain rfl := Option.some.inj ha
      exact onlyReported_tcpReply_iff hlate hbound
    · obtain rfl := Option.some.inj ha
      exact onlyReported_tcpReply_iff hlate hbound
  | start | dns | timeout => exact absurd ha (by simp [answer])

end Late

/-- A late answer is only reported exactly if it is not an echo reply over IPv4 or a TCP segment, or
the destination is known to have answered and the segment is not taken for an answer to the last
probe. -/
theorem late_only_reported_iff {host : Host} {args : Args} {opt : Options} {index : ℕ}
    (hopt : tracerouteInit host args = some opt) (events : List (Event × Io)) (io : Io) (e : Event)
    {a : Answer}
    (ha : answer host io.tabsiz (steps host events (initState opt index)) e = some a)
    (hlate : a.seq < (steps host events (initState opt index)).seq) :
    OnlyReported (steps host events (initState opt index))
        (step host io (steps host events (initState opt index)) e) ↔
      a.Harmless (steps host events (initState opt index)) := by
  have hinv : Inv host (fun _ => True) opt index (steps host events (initState opt index)) := by
    refine inv_steps (bounded_of_init hopt) fun x _ => ?_
    unfold Event.Starts
    split <;> trivial
  generalize steps host events (initState opt index) = s at hinv ha hlate ⊢
  rcases hinv.state with hidle | hlive
  · exact absurd ha (by cases e <;> simp [answer, hidle.socketIcmp, hidle.socketTcp])
  · exact onlyReported_step_iff hlive.seq_lt ha hlate

/-- A TCP segment over IPv4 that acknowledges the probe with number `seq` of the measurement with
index 0. -/
def plainSegment (seq : ℕ) : Packet where
  buf := fun i => ([69, 0, 0, 40, 0, 0, 0, 0, 64, 6, 0, 0, 127, 0, 0, 1, 127, 0, 0, 1] ++
    be16 80 ++ be16 srcBasePort ++ be32 0 ++ be32 (seq + 1) ++ [80, 18]).getD i 0
  nrecv := 40
  nrecv_le := by decide
  remote := [127, 0, 0, 1]
  rcvdttl := 0
  rcvdtclass := 0

/-- The state of a TCP measurement in which nothing has been received for some timeouts. -/
def tcpState (timeouts : ℕ) : State :=
  steps plainHost (plainEvents timeouts) (initState (plainOptions false true) 0)

/-- The state in which the third of three probes is answered. -/
def answeredState : State :=
  steps plainHost (plainEvents 2 ++ [(.tcp (plainSegment 3), plainIo)])
    (initState (plainOptions false true) 0)

/-- Then a segment for the first probe is only reported. -/
theorem late_only_reported_first :
    answer plainHost 10 answeredState (.tcp (plainSegment 1)) = some (.segment 1) ∧
      OnlyReported answeredState
        (step plainHost plainIo answeredState (.tcp (plainSegment 1))) := by
  have ha : answer plainHost 10 answeredState (.tcp (plainSegment 1)) = some (.segment 1) := by
    decide +kernel
  refine ⟨ha, (late_only_reported_iff (Option.some_get _).symm _ plainIo _ ha ?_).mpr ⟨?_, .inl ?_⟩⟩
  all_goals decide +kernel

/-- A segment for the first of two probes is taken for an answer to the second one. -/
theorem late_segment_counts :
    answer plainHost 10 (tcpState 1) (.tcp (plainSegment 1)) = some (.segment 1) ∧
      1 < (tcpState 1).seq ∧ (tcpState 1).done = false ∧ (tcpState 1).gotresp = false ∧
      (step plainHost plainIo (tcpState 1) (.tcp (plainSegment 1))).done = true ∧
      (step plainHost plainIo (tcpState 1) (.tcp (plainSegment 1))).gotresp = true ∧
      ¬OnlyReported (tcpState 1) (step plainHost plainIo (tcpState 1) (.tcp (plainSegment 1))) := by
  have hdone : (tcpState 1).done = false := by decide +kernel
  have hdone' : (step plainHost plainIo (tcpState 1) (.tcp (plainSegment 1))).done = true := by
    decide +kernel
  refine ⟨by decide +kernel, by decide +kernel, hdone, by decide +kernel, hdone',
    by decide +kernel, fun h => ?_⟩
  exact Bool.false_ne_true (hdone.symm.trans (h.done.symm.trans hdone'))

end AtlasProbe.Traceroute
