import AtlasProbe.Ntp.Run

/-!
# What the steps of an NTP measurement do

Entries only add to the text (`Tells`).  `send_pkt` ends the measurement or sends a request and
starts both timers; what it leaves as it is is said once here (`Framed`, `Keeps`).  `Phase.step`
says how a measurement goes on.
-/

namespace AtlasProbe.Ntp

open List Measurement

/-! ### Texts and entries -/

/-- The text of the entries of a result, by the texts between their braces. -/
def resultText : List Bytes → Bytes
  | [] => []
  | b :: bodies =>
    ascii "\x7b " ++ b ++ ascii " \x7d" ++
      bodies.flatMap fun b => ascii ", \x7b " ++ b ++ ascii " \x7d"

/-- The text so far has these entries.  The last one is open, or another one begins. -/
structure Tells (bodies : List Bytes) (s : State) : Prop where
  opened : s.openResult = true → bodies ≠ [] ∧ s.result ++ ascii " \x7d" = resultText bodies
  begun : s.openResult = false →
    s.result = (if bodies.isEmpty then [] else resultText bodies ++ ascii ", ") ++ ascii "\x7b "

section Entries

variable {bodies : List Bytes} {s t : State}

lemma resultText_append (bodies : List Bytes) (b : Bytes) :
    resultText (bodies ++ [b]) = (if bodies.isEmpty then [] else resultText bodies ++ ascii ", ") ++
      ascii "\x7b " ++ b ++ ascii " \x7d" := by
  cases bodies with
  | nil => simp [resultText]
  | cons b' bodies =>
    have hsep : ascii ", \x7b " = ascii ", " ++ ascii "\x7b " := rfl
    simp only [resultText, cons_append, flatMap_append, flatMap_cons,
      flatMap_nil, append_nil, isEmpty_cons, Bool.false_eq_true, if_false,
      append_assoc, hsep]

lemma Tells.congr (h : Tells bodies s) (hresult : t.result = s.result)
    (hopen : t.openResult = s.openResult) : Tells bodies t :=
  ⟨fun hopened => by rw [hresult]; exact h.opened (hopen.symm.trans hopened),
    fun hbegun => by rw [hresult]; exact h.begun (hopen.symm.trans hbegun)⟩

lemma result_wrote (text : Bytes) :
    (s.wrote text).result =
      s.result ++ (if s.openResult then ascii " \x7d, \x7b " else []) ++ text := by
  unfold State.wrote State.separated
  split
  · rfl
  · rw [append_nil]
    rfl

lemma Tells.wrote (h : Tells bodies s) (text : Bytes) :
    Tells (bodies ++ [text]) (s.wrote text) := by
  constructor
  · intro _
    refine ⟨append_ne_nil_of_right_ne_nil _ (cons_ne_nil _ _), ?_⟩
    rw [result_wrote, resultText_append]
    by_cases hopen : s.openResult = true
    · obtain ⟨hne, hresult⟩ := h.opened hopen
      have hsep : ascii " \x7d, \x7b " = ascii " \x7d" ++ (ascii ", " ++ ascii "\x7b ") := rfl
      rw [if_pos hopen, hsep, if_neg (by rwa [List.isEmpty_iff]), ← hresult]
      simp only [List.append_assoc]
    · rw [if_neg hopen, List.append_nil, h.begun (Bool.eq_false_iff.mpr hopen)]
  · intro hbegun
    exact absurd hbegun.symm Bool.false_ne_true

lemma Tells.nextResult (h : Tells bodies s) (hopen : s.openResult = true) :
    Tells bodies s.nextResult := by
  obtain ⟨hne, hresult⟩ := h.opened hopen
  have hsep : ascii " \x7d, " = ascii " \x7d" ++ ascii ", " := rfl
  refine ⟨nofun, fun _ => ?_⟩
  dsimp only [State.nextResult]
  rw [if_pos hopen, if_neg (by rwa [List.isEmpty_iff]), hsep, ← List.append_assoc, hresult]

end Entries

/-! ### What entries leave as it is -/

/-- Only what belongs to the entries and their texts has changed. -/
structure Framed (s t : State) : Prop where
  opt : t.opt = s.opt
  sent : t.sent = s.sent
  busy : t.busy = s.busy
  gotresp : t.gotresp = s.gotresp
  timerTimeout : t.timerTimeout = s.timerTimeout
  timerGap : t.timerGap = s.timerGap
  reading : t.reading = s.reading
  resolving : t.resolving = s.resolving
  acts : t.acts = s.acts

section Framed

variable (s : State)

lemma framed_wrote (text : Bytes) : Framed s (s.wrote text) := by
  unfold State.wrote State.separated
  split
  · constructor <;> rfl
  · constructor <;> rfl

lemma framed_keepHeader (h : Header) : Framed s (s.keepHeader h) := by
  unfold State.keepHeader
  split
  · constructor <;> rfl
  · constructor <;> rfl

lemma Framed.trans {s t u : State} (h : Framed s t) (h' : Framed t u) : Framed s u :=
  ⟨h'.opt.trans h.opt, h'.sent.trans h.sent, h'.busy.trans h.busy, h'.gotresp.trans h.gotresp,
    h'.timerTimeout.trans h.timerTimeout, h'.timerGap.trans h.timerGap,
    h'.reading.trans h.reading, h'.resolving.trans h.resolving, h'.acts.trans h.acts⟩

/-- The state in which a reply has been written. -/
lemma framed_reply (text : Bytes) (h : Header) : Framed s ((s.wrote text).keepHeader h) :=
  (framed_wrote s text).trans (framed_keepHeader _ h)

lemma tells_keepHeader {bodies : List Bytes} (h : Tells bodies s) (hdr : Header) :
    Tells bodies (s.keepHeader hdr) := by
  unfold State.keepHeader
  split
  · exact h.congr rfl rfl
  · exact h

end Framed

/-! ### `send_pkt` -/

section Sending

variable (env : Env) (io : Io) (s : State)

/-- If it was not the last request, the next request is sent and both timers are started. -/
lemma sendPkt_of_not_isLast (h : s.isLast = false) (hio : io.sendto = none) :
    sendPkt env io s = (s.forgot.transmitted env io).nextResult.armed := by
  have hnot : ¬s.forgot.isLast = true := Bool.eq_false_iff.mp h
  unfold sendPkt
  rw [if_neg hnot]
  unfold transmit
  rw [hio]

/-- No request is under way: there is neither a timer nor a reply to wait for. -/
structure Off (s : State) : Prop where
  timerTimeout : s.timerTimeout = false
  timerGap : s.timerGap = false
  reading : s.reading = false

/-- Nothing is waited for. -/
structure Idle (s : State) : Prop extends Off s where
  busy : s.busy = false
  resolving : s.resolving = false

/-- The options stay, and the measurement goes on or ends. -/
structure Keeps (t : State) : Prop where
  opt : t.opt = s.opt
  busy : s.resolving = false → t.busy = s.busy ∧ t.resolving = false ∨ Idle t

lemma keeps_self : Keeps s s := ⟨rfl, fun h => .inl ⟨rfl, h⟩⟩

variable {s} in
lemma Framed.keeps {t u : State} (h : Framed s t) (h' : Keeps t u) : Keeps s u := by
  refine ⟨h'.opt.trans h.opt, fun hresolving => ?_⟩
  rw [← h.busy]
  exact h'.busy (h.resolving.trans hresolving)

lemma keeps_sendPkt : Keeps s (sendPkt env io s) := by
  have hreport (t : State) (hopt : t.opt = s.opt) (hresolving : t.resolving = s.resolving) :
      Keeps s (report env io t) := by
    refine ⟨hopt, fun h => .inr ⟨⟨rfl, rfl, rfl⟩, rfl, ?_⟩⟩
    exact hresolving.trans h
  have hsent : Keeps s (s.forgot.transmitted env io).nextResult.armed :=
    ⟨rfl, fun h => .inl ⟨rfl, h⟩⟩
  unfold sendPkt
  dsimp only
  split
  · exact hreport _ rfl rfl
  · unfold transmit
    dsimp only
    split
    · split
      · exact hreport _ rfl rfl
      · exact hsent
    · exact hsent

lemma keeps_goOn : Keeps s (goOn env io s) := by
  unfold goOn
  split
  · exact keeps_sendPkt env io s
  · exact keeps_self s

lemma keeps_readyCallback (p : Packet) : Keeps s (readyCallback env io s p) := by
  unfold readyCallback
  split
  · exact keeps_self s
  · split
    · exact keeps_self s
    · have hgoes := keeps_goOn env io
        ((s.wrote (replyText env io s (headerOf p.buf))).keepHeader (headerOf p.buf)).answered
      exact (framed_reply s _ _).keeps ⟨hgoes.opt, hgoes.busy⟩

lemma keeps_noreplyCallback : Keeps s (noreplyCallback env io s) :=
  (framed_wrote s timeoutText).keeps (keeps_goOn env io _)

lemma keeps_gapCallback : Keeps s (gapCallback env io s) := by
  unfold gapCallback
  split
  · exact keeps_sendPkt env io s
  · exact keeps_self s

lemma keeps_ntpStart2 (sio : SocketIo) : Keeps s (ntpStart2 env io s sio) := by
  have hfails (size : ℕ) (text : Bytes) : Keeps s (fails env io (s.restart io) size text) :=
    ⟨rfl, fun h => .inr ⟨⟨rfl, rfl, rfl⟩, rfl, h⟩⟩
  unfold ntpStart2
  split
  · exact keeps_self s
  · dsimp only
    split
    · exact hfails _ _
    · split
      · exact hfails _ _
      · split
        · exact hfails _ _
        · have hsend := keeps_sendPkt env io ((s.restart io).opened sio.sockname)
          exact ⟨hsend.opt, hsend.busy⟩

lemma keeps_dnsCb (ttr : Bytes) (r : DnsResult) (sio : SocketIo) :
    Keeps (s.heard ttr) (dnsCb env io s ttr r sio) := by
  unfold dnsCb
  split
  · exact ⟨rfl, fun _ => .inr ⟨⟨rfl, rfl, rfl⟩, rfl, rfl⟩⟩
  · next sin6 allowed =>
    split
    · have hstart := keeps_ntpStart2 env io ((s.heard ttr).resolved.setAddr sin6) sio
      exact ⟨hstart.opt, hstart.busy⟩
    · exact ⟨rfl, fun _ => .inr ⟨⟨rfl, rfl, rfl⟩, rfl, rfl⟩⟩
  · exact ⟨rfl, fun _ => .inr ⟨⟨rfl, rfl, rfl⟩, rfl, rfl⟩⟩

end Sending

/-! ### Phases -/

/-- The name is being resolved. -/
structure Resolving (s : State) : Prop extends Off s where
  busy : s.busy = true
  resolving : s.resolving = true

/-- What holds in every state. -/
inductive Phase (s : State) : Prop
  | idle (h : Idle s)
  | resolving (h : Resolving s)
  | going (hbusy : s.busy = true) (hresolving : s.resolving = false)

section Phases

variable (env : Env) {s t : State} (x : Event × Io)

lemma Phase.idle_of_not_busy (h : Phase s) (hbusy : s.busy = false) : Idle s := by
  cases h with
  | idle h => exact h
  | resolving h => exact absurd (hbusy.symm.trans h.busy) Bool.false_ne_true
  | going h _ => exact absurd (hbusy.symm.trans h) Bool.false_ne_true

lemma Keeps.phase (h : Keeps s t) (hbusy : s.busy = true) (hresolving : s.resolving = false) :
    Phase t := by
  rcases h.busy hresolving with ⟨hsame, hnot⟩ | hidle
  · exact .going (hsame.trans hbusy) hnot
  · exact .idle hidle

/-- Before the first request and behind the last one, only a start and the end of the name
resolution change the state. -/
lemma Off.step_eq (h : Off s) (hstart : x.1 = .start → s.busy = true)
    (hdns : ∀ ttr r sio, x.1 = .dns ttr r sio → s.resolving = false) : step env s x = s := by
  obtain ⟨e, io⟩ := x
  cases e with
  | start => exact if_pos (hstart rfl)
  | dns ttr r sio => exact if_neg (ne_true_of_eq_false (hdns ttr r sio rfl))
  | packet p => exact if_neg (ne_true_of_eq_false h.reading)
  | timeout => exact if_neg (ne_true_of_eq_false h.timerTimeout)
  | gap => exact if_neg (ne_true_of_eq_false h.timerGap)

lemma Idle.start (h : Idle s) (io : Io) :
    step env s (.start, io) = s.started ∧ Resolving s.started := by
  refine ⟨if_neg (ne_true_of_eq_false h.busy), ?_⟩
  exact ⟨⟨h.timerTimeout, h.timerGap, h.reading⟩, rfl, rfl⟩

/-- While requests are sent, an event keeps the options, and the measurement goes on or ends. -/
lemma keeps_step (hbusy : s.busy = true) (hresolving : s.resolving = false) :
    Keeps s (step env s x) := by
  obtain ⟨e, io⟩ := x
  cases e with
  | start =>
    have hstep : step env s (.start, io) = s := if_pos hbusy
    rw [hstep]
    exact keeps_self s
  | dns ttr r sio =>
    have hstep : step env s (.dns ttr r sio, io) = s := if_neg (ne_true_of_eq_false hresolving)
    rw [hstep]
    exact keeps_self s
  | packet p =>
    dsimp only [step]
    split
    · exact keeps_readyCallback env io s p
    · exact keeps_self s
  | timeout =>
    dsimp only [step]
    split
    · have hkeeps := keeps_noreplyCallback env io s.timeoutExpired
      exact ⟨hkeeps.opt, hkeeps.busy⟩
    · exact keeps_self s
  | gap =>
    dsimp only [step]
    split
    · have hkeeps := keeps_gapCallback env io s.gapExpired
      exact ⟨hkeeps.opt, hkeeps.busy⟩
    · exact keeps_self s

/-- Every event keeps the options and leads to a state of some phase. -/
lemma Phase.step (h : Phase s) : Phase (step env s x) ∧ (Ntp.step env s x).opt = s.opt := by
  cases h with
  | idle h =>
    by_cases hx : x.1 = .start
    · obtain ⟨e, io⟩ := x
      obtain rfl : e = .start := hx
      obtain ⟨hstep, hstarted⟩ := h.start env io
      rw [hstep]
      exact ⟨.resolving hstarted, rfl⟩
    · rw [h.step_eq env x (fun heq => absurd heq hx) fun _ _ _ _ => h.resolving]
      exact ⟨.idle h, rfl⟩
  | resolving h =>
    by_cases hx : ∃ ttr r sio, x.1 = .dns ttr r sio
    · obtain ⟨e, io⟩ := x
      obtain ⟨ttr, r, sio, rfl⟩ := hx
      have hstep : Ntp.step env s (.dns ttr r sio, io) = dnsCb env io s ttr r sio :=
        if_pos h.resolving
      have hkeeps := keeps_dnsCb env io s ttr r sio
      rw [hstep]
      exact ⟨hkeeps.phase h.busy rfl, hkeeps.opt⟩
    · rw [h.step_eq env x (fun _ => h.busy) fun ttr r sio heq => absurd ⟨ttr, r, sio, heq⟩ hx]
      exact ⟨.resolving h, rfl⟩
  | going hbusy hresolving =>
    have hkeeps := keeps_step env x hbusy hresolving
    exact ⟨hkeeps.phase hbusy hresolving, hkeeps.opt⟩

end Phases

end AtlasProbe.Ntp
