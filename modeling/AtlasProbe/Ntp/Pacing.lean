import AtlasProbe.Ntp.Steps

/-!
# Requests are paced and counted

A ledger of the requests goes along with the states (`note`): for each one, whether its gap is over
and the entries that were written before the next one.  A request is sent only when the gap of the
one before is over and it has an entry (`Goes`, `Course.step`).
-/

namespace AtlasProbe.Ntp

open List Reactive Measurement

/-! ### The ledger -/

/-- A request that has been sent: its timer for the gap has expired before the next request, and the
texts of the entries that were written meanwhile. -/
structure Sent where
  gapOver : Bool
  entries : List Bytes
  deriving DecidableEq

/-- A request that has just been sent. -/
def Sent.fresh : Sent := ⟨false, []⟩

/-- The gap is over. -/
def Sent.pass (p : Sent) : Sent := { p with gapOver := true }

/-- An entry is written. -/
def Sent.write (text : Bytes) (p : Sent) : Sent := { p with entries := p.entries ++ [text] }

/-- Change the last request. -/
def onLast (f : Sent → Sent) (l : List Sent) : List Sent := l.dropLast ++ (l.getLast?.map f).toList

/-- The texts of all entries. -/
def texts (l : List Sent) : List Bytes := l.flatMap Sent.entries

/-- How many requests there are among some acts. -/
def countSends (acts : List Act) : ℕ :=
  acts.countP fun
    | .sendto _ _ => true
    | .timeoutTimer _ | .gapTimer _ | .written _ | .done => false

/-- The entry that an event writes. -/
def entryIn (env : Env) (s : State) (x : Event × Io) : Option Bytes :=
  match x.1 with
  | .packet p =>
    if s.reading && s.busy && decide (headerSize ≤ p.nrecv) then
      some (replyText env x.2 s (headerOf p.buf))
    else none
  | .timeout => if s.timerTimeout then some timeoutText else none
  | .start | .dns _ _ _ | .gap => none

/-- What an event does to the requests that there are; the ledger of a new run is empty. -/
def noteEvent (env : Env) (s : State) (x : Event × Io) (l : List Sent) : List Sent :=
  match x.1 with
  | .start => if s.busy then l else []
  | .gap => if s.timerGap then onLast .pass l else l
  | .packet _ | .timeout => (entryIn env s x).elim l fun text => onLast (.write text) l
  | .dns _ _ _ => l

/-- The ledger goes along. -/
def note (env : Env) (s : State) (x : Event × Io) (l : List Sent) : List Sent :=
  noteEvent env s x l ++ List.replicate (countSends ((step env s x).acts.drop s.acts.length)) .fresh

/-- Name resolution and socket succeed, and `sendto` as well. -/
def Clear (s : State) (x : Event × Io) : Prop :=
  x.2.sendto = none ∧
  match x.1 with
  | .dns _ r sio => s.resolving = true →
      (∃ sin6, r = .resolved sin6 true) ∧ sio.socket = none ∧ sio.bindInterface = true ∧
        sio.connect = none
  | .start => s.busy = true
  | .packet _ | .timeout | .gap => True

section Ledger

variable (f : Sent → Sent) (l past : List Sent) (p : Sent)

@[simp]
lemma onLast_append : onLast f (past ++ [p]) = past ++ [f p] := by simp [onLast]

lemma length_onLast : (onLast f l).length = l.length := by
  rcases eq_nil_or_concat l with rfl | ⟨past, p, rfl⟩
  · rfl
  · rw [concat_eq_append, onLast_append, length_append, length_append]
    rfl

lemma texts_append : texts (past ++ [p]) = texts past ++ p.entries := by simp [texts]

lemma texts_fresh : texts (l ++ [.fresh]) = texts l := by
  rw [texts_append]
  exact append_nil _

lemma write_ne_nil (text : Bytes) : (p.write text).entries ≠ [] :=
  append_ne_nil_of_right_ne_nil _ (cons_ne_nil _ _)

end Ledger

/-! ### Requests under way -/

/-- Requests have been sent; the last one is `p`.  All others have an entry, and their gap is over.
-/
structure Active (opt : Options) (s : State) (past : List Sent) (p : Sent) : Prop where
  opt_eq : s.opt = opt
  busy : s.busy = true
  reading : s.reading = true
  resolving : s.resolving = false
  sent : s.sent = past.length + 1
  sent_le : (s.sent : ℤ) ≤ opt.count
  past_over : ∀ q ∈ past, q.gapOver = true ∧ q.entries ≠ []
  gapOver : p.gapOver = !s.timerGap
  openResult : s.openResult = !p.entries.isEmpty
  timerTimeout : s.timerTimeout = p.entries.isEmpty
  gotresp : s.gotresp = true → p.entries ≠ []
  tells : Tells (texts (past ++ [p])) s

/-- A timer is on: if the last request has an entry, then the next one waits for the gap. -/
structure Running (opt : Options) (s : State) (past : List Sent) (p : Sent) : Prop
    extends Active opt s past p where
  waits : p.entries ≠ [] → s.timerGap = true ∧ (s.sent : ℤ) < opt.count

/-- The acts of a request. -/
def requestActs (opt : Options) (request : Bytes) : List Act :=
  [.sendto request none, .timeoutTimer opt.timeout, .gapTimer opt.gap]

/-- All requests have been sent, each one behind the gap of the one before, and all have entries.
-/
structure Finished (opt : Options) (l : List Sent) : Prop where
  count : (l.length : ℤ) = opt.count
  gap : ∀ q ∈ l.dropLast, q.gapOver = true
  entries : ∀ q ∈ l, q.entries ≠ []

/-- What becomes of a state with a ledger. -/
inductive Goes (env : Env) (io : Io) (opt : Options) (s : State) (l : List Sent) (t : State) : Prop
  | stays (past : List Sent) (p : Sent) (hl : l = past ++ [p]) (heq : t = s)
      (h : Running opt t past p)
  | sends (request : Bytes) (hacts : t.acts = s.acts ++ requestActs opt request)
      (h : Running opt t l .fresh)
  | ends (u : State) (hacts : t.acts = s.acts ++ [.written (reportText env io u), .done])
      (hresult : u.result = resultText (texts l)) (hl : Finished opt l) (h : Idle t)

section Active

variable {env : Env} {io : Io} {opt : Options} {s t : State} {past : List Sent} {p : Sent}

/-- `send_pkt` for a request that has an entry, when its gap is over or it is the last one. -/
lemma Active.sendPkt (h : Active opt s past p) (hio : io.sendto = none) (hentries : p.entries ≠ [])
    (hgap : s.timerGap = false ∨ s.isLast = true) :
    Goes env io opt s (past ++ [p]) (sendPkt env io s) := by
  have hopen : s.openResult = true := by
    rw [h.openResult, Bool.not_eq_true', Bool.eq_false_iff, Ne, List.isEmpty_iff]
    exact hentries
  have hlength : (past ++ [p]).length = s.sent := by
    rw [h.sent, length_append, length_singleton]
  by_cases hlast : s.isLast = true
  · have hforgot : s.forgot.isLast = true := hlast
    rw [Ntp.sendPkt, if_pos hforgot]
    have hle : opt.count ≤ s.sent := by
      rw [← h.opt_eq]
      exact of_decide_eq_true hlast
    refine .ends (s.forgot.addStr (ascii " \x7d")) rfl (h.tells.opened hopen).2 ⟨?_, ?_, ?_⟩ ?_
    · rw [hlength]
      exact Int.le_antisymm h.sent_le hle
    · intro q hq
      rw [dropLast_concat] at hq
      exact (h.past_over q hq).1
    · intro q hq
      rcases mem_append.mp hq with hq | hq
      · exact (h.past_over q hq).2
      · rw [mem_singleton.mp hq]
        exact hentries
    · exact ⟨⟨rfl, rfl, rfl⟩, rfl, h.resolving⟩
  · have hnot := Bool.eq_false_iff.mpr hlast
    have hover : s.timerGap = false := hgap.resolve_right hlast
    have hlt : (s.sent : ℤ) < opt.count := by
      rw [← h.opt_eq]
      exact Int.not_le.mp (of_decide_eq_false hnot)
    rw [sendPkt_of_not_isLast env io s hnot hio]
    have htells : Tells (texts (past ++ [p])) (s.forgot.transmitted env io).nextResult.armed :=
      (Tells.nextResult (h.tells.congr rfl rfl) hopen).congr
        rfl rfl
    refine .sends (request env io s.forgot) ?_ ⟨⟨h.opt_eq, h.busy, h.reading, h.resolving, ?_, ?_,
      ?_, rfl, rfl, rfl, ?_, ?_⟩, ?_⟩
    · dsimp only [State.armed, State.nextResult, State.transmitted]
      rw [hio, append_assoc, ← h.opt_eq]
      rfl
    · rw [length_append, length_singleton, ← h.sent]
      rfl
    · exact Int.add_one_le_of_lt hlt
    · intro q hq
      rcases mem_append.mp hq with hq | hq
      · exact h.past_over q hq
      · rw [mem_singleton.mp hq]
        refine ⟨?_, hentries⟩
        rw [h.gapOver, hover]
        rfl
    · exact nofun
    · rw [texts_fresh]
      exact htells
    · exact fun hne => absurd rfl hne

/-- The next request is sent when the gap is over. -/
lemma Active.goOn (h : Active opt s past p) (hio : io.sendto = none) (hentries : p.entries ≠ []) :
    Goes env io opt s (past ++ [p]) (goOn env io s) := by
  unfold Ntp.goOn
  by_cases hgo : (!s.timerGap || s.isLast) = true
  · rw [if_pos hgo]
    rw [Bool.or_eq_true, Bool.not_eq_true'] at hgo
    exact h.sendPkt hio hentries hgo
  · rw [if_neg hgo]
    rw [Bool.or_eq_true, Bool.not_eq_true', not_or, Bool.not_eq_false] at hgo
    obtain ⟨hgap, hlast⟩ := hgo
    refine .stays past p rfl rfl ⟨h, fun _ => ⟨hgap, ?_⟩⟩
    rw [← h.opt_eq]
    exact Int.not_le.mp fun hle => hlast (decide_eq_true hle)

/-- An entry is written, and the timer for the reply is off. -/
lemma Active.write (h : Active opt s past p) (text : Bytes) (hopt : t.opt = s.opt)
    (hsent : t.sent = s.sent) (hbusy : t.busy = s.busy) (hreading : t.reading = s.reading)
    (hresolving : t.resolving = s.resolving) (hgap : t.timerGap = s.timerGap)
    (htimeout : t.timerTimeout = false) (hopen : t.openResult = true)
    (htells : Tells (texts (past ++ [p]) ++ [text]) t) : Active opt t past (p.write text) := by
  have hsome : (p.write text).entries.isEmpty = false :=
    Bool.eq_false_iff.mpr fun h => write_ne_nil p text (isEmpty_iff.mp h)
  refine ⟨hopt.trans h.opt_eq, hbusy.trans h.busy, hreading.trans h.reading,
    hresolving.trans h.resolving, hsent.trans h.sent, ?_, h.past_over, ?_, ?_, ?_, ?_, ?_⟩
  · rw [hsent]
    exact h.sent_le
  · rw [hgap]
    exact h.gapOver
  · rw [hsome, hopen]
    rfl
  · rw [hsome, htimeout]
  · exact fun _ => write_ne_nil p text
  · rw [texts_append, append_assoc] at htells
    rw [texts_append]
    exact htells

end Active

/-! ### Steps -/

/-- How many timers are on. -/
def timers (s : State) : ℕ := s.timerTimeout.toNat + s.timerGap.toNat

/-- A timer expires. -/
def expires (s : State) (x : Event × Io) : Bool :=
  match x.1 with
  | .timeout => s.timerTimeout
  | .gap => s.timerGap
  | .start | .dns _ _ _ | .packet _ => false

/-- An event writes an entry, lets the gap pass, or does nothing; then the run goes on. -/
def Reacts (env : Env) (opt : Options) (s : State) (l : List Sent) (x : Event × Io) : Prop :=
  ∃ u, u.acts = s.acts ∧ u.sent = s.sent ∧ timers u + (if expires s x then 1 else 0) ≤ timers s ∧
    Goes env x.2 opt u (noteEvent env s x l) (step env s x)

section Steps

variable {env : Env} {opt : Options} {s : State} {past : List Sent} {p : Sent} {io : Io}
  {x : Event × Io}

section Reactions

variable (h : Running opt s past p)

include h

/-- An event that changes nothing. -/
lemma Running.stays (hstep : step env s x = s)
    (hnote : noteEvent env s x (past ++ [p]) = past ++ [p]) (hexpires : expires s x = false) :
    Reacts env opt s (past ++ [p]) x := by
  refine ⟨s, rfl, rfl, ?_, ?_⟩
  · rw [hexpires]
    exact Nat.le_refl _
  · rw [hstep, hnote]
    exact .stays past p rfl rfl h

/-- A reply adds an entry and stops its timer. -/
lemma Running.packet (hio : io.sendto = none) (pk : Packet) :
    Reacts env opt s (past ++ [p]) (.packet pk, io) := by
  have hstep : step env s (.packet pk, io) = readyCallback env io s pk := if_pos h.reading
  have hexpires : expires s (.packet pk, io) = false := rfl
  have hnote : noteEvent env s (.packet pk, io) (past ++ [p]) =
      if headerSize ≤ pk.nrecv then
        past ++ [p.write (replyText env io s (headerOf pk.buf))] else past ++ [p] := by
    dsimp only [noteEvent, entryIn]
    rw [h.reading, h.busy, Bool.true_and, Bool.true_and]
    by_cases hsize : headerSize ≤ pk.nrecv
    · rw [if_pos hsize, if_pos (decide_eq_true hsize)]
      exact onLast_append _ _ _
    · rw [if_neg hsize, if_neg fun hle => hsize (of_decide_eq_true hle)]
      rfl
  unfold readyCallback at hstep
  by_cases hshort : pk.nrecv < headerSize
  · rw [if_pos hshort] at hstep
    rw [if_neg (Nat.not_le.mpr hshort)] at hnote
    exact h.stays hstep hnote hexpires
  · rw [if_neg hshort, h.busy, Bool.not_true] at hstep
    rw [if_pos (Nat.not_lt.mp hshort)] at hnote
    dsimp only at hstep
    generalize replyText env io s (headerOf pk.buf) = text at hstep hnote
    have hframed := framed_reply s text (headerOf pk.buf)
    have htells := tells_keepHeader _ (h.tells.wrote text) (headerOf pk.buf)
    have hopen : ((s.wrote text).keepHeader (headerOf pk.buf)).openResult = true := by
      unfold State.keepHeader
      split <;> rfl
    generalize (s.wrote text).keepHeader (headerOf pk.buf) = t at hstep hframed htells hopen
    have hactive : Active opt t.answered past (p.write text) :=
      h.write text hframed.opt hframed.sent hframed.busy hframed.reading hframed.resolving
        hframed.timerGap rfl hopen (htells.congr rfl rfl)
    refine ⟨t.answered, hframed.acts, hframed.sent, ?_, ?_⟩
    · have hgap : t.answered.timerGap = s.timerGap := hframed.timerGap
      unfold timers
      rw [hgap]
      exact Nat.add_le_add_right (Nat.zero_le _) _
    · rw [hstep, hnote]
      exact hactive.goOn hio (write_ne_nil p text)

/-- When the timer for the reply expires, there is an entry as well. -/
lemma Running.timeout (hio : io.sendto = none) : Reacts env opt s (past ++ [p]) (.timeout, io) := by
  by_cases htimer : s.timerTimeout = true
  · have hstep : step env s (.timeout, io) = goOn env io (s.timeoutExpired.wrote timeoutText) :=
      if_pos htimer
    have hexpires : expires s (.timeout, io) = true := htimer
    have hnote : noteEvent env s (.timeout, io) (past ++ [p]) = past ++ [p.write timeoutText] := by
      dsimp only [noteEvent, entryIn]
      rw [if_pos htimer]
      exact onLast_append _ _ _
    have hframed := framed_wrote s.timeoutExpired timeoutText
    have htells := Tells.wrote (s := s.timeoutExpired) (h.tells.congr rfl rfl) timeoutText
    have hopen : (s.timeoutExpired.wrote timeoutText).openResult = true := rfl
    generalize s.timeoutExpired.wrote timeoutText = t at hstep hframed htells hopen
    have hactive : Active opt t past (p.write timeoutText) :=
      h.write timeoutText hframed.opt hframed.sent hframed.busy hframed.reading
        hframed.resolving hframed.timerGap hframed.timerTimeout hopen htells
    refine ⟨t, hframed.acts, hframed.sent, ?_, ?_⟩
    · unfold timers
      rw [hexpires, hframed.timerTimeout, hframed.timerGap, htimer, Nat.add_comm]
      exact Nat.add_le_add_left (Nat.le_of_eq (Nat.zero_add _)) _
    · rw [hstep, hnote]
      exact hactive.goOn hio (write_ne_nil p _)
  · refine h.stays (if_neg htimer) ?_ (Bool.eq_false_iff.mpr htimer)
    dsimp only [noteEvent, entryIn]
    rw [if_neg htimer]
    rfl

/-- When the gap is over, the next request is sent if there is an entry. -/
lemma Running.gap (hio : io.sendto = none) : Reacts env opt s (past ++ [p]) (.gap, io) := by
  by_cases htimer : s.timerGap = true
  · have hstep : step env s (.gap, io) = gapCallback env io s.gapExpired := if_pos htimer
    have hexpires : expires s (.gap, io) = true := htimer
    have hnote : noteEvent env s (.gap, io) (past ++ [p]) = past ++ [p.pass] :=
      (if_pos htimer).trans (onLast_append _ _ _)
    have hactive : Active opt s.gapExpired past p.pass := by
      refine ⟨h.opt_eq, h.busy, h.reading, h.resolving, h.sent, h.sent_le, h.past_over, rfl,
        h.openResult, h.timerTimeout, h.gotresp, ?_⟩
      rw [texts_append]
      exact texts_append past p ▸ h.tells.congr rfl rfl
    refine ⟨s.gapExpired, rfl, rfl, ?_, ?_⟩
    · unfold timers
      rw [hexpires, htimer]
      exact Nat.le_refl _
    · rw [hstep, hnote]
      unfold gapCallback
      split
      · next hgo =>
        have hentries : p.entries ≠ [] := by
          rw [Bool.or_eq_true, Bool.not_eq_true'] at hgo
          rcases hgo with hgot | hoff
          · exact h.gotresp hgot
          · intro hnil
            rw [show s.gapExpired.timerTimeout = _ from h.timerTimeout, hnil] at hoff
            exact Bool.false_ne_true hoff.symm
        exact hactive.sendPkt hio hentries (.inl rfl)
      · next hgo =>
        rw [Bool.or_eq_true, Bool.not_eq_true', not_or, Bool.not_eq_false] at hgo
        refine .stays past p.pass rfl rfl ⟨hactive, fun hentries => ?_⟩
        have hempty : p.entries.isEmpty = true := h.timerTimeout.symm.trans hgo.2
        exact absurd (isEmpty_iff.mp hempty) hentries
  · exact h.stays (if_neg htimer) (if_neg htimer) (Bool.eq_false_iff.mpr htimer)

variable (env) in
/-- Every event lets the run go on. -/
lemma Running.reacts (hx : Clear s x) : Reacts env opt s (past ++ [p]) x := by
  obtain ⟨e, io⟩ := x
  cases e with
  | start => exact h.stays (if_pos h.busy) (if_pos h.busy) rfl
  | dns ttr r sio =>
    exact h.stays (if_neg (ne_true_of_eq_false h.resolving)) rfl rfl
  | packet pk => exact h.packet hx.1 pk
  | timeout => exact h.timeout hx.1
  | gap => exact h.gap hx.1

end Reactions

variable (env) in
/-- The name has an address: the first request is sent. -/
lemma Resolving.sends (h : Resolving s) (hopt : s.opt = opt) (hcount : 1 ≤ opt.count)
    {ttr : Bytes} {r : DnsResult} {sio : SocketIo} (hx : Clear s (.dns ttr r sio, io)) :
    ∃ request, (step env s (.dns ttr r sio, io)).acts = s.acts ++ requestActs opt request ∧
      Running opt (step env s (.dns ttr r sio, io)) [] .fresh := by
  obtain ⟨hio, hclear⟩ := hx
  obtain ⟨⟨sin6, rfl⟩, hsocket, hbind, hconnect⟩ := hclear h.resolving
  have hstep : step env s (.dns ttr (.resolved sin6 true) sio, io) =
      ntpStart2 env io ((s.heard ttr).resolved.setAddr sin6) sio := if_pos h.resolving
  have hbusy : ((s.heard ttr).resolved.setAddr sin6).busy = true := h.busy
  have hopt' : ((s.heard ttr).resolved.setAddr sin6).opt = opt := hopt
  have hresolving : ((s.heard ttr).resolved.setAddr sin6).resolving = false := rfl
  have hacts : ((s.heard ttr).resolved.setAddr sin6).acts = s.acts := rfl
  rw [hstep, ← hacts]
  generalize (s.heard ttr).resolved.setAddr sin6 = t at hbusy hopt' hresolving
  have hstart : ntpStart2 env io t sio = sendPkt env io ((t.restart io).opened sio.sockname) := by
    unfold ntpStart2
    rw [hbusy, hsocket, hbind, hconnect, Bool.not_true, if_neg Bool.false_ne_true]
    dsimp only
    rw [Bool.and_false, if_neg Bool.false_ne_true]
  have hnot : ((t.restart io).opened sio.sockname).isLast = false := by
    refine decide_eq_false fun hle => ?_
    have hle' : t.opt.count ≤ 0 := hle
    rw [hopt'] at hle'
    omega
  rw [hstart, sendPkt_of_not_isLast env io _ hnot hio]
  refine ⟨request env io ((t.restart io).opened sio.sockname).forgot, ?_, ?_⟩
  · dsimp only [State.armed, State.nextResult, State.transmitted]
    rw [hio, append_assoc, ← hopt']
    rfl
  · refine ⟨⟨hopt', hbusy, rfl, hresolving, rfl, hcount, ?_, rfl, rfl, rfl, ?_, ?_⟩, ?_⟩
    · exact nofun
    · exact nofun
    · exact ⟨nofun, fun _ => rfl⟩
    · exact fun hne => absurd rfl hne

end Steps

/-! ### Runs -/

/-- How often timers can expire until the run has ended. -/
def rank (opt : Options) (s : State) : ℕ :=
  if s.busy then
    if s.resolving then 2 * opt.count.toNat else 2 * (opt.count - s.sent).toNat + timers s
  else 0

/-- The course of a run that began when `base` had been done. -/
inductive Course (env : Env) (opt : Options) (base : List Act) (s : State) (l : List Sent) : Prop
  | resolving (h : Resolving s) (hopt : s.opt = opt) (hacts : s.acts = base) (hl : l = [])
  | running (past : List Sent) (p : Sent) (hl : l = past ++ [p]) (h : Running opt s past p)
      (requests : List Bytes) (hlength : requests.length = l.length)
      (hacts : s.acts = base ++ requests.flatMap (requestActs opt))
  | ended (requests : List Bytes) (hlength : requests.length = l.length) (io : Io)
      (u : State) (hacts : s.acts = base ++ requests.flatMap (requestActs opt) ++
        [.written (reportText env io u), .done])
      (hresult : u.result = resultText (texts l)) (hl : Finished opt l) (h : Idle s)

section Runs

variable {env : Env} {opt : Options} {s t : State} {l past : List Sent} {p : Sent} {io : Io}
  {x : Event × Io} {base : List Act}

lemma note_of_acts {new : List Act} (h : (step env s x).acts = s.acts ++ new) :
    note env s x l = noteEvent env s x l ++ List.replicate (countSends new) .fresh := by
  unfold note
  rw [h, drop_left]

lemma note_of_same (h : (step env s x).acts = s.acts) : note env s x l = noteEvent env s x l := by
  rw [note_of_acts (h.trans (append_nil _).symm)]
  exact append_nil _

lemma note_of_request {request : Bytes}
    (h : (step env s x).acts = s.acts ++ requestActs opt request) :
    note env s x l = noteEvent env s x l ++ [.fresh] := note_of_acts h

lemma Running.rank_eq (h : Running opt s past p) :
    rank opt s = 2 * (opt.count - s.sent).toNat + timers s := by
  unfold rank
  rw [h.busy, h.resolving, if_pos rfl, if_neg Bool.false_ne_true]

/-- Both timers are on behind a request. -/
lemma Running.timers_fresh (h : Running opt s past .fresh) : timers s = 2 := by
  have hgap : s.timerGap = true := Bool.not_eq_eq_eq_not.mp h.gapOver.symm
  unfold timers
  rw [h.timerTimeout, hgap]
  rfl

/-- A timer is on while requests are under way. -/
lemma Running.timer_on (h : Running opt s past p) : s.timerTimeout = true ∨ s.timerGap = true := by
  by_cases hentries : p.entries = []
  · left
    rw [h.timerTimeout, hentries]
    rfl
  · exact .inr (h.waits hentries).1

lemma Running.timers_pos (h : Running opt s past p) : 1 ≤ timers s := by
  unfold timers
  rcases h.timer_on with htimer | htimer
  · rw [htimer]
    exact Nat.le_add_right _ _
  · rw [htimer]
    exact Nat.le_add_left _ _

lemma Resolving.rank_eq (h : Resolving s) : rank opt s = 2 * opt.count.toNat := by
  unfold rank
  rw [h.busy, h.resolving, if_pos rfl, if_pos rfl]

lemma Idle.rank_eq (h : Idle s) : rank opt s = 0 := by
  unfold rank
  rw [h.busy, if_neg Bool.false_ne_true]

variable (env x l) in
/-- No event changes the number of requests in the ledger. -/
lemma length_noteEvent (hbusy : s.busy = true) : (noteEvent env s x l).length = l.length := by
  obtain ⟨e, io⟩ := x
  cases e with
  | start => exact congrArg List.length (if_pos hbusy)
  | dns ttr r sio => rfl
  | packet | timeout =>
    dsimp only [noteEvent]
    cases entryIn env s _ with
    | none => rfl
    | some text => exact length_onLast _ l
  | gap =>
    dsimp only [noteEvent]
    split
    · exact length_onLast _ l
    · rfl

/-- Where no request is under way, an event that changes nothing leaves the ledger as it is. -/
lemma Off.note_eq (h : Off s) (hstart : x.1 = .start → s.busy = true) (hstep : step env s x = s) :
    note env s x l = l ∧ expires s x = false := by
  rw [note_of_same (congrArg State.acts hstep)]
  obtain ⟨e, io⟩ := x
  cases e with
  | start => exact ⟨if_pos (hstart rfl), rfl⟩
  | dns ttr r sio => exact ⟨rfl, rfl⟩
  | packet pk =>
    dsimp only [noteEvent, entryIn]
    rw [h.reading]
    exact ⟨rfl, rfl⟩
  | timeout =>
    dsimp only [noteEvent, entryIn]
    rw [h.timerTimeout]
    exact ⟨rfl, h.timerTimeout⟩
  | gap =>
    dsimp only [noteEvent]
    rw [h.timerGap]
    exact ⟨rfl, h.timerGap⟩

/-- Such an event leaves the run where it is. -/
lemma Course.same (h : Course env opt base s l) (hoff : Off s)
    (hstart : x.1 = .start → s.busy = true) (hstep : step env s x = s) :
    Course env opt base (step env s x) (note env s x l) ∧
      (if expires s x then 1 else 0) + rank opt (step env s x) ≤ rank opt s := by
  obtain ⟨hnote, hexpires⟩ := hoff.note_eq (l := l) hstart hstep
  rw [hnote, hexpires, hstep, if_neg Bool.false_ne_true, Nat.zero_add]
  exact ⟨h, Nat.le_refl _⟩

/-- An event takes a run with requests one step further. -/
lemma Running.course (h : Running opt s past p) (hx : Clear s x) {requests : List Bytes}
    (hlength : requests.length = (past ++ [p]).length)
    (hacts : s.acts = base ++ requests.flatMap (requestActs opt)) :
    Course env opt base (step env s x) (note env s x (past ++ [p])) ∧
      (if expires s x then 1 else 0) + rank opt (step env s x) ≤ rank opt s := by
  obtain ⟨u, huacts, husent, htimers, hgoes⟩ := h.reacts env hx
  have hnoted := length_noteEvent env (past ++ [p]) x h.busy
  rw [h.rank_eq]
  cases hgoes with
  | stays past' p' hl heq h' =>
    have hsame : (step env s x).acts = s.acts := by rw [heq, huacts]
    rw [note_of_same hsame, h'.rank_eq, heq]
    refine ⟨.running past' p' hl (heq ▸ h') requests (hlength.trans hnoted.symm) ?_, ?_⟩
    · rw [huacts, hacts]
    · omega
  | sends request hnew h' =>
    rw [huacts] at hnew
    rw [note_of_request hnew, h'.rank_eq, h'.sent, hnoted, h'.timers_fresh]
    refine ⟨.running _ .fresh rfl h' (requests ++ [request]) ?_ ?_, ?_⟩
    · rw [length_append, length_append, hlength, hnoted]
      rfl
    · rw [hnew, hacts, flatMap_append, flatMap_singleton, append_assoc]
    · have hle := h'.sent_le
      have hsent := h.sent
      rw [h'.sent, hnoted] at hle
      rw [length_append, length_singleton] at hle ⊢
      omega
  | ends v hnew hresult hfinished h' =>
    rw [huacts] at hnew
    have hnote : note env s x (past ++ [p]) = noteEvent env s x (past ++ [p]) :=
      (note_of_acts hnew).trans (append_nil _)
    rw [hnote, h'.rank_eq]
    refine ⟨.ended requests (hlength.trans hnoted.symm) x.2 v ?_ hresult hfinished h', ?_⟩
    · rw [hnew, hacts]
    · omega

/-- An event takes a run one step further, and a timer that expires lowers the rank. -/
lemma Course.step (hcount : 1 ≤ opt.count) (h : Course env opt base s l) (hx : Clear s x) :
    Course env opt base (step env s x) (note env s x l) ∧
      (if expires s x then 1 else 0) + rank opt (Ntp.step env s x) ≤ rank opt s := by
  cases h with
  | resolving h hopt hacts hl =>
    subst hl
    by_cases hdns : ∃ ttr r sio, x.1 = .dns ttr r sio
    · obtain ⟨e, io⟩ := x
      obtain ⟨ttr, r, sio, rfl⟩ := hdns
      obtain ⟨request, hnew, h'⟩ := h.sends env hopt hcount hx
      have hnote : note env s (.dns ttr r sio, io) [] = [.fresh] := note_of_request hnew
      rw [hnote]
      refine ⟨.running [] .fresh rfl h' [request] rfl ?_, ?_⟩
      · rw [hnew, hacts, flatMap_singleton]
      · have hexpires : expires s (.dns ttr r sio, io) = false := rfl
        rw [hexpires, if_neg Bool.false_ne_true, h'.rank_eq, h'.sent, h'.timers_fresh, h.rank_eq]
        omega
    · have hstep := h.step_eq env x (fun _ => h.busy)
        fun ttr r sio heq => absurd ⟨ttr, r, sio, heq⟩ hdns
      exact (Course.resolving h hopt hacts rfl).same h.toOff (fun _ => h.busy) hstep
  | running past p hl h requests hlength hacts =>
    subst hl
    exact h.course hx hlength hacts
  | ended requests hlength io u hacts hresult hfinished h =>
    have hstart : x.1 = .start → s.busy = true := by
      obtain ⟨e, io⟩ := x
      rintro rfl
      exact hx.2
    have hstep := h.step_eq env x hstart fun _ _ _ _ => h.resolving
    exact (Course.ended requests hlength io u hacts hresult hfinished h).same h.toOff hstart hstep

end Runs

/-- The measurement with its ledger. -/
def paceStep (env : Env) : State × List Sent → Event × Io → State × List Sent :=
  withNote (step env) (note env)

lemma count_of_ntpInit {host : Host} {a : Args} {opt : Options}
    (hinit : ntpInit host a = some opt) (hhigh : a.count ≤ 127) : opt.count = a.count := by
  unfold ntpInit at hinit
  split_ifs at hinit
  rw [← Option.some.inj hinit]
  exact host.toChar_of_le hhigh

/-- Every history leaves the options as they are. -/
lemma phase_run (env : Env) (history : List (Event × Io)) {s : State} (h : Phase s) :
    Phase (run (step env) history s) ∧ (run (step env) history s).opt = s.opt := by
  induction history generalizing s with
  | nil => exact ⟨h, rfl⟩
  | cons x history ih =>
    obtain ⟨hstep, hopt⟩ := h.step env x
    obtain ⟨hrun, hopt'⟩ := ih hstep
    exact ⟨hrun, hopt'.trans hopt⟩

/-- A run sends as many requests as the options say: each one after the first when the timer for the
gap that was started with the one before has expired, and when an entry has been written for that
one.  Then one result is written, with all entries.  Until then a timer is on, unless the name is
still being resolved, and the run has ended when timers have expired twice for each request. -/
theorem requests_paced (env : Env) (a : Args) (opt : Options)
    (hinit : ntpInit env.toHost a = some opt)
    (hlow : 1 ≤ a.count) (hhigh : a.count ≤ 127) (sin6 : Sockaddr)
    (history : List (Event × Io)) {s : State} (hs : s = run (step env) history (initState opt sin6))
    (hbusy : s.busy = false) (io : Io) (events : List (Event × Io))
    (hclear : Along (paceStep env) (fun y x => Clear y.1 x) events (step env s (.start, io), []))
    {t : State} {l : List Sent}
    (ht : run (paceStep env) events (step env s (.start, io), []) = (t, l)) :
    (∃ requests : List Bytes, requests.length = l.length ∧
      (∀ q ∈ l.dropLast, q.gapOver = true ∧ q.entries ≠ []) ∧
      (t.busy = true ∧ l.length ≤ a.count ∧
        t.acts = s.acts ++ requests.flatMap (requestActs opt) ∧
        (t.resolving = true ∧ l = [] ∨ t.timerTimeout = true ∨ t.timerGap = true) ∨
      t.busy = false ∧ l.length = a.count ∧ (∀ q ∈ l, q.entries ≠ []) ∧
        t.timerTimeout = false ∧ t.timerGap = false ∧
        ∃ io u, t.acts = s.acts ++ requests.flatMap (requestActs opt) ++
          [.written (reportText env io u), .done] ∧ u.result = resultText (texts l))) ∧
    (t.resolving = false →
      2 * a.count ≤ countAlong (paceStep env) (fun y x => expires y.1 x) events
        (step env s (.start, io), []) → t.busy = false) := by
  have hcount := count_of_ntpInit hinit hhigh
  have hone : 1 ≤ opt.count := by omega
  have hinitial : Phase (initState opt sin6) := .idle ⟨⟨rfl, rfl, rfl⟩, rfl, rfl⟩
  obtain ⟨hphase, hopt⟩ := phase_run env history hinitial
  rw [← hs] at hphase hopt
  obtain ⟨hstart, hresolving⟩ := (hphase.idle_of_not_busy hbusy).start env io
  rw [hstart] at hclear ht ⊢
  have hfirst : Course env opt s.acts s.started [] := .resolving hresolving hopt rfl rfl
  have hcourse := hclear.invariant (I := fun y => Course env opt s.acts y.1 y.2)
    (fun y x h hx => (h.step hone hx).1) hfirst
  have hbound := hclear.countAlong_add_le (fun y => rank opt y.1)
    (I := fun y => Course env opt s.acts y.1 y.2) (p := fun y x => expires y.1 x)
    (fun y x h hx => (Course.step hone h hx).1) (fun y x h hx => (h.step hone hx).2) hfirst
  rw [ht] at hcourse hbound
  dsimp only at hcourse hbound
  rw [hresolving.rank_eq, hcount, Int.toNat_natCast] at hbound
  cases hcourse with
  | resolving h hopt hacts hl =>
    subst hl
    refine ⟨⟨[], rfl, nofun, .inl ⟨h.busy, Nat.zero_le _, ?_, .inl ⟨h.resolving, rfl⟩⟩⟩, ?_⟩
    · rw [hacts]
      exact (append_nil _).symm
    · exact fun hnot => absurd (hnot.symm.trans h.resolving) Bool.false_ne_true
  | running past p hl h requests hlength hacts =>
    subst hl
    have htimer := h.timer_on
    refine ⟨⟨requests, hlength, ?_, .inl ⟨h.busy, ?_, hacts, .inr htimer⟩⟩, ?_⟩
    · rw [dropLast_concat]
      exact h.past_over
    · have hle := h.sent_le
      rw [hcount, h.sent] at hle
      rw [length_append, length_singleton]
      exact_mod_cast hle
    · intro _ hmany
      have hpos := h.timers_pos
      rw [h.rank_eq] at hbound
      omega
  | ended requests hlength io u hacts hresult hfinished h =>
    refine ⟨⟨requests, hlength, ?_, .inr ⟨h.busy, ?_, hfinished.entries, h.timerTimeout,
      h.timerGap, io, u, hacts, hresult⟩⟩, fun _ _ => h.busy⟩
    · intro q hq
      exact ⟨hfinished.gap q hq, hfinished.entries q (dropLast_subset l hq)⟩
    · exact_mod_cast hfinished.count.trans hcount

/-- The events of a run in which the first request is answered and the second one is not. -/
def plainEvents : List (Event × Io) :=
  [plainDns, plainPacket, (.gap, plainIo), (.timeout, plainIo)]

/-- The state in which a plain run begins. -/
def plainStart (count : ℕ) : State × List Sent :=
  (step plainEnv (initState (plainOptions count) plainAddr) (.start, plainIo), [])

/-- Both requests of a run are sent, and the result is written. -/
theorem requests_paced_two :
    ∃ requests : List Bytes, requests.length = 2 ∧
      ∃ io u, (run (paceStep plainEnv) plainEvents (plainStart 2)).1.acts =
          requests.flatMap (requestActs (plainOptions 2)) ++
            [.written (reportText plainEnv io u), .done] ∧
        u.result = resultText (texts (run (paceStep plainEnv) plainEvents (plainStart 2)).2) := by
  have hclear : Along (paceStep plainEnv) (fun y x => Clear y.1 x) plainEvents (plainStart 2) := by
    refine ⟨⟨rfl, fun _ => ⟨⟨_, rfl⟩, rfl, rfl, rfl⟩⟩, ⟨rfl, trivial⟩, ⟨rfl, trivial⟩,
      ⟨rfl, trivial⟩, trivial⟩
  obtain ⟨⟨requests, hlength, -, hcases⟩, -⟩ := requests_paced plainEnv (plainArgs 2)
    (plainOptions 2) (ntpInit_plainArgs 2) (by decide) (by decide) plainAddr [] rfl rfl
    plainIo plainEvents hclear rfl
  rcases hcases with ⟨hbusy, -⟩ | ⟨-, hcount, -, -, -, io, u, hacts, hresult⟩
  · exact absurd hbusy (by decide +kernel)
  · exact ⟨requests, hlength.trans hcount, io, u, hacts, hresult⟩

end AtlasProbe.Ntp
