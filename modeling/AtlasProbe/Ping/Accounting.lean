import AtlasProbe.Ping.EndsOnce

/-!
# Every request is accounted for

A `Ledger` of the requests of a run goes along with the states: a request has been answered if a
reply with its number has come while it was the last one.  The entries of the result follow the
ledger (`Follows`) as long as the flags that outlive the request they were set for do no harm
(`Regular`, `Accounted.step`).
-/

namespace AtlasProbe.Ping

open List Reactive Measurement

/-! ### The ledger -/

/-- What became of a request. -/
inductive Outcome
  | reply
  | timeout
  | sendError
  deriving DecidableEq

/-- The outcomes of the requests of a run; the last one has its number, and no reply as long as it
is a timeout. -/
structure Ledger where
  past : List Outcome
  last : Option (ℕ × Outcome)
  deriving DecidableEq

namespace Ledger

/-- The outcomes in the order of the requests. -/
def outcomes (l : Ledger) : List Outcome := l.past ++ (l.last.map Prod.snd).toList

/-- There are no requests. -/
def empty : Ledger := ⟨[], none⟩

/-- A request with a number goes out, or fails to. -/
def send (l : Ledger) (number : ℕ) (error : Option ℕ) : Ledger :=
  ⟨l.outcomes, some (number, if error.isSome then .sendError else .timeout)⟩

/-- The last request waits for a reply with a number. -/
def WaitsFor (l : Ledger) (number : ℕ) : Prop := l.last = some (number, .timeout)

instance (l : Ledger) (number : ℕ) : Decidable (l.WaitsFor number) :=
  inferInstanceAs (Decidable (l.last = some (number, .timeout)))

/-- A reply with a number comes. -/
def answer (l : Ledger) (number : ℕ) : Ledger :=
  if l.last = some (number, .timeout) then { l with last := some (number, .reply) } else l

/-- The last request waits for a reply. -/
def Waits (l : Ledger) : Prop := ∃ number, l.WaitsFor number

end Ledger

/-- The requests among some acts. -/
def requests (acts : List Act) : List (ℕ × Option ℕ) :=
  acts.filterMap fun
    | .sendto seq _ error => some (seq, error)
    | .timer _ | .written _ | .done _ => none

/-- The acts of a step. -/
def newActs (env : Env) (s : State) (x : Event × Io) : List Act :=
  (step env s x).acts.drop s.acts.length

/-- The number of the reply in an event, if it is one for the measurement and it is waited for. -/
def replyIn (env : Env) (s : State) (x : Event × Io) : Option ℕ :=
  match x.1 with
  | .packet p =>
    if s.reading then
      match message env s p with
      | some (.reply, number) => some number
      | some (.request, _) | some (.other, _) | none => none
    else none
  | .start _ | .dns _ _ _ | .timeout => none

/-- The ledger of a new run is empty. -/
def opening (s : State) (x : Event × Io) (l : Ledger) : Ledger :=
  match x.1 with
  | .start _ => if s.busy then l else .empty
  | .dns _ _ _ | .packet _ | .timeout => l

/-- The ledger goes along. -/
def note (env : Env) (s : State) (x : Event × Io) (l : Ledger) : Ledger :=
  (requests (newActs env s x)).foldl (fun l r => l.send r.1 r.2)
    ((replyIn env s x).elim (opening s x l) (opening s x l).answer)

/-- The outcome that an entry of a result tells. -/
def Entry.outcome : Entry → Option Outcome
  | .reply r => if r.dup then none else some .reply
  | .timeout => some .timeout
  | .sendError _ => some .sendError

/-- The flags do no harm: when the timer expires for a request without a reply, there has been no
reply and no error before; a reply with the current number is for the last request, and over IPv6
no other reply comes while it is waited for.  No other message comes. -/
def Regular (env : Env) (x : State × Ledger) (e : Event × Io) : Prop :=
  Orderly env x.1 e ∧
  match e.1 with
  | .timeout => x.1.timer = true → x.2.Waits → x.1.gotReply = false ∧ x.1.sendError = false
  | .packet p => x.1.reading = true → ∀ kind number, message env x.1 p = some (kind, number) →
      kind ≠ .other ∧ (kind = .reply → (number = x.1.seq → x.2.WaitsFor number) ∧
        (x.1.opt.inet6 = true → number ≠ x.1.seq → ¬x.2.Waits))
  | .start _ | .dns _ _ _ => True

/-! ### Ledgers -/

section Ledgers

variable {l : Ledger} {number : ℕ} {error : Option ℕ}

lemma Ledger.outcomes_send : (l.send number error).outcomes =
    l.outcomes ++ [if error.isSome then .sendError else .timeout] := rfl

lemma Ledger.outcomes_of_waitsFor (h : l.WaitsFor number) : l.outcomes = l.past ++ [.timeout] := by
  unfold Ledger.outcomes
  rw [h]
  rfl

lemma Ledger.answer_of_waitsFor (h : l.WaitsFor number) :
    l.answer number = ⟨l.past, some (number, .reply)⟩ := if_pos h

lemma Ledger.answer_of_not (h : ¬l.WaitsFor number) : l.answer number = l := if_neg h

lemma newActs_eq {env : Env} {s : State} {x : Event × Io} {new : List Act}
    (h : (step env s x).acts = s.acts ++ new) : newActs env s x = new := by
  unfold newActs
  rw [h, drop_left]

end Ledgers

/-! ### The entries follow the ledger -/

/-- The outcomes that the entries tell. -/
def outcomes (entries : List Entry) : List Outcome := entries.filterMap Entry.outcome

/-- The entries tell what became of every request, up to the last one if that waits for a reply. -/
structure Follows (entries : List Entry) (s : State) (l : Ledger) : Prop where
  length : l.outcomes.length = s.sentpkts
  waiting : ∀ number, l.WaitsFor number → number = s.seq ∧ outcomes entries = l.past
  settled : ¬l.Waits → (s.gotReply = true ∨ s.sendError = true) ∧ outcomes entries = l.outcomes

/-- What holds along the states and the ledger. -/
inductive Accounted (env : Env) (opt : Options) (s : State) (l : Ledger) : Prop
  | idle (h : Idle opt s)
  | resolving (h : Resolving opt s) (htells : Tells env [] s) (hl : l = .empty)
  | pinging (h : Pinging opt s) (entries : List Entry) (htells : Tells env entries s)
      (hfollows : Follows entries s l)

/-- A result is written in which every request of the ledger has its entry. -/
def WritesAll (env : Env) (io : Io) (opt : Options) (s : State) (l : Ledger) (t : State) : Prop :=
  ∃ u entries error, t.acts = s.acts ++ [.written (reportText env io u), .done error] ∧
    u.result = resultText env entries ∧ outcomes entries = l.outcomes ∧
    l.outcomes.length = opt.pingcount

section Accounts

variable {env : Env} {io : Io} {opt : Options} {s t : State} {l : Ledger} {entries : List Entry}

lemma outcomes_append (entries more : List Entry) :
    outcomes (entries ++ more) = outcomes entries ++ outcomes more := filterMap_append

/-- The next request goes into the ledger. -/
lemma Transmitted.follows (h : Transmitted env io s t) (hbusy : s.busy = true)
    (htells : Tells env entries s) (hentries : outcomes entries = l.outcomes)
    (hlength : l.outcomes.length = s.sentpkts) :
    ∃ entries', Tells env entries' t ∧ Follows entries' t (l.send s.seq io.sendto) := by
  refine ⟨_, h.tells entries hbusy htells, ?_, ?_, ?_⟩
  · rw [Ledger.outcomes_send, length_append, hlength, h.sentpkts]
    rfl
  · intro number hwaits
    have hlast := Option.some.inj hwaits
    cases herror : io.sendto with
    | none =>
      refine ⟨(congrArg Prod.fst hlast).symm.trans h.seq.symm, ?_⟩
      rw [Option.map_none, Option.toList_none, append_nil]
      exact hentries
    | some errno =>
      have houtcome := congrArg Prod.snd hlast
      rw [herror] at houtcome
      cases houtcome
  · intro hsettled
    cases herror : io.sendto with
    | none =>
      refine absurd ⟨s.seq, ?_⟩ hsettled
      rw [herror]
      rfl
    | some errno =>
      refine ⟨.inr ?_, ?_⟩
      · rw [h.sendError, herror, Option.isSome_some, Bool.or_true]
      · rw [Option.map_some, outcomes_append, hentries]
        rfl

/-- When the timer expires, every request has its entry. -/
lemma Follows.missed (h : Follows entries s l) (hbusy : s.busy = true)
    (htells : Tells env entries s)
    (hflags : l.Waits → s.gotReply = false ∧ s.sendError = false) :
    ∃ entries', Tells env entries' (s.missed env) ∧ outcomes entries' = l.outcomes := by
  unfold State.missed
  by_cases hwaits : l.Waits
  · obtain ⟨hgot, herror⟩ := hflags hwaits
    obtain ⟨number, hnumber⟩ := hwaits
    obtain ⟨-, hentries⟩ := h.waiting number hnumber
    refine ⟨entries ++ [.timeout], ?_, ?_⟩
    · rw [hgot, herror]
      unfold pingCbTimeout
      rw [hbusy]
      exact ((htells.firstValues _ _).addEntry _).congr rfl rfl
    · rw [outcomes_append, hentries, Ledger.outcomes_of_waitsFor hnumber]
      rfl
  · obtain ⟨hflag, hentries⟩ := h.settled hwaits
    refine ⟨entries, ?_, hentries⟩
    rw [if_neg]
    · exact htells
    · rcases hflag with hgot | herror
      · simp [hgot]
      · simp [herror]

/-- A reply answers the last request, or it is reported as a duplicate. -/
lemma Follows.reply {number : ℕ} (h : Follows entries s l) (hreply : Replied env s t number)
    (hbusy : s.busy = true) (htells : Tells env entries s)
    (hcurrent : number = s.seq → l.WaitsFor number)
    (hdup : s.opt.inet6 = true → number ≠ s.seq → ¬l.Waits) :
    ∃ entries', Tells env entries' t ∧ Follows entries' t (l.answer number) := by
  obtain ⟨r, hr, htells'⟩ := hreply.tells entries hbusy htells
  refine ⟨_, htells', ?_⟩
  by_cases hnumber : number = s.seq
  · have hwaits := hcurrent hnumber
    obtain ⟨-, hentries⟩ := h.waiting number hwaits
    have hlength := h.length
    rw [Ledger.outcomes_of_waitsFor hwaits, length_append] at hlength
    rw [Ledger.answer_of_waitsFor hwaits]
    refine ⟨?_, ?_, ?_⟩
    · rw [hreply.sentpkts, ← hlength]
      exact length_append
    · intro number' hwaits'
      cases hwaits'
    · intro _
      refine ⟨.inl ?_, ?_⟩
      · rw [hreply.gotReply, decide_eq_true hnumber, Bool.or_true]
      · rw [outcomes_append, hentries]
        have hnot : r.dup = false := by rw [hr, decide_eq_false (not_not_intro hnumber)]
        simp [outcomes, Entry.outcome, hnot, Ledger.outcomes]
  · have hnot : ¬l.WaitsFor number := fun hwaits => hnumber (h.waiting number hwaits).1
    have hsame : outcomes (entries ++ [.reply r]) = outcomes entries := by
      have hmarked : r.dup = true := by rw [hr, decide_eq_true hnumber]
      simp [outcomes, Entry.outcome, hmarked]
    rw [Ledger.answer_of_not hnot]
    refine ⟨h.length.trans hreply.sentpkts.symm, ?_, ?_⟩
    · intro number' hwaits
      obtain ⟨hseq, hentries⟩ := h.waiting number' hwaits
      refine ⟨?_, hsame.trans hentries⟩
      have hfamily : s.opt.inet6 = false :=
        Bool.eq_false_iff.mpr fun h6 => hdup h6 hnumber ⟨number', hwaits⟩
      rw [hreply.seq, if_pos ⟨hnumber, hfamily⟩]
      exact hseq
    · intro hsettled
      obtain ⟨hflag, hentries⟩ := h.settled hsettled
      refine ⟨?_, hsame.trans hentries⟩
      rw [hreply.gotReply, hreply.sendError, decide_eq_false hnumber, Bool.or_false]
      exact hflag

variable (io) in
/-- The next request is sent, or the result has an entry for every request. -/
lemma accounted_pingXmit (h : Sending opt s) (hle : s.sentpkts ≤ s.maxpkts)
    (htimer : s.timer = false) (htells : Tells env entries s)
    (hentries : outcomes entries = l.outcomes) (hlength : l.outcomes.length = s.sentpkts) :
    (∃ number packet error msec,
      (pingXmit env io s).acts = s.acts ++ [.sendto number packet error, .timer msec] ∧
      Pinging opt (pingXmit env io s) ∧
      Accounted env opt (pingXmit env io s) (l.send number error)) ∨
    Idle opt (pingXmit env io s) ∧ WritesAll env io opt s l (pingXmit env io s) := by
  rcases pingXmit_cases env io s h.busy with ⟨hge, hend⟩ | ⟨hlt, hsent⟩
  · right
    obtain ⟨u, error, hresult, hacts⟩ := hend.written
    refine ⟨hend.idle h.opt_eq h.dnsip htimer, u, entries, error, hacts,
      hresult.trans htells.result, hentries, ?_⟩
    rw [hlength, ← h.maxpkts]
    exact Nat.le_antisymm hle hge
  · left
    obtain ⟨packet, hacts⟩ := hsent.acts
    obtain ⟨entries', htells', hfollows⟩ := hsent.follows h.busy htells hentries hlength
    have hping := h.pinging hsent hlt
    exact ⟨s.seq, packet, io.sendto, s.opt.interval, hacts, hping,
      .pinging hping entries' htells' hfollows⟩

end Accounts

/-! ### Steps -/

section Notes

variable {env : Env} {s : State} {x : Event × Io} {l : Ledger}

lemma note_of_stays (hacts : (step env s x).acts = s.acts) :
    note env s x l = (replyIn env s x).elim (opening s x l) (opening s x l).answer := by
  unfold note
  rw [newActs_eq (hacts.trans (append_nil _).symm)]
  rfl

lemma note_of_sends {number msec : ℕ} {packet : Bytes} {error : Option ℕ}
    (hacts : (step env s x).acts = s.acts ++ [.sendto number packet error, .timer msec])
    (hreply : replyIn env s x = none) :
    note env s x l = (opening s x l).send number error := by
  unfold note
  rw [newActs_eq hacts, hreply]
  rfl

end Notes

section Steps

variable {env : Env} {opt : Options} {s : State} {x : Event × Io} {l : Ledger}
  {entries : List Entry}

/-- An event that changes nothing, and is not a reply. -/
lemma Accounted.stays (h : Accounted env opt s l) (hstep : step env s x = s)
    (hreply : replyIn env s x = none) (hopening : opening s x l = l) :
    Accounted env opt (step env s x) (note env s x l) := by
  rw [note_of_stays (congrArg State.acts hstep), hreply, hopening, hstep]
  exact h

lemma accounted_of_pinging (h : Pinging opt s) (htells : Tells env entries s)
    (hfollows : Follows entries s l) (hx : Regular env (s, l) x) :
    Accounted env opt (step env s x) (note env s x l) ∧
      ((step env s x).busy = false → WritesAll env x.2 opt s l (step env s x)) := by
  have hsame : Accounted env opt s l := .pinging h entries htells hfollows
  have hgoes {t : State} (hping : Pinging opt t) (hend : t.busy = false) {P : Prop} : P :=
    absurd (hend.symm.trans hping.busy) Bool.false_ne_true
  obtain ⟨e, io⟩ := x
  cases e with
  | start sio =>
    have hstep : step env s (.start sio, io) = s := if_pos h.busy
    refine ⟨hsame.stays hstep rfl (if_pos h.busy), fun hend => ?_⟩
    rw [hstep] at hend
    exact hgoes h hend
  | dns ttr r sio =>
    have hstep : step env s (.dns ttr r sio, io) = s := if_pos (by rw [h.dnsip]; rfl)
    refine ⟨hsame.stays hstep rfl rfl, fun hend => ?_⟩
    rw [hstep] at hend
    exact hgoes h hend
  | packet p =>
    have hstep : step env s (.packet p, io) =
        if s.opt.inet6 then readyCallback6 env io p s else readyCallback4 env io p s :=
      if_pos h.reading
    rcases packet_cases env io p s with ⟨hnot, heq⟩ | ⟨number, hmessage, hreply⟩ |
      ⟨number, hother, -⟩
    · have hnone : replyIn env s (.packet p, io) = none := by
        dsimp only [replyIn]
        rw [if_pos h.reading]
        split
        · next number hmessage => exact absurd hmessage (hnot number)
        all_goals rfl
      refine ⟨hsame.stays (hstep.trans heq) hnone rfl, fun hend => ?_⟩
      rw [hstep, heq] at hend
      exact hgoes h hend
    · obtain ⟨-, hregular⟩ := hx.2 h.reading .reply number hmessage
      obtain ⟨hcurrent, hdup⟩ := hregular rfl
      have hsome : replyIn env s (.packet p, io) = some number := by
        dsimp only [replyIn]
        rw [if_pos h.reading, hmessage]
      obtain ⟨entries', htells', hfollows'⟩ := hfollows.reply hreply h.busy htells hcurrent hdup
      rw [← hstep] at hreply htells' hfollows'
      have hping := h.framed hreply.toFramed
      rw [note_of_stays hreply.acts, hsome]
      exact ⟨.pinging hping entries' htells' hfollows', fun hend => hgoes hping hend⟩
    · exact absurd rfl (hx.2 h.reading .other number hother).1
  | timeout =>
    have hstep : step env s (.timeout, io) = pingXmit env io (s.expired.missed env) :=
      if_pos h.timer
    have hframed : Framed s.expired (s.expired.missed env) := framed_missed env _
    have hfollows' : Follows entries s.expired l := ⟨hfollows.1, hfollows.2, hfollows.3⟩
    obtain ⟨entries', htells', hentries⟩ := hfollows'.missed h.busy (htells.congr rfl rfl)
      (hx.2 h.timer)
    have hsending : Sending opt s.expired := ⟨h.opt_eq, h.busy, h.dnsip, h.reading, h.maxpkts⟩
    have hxmit := accounted_pingXmit io (hsending.framed hframed)
      (by rw [hframed.sentpkts, hframed.maxpkts]; exact h.sentpkts_le) hframed.timer htells'
      hentries (by rw [hframed.sentpkts]; exact hfollows.length)
    rw [← hstep, hframed.acts] at hxmit
    rcases hxmit with ⟨number, packet, error, msec, hacts, hping, haccounted⟩ | ⟨hidle, hwrites⟩
    · rw [note_of_sends hacts rfl]
      exact ⟨haccounted, fun hend => hgoes hping hend⟩
    · unfold WritesAll at hwrites
      rw [hframed.acts] at hwrites
      exact ⟨.idle hidle, fun _ => hwrites⟩

variable (env) in
/-- The first request goes into an empty ledger, or the run ends. -/
lemma accounted_pingStart2 (io : Io) (sio : SocketIo) (hopt : s.opt = opt) (hbusy : s.busy = true)
    (hdnsip : s.dnsip = false) (htimer : s.timer = false) (hmax : s.maxpkts = opt.pingcount)
    (htells : Tells env [] s) :
    (∃ number packet error msec,
      (pingStart2 env io sio s).acts = s.acts ++ [.sendto number packet error, .timer msec] ∧
      Accounted env opt (pingStart2 env io sio s) (Ledger.empty.send number error)) ∨
    Idle opt (pingStart2 env io sio s) := by
  rcases pingStart2_cases env io s sio with hend | heq
  · exact .inr (hend.idle hopt hdnsip htimer)
  · rw [heq]
    have htells' : Tells env [] (s.restart.opened sio.sockname) := htells.congr rfl rfl
    rcases accounted_pingXmit (l := .empty) io (s := s.restart.opened sio.sockname)
      ⟨hopt, hbusy, hdnsip, rfl, hmax⟩ (Nat.zero_le _) htimer htells' rfl rfl with
      ⟨number, packet, error, msec, hacts, -, haccounted⟩ | ⟨hidle, -⟩
    · exact .inl ⟨number, packet, error, msec, hacts, haccounted⟩
    · exact .inr hidle

lemma accounted_of_resolving (h : Resolving opt s) (htells : Tells env [] s)
    (hx : Orderly env s x) : Accounted env opt (step env s x) (note env s x .empty) := by
  have hsame : Accounted env opt s .empty := .resolving h htells rfl
  obtain ⟨e, io⟩ := x
  cases e with
  | start sio => exact hsame.stays (if_pos h.busy) rfl (if_pos h.busy)
  | packet p =>
    have hstep : step env s (.packet p, io) = s := if_neg (ne_true_of_eq_false h.reading)
    have hnone : replyIn env s (.packet p, io) = none := if_neg (ne_true_of_eq_false h.reading)
    exact hsame.stays hstep hnone rfl
  | timeout =>
    exact hsame.stays (if_neg (ne_true_of_eq_false h.timer)) rfl rfl
  | dns ttr r sio =>
    have hr : r ≠ .noAddr := by
      rintro rfl
      exact Bool.false_ne_true (hx.symm.trans h.dnsip)
    rcases dnsCb_cases env io s ttr r sio h.busy h.dnsip hr with hend | ⟨sin6, -, heq⟩
    · exact .idle (hend.idle h.opt_eq rfl h.timer)
    · have hstep : step env s (.dns ttr r sio, io) =
          pingStart2 env io sio ((s.resolved ttr).setAddr sin6) := heq
      have hstart := accounted_pingStart2 env io sio (s := (s.resolved ttr).setAddr sin6) h.opt_eq
        h.busy rfl h.timer h.maxpkts (htells.congr rfl rfl)
      rw [← hstep] at hstart
      rcases hstart with ⟨number, packet, error, msec, hacts, haccounted⟩ | hidle
      · rw [note_of_sends hacts rfl]
        exact haccounted
      · exact .idle hidle

lemma accounted_of_idle (h : Idle opt s) : Accounted env opt (step env s x) (note env s x l) := by
  by_cases hstart : ∃ sio, x.1 = .start sio
  · obtain ⟨e, io⟩ := x
    obtain ⟨sio, rfl⟩ := hstart
    have hbusy : ¬s.busy = true := Bool.eq_false_iff.mp h.busy
    have hstep : step env s (.start sio, io) =
        if s.opt.delayNameRes then s.started.resolving else pingStart2 env io sio s.started :=
      if_neg hbusy
    have hopening : opening s (.start sio, io) l = .empty := if_neg hbusy
    have hmax : s.started.maxpkts = opt.pingcount := congrArg Options.pingcount h.opt_eq
    by_cases hdelay : s.opt.delayNameRes = true
    · rw [if_pos hdelay] at hstep
      have hacts : (step env s (.start sio, io)).acts = s.acts := by
        rw [hstep]
        rfl
      rw [note_of_stays hacts, hopening, hstep]
      exact .resolving ⟨h.opt_eq, rfl, rfl, h.reading, h.timer, hmax⟩ ⟨rfl, rfl⟩ rfl
    · rw [if_neg hdelay] at hstep
      have hbegin := accounted_pingStart2 env io sio (s := s.started) h.opt_eq rfl h.dnsip h.timer
        hmax ⟨rfl, rfl⟩
      rw [← hstep] at hbegin
      rcases hbegin with ⟨number, packet, error, msec, hacts, haccounted⟩ | hidle
      · rw [note_of_sends hacts rfl, hopening]
        exact haccounted
      · exact .idle hidle
  · obtain ⟨hstep, -⟩ := h.step_eq env fun sio heq => hstart ⟨sio, heq⟩
    rw [hstep]
    exact .idle h

/-- The entries follow the ledger in every step. -/
lemma Accounted.step (h : Accounted env opt s l) (hx : Regular env (s, l) x) :
    Accounted env opt (step env s x) (note env s x l) := by
  cases h with
  | idle h => exact accounted_of_idle h
  | resolving h htells hl =>
    subst hl
    exact accounted_of_resolving h htells hx.1
  | pinging h entries htells hfollows => exact (accounted_of_pinging h htells hfollows hx).1

end Steps

/-- The measurement with its ledger. -/
def accountStep (env : Env) : State × Ledger → Event × Io → State × Ledger :=
  withNote (step env) (note env)

/-- When a run in which requests have been sent ends, the entries of its result that are not
duplicates tell what became of each of the requests, in their order, and there are as many as the
options say: a reply if one came before the timer of the request expired, an error if it could not
be sent, and otherwise a timeout.  This is if the flags do no harm. -/
theorem requests_accounted (env : Env) (opt : Options) (index : ℕ) (cookie : Bytes)
    (sin6 : Sockaddr) (events : List (Event × Io)) (x : Event × Io)
    (hregular : Along (accountStep env) (Regular env) (events ++ [x])
      (initState opt index cookie sin6, .empty))
    {s : State} {l : Ledger}
    (hs : run (accountStep env) events (initState opt index cookie sin6, .empty) = (s, l))
    (hsent : l.last.isSome = true) (hbusy : s.busy = true)
    (hend : (step env s x).busy = false) :
    ∃ u entries error,
      (step env s x).acts = s.acts ++ [.written (reportText env x.2 u), .done error] ∧
      u.result = resultText env entries ∧ entries.filterMap Entry.outcome = l.outcomes ∧
      l.outcomes.length = opt.pingcount := by
  obtain ⟨hevents, hlast⟩ := along_append.mp hregular
  rw [hs] at hlast
  have hinv := hevents.invariant (I := fun y => Accounted env opt y.1 y.2)
    (fun y e h hx => h.step hx) (.idle ⟨rfl, rfl, rfl, rfl, rfl⟩)
  rw [hs] at hinv
  cases hinv with
  | idle h => exact absurd (h.busy.symm.trans hbusy) Bool.false_ne_true
  | resolving h htells hl =>
    dsimp only at hl
    subst hl
    exact absurd hsent Bool.false_ne_true
  | pinging h entries htells hfollows =>
    exact (accounted_of_pinging h htells hfollows hlast.1).2 hend

/-- The events of a run from its start on. -/
def plainRun (events : List (Event × Io)) : List (Event × Io) :=
  (.start plainSocket, plainIo) :: plainDns :: events

/-- The measurement with its ledger behind the events. -/
def plainAccount (count : ℕ) (events : List (Event × Io)) : State × Ledger :=
  run (accountStep plainEnv) (plainRun events) (plainState count, .empty)

/-- The first of two requests is lost, and the second one is answered. -/
theorem requests_accounted_two :
    let x := plainAccount 2 [(.timeout, plainIo), plainPacket 0 2]
    x.2.outcomes = [.timeout, .reply] ∧
    ∃ u entries error, (step plainEnv x.1 (.timeout, plainIo)).acts =
        x.1.acts ++ [.written (reportText plainEnv plainIo u), .done error] ∧
      u.result = resultText plainEnv entries ∧
      entries.filterMap Entry.outcome = x.2.outcomes ∧ x.2.outcomes.length = 2 := by
  have hmessage : message plainEnv (plainAccount 2 [(.timeout, plainIo)]).1
      ⟨fun i => (plainMessage 0 2).getD i 0, 60, by decide, none, none⟩ = some (.reply, 2) := by
    decide +kernel
  have hregular : Along (accountStep plainEnv) (Regular plainEnv)
      (plainRun [(.timeout, plainIo), plainPacket 0 2] ++ [(.timeout, plainIo)])
      (plainState 2, .empty) := by
    refine ⟨⟨trivial, trivial⟩, ⟨trivial, trivial⟩, ⟨trivial, fun _ _ => ?_⟩, ⟨?_, ?_⟩,
      ⟨trivial, ?_⟩, trivial⟩
    · decide +kernel
    · intro _ number h
      cases hmessage.symm.trans h
    · intro _ kind number h
      cases hmessage.symm.trans h
      refine ⟨Kind.noConfusion, fun _ => ⟨fun _ => ?_, fun h6 => absurd h6 (by decide +kernel)⟩⟩
      decide +kernel
    · rintro _ ⟨number, hwaits⟩
      have hlast : _ = some Outcome.timeout := congrArg (Option.map Prod.snd) hwaits
      exact absurd hlast (by decide +kernel)
  refine ⟨by decide +kernel, ?_⟩
  exact requests_accounted plainEnv (plainOptions 2) 0 (List.replicate 8 0) plainAddr _
    (.timeout, plainIo) hregular rfl (by decide +kernel) (by decide +kernel) (by decide +kernel)

/-! ### Requests without an entry -/

lemma one_le_count_text (env : Env) (separator : Bytes) (e : Entry) :
    1 ≤ (e.text env separator).count 125 := by
  have hclosing (text : Bytes) : 1 ≤ (text ++ ascii " \x7d").count 125 := by
    rw [count_append]
    exact Nat.le_add_left 1 _
  cases e with
  | reply r | timeout | sendError message => exact hclosing _

lemma length_le_count_resultText (env : Env) (entries : List Entry) :
    entries.length ≤ (resultText env entries).count 125 := by
  have hmany (entries : List Entry) :
      entries.length ≤ (entries.flatMap (Entry.text env (ascii ", "))).count 125 := by
    induction entries with
    | nil => exact Nat.zero_le _
    | cons e entries ih =>
      rw [flatMap_cons, count_append, length_cons, Nat.add_comm]
      exact Nat.add_le_add (one_le_count_text env _ e) ih
  cases entries with
  | nil => exact Nat.zero_le _
  | cons e entries =>
    rw [resultText, count_append, length_cons, Nat.add_comm]
    exact Nat.add_le_add (one_le_count_text env _ e) (hmany entries)

/-- The second request is lost behind a reply to the first one: the result that is written has no
entry for it. -/
theorem lost_request_not_reported :
    let x := plainAccount 2 [plainPacket 0 1, (.timeout, plainIo)]
    x.2.outcomes = [.reply, .timeout] ∧
    (step plainEnv x.1 (.timeout, plainIo)).acts =
      x.1.acts ++ [.written (reportText plainEnv plainIo x.1), .done false] ∧
    ∀ entries : List Entry, entries.filterMap Entry.outcome = [.reply, .timeout] →
      x.1.result ≠ resultText plainEnv entries := by
  refine ⟨by decide +kernel, by decide +kernel, ?_⟩
  intro entries hentries hresult
  have hlength := length_filterMap_le Entry.outcome entries
  rw [hentries] at hlength
  have hcount := length_le_count_resultText plainEnv entries
  rw [← hresult] at hcount
  exact absurd (hlength.trans hcount) (by decide +kernel)

end AtlasProbe.Ping
