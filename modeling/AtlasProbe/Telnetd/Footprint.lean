import AtlasProbe.Lib.Budget
import AtlasProbe.Telnetd.Handlers

/-!
# What handlers are made of

The code that handles a line is built from two kinds of steps, `Action`: it changes what the
sessions share or logs an event of its own session, or it queues a reply.  At its end it may set the
state of the session.  So it leaves the bytes that wait and the logs of the other sessions alone,
and it needs no more room in the second buffer than its replies take.

What the replies to a line can take is `lineCost`.  It depends on the state, on the line and on what
the world decides, and it counts what the lines behind it take in the state that comes next.
`serves_handleLine` says both, and that the code aborts only if there is less room.
-/

namespace AtlasProbe.Telnetd

/-! ### The events of a session -/

/-- The code only logs events of its session. -/
structure Logs (v v' : View) : Prop where
  id : v'.ts.id = v.ts.id
  log : ∃ new, v'.log = new ++ v.log ∧ ∀ e ∈ new, e.id = v.ts.id

lemma Logs.refl (v : View) : Logs v v := ⟨rfl, [], rfl, nofun⟩

variable (line : Bytes) (env : LineEnv) (u v w : View)

lemma Logs.trans (h : Logs u v) (h' : Logs v w) : Logs u w := by
  obtain ⟨new, hnew, hown⟩ := h.log
  obtain ⟨new', hnew', hown'⟩ := h'.log
  refine ⟨h'.id.trans h.id, new' ++ new, by rw [hnew', hnew, List.append_assoc], fun e he => ?_⟩
  rcases List.mem_append.mp he with hin | hin
  · exact (hown' e hin).trans h.id
  · exact hown e hin

/-- One event. -/
lemma Logs.one {v v' : View} {e : Event} (hid : v'.ts.id = v.ts.id) (hlog : v'.log = e :: v.log)
    (he : e.id = v.ts.id) : Logs v v' :=
  ⟨hid, [e], hlog, List.forall_mem_singleton.mpr he⟩

/-- No event. -/
lemma Logs.silent {v v' : View} (hid : v'.ts.id = v.ts.id) (hlog : v'.log = v.log) : Logs v v' :=
  ⟨hid, [], hlog, nofun⟩

/-- The code handles a line: it leaves the bytes that wait alone. -/
structure Handles (v v' : View) : Prop extends Logs v v' where
  input : v'.ts.input = v.ts.input

lemma Handles.refl (v : View) : Handles v v := ⟨Logs.refl v, rfl⟩

lemma Handles.trans (h : Handles u v) (h' : Handles v w) : Handles u w :=
  ⟨Logs.trans u v w h.toLogs h'.toLogs, h'.input.trans h.input⟩

/-- It stays in the state of the session, too. -/
structure Acts (v v' : View) : Prop extends Handles v v' where
  state : v'.ts.state = v.ts.state

lemma Acts.refl (v : View) : Acts v v := ⟨Handles.refl v, rfl⟩

lemma Acts.trans (h : Acts u v) (h' : Acts v w) : Acts u w :=
  ⟨Handles.trans u v w h.toHandles h'.toHandles, h'.state.trans h.state⟩

/-! ### Steps -/

/-- The steps that handlers are made of, with the number of bytes that they reply. -/
inductive Action : ℕ → Serve Unit → Prop
  | modify {f : View → View} : (∀ v, (f v).ts = v.ts ∧ Logs v (f v)) → Action 0 (modify f)
  | add2sock (reply : Reply) : Action reply.text.length (add2sock reply)

/-- The code is built from such steps, and replies at most `n` bytes. -/
abbrev Handler {α : Type} (n : ℕ) (m : Serve α) : Prop := Built Action n m

section Steps

variable {α : Type} {n : ℕ} {m : Serve α}

lemma Handler.acts (h : Handler n m) : Keeps Acts m := by
  refine Built.keeps Acts.refl Acts.trans (fun n m hm => ?_) h
  cases hm with
  | modify hf =>
    refine keeps_modify fun v => ⟨⟨(hf v).2, ?_⟩, ?_⟩
    · rw [(hf v).1]
    · rw [(hf v).1]
  | add2sock reply =>
    intro v
    unfold add2sock
    rw [wp_bind, wp_get]
    cases v.ts.out.add2sock reply.text.length with
    | none => exact Acts.refl v
    | some out => exact ⟨⟨.one rfl rfl rfl, rfl⟩, rfl⟩

/-- The room for replies. -/
def replyMeter : Meter View where
  ok v := v.ts.out.Valid
  used v := v.ts.out.rdidx
  limit := bufsize

/-- The code does not abort if there is room for its replies. -/
lemma Handler.costs (h : Handler n m) : replyMeter.Costs n m := by
  refine Built.costs (fun n m hm => ?_) h
  cases hm with
  | @modify f hf =>
    intro v hvalid _
    have hout : (f v).ts.out = v.ts.out := congrArg Session.out (hf v).1
    change (f v).ts.out.Valid ∧ (f v).ts.out.rdidx ≤ v.ts.out.rdidx + 0
    rw [hout]
    exact ⟨hvalid, le_rfl⟩
  | add2sock reply =>
    intro v hvalid hroom
    obtain ⟨out, hadd⟩ := hvalid.exists_add2sock hroom
    obtain ⟨hout, hrdidx⟩ := hvalid.add2sock hadd
    unfold add2sock
    rw [wp_bind, wp_get, hadd]
    exact ⟨hout, hrdidx.le⟩

lemma handler_modify {f : View → View} (h : ∀ v, (f v).ts = v.ts ∧ (f v).log = v.log) :
    Handler n (modify f : Serve Unit) := by
  refine Built.mono (.prim (.modify fun v => ⟨(h v).1, ?_⟩)) (Nat.zero_le n)
  exact .silent (congrArg Session.id (h v).1) (h v).2

lemma handler_record {event : ℕ → Event} (h : ∀ id, (event id).id = id) :
    Handler 0 (record event) :=
  .prim (.modify fun v => ⟨rfl, .one rfl rfl (h v.ts.id)⟩)

/-- The replies to commands are short. -/
lemma handler_add2sock {reply : Reply} (h : reply.text.length ≤ 32) : Handler 32 (add2sock reply) :=
  .mono (.prim (.add2sock reply)) h

lemma handler_closeCrontab (contents : Bytes) :
    Handler 0 (modify (·.closeCrontab contents) : Serve Unit) :=
  handler_modify fun v => ⟨(closeCrontab_eq v contents).2.1, (closeCrontab_eq v contents).2.2.2.1⟩

end Steps

/-! ### Handlers -/

lemma handler_startCrontab : Handler 32 (startCrontab line env) := by
  have hfail : ∀ {reply : Reply}, reply.text.length ≤ 32 →
      Handler 32 (do add2sock reply; pure false) := fun h => (handler_add2sock h).returns false
  refine Built.get.before fun _ => .ite (hfail (by decide)) ?_
  cases validated env (line.drop cmdCrontab.length) with
  | none => exact hfail (by decide)
  | some rebasedFn =>
    refine .ite (hfail (by decide)) (Built.before ?_ fun _ => .ite (hfail (by decide))
      (.ite (hfail (by decide)) (Built.before ?_ fun _ => .pure 32 true)))
    · exact handler_modify fun _ => ⟨rfl, rfl⟩
    · exact .prim (.modify fun _ => ⟨rfl, .one rfl rfl rfl⟩)

/-- There is a reply to a line of a crontab only if it cannot be written. -/
def cronlineCost (env : LineEnv) : ℕ := if env.fputsOk then 0 else Reply.ioError.text.length

lemma handler_addToCrontab (text : Bytes) (env : LineEnv) :
    Handler (cronlineCost env) (addToCrontab text env) := by
  refine Built.get.before fun v => ?_
  cases v.atlasCrontab with
  | none => exact .pure _ ()
  | some upload =>
    dsimp only [cronlineCost]
    split
    · exact handler_modify fun _ => ⟨rfl, rfl⟩
    · exact (handler_record fun _ => rfl).before fun _ =>
        Built.bind (k := 0) (.prim (.add2sock .ioError)) fun _ => handler_closeCrontab _

lemma handler_updateCron : Handler 32 (updateCron env) := by
  refine Built.get.before fun v => .ite (handler_add2sock (by decide)) ?_
  cases env.update with
  | done => exact handler_modify fun _ => ⟨rfl, rfl⟩
  | ioError | createFailed => exact handler_add2sock (by decide)

lemma handler_endCrontab : Handler 32 (endCrontab env) := by
  refine Built.get.before fun v => ?_
  cases v.atlasCrontab with
  | none => exact .pure 32 ()
  | some upload =>
    refine .ite ?_ ((handler_closeCrontab _).before fun _ => Built.get.before fun _ =>
      .ite (handler_add2sock (by decide)) (.ite (handler_add2sock (by decide))
        (.ite (handler_add2sock (by decide)) ?_)))
    · exact (handler_record fun _ => rfl).before fun _ => (handler_closeCrontab _).before fun _ =>
        handler_add2sock (by decide)
    · refine (handler_record fun _ => rfl).before fun _ => Built.before ?_ fun _ =>
        handler_updateCron env
      exact handler_modify fun _ => ⟨rfl, rfl⟩

lemma handler_doOneoff : Handler 32 (doOneoff line env) := by
  have hrename : ∀ ok source target, Handler 0 (tryRename ok source target) := fun _ _ _ =>
    handler_modify fun _ => ⟨rfl, rfl⟩
  refine .ite (handler_add2sock (by decide)) (.ite (handler_add2sock (by decide)) ?_)
  split
  · exact handler_add2sock (by decide)
  · exact handler_add2sock (by decide)
  · refine (hrename _ _ _).before fun _ =>
      .ite (handler_add2sock (by decide)) (.ite (Built.before ?_ fun _ => ?_)
        (Built.before ?_ fun _ => ?_))
    · exact handler_modify fun _ => ⟨rfl, rfl⟩
    · exact handler_add2sock (by decide)
    · exact handler_modify fun _ => ⟨rfl, rfl⟩
    · exact (hrename _ _ _).mono (Nat.zero_le 32)

/-! ### Lines -/

/-- There is room for `n` bytes of replies. -/
def View.HasRoom (v : View) (n : ℕ) : Prop := v.ts.out.Valid ∧ v.ts.out.rdidx + n ≤ bufsize

/-- The code handles a line in a state, and aborts only if there is no room for `n` bytes.  If the
next line is to be handled, then there is room for the replies that `after` allows for. -/
def Serves (after : SessionState → ℕ) (state : SessionState) (n : ℕ) (m : Serve Verdict) : Prop :=
  ∀ v, v.ts.state = state →
    Wp m v
      (fun verdict v' => Handles v v' ∧
        (v.HasRoom n → verdict = .again → v'.HasRoom (after v'.ts.state)))
      fun _ v' => Handles v v' ∧ ¬v.HasRoom n

section Serves

variable {α : Type} {after : SessionState → ℕ} {state next : SessionState} {n k : ℕ}
  {m m' : Serve Verdict}

lemma View.HasRoom.mono {v : View} (h : v.HasRoom k) (hle : n ≤ k) : v.HasRoom n :=
  ⟨h.1, (Nat.add_le_add_left hle _).trans h.2⟩

lemma serves_again : Serves after state (after state) (pure .again) := by
  rintro v rfl
  exact ⟨Handles.refl v, fun hroom _ => hroom⟩

lemma serves_leave : Serves after state n (pure .leave) :=
  fun v _ => ⟨Handles.refl v, fun _ => nofun⟩

lemma serves_setState (h : Serves after next n m) :
    Serves after state n (do setState next; m) :=
  fun v _ => (h { v with ts := { v.ts with state := next } } rfl).mono
    (fun _ _ h => ⟨{ h.1 with }, h.2⟩) fun _ _ h => ⟨{ h.1 with }, h.2⟩

lemma Serves.mono (h : Serves after state n m) (hle : n ≤ k) : Serves after state k m :=
  fun v hstate => (h v hstate).mono (fun _ _ h => ⟨h.1, fun hroom => h.2 (hroom.mono hle)⟩)
    fun _ _ h => ⟨h.1, fun hroom => h.2 (hroom.mono hle)⟩

lemma Serves.ite {c : Prop} [Decidable c] (h : Serves after state n m)
    (h' : Serves after state k m') :
    Serves after state (if c then n else k) (if c then m else m') := by
  split_ifs
  · exact h
  · exact h'

/-- A part that only acts, in front of the rest. -/
lemma Handler.serves {a : Serve α} {f : α → Serve Verdict} (h : Handler n a)
    (hf : ∀ x, Serves after state k (f x)) : Serves after state (n + k) (a >>= f) := by
  intro v hstate
  have hspec : Wp a v (fun _ v' => Acts v v' ∧ (v.HasRoom (n + k) → v'.HasRoom k))
      fun _ v' => Acts v v' ∧ ¬v.HasRoom n := by
    by_cases hroom : v.HasRoom n
    · refine ((h.acts v).and (h.costs v hroom.1 hroom.2)).mono ?_ fun _ _ hv' => hv'.2.elim
      rintro _ v' ⟨hacts, hvalid, hle⟩
      refine ⟨hacts, fun hall => ⟨hvalid, ?_⟩⟩
      have hbound := hall.2
      change v'.ts.out.rdidx ≤ v.ts.out.rdidx + n at hle
      omega
    · refine (h.acts v).mono (fun _ v' hacts => ⟨hacts, fun hall => ?_⟩) fun _ _ hacts =>
        ⟨hacts, hroom⟩
      exact absurd (hall.mono (Nat.le_add_right n k)) hroom
  refine hspec.seq (fun _ _ he => ⟨he.1.toHandles, fun hall => ?_⟩) ?_
  · exact he.2 (hall.mono (Nat.le_add_right n k))
  · rintro x v' ⟨hacts, hroom⟩
    have htrans {w : View} (h : Handles v' w) : Handles v w := .trans v v' w hacts.toHandles h
    exact (hf x v' (hacts.state.trans hstate)).mono
      (fun _ _ h => ⟨htrans h.1, fun hall => h.2 (hroom hall)⟩)
      fun _ _ h => ⟨htrans h.1, fun hall => h.2 (hroom hall)⟩

/-- A part without a reply. -/
lemma Handler.then {a : Serve α} {f : α → Serve Verdict} (h : Handler 0 a)
    (hf : ∀ x, Serves after state k (f x)) : Serves after state k (a >>= f) := by
  have hserves := h.serves hf
  rwa [Nat.zero_add] at hserves

/-- A reply. -/
lemma serves_reply (reply : Reply) (h : Serves after state k m) :
    Serves after state (reply.text.length + k) (do add2sock reply; m) :=
  Handler.serves (.prim (.add2sock reply)) fun _ => h

end Serves

/-- What the replies to a command can take, if those to the next lines take `after` in a state.  No
reply is longer than 32 bytes. -/
def commandCost (line : Bytes) (after : SessionState → ℕ) : ℕ :=
  if line.take cmdCrontab.length = cmdCrontab then
    32 + max (after .doCrontab) (after .getCmd)
  else if line.take cmdOneoff.length = cmdOneoff then 32 + after .getCmd
  else if line = ascii "REBOOT" then after .getCmd
  else if line = ascii "RELOAD" then max Reply.badRemount.text.length (after .getCmd)
  else if line = [] then Reply.resultOk.text.length + after .eomSeen
  else Reply.badCommand.text.length

/-- What the replies to a line can take in a state.  The line that ends a crontab can be replied to
twice. -/
def lineCost (state : SessionState) (line : Bytes) (env : LineEnv) (after : SessionState → ℕ) : ℕ :=
  match state with
  | .doTraditional => 0
  | .getLoginname =>
    if line = atlasLogin then Reply.passwordPrompt.text.length + after .getPassword
    else line.length
  | .getPassword =>
    if equalSessionid env.sessionFile line then after .getCmd
    else Reply.badPassword.text.length + after .getPassword
  | .getCmd => commandCost line after
  | .doCrontab =>
    if line.take cmdCronline.length = cmdCronline then cronlineCost env + after .doCrontab
    else 32 + commandCost line after
  | .eomSeen => Reply.badCommand.text.length + after .eomSeen

section Lines

variable (after : SessionState → ℕ)

lemma serves_doCmd : Serves after .getCmd (commandCost line after) (doCmd line env) := by
  have hcommand (command : Command) {n : ℕ} {m : Serve Verdict} (h : Serves after .getCmd n m) :
      Serves after .getCmd n (do record (.command · command); m) :=
    (handler_record fun _ => rfl).then fun _ => h
  have hfails (reply : Reply) (hlength : reply.text.length = Reply.badRemount.text.length) :
      Serves after .getCmd (max Reply.badRemount.text.length (after .getCmd)) (do
        add2sock reply
        pure .leave) :=
    (serves_reply reply (serves_leave (n := 0))).mono (hlength.le.trans (le_max_left _ _))
  refine .ite (hcommand _ ?_) (.ite (hcommand _ ?_) (.ite (hcommand _ serves_again)
    (.ite (hcommand _ ?_) (.ite ?_ ?_))))
  · refine (handler_startCrontab line env).serves fun opened => ?_
    cases opened with
    | true => exact serves_setState (serves_again.mono (le_max_left _ _))
    | false => exact serves_again.mono (le_max_right _ _)
  · exact (handler_doOneoff line env).serves fun _ => serves_again
  · split
    · exact hfails .badRemount rfl
    · split
      · exact hfails .badFwFile (by decide)
      · exact serves_again.mono (le_max_right _ _)
  · exact serves_reply _ (serves_setState serves_again)
  · exact serves_reply _ (serves_leave (n := 0))

lemma serves_password :
    Serves after .getPassword (lineCost .getPassword line env after) (password line env) := by
  have htake : Handler 0 (modify (·.takeOver env.left) : Serve Unit) :=
    handler_modify fun v => takeOver_eq v env.left
  refine .ite (htake.then fun _ => (handler_record fun _ => rfl).then fun _ => ?_) ?_
  · exact serves_setState serves_again
  · exact serves_reply _ serves_again

/-- Every line is handled with the replies that it can take. -/
lemma serves_handleLine (state : SessionState) :
    Serves after state (lineCost state line env after) (handleLine line env) := by
  intro v hstate
  unfold handleLine
  rw [wp_bind, wp_get, hstate]
  cases state with
  | doTraditional => exact serves_leave v hstate
  | getLoginname =>
    refine Serves.ite ?_ ?_ v hstate
    · exact serves_reply _ (serves_setState serves_again)
    · exact serves_reply (.echo line) ((handler_record fun _ => rfl).then fun _ =>
        serves_setState (serves_leave (n := 0)))
  | getPassword => exact serves_password line env after v hstate
  | getCmd => exact serves_doCmd line env after v hstate
  | doCrontab =>
    refine Serves.ite ((handler_record fun _ => rfl).then fun _ => ?_) ?_ v hstate
    · exact (handler_addToCrontab _ env).serves fun _ => serves_again
    · exact (handler_endCrontab env).serves fun _ => serves_setState (serves_doCmd line env after)
  | eomSeen => exact serves_reply _ serves_again v hstate

lemma handles_handleLine : Keeps Handles (handleLine line env) := fun v =>
  (serves_handleLine line env (fun _ => 0) v.ts.state v rfl).mono
    (fun _ _ h => h.1) fun _ _ h => h.1

end Lines

end AtlasProbe.Telnetd
