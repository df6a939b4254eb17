import AtlasProbe.Eooqd.Accounting

/-!
# Barriers in the queue

What a barrier is for: after its line, commands may only leave until none is running; then the
barrier is passed, once, and the queue goes on.  The logs of an abstract queue (`Abstract`) with
this behaviour are those that its steps accept (`accept`), and the log of `eooqd` is one of them in
every order of events (`Reached.follows`).  The loop of `checkQueue` ends (`State.exists_addLines`).
-/

namespace AtlasProbe.Eooqd

open List Slots
open Option (ite_none_right_eq_some bind_eq_bind bind_eq_some_iff bind_some)

/-! ### The abstract queue -/

/-- The commands that are running, and the file of the barrier that the queue waits at. -/
structure Abstract where
  running : List CmdState := []
  pending : Option (Option Bytes) := none

/-- The entries that a log may have next.  While the queue waits, commands leave or, when none is
running, the barrier is passed. -/
def Abstract.step (cfg : Config) (a : Abstract) : Entry → Option Abstract
  | .left cmdstate => some { a with running := a.running.erase cmdstate }
  | .barrier file =>
    if a.pending = some file ∧ a.running = [] then some { a with pending := none } else none
  | .line cmdline =>
    if a.pending = none then
      some { a with
        pending := if isBarrier cmdline then some (validatedBarrier cfg cmdline) else none }
    else none
  | .start cmdstate _ =>
    if a.pending = none then some { a with running := cmdstate :: a.running } else none
  | _ => if a.pending = none then some a else none

open Abstract (step)

/-- The abstract queue after a log, if it accepts the log. -/
def accept (cfg : Config) (log : List Entry) : Option Abstract := log.foldlM (step cfg) {}

variable (s : State) (cfg : Config)

lemma accept_concat (log : List Entry) (e : Entry) :
    accept cfg (log ++ [e]) = (accept cfg log).bind (·.step cfg e) := by
  simp [accept]

/-! ### What an accepted log looks like -/

/-- What an entry does to the list of running commands. -/
def runningStep (running : List CmdState) : Entry → List CmdState
  | .start cmdstate _ => cmdstate :: running
  | .left cmdstate => running.erase cmdstate
  | _ => running

/-- The commands that have been started and have not left since. -/
def running (log : List Entry) : List CmdState := log.foldl runningStep []

/-- A command leaves. -/
def Entry.isLeft : Entry → Bool
  | .left _ => true
  | _ => false

/-- The line of a barrier is read. -/
def Entry.isBarrierLine : Entry → Bool
  | .line cmdline => isBarrier cmdline
  | _ => false

/-- A barrier is passed. -/
def Entry.isPassed : Entry → Bool
  | .barrier _ => true
  | _ => false

section Accepted

variable {cfg : Config} {log : List Entry} {a b : Abstract} {e : Entry} {file : Option Bytes}

lemma Abstract.running_of_step (h : a.step cfg e = some b) :
    b.running = runningStep a.running e := by
  cases e
  case left => cases h; rfl
  all_goals
    simp only [step, ite_none_right_eq_some, Option.some.injEq] at h
    rw [← h.2]
    rfl

/-- The number of barriers that the queue waits at. -/
def Abstract.waiting (a : Abstract) : ℕ := if a.pending.isSome then 1 else 0

/-- To read the line of a barrier makes the queue wait, to pass it ends the wait. -/
lemma Abstract.waiting_of_step (h : a.step cfg e = some b) :
    a.waiting + (if e.isBarrierLine then 1 else 0) = b.waiting + if e.isPassed then 1 else 0 := by
  cases e
  case left => cases h; rfl
  all_goals
    simp only [step, ite_none_right_eq_some, Option.some.injEq] at h
    obtain ⟨hpending, rfl⟩ := h
  case barrier => simp [waiting, hpending.1, Entry.isBarrierLine, Entry.isPassed]
  case line cmdline =>
    cases hbarrier : isBarrier cmdline <;>
      simp [waiting, hpending, Entry.isBarrierLine, Entry.isPassed, hbarrier]
  all_goals rfl

/-- While the queue waits, commands leave or the barrier is passed with no command running. -/
lemma Abstract.cases_of_pending (hpending : a.pending = some file) (h : a.step cfg e = some b) :
    e.isLeft ∧ b.pending = some file ∨ e = .barrier file ∧ a.running = [] := by
  cases e
  case left => cases h; exact .inl ⟨rfl, hpending⟩
  all_goals
    simp only [step, ite_none_right_eq_some, hpending] at h
  case barrier file' =>
    obtain ⟨⟨hfile, hrunning⟩, -⟩ := h
    exact .inr ⟨by rw [Option.some.inj hfile], hrunning⟩
  all_goals exact absurd h.1 (Option.some_ne_none file)

lemma running_foldlM (h : log.foldlM (step cfg) a = some b) :
    b.running = log.foldl runningStep a.running := by
  induction log generalizing a with
  | nil => cases h; rfl
  | cons e log ih =>
    obtain ⟨c, hstep, hrest⟩ := bind_eq_some_iff.mp h
    rw [ih hrest, Abstract.running_of_step hstep, foldl_cons]

/-- Each barrier line is passed once, except for the one that the queue waits at. -/
lemma count_foldlM (h : log.foldlM (step cfg) a = some b) :
    a.waiting + log.countP Entry.isBarrierLine = b.waiting + log.countP Entry.isPassed := by
  induction log generalizing a with
  | nil => cases h; rfl
  | cons e log ih =>
    obtain ⟨c, hstep, hrest⟩ := bind_eq_some_iff.mp h
    have hcount := ih hrest
    have hwaiting := Abstract.waiting_of_step hstep
    rw [countP_cons, countP_cons]
    omega

/-- After the line of a barrier commands leave, until the barrier is passed with no command
running. -/
lemma exists_passed (hpending : a.pending = some file) (h : log.foldlM (step cfg) a = some b) :
    (∀ e ∈ log, e.isLeft) ∧ b.pending = some file ∨
      ∃ before after, log = before ++ .barrier file :: after ∧ (∀ e ∈ before, e.isLeft) ∧
        before.foldl runningStep a.running = [] := by
  induction log generalizing a with
  | nil => cases h; exact .inl ⟨by simp, hpending⟩
  | cons e log ih =>
    obtain ⟨c, hstep, hrest⟩ := bind_eq_some_iff.mp h
    rcases Abstract.cases_of_pending hpending hstep with ⟨hleft, hpending'⟩ | ⟨rfl, hrunning⟩
    · rcases ih hpending' hrest with ⟨hall, hb⟩ | ⟨before, after, rfl, hall, hrunning⟩
      · exact .inl ⟨forall_mem_cons.mpr ⟨hleft, hall⟩, hb⟩
      · refine .inr ⟨e :: before, after, rfl, forall_mem_cons.mpr ⟨hleft, hall⟩, ?_⟩
        rwa [foldl_cons, ← Abstract.running_of_step hstep]
    · exact .inr ⟨[], log, rfl, by simp, hrunning⟩

/-- The line of a barrier in an accepted log. -/
lemma exists_passed_of_accept {before after : List Entry} {cmdline : Bytes}
    (h : accept cfg (before ++ .line cmdline :: after) = some a) (hbarrier : isBarrier cmdline) :
    (∀ e ∈ after, e.isLeft) ∧ a.pending = some (validatedBarrier cfg cmdline) ∨
      ∃ left rest, after = left ++ .barrier (validatedBarrier cfg cmdline) :: rest ∧
        (∀ e ∈ left, e.isLeft) ∧ running (before ++ left) = [] := by
  rw [accept, foldlM_append, bind_eq_bind, bind_eq_some_iff] at h
  obtain ⟨b, hbefore, hrest⟩ := h
  obtain ⟨c, hline, hafter⟩ := bind_eq_some_iff.mp hrest
  have hrunning : c.running = running before := by
    rw [Abstract.running_of_step hline, running_foldlM hbefore]
    rfl
  have hpending : c.pending = some (validatedBarrier cfg cmdline) := by
    simp only [step, ite_none_right_eq_some, Option.some.injEq] at hline
    rw [← hline.2, hbarrier, if_pos rfl]
  have hpassed := exists_passed hpending hafter
  rw [hrunning] at hpassed
  simpa only [running, foldl_append] using hpassed

end Accepted

/-! ### `eooqd` follows the abstract queue -/

/-- The abstract queue has accepted the log and agrees with the state.  A queue that waits has its
file open, so that the next call of `checkQueue` gets to the barrier. -/
structure Follows (cfg : Config) (s : State) (a : Abstract) : Prop where
  log : accept cfg s.log = some a
  running : a.running.Perm s.held
  pending : a.pending = if s.barrier then some s.barrierFile else none
  file : s.barrier → s.currFile.isSome

section Step

variable {cfg : Config} {s t : State} {a : Abstract} {e : Entry}

section Steps

variable (h : Follows cfg s a)

include h

lemma Follows.accept_concat {b : Abstract} (hstep : a.step cfg e = some b) :
    accept cfg (s.log ++ [e]) = some b := by
  rw [Eooqd.accept_concat, h.log, bind_some, hstep]

lemma Follows.pending_eq_none (hbarrier : s.barrier = false) : a.pending = none := by
  rw [h.pending, hbarrier, if_neg Bool.false_ne_true]

lemma Follows.cmddone (cmdstate : CmdState) (deleted : Bool) :
    ∃ b, Follows cfg (s.cmddone cmdstate deleted) b := by
  rcases s.cmddone_cases cmdstate deleted with heq | ⟨i, slot, hslot, hcmd, heq⟩
  · rw [heq]
    exact ⟨a, h⟩
  · rw [heq]
    have hperm := (contents_clear hslot).map Slot.cmdstate
    rw [map_cons, hcmd] at hperm
    refine ⟨{ a with running := a.running.erase cmdstate }, h.accept_concat rfl, ?_, h.pending,
      h.file⟩
    have herase := (h.running.trans hperm).erase cmdstate
    rwa [erase_cons_head] at herase

/-- When the queue does not wait, an entry that has nothing to do with commands and barriers can be
added. -/
lemma Follows.trace (hstep : a.step cfg e = some a) : Follows cfg (s.trace e) a :=
  ⟨h.accept_concat hstep, h.running, h.pending, h.file⟩

/-- A line is executed. -/
lemma Follows.execute (hbarrier : s.barrier = false)
    (hslot : s.slots s.nextSlot = none) {cmdline : Bytes} (hline : isBarrier cmdline = false)
    (o : Outcome) : ∃ b, Follows cfg (s.execute cfg cmdline o) b := by
  have hpending := h.pending_eq_none hbarrier
  refine State.execute_inv (P := fun s => ∃ b, Follows cfg s b) (fun e he => ?_)
    (fun heq => absurd (hline.symm.trans heq) Bool.false_ne_true) (absurd hslot)
    (fun alloc bp argv => ?_) fun _ cmdstate deleted ⟨_, hs⟩ => hs.cmddone cmdstate deleted
  · refine ⟨a, h.trace ?_⟩
    cases e
    case post | reload | error => exact if_pos hpending
    all_goals cases he
  · have hperm := (contents_store hslot ⟨alloc.alloc s.held, bp⟩).map Slot.cmdstate
    refine ⟨{ a with running := alloc.alloc s.held :: a.running }, h.accept_concat ?_,
      (h.running.cons _).trans hperm.symm, h.pending, h.file⟩
    exact if_pos hpending

/-- With no command running a barrier can be passed. -/
lemma Follows.passBarrier (hacc : Accounted s) (hpass : ¬(s.barrier ∧ 0 < s.currBusy)) :
    ∃ b, Follows cfg s.passBarrier b ∧ s.passBarrier.barrier = false := by
  unfold State.passBarrier
  split_ifs with hbarrier
  · have hrunning : a.running = [] := by
      have hbusy := hacc.busy
      have hidle : ¬0 < s.currBusy := fun hpos => hpass ⟨hbarrier, hpos⟩
      have hnil : s.held = [] := length_eq_zero_iff.mp (by omega)
      exact perm_nil.mp (hnil ▸ h.running)
    have hpending := h.pending
    rw [if_pos hbarrier] at hpending
    refine ⟨{ a with pending := none }, ⟨h.accept_concat ?_, h.running, rfl, nofun⟩, rfl⟩
    simp [step, hpending, hrunning]
  · exact ⟨a, h, Bool.eq_false_of_not_eq_true hbarrier⟩

lemma Follows.addLine (hacc : Accounted s) (hbusy : s.currBusy < maxBusy) (o : Outcome) :
    ∃ b, Follows cfg (s.addLine cfg o).1 b := by
  unfold State.addLine
  split_ifs with hwait
  · exact ⟨a, h⟩
  · obtain ⟨b, hb, hbarrier⟩ := h.passBarrier hacc hwait
    have hpending := hb.pending_eq_none hbarrier
    dsimp only
    cases s.passBarrier.readLine o with
    | none =>
      refine ⟨b, hb.accept_concat ?_, hb.running, hb.pending, ?_⟩
      · simp [step, hpending]
      · simp [hbarrier]
    | some read =>
      obtain ⟨cmdline, rest⟩ := read
      cases hline : isBarrier cmdline with
      | true =>
        have hpost : cmdline ≠ ascii "post" := by
          rintro rfl
          exact absurd hline (by decide)
        refine ⟨{ b with pending := some (validatedBarrier cfg cmdline) }, ?_⟩
        simp only [State.execute, if_neg hpost, hline]
        refine ⟨hb.accept_concat ?_, hb.running, rfl, fun _ => rfl⟩
        simp [step, hpending, hline]
      | false =>
        have hread : Follows cfg { s.passBarrier with
            currFile := some rest, log := s.passBarrier.log ++ [.line cmdline] } b := by
          refine ⟨hb.accept_concat ?_, hb.running, hb.pending, fun _ => rfl⟩
          obtain ⟨running, pending⟩ := b
          obtain rfl : pending = none := hpending
          simp [step, hline]
        have hslot := hacc.passBarrier.search_empty
          (s.passBarrier_currBusy ▸ hbusy) (s.passBarrier.currIndex + 1)
        exact hread.execute hbarrier hslot hline o

end Steps

end Step

lemma Reached.follows {cfg : Config} {s : State} (h : Reached cfg s) : ∃ a, Follows cfg s a := by
  induction h with
  | init => exact ⟨{}, rfl, List.Perm.refl _, rfl, nofun⟩
  | opened content _ hfile ih =>
    obtain ⟨a, ha⟩ := ih
    have hbarrier : _ = false := Bool.eq_false_of_not_eq_true fun hb => by
      simpa [hfile] using ha.file hb
    refine ⟨a, ha.accept_concat ?_, ha.running, ha.pending, fun _ => rfl⟩
    simp [step, ha.pending_eq_none hbarrier]
  | line o hreached hready ih =>
    obtain ⟨a, ha⟩ := ih
    exact ha.addLine hreached.accounted hready.2 o
  | done cmdstate deleted _ ih =>
    obtain ⟨a, ha⟩ := ih
    exact ha.cmddone cmdstate deleted

/-! ### The loop of `checkQueue` ends -/

/-- The queue file is the same, and the log has become longer. -/
def Extends (s t : State) : Prop := t.currFile = s.currFile ∧ s.log <+: t.log

lemma Extends.refl : Extends s s := ⟨rfl, prefix_rfl⟩

lemma Extends.trans {s t u : State} (h : Extends s t) (h' : Extends t u) : Extends s u :=
  ⟨h'.1.trans h.1, h.2.trans h'.2⟩

lemma State.extends_trace (e : Entry) : Extends s (s.trace e) :=
  ⟨rfl, prefix_append ..⟩

lemma State.extends_cmddone (cmdstate : CmdState) (deleted : Bool) :
    Extends s (s.cmddone cmdstate deleted) := by
  rcases s.cmddone_cases cmdstate deleted with heq | ⟨i, slot, -, -, heq⟩
  · rw [heq]
    exact Extends.refl s
  · rw [heq]
    exact ⟨rfl, prefix_append ..⟩

lemma State.extends_execute (s : State) (cmdline : Bytes) (o : Outcome) :
    Extends s (s.execute cfg cmdline o) :=
  execute_inv (fun e _ => s.extends_trace e) (fun _ => ⟨rfl, prefix_rfl⟩)
    (fun _ => s.extends_trace _) (fun _ _ _ => ⟨rfl, prefix_append ..⟩)
    fun t cmdstate deleted ht => ht.trans (t.extends_cmddone cmdstate deleted)

/-- What is left to be read, counting the end of the file. -/
def State.unread (s : State) : ℕ := s.currFile.elim 0 fun file => file.length + 1

lemma State.passBarrier_currFile : s.passBarrier.currFile = s.currFile := by
  unfold passBarrier
  split_ifs <;> rfl

/-- Unless it waits, `add_line` passes the barrier, if there is one, and goes on with a line or the
end of the file. -/
lemma State.addLine_next (cfg : Config) {s : State} (hfile : s.currFile.isSome)
    (hwait : ¬(s.barrier ∧ 0 < s.currBusy)) (o : Outcome) :
    (s.addLine cfg o).2 = true ∧ (s.addLine cfg o).1.unread < s.unread ∧
      ∃ e, (e = .eof ∨ ∃ cmdline, e = .line cmdline) ∧
        s.passBarrier.log ++ [e] <+: (s.addLine cfg o).1.log := by
  obtain ⟨file, hfile⟩ := Option.isSome_iff_exists.mp hfile
  unfold addLine
  rw [if_neg hwait]
  dsimp only
  cases hread : s.passBarrier.readLine o with
  | none =>
    refine ⟨rfl, ?_, .eof, .inl rfl, prefix_rfl⟩
    simp [unread, hfile]
  | some read =>
    obtain ⟨cmdline, rest⟩ := read
    have hextends := extends_execute cfg { s.passBarrier with
      currFile := some rest, log := s.passBarrier.log ++ [.line cmdline] } cmdline o
    refine ⟨rfl, ?_, .line cmdline, .inr ⟨cmdline, rfl⟩, hextends.2⟩
    have hlength : rest.length < file.length := by
      simp only [readLine, s.passBarrier_currFile, hfile, bind_eq_bind, bind_some] at hread
      cases hgets : fgets 256 file with
      | none => split_ifs at hread <;> simp [hgets] at hread
      | some gets =>
        split_ifs at hread
        · cases hread
        · rw [hgets] at hread
          cases hread
          exact length_of_fgets hgets
    rw [unread, hextends.1, unread, hfile]
    exact Nat.succ_lt_succ hlength

/-- The loop ends, whatever happens at its lines. -/
lemma State.exists_addLines (cfg : Config) (s : State) (os : ℕ → Outcome) :
    ∃ n t, s.addLines cfg ((List.range n).map os) = some t ∧ s.log <+: t.log := by
  obtain ⟨bound, hbound⟩ : ∃ bound, s.unread ≤ bound := ⟨_, Nat.le_refl _⟩
  induction bound generalizing s os with
  | zero =>
    refine ⟨0, s, ?_, prefix_rfl⟩
    have hready : ¬s.Ready := by
      rintro ⟨hfile, -⟩
      obtain ⟨file, hfile⟩ := Option.isSome_iff_exists.mp hfile
      simp [unread, hfile] at hbound
    exact if_neg hready
  | succ bound ih =>
    by_cases hready : s.Ready
    · by_cases hwait : s.barrier ∧ 0 < s.currBusy
      · refine ⟨1, s, ?_, prefix_rfl⟩
        simp [addLines, addLine, hwait]
      · obtain ⟨hgo, hunread, e, -, hlog⟩ := addLine_next cfg hready.1 hwait (os 0)
        obtain ⟨n, t, ht, hlog'⟩ := ih (s.addLine cfg (os 0)).1 (os ∘ Nat.succ) (by omega)
        refine ⟨n + 1, t, ?_, ?_⟩
        · rw [range_succ_eq_map, map_cons]
          simpa [addLines, hready, hgo] using ht
        · have hpass : s.log <+: s.passBarrier.log := by
            unfold passBarrier
            split_ifs
            · exact prefix_append ..
            · exact prefix_rfl
          exact hpass.trans ((prefix_append ..).trans (hlog.trans hlog'))
    · exact ⟨0, s, if_neg hready, prefix_rfl⟩

/-- When the queue waits and no command is running, the next call of `checkQueue` passes the barrier
and goes on with the next line or the end of the file. -/
lemma Follows.checkQueue {cfg : Config} {s : State} {a : Abstract} (h : Follows cfg s a)
    (hbarrier : s.barrier) (hbusy : s.currBusy = 0) (queue : Option Bytes)
    (os : ℕ → Outcome) :
    ∃ n t e, s.checkQueue cfg queue ((List.range n).map os) = some t ∧
      (e = .eof ∨ ∃ cmdline, e = .line cmdline) ∧
      s.log ++ [.barrier s.barrierFile, e] <+: t.log := by
  have hfile := h.file hbarrier
  have hready : s.Ready := ⟨hfile, by rw [hbusy]; decide⟩
  have hwait : ¬(s.barrier ∧ 0 < s.currBusy) := by omega
  obtain ⟨hgo, -, e, he, hlog⟩ := State.addLine_next cfg hfile hwait (os 0)
  obtain ⟨n, t, ht, hlog'⟩ := (s.addLine cfg (os 0)).1.exists_addLines cfg (os ∘ Nat.succ)
  refine ⟨n + 1, t, e, ?_, he, ?_⟩
  · obtain ⟨file, hfile⟩ := Option.isSome_iff_exists.mp hfile
    rw [range_succ_eq_map, map_cons]
    simpa [State.checkQueue, hfile, State.addLines, hready, hgo] using ht
  · have hpass : s.passBarrier.log ++ [e] = s.log ++ [.barrier s.barrierFile, e] := by
      simp [State.passBarrier, hbarrier]
    exact hpass ▸ hlog.trans hlog'

/-- In every order of events: after the line of a barrier has been read, nothing happens but that
commands leave until none of those started before is running; then the barrier file is created, if
its name was accepted.  This happens once for each such line, and the next call of `checkQueue`
after the last command has left does it and goes on with the next line or the end of the file.  The
running commands are those in the slots. -/
theorem barriers_order {cfg : Config} {s : State} (h : Reached cfg s) :
    (running s.log).Perm s.held ∧
      (∀ before cmdline after, s.log = before ++ .line cmdline :: after → isBarrier cmdline →
      (∀ e ∈ after, e.isLeft) ∧ s.barrier ∨
        ∃ left rest, after = left ++ .barrier (validatedBarrier cfg cmdline) :: rest ∧
          (∀ e ∈ left, e.isLeft) ∧ running (before ++ left) = []) ∧
      s.log.countP Entry.isBarrierLine =
        s.log.countP Entry.isPassed + (if s.barrier then 1 else 0) ∧
      (s.barrier → s.currBusy = 0 → ∀ queue os,
        ∃ n t e, s.checkQueue cfg queue ((List.range n).map os) = some t ∧
          (e = .eof ∨ ∃ cmdline, e = .line cmdline) ∧
          s.log ++ [.barrier s.barrierFile, e] <+: t.log) := by
  obtain ⟨a, ha⟩ := h.follows
  have hrunning : a.running = running s.log := running_foldlM ha.log
  refine ⟨hrunning ▸ ha.running, ?_, ?_, fun hbarrier hbusy => ha.checkQueue hbarrier hbusy⟩
  · intro before cmdline after hlog hbarrier
    have haccept := ha.log
    rw [hlog] at haccept
    rcases exists_passed_of_accept haccept hbarrier with ⟨hleft, hpending⟩ | hpassed
    · refine .inl ⟨hleft, ?_⟩
      by_contra hnot
      rw [ha.pending, if_neg hnot] at hpending
      cases hpending
    · exact .inr hpassed
  · have hcount := count_foldlM ha.log
    have hwaiting : a.waiting = if s.barrier then 1 else 0 := by
      rw [Abstract.waiting, ha.pending]
      split_ifs <;> simp_all
    have hstart : Abstract.waiting {} = 0 := rfl
    omega

/-- A command, a barrier, and the end of the command before the queue goes on. -/
theorem barriers_order_ping :
    ∃ s, Reached plainConfig s ∧ s.log.countP Entry.isBarrierLine = 1 ∧
      s.log.countP Entry.isPassed = 1 := by
  have h₀ : Reached plainConfig .init := .init
  have h₁ := h₀.opened (ascii "evping 192.0.2.1\nbarrier /home/atlas/data/new/done\n") rfl
  have h₂ := (h₁.line plainOutcome (by decide)).line plainOutcome (by decide +kernel)
  have h₃ := (h₂.done 1 true).line plainOutcome (by decide +kernel)
  obtain ⟨s, h, hlines, hbarrier⟩ : ∃ s, Reached plainConfig s ∧
      s.log.countP Entry.isBarrierLine = 1 ∧ s.barrier = false :=
    ⟨_, h₃, by decide +kernel, by decide +kernel⟩
  obtain ⟨-, -, hcount, -⟩ := barriers_order h
  rw [hlines, hbarrier, if_neg Bool.false_ne_true] at hcount
  exact ⟨s, h, hlines, hcount.symm⟩

end AtlasProbe.Eooqd
