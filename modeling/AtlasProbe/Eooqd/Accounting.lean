import Mathlib.Algebra.Order.BigOperators.Group.List
import Mathlib.Algebra.Order.Group.Nat
import AtlasProbe.Eooqd.Queue

/-!
# The slots of the queue are accounted for

`curr_busy` is the number of slots in use (`Accounted`), whatever the order in which lines are added
and commands are done (`Reached.accounted`), so that the search for an empty slot always finds one
(`Accounted.search_empty`).
-/

namespace AtlasProbe.Eooqd

open List Slots

/-! ### What `cmddone` does -/

lemma State.findSlot_eq_some {s : State} {cmdstate : CmdState} {i : Fin maxBusy}
    (h : s.findSlot cmdstate = some i) :
    ∃ slot, s.slots i = some slot ∧ slot.cmdstate = cmdstate := by
  have hfound := find?_some h
  rw [beq_iff_eq, Option.map_eq_some_iff] at hfound
  exact hfound

/-- `cmddone` does nothing, or it empties the slot of the command. -/
lemma State.cmddone_cases (s : State) (cmdstate : CmdState) (deleted : Bool) :
    s.cmddone cmdstate deleted = s ∨
      ∃ i slot, s.slots i = some slot ∧ slot.cmdstate = cmdstate ∧
        s.cmddone cmdstate deleted =
          { s with
            slots := Function.update s.slots i none
            currBusy := s.currBusy - 1
            log := s.log ++ [.left cmdstate] } := by
  unfold cmddone
  cases hfind : s.findSlot cmdstate with
  | none => exact .inl rfl
  | some i =>
    cases deleted with
    | false => exact .inl rfl
    | true =>
      obtain ⟨slot, hslot, hcmd⟩ := s.findSlot_eq_some hfind
      exact .inr ⟨i, slot, hslot, hcmd, rfl⟩

/-! ### What a line does -/

/-- Nothing is started or ended, and no barrier is set or passed. -/
def Entry.isNotice : Entry → Bool
  | .post | .reload | .error _ => true
  | _ => false

/-- The slot that `add_line` finds for a command. -/
def State.nextSlot (s : State) : Fin maxBusy := search s.slots (maxBusy - 1) (s.currIndex + 1)

/-- What is kept when a line is executed: it is a notice or a barrier, or there is no slot, or a
command is started and some commands are done. -/
lemma State.execute_inv {P : State → Prop} {cfg : Config} {s : State} {cmdline : Bytes}
    {o : Outcome} (hnotice : ∀ e : Entry, e.isNotice → P (s.trace e))
    (hbarrier : isBarrier cmdline →
      P { s with barrier := true, barrierFile := validatedBarrier cfg cmdline })
    (hfull : s.slots s.nextSlot ≠ none → P (s.trace .noEmptySlot))
    (hstart : ∀ (a : Allocator) bp argv, P (s.started s.nextSlot (a.alloc s.held) bp argv))
    (hdone : ∀ s cmdstate deleted, P s → P (s.cmddone cmdstate deleted)) :
    P (s.execute cfg cmdline o) := by
  unfold execute
  split_ifs with hpost hline
  · exact hnotice _ rfl
  · exact hbarrier hline
  · exact hnotice _ rfl
  · cases findBuiltin cmdline with
    | none => exact hnotice _ rfl
    | some bp =>
      cases splitArgs cmdline with
      | error reason => exact hnotice _ rfl
      | ok argv =>
        unfold runCommand
        dsimp only
        split_ifs with hslot
        · exact hfull (Option.isSome_iff_ne_none.mp hslot)
        · cases o.init with
          | none => exact hnotice _ rfl
          | some a => exact foldlRecOn _ _ (hstart a bp _) fun s hs _ _ => hdone s _ _ hs

/-! ### The invariant -/

/-- The counter is the number of slots in use, no two slots have the same command, and the process
has not ended for want of a slot. -/
structure Accounted (s : State) : Prop where
  busy : s.currBusy = s.held.length
  nodup : s.held.Nodup
  slot : .noEmptySlot ∉ s.log

lemma State.length_held_le (s : State) : s.held.length ≤ maxBusy := by
  rw [held, length_map]
  exact length_contents_le s.slots

section Step

variable {s : State}

section Steps

variable (h : Accounted s)

include h

lemma Accounted.cmddone (cmdstate : CmdState) (deleted : Bool) :
    Accounted (s.cmddone cmdstate deleted) := by
  rcases s.cmddone_cases cmdstate deleted with heq | ⟨i, slot, hslot, hcmd, heq⟩
  · rwa [heq]
  · have hperm := (contents_clear hslot).map Slot.cmdstate
    rw [map_cons] at hperm
    have hlength := hperm.length_eq
    have hbusy := h.busy
    rw [State.held, hlength, length_cons] at hbusy
    rw [heq]
    refine ⟨?_, (nodup_cons.mp (hperm.nodup_iff.mp h.nodup)).2, ?_⟩
    · change s.currBusy - 1 = ((contents (Function.update s.slots i none)).map Slot.cmdstate).length
      omega
    · simpa using h.slot

/-- An entry of the log other than the end of the process keeps the invariant. -/
lemma Accounted.trace {e : Entry} (he : e ≠ .noEmptySlot) : Accounted (s.trace e) := by
  refine ⟨h.busy, h.nodup, ?_⟩
  intro hmem
  rcases mem_append.mp hmem with hmem | hmem
  · exact h.slot hmem
  · exact he (mem_singleton.mp hmem).symm

/-- The search finds an empty slot if fewer commands run than there are slots. -/
lemma Accounted.search_empty (hbusy : s.currBusy < maxBusy) (k : ℕ) :
    s.slots (search s.slots (maxBusy - 1) k) = none := by
  refine search_empty_of_exists (exists_empty ?_) k
  have hlength : s.held.length = (contents s.slots).length := length_map ..
  rw [h.busy, hlength] at hbusy
  exact Int.ofNat_lt.mp hbusy

lemma Accounted.execute (hbusy : s.currBusy < maxBusy) (cfg : Config)
    (cmdline : Bytes) (o : Outcome) : Accounted (s.execute cfg cmdline o) := by
  have hempty := h.search_empty hbusy (s.currIndex + 1)
  refine State.execute_inv (fun e he => h.trace ?_) (fun _ => ⟨h.busy, h.nodup, h.slot⟩)
    (absurd hempty) (fun a bp argv => ?_) fun _ cmdstate deleted hs => hs.cmddone cmdstate deleted
  · rintro rfl
    cases he
  · have hperm := (contents_store hempty ⟨a.alloc s.held, bp⟩).map Slot.cmdstate
    rw [map_cons] at hperm
    refine ⟨?_, hperm.nodup_iff.mpr (nodup_cons.mpr ⟨a.fresh s.held, h.nodup⟩), ?_⟩
    · change s.currBusy + 1 = _
      rw [State.held, State.started, State.nextSlot, hperm.length_eq, h.busy]
      rfl
    · simpa [State.started] using h.slot

lemma Accounted.passBarrier : Accounted s.passBarrier := by
  unfold State.passBarrier
  split_ifs
  · exact ⟨h.busy, h.nodup, (h.trace (by simp)).slot⟩
  · exact h

end Steps

lemma State.passBarrier_currBusy (s : State) : s.passBarrier.currBusy = s.currBusy := by
  unfold passBarrier
  split_ifs <;> rfl

lemma Accounted.addLine (h : Accounted s) (hbusy : s.currBusy < maxBusy) (cfg : Config)
    (o : Outcome) : Accounted (s.addLine cfg o).1 := by
  unfold State.addLine
  split_ifs
  · exact h
  · have hpass := h.passBarrier
    rw [← s.passBarrier_currBusy] at hbusy
    dsimp only
    cases s.passBarrier.readLine o with
    | none => exact ⟨hpass.busy, hpass.nodup, (hpass.trace (by decide)).slot⟩
    | some read =>
      obtain ⟨cmdline, rest⟩ := read
      have hline : Accounted { s.passBarrier with
          currFile := some rest, log := s.passBarrier.log ++ [.line cmdline] } :=
        ⟨hpass.busy, hpass.nodup, (hpass.trace (by simp)).slot⟩
      exact hline.execute hbusy cfg cmdline o

end Step

lemma Reached.accounted {cfg : Config} {s : State} (h : Reached cfg s) : Accounted s := by
  induction h with
  | init => exact ⟨rfl, by decide, by decide⟩
  | opened content _ _ ih => exact ⟨ih.busy, ih.nodup, (ih.trace (by decide)).slot⟩
  | line o _ hready ih => exact ih.addLine hready.2 cfg o
  | done cmdstate deleted _ ih => exact ih.cmddone cmdstate deleted

/-- In every order of events, `curr_busy` is the number of slots in use, at most `max_busy`, no two
slots have the same command, and the search for an empty slot has always found one. -/
theorem slots_accounted {cfg : Config} {s : State} (h : Reached cfg s) :
    s.currBusy = ((List.finRange maxBusy).countP fun i => (s.slots i).isSome : ℕ) ∧
      0 ≤ s.currBusy ∧ s.currBusy ≤ maxBusy ∧
      (∀ i j slot slot', s.slots i = some slot → s.slots j = some slot' →
        slot.cmdstate = slot'.cmdstate → i = j) ∧
      .noEmptySlot ∉ s.log ∧
      (s.Ready → s.slots (search s.slots (maxBusy - 1) (s.currIndex + 1)) = none) := by
  have hacc := h.accounted
  have hle := s.length_held_le
  have hbusy := hacc.busy
  refine ⟨?_, by omega, by omega, ?_, hacc.slot, ?_⟩
  · rw [hbusy, State.held, length_map, contents, length_filterMap_eq_countP]
  · intro i j slot slot' hi hj hcmd
    by_contra hne
    have hperm := (contents_clear hi).map Slot.cmdstate
    have hmem : slot' ∈ contents (Function.update s.slots i none) :=
      mem_contents.mpr ⟨j, by rw [Function.update_of_ne (Ne.symm hne), hj]⟩
    have hnodup := hperm.nodup_iff.mp hacc.nodup
    rw [map_cons, hcmd] at hnodup
    exact (nodup_cons.mp hnodup).1 (mem_map_of_mem hmem)
  · intro hready
    exact hacc.search_empty hready.2 (s.currIndex + 1)

/-- A process with nothing special. -/
def plainConfig : Config where
  spooldir := ⟨ascii "/var/spool/ripe-atlas", by decide⟩
  queueId := ⟨ascii "10", by decide⟩
  atlasUnsafe := false

/-- An allocator that returns an address above those in use. -/
def aboveAllocator : Allocator where
  alloc used := used.sum + 1
  fresh _ h := absurd (List.le_sum_of_mem h) (Nat.not_succ_le_self _)

/-- A command that can be started and is not done at once. -/
def plainOutcome : Outcome where
  readError := false
  init := some aboveAllocator
  start _ := []

/-- The state behind a queue with three commands and a line that is no command. -/
def plainQueue : State :=
  (State.init.checkQueue plainConfig
    (some (ascii "evping 192.0.2.1\nevping 192.0.2.2\nnone\nevping 192.0.2.3"))
    (List.replicate 5 plainOutcome)).get (by decide +kernel)

/-- The second of the three commands is done. -/
theorem slots_accounted_pings :
    Reached plainConfig (plainQueue.cmddone 2 true) ∧
      (plainQueue.cmddone 2 true).currBusy = 2 ∧
      .noEmptySlot ∉ (plainQueue.cmddone 2 true).log := by
  have h := (Reached.init.checkQueue (t := plainQueue) (Option.some_get _).symm).done 2 true
  exact ⟨h, by decide +kernel, (slots_accounted h).2.2.2.2.1⟩

end AtlasProbe.Eooqd
