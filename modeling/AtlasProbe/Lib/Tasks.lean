import Mathlib.Algebra.Order.Group.Nat

/-!
# Working off tasks with retries

A worker does `n` tasks one after the other.  Each attempt at a task has two phases, a preparation
and a wait, and ends in either of them: with another attempt after a pause, at most `r` times for
a task, or with the task done.  The number of moves is bounded by a rank.
-/

namespace AtlasProbe.Tasks

/-- What the worker is doing. -/
inductive Phase where
  | paused
  | preparing
  | waiting
  | finished
  deriving DecidableEq

/-- How far the work has come: the phase, the number of retries of the current task, and the number
of tasks that are done. -/
structure Progress (n r : ℕ) where
  phase : Phase
  retry : ℕ
  position : ℕ
  retry_le : retry ≤ r
  position_le : position ≤ n
  finished_iff : phase = .finished ↔ position = n

variable {n r : ℕ}

/-- An attempt is being made. -/
def Progress.Trying (a : Progress n r) : Prop := a.phase = .preparing ∨ a.phase = .waiting

lemma Progress.Trying.ne_finished {a : Progress n r} (h : a.Trying) : a.phase ≠ .finished := by
  rcases h with h | h <;> rw [h] <;> decide

/-- Work that is not finished has a current task. -/
lemma Progress.position_lt (a : Progress n r) (h : a.phase ≠ .finished) : a.position < n :=
  lt_of_le_of_ne a.position_le fun he => h (a.finished_iff.2 he)

/-- The start of the work. -/
def Progress.first (n r : ℕ) (h : n ≠ 0) : Progress n r :=
  ⟨.preparing, 0, 0, Nat.zero_le r, Nat.zero_le n, by simp [h.symm]⟩

/-- The moves of the worker. -/
inductive Move (a b : Progress n r) : Prop
  /-- The pause is over. -/
  | resume (ha : a.phase = .paused) (hb : b.phase = .preparing) (hretry : b.retry = a.retry)
      (hposition : b.position = a.position)
  /-- The preparation is over. -/
  | wait (ha : a.phase = .preparing) (hb : b.phase = .waiting) (hretry : b.retry = a.retry)
      (hposition : b.position = a.position)
  /-- The attempt fails and will be repeated. -/
  | retry (ha : a.Trying) (hb : b.phase = .paused) (hretry : b.retry = a.retry + 1)
      (hposition : b.position = a.position)
  /-- The task is done. -/
  | report (ha : a.Trying) (hb : b.phase = .paused ∨ b.phase = .finished) (hretry : b.retry = 0)
      (hposition : b.position = a.position + 1)

/-- The number of moves that are left in an attempt, but for its end. -/
def Phase.rank : Phase → ℕ
  | .paused => 2
  | .preparing => 1
  | .waiting => 0
  | .finished => 0

/-- A bound for the number of moves that are left. -/
def Progress.rank (a : Progress n r) : ℕ :=
  3 * ((n - a.position) * (r + 1) - a.retry) + a.phase.rank

/-- The attempts that are left, when there is a current task. -/
lemma Progress.attempts (a : Progress n r) (h : a.phase ≠ .finished) :
    (n - a.position) * (r + 1) = (n - (a.position + 1)) * (r + 1) + (r + 1) := by
  have hlt := a.position_lt h
  rw [← Nat.succ_mul]
  congr 1
  omega

/-- Every move lowers the rank. -/
lemma Move.rank_lt {a b : Progress n r} (h : Move a b) : b.rank < a.rank := by
  have hretry_le := a.retry_le
  unfold Progress.rank
  cases h with
  | resume ha hb hretry hposition | wait ha hb hretry hposition =>
    rw [ha, hb, hretry, hposition]
    exact Nat.add_lt_add_left (by decide) _
  | retry ha hb hretry hposition =>
    have hattempts := a.attempts ha.ne_finished
    rw [hb, hretry, hposition, hattempts, Phase.rank]
    omega
  | report ha hb hretry hposition =>
    have hattempts := a.attempts ha.ne_finished
    have hphase : b.phase.rank ≤ 2 := by rcases hb with h | h <;> rw [h] <;> decide
    rw [hretry, hposition, hattempts]
    omega

/-- The number of moves of the whole work is bounded. -/
lemma rank_first (h : n ≠ 0) : (Progress.first n r h).rank = 3 * (n * (r + 1)) + 1 := rfl

/-- A move that changes the position is the end of a task: there are no retries behind it. -/
lemma Move.of_position_ne {a b : Progress n r} (h : Move a b) (hne : b.position ≠ a.position) :
    b.retry = 0 ∧ (b.phase = .paused ∨ b.phase = .finished) := by
  cases h with
  | resume _ _ _ hposition | wait _ _ _ hposition | retry _ _ _ hposition =>
    exact absurd hposition hne
  | report _ hb hretry _ => exact ⟨hretry, hb⟩

/-- The number of retries does not change at the end of a pause. -/
lemma Move.retry_of_paused {a b : Progress n r} (h : Move a b) (ha : a.phase = .paused) :
    b.retry = a.retry := by
  have hnot : ¬ a.Trying := by simp [Progress.Trying, ha]
  cases h with
  | resume _ _ hretry _ | wait _ _ hretry _ => exact hretry
  | retry htrying _ _ _ | report htrying _ _ _ => exact absurd htrying hnot

end AtlasProbe.Tasks
