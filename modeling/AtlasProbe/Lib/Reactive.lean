import Mathlib.Data.List.Basic

/-!
# Machines that react to events

A machine has a function that says how it goes on when an event comes (`run`).  What each event
keeps, under a condition on the state in which it comes, holds behind every list of events that meet
the condition (`Along.invariant`).  What is to be said about the events so far goes along as a note
beside the state (`withNote`).
-/

namespace AtlasProbe.Reactive

variable {σ ε γ : Type*}

/-- The state behind a list of events. -/
def run (step : σ → ε → σ) (events : List ε) (s : σ) : σ := events.foldl step s

/-- Every event meets a condition in the state in which it comes. -/
def Along (step : σ → ε → σ) (P : σ → ε → Prop) : List ε → σ → Prop
  | [], _ => True
  | e :: events, s => P s e ∧ Along step P events (step s e)

section Run

variable {step : σ → ε → σ} {P Q : σ → ε → Prop} {I : σ → Prop} {s : σ} {events more : List ε}

@[simp]
lemma run_nil (s : σ) : run step [] s = s := rfl

@[simp]
lemma run_cons (e : ε) (events : List ε) (s : σ) :
    run step (e :: events) s = run step events (step s e) := rfl

lemma run_append (events more : List ε) (s : σ) :
    run step (events ++ more) s = run step more (run step events s) := List.foldl_append

lemma along_append :
    Along step P (events ++ more) s ↔
      Along step P events s ∧ Along step P more (run step events s) := by
  induction events generalizing s with
  | nil => simp [Along]
  | cons e events ih => rw [List.cons_append, Along, Along, ih, and_assoc, run_cons]

lemma Along.and (h : Along step P events s) (h' : Along step Q events s) :
    Along step (fun s e => P s e ∧ Q s e) events s := by
  induction events generalizing s with
  | nil => trivial
  | cons e events ih => exact ⟨⟨h.1, h'.1⟩, ih h.2 h'.2⟩

/-- A condition that events meet in any state. -/
lemma along_of_forall (h : ∀ e ∈ events, ∀ s, P s e) (s : σ) : Along step P events s := by
  induction events generalizing s with
  | nil => trivial
  | cons e events ih =>
    obtain ⟨he, hevents⟩ := List.forall_mem_cons.1 h
    exact ⟨he s, ih hevents (step s e)⟩

/-- What every event keeps holds behind any events. -/
lemma Along.invariant (h : Along step P events s)
    (hstep : ∀ s e, I s → P s e → I (step s e)) (hs : I s) : I (run step events s) := by
  induction events generalizing s with
  | nil => exact hs
  | cons e events ih => exact ih h.2 (hstep s e hs h.1)

end Run

/-! ### Counting events -/

/-- How many events are of some kind in the state in which they come. -/
def countAlong (step : σ → ε → σ) (p : σ → ε → Bool) : List ε → σ → ℕ
  | [], _ => 0
  | e :: events, s => (if p s e then 1 else 0) + countAlong step p events (step s e)

/-- If every event of the kind lowers a rank that no event raises, then it bounds their number. -/
lemma Along.countAlong_add_le {step : σ → ε → σ} {P : σ → ε → Prop} {I : σ → Prop}
    {p : σ → ε → Bool} {events : List ε} {s : σ} (h : Along step P events s) (rank : σ → ℕ)
    (hinv : ∀ s e, I s → P s e → I (step s e))
    (hrank : ∀ s e, I s → P s e → (if p s e then 1 else 0) + rank (step s e) ≤ rank s)
    (hs : I s) : countAlong step p events s + rank (run step events s) ≤ rank s := by
  induction events generalizing s with
  | nil => exact Nat.le_of_eq (Nat.zero_add _)
  | cons e events ih =>
    have hrest := ih h.2 (hinv s e hs h.1)
    have hfirst := hrank s e hs h.1
    rw [countAlong, run_cons]
    omega

/-! ### Notes beside the state -/

/-- The machine with a note that goes along. -/
def withNote (step : σ → ε → σ) (note : σ → ε → γ → γ) (x : σ × γ) (e : ε) : σ × γ :=
  (step x.1 e, note x.1 e x.2)

end AtlasProbe.Reactive
