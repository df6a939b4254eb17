import Mathlib.Logic.Relation
import Mathlib.Data.List.Basic

/-!
# Runs of transition systems

The runs of a labelled transition relation, the induction rule for invariants (`Run.invariant`), and
simulations by an abstract relation that may stand still (`Simulates`).  If the abstract relation
lowers a rank, then a run has no more labels than the rank at which the abstract side must move
(`Simulates.countP_le`).
-/

namespace AtlasProbe

variable {σ τ ε : Type*}

/-- The runs from `s`, with the list of their labels. -/
inductive Run (Step : σ → ε → σ → Prop) (s : σ) : List ε → σ → Prop
  | nil : Run Step s [] s
  | snoc {es : List ε} {e : ε} {t u : σ} :
      Run Step s es t → Step t e u → Run Step s (es ++ [e]) u

section Invariant

variable {Step : σ → ε → σ → Prop} {s t : σ} {es : List ε}

/-- What every step keeps holds along a run. -/
lemma Run.invariant {I : σ → Prop} (hstep : ∀ s e t, I s → Step s e t → I t)
    (h : Run Step s es t) (hs : I s) : I t := by
  induction h with
  | nil => exact hs
  | snoc _ hlast ih => exact hstep _ _ _ ih hlast

end Invariant

/-- `R` is a simulation of `Step` by `Move`: for each step the abstract side moves, or stands still,
which it must not do at a label in `P`. -/
def Simulates (Step : σ → ε → σ → Prop) (Move : τ → τ → Prop) (R : σ → τ → Prop)
    (P : ε → Bool) : Prop :=
  ∀ s a e t, R s a → Step s e t → ∃ b, R t b ∧ (Move a b ∨ a = b ∧ P e = false)

section Simulates

variable {Step : σ → ε → σ → Prop} {Move : τ → τ → Prop} {R : σ → τ → Prop} {P : ε → Bool}
  {s t : σ} {a : τ} {es : List ε}

/-- A run is followed by the abstract side. -/
lemma Simulates.run (h : Simulates Step Move R P) (hR : R s a) (hrun : Run Step s es t) :
    ∃ b, R t b ∧ Relation.ReflTransGen Move a b := by
  induction hrun with
  | nil => exact ⟨a, hR, .refl⟩
  | snoc _ hlast ih =>
    obtain ⟨b, hb, hab⟩ := ih
    obtain ⟨c, hc, hmove | ⟨rfl, -⟩⟩ := h _ _ _ _ hb hlast
    · exact ⟨c, hc, hab.tail hmove⟩
    · exact ⟨b, hc, hab⟩

/-- If every move lowers a rank, then it bounds the number of labels in `P`. -/
lemma Simulates.countP_le (h : Simulates Step Move R P) {rank : τ → ℕ}
    (hrank : ∀ a b, Move a b → rank b < rank a) (hR : R s a) (hrun : Run Step s es t) :
    ∃ b, R t b ∧ es.countP P + rank b ≤ rank a := by
  induction hrun with
  | nil => exact ⟨a, hR, by simp⟩
  | @snoc es e t u _ hlast ih =>
    obtain ⟨b, hb, hle⟩ := ih
    obtain ⟨c, hc, hmove | ⟨rfl, hP⟩⟩ := h _ _ _ _ hb hlast
    · refine ⟨c, hc, ?_⟩
      have hlt := hrank b c hmove
      have hone := List.countP_le_length (p := P) (l := [e])
      rw [List.countP_append]
      simp only [List.length_singleton] at hone
      omega
    · exact ⟨b, hc, by simpa [hP] using hle⟩

end Simulates

end AtlasProbe
