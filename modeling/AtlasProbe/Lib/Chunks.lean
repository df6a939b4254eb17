import Mathlib.Logic.Basic

/-!
# Input that arrives in chunks

A process that consumes a chunk at a time does not depend on how its input is cut into chunks if
feeding two chunks one after the other is, up to a transitive relation, the same as feeding their
concatenation (`foldl_step_flatten`).
-/

namespace AtlasProbe

variable {σ α : Type} {step : σ → List α → σ} {I : σ → Prop} {R : σ → σ → Prop}

/-- Feeding chunks one by one amounts to feeding their concatenation at once. -/
theorem foldl_step_flatten (htrans : ∀ s t u, R s t → R t u → R s u)
    (hnil : ∀ s, I s → R s (step s [])) (hkeep : ∀ s a, I s → I (step s a))
    (hadd : ∀ s a b, I s → R (step (step s a) b) (step s (a ++ b)))
    (chunks : List (List α)) : ∀ s, I s → R (chunks.foldl step s) (step s chunks.flatten) := by
  induction chunks with
  | nil => exact hnil
  | cons a chunks ih =>
    intro s hs
    exact htrans _ _ _ (ih (step s a) (hkeep s a hs)) (hadd s a chunks.flatten hs)

end AtlasProbe
