import Mathlib.Algebra.Ring.Nat
import Mathlib.Data.List.FinRange
import Mathlib.Data.List.Perm.Basic

/-!
# Tables of slots

A table has `n` slots, each of which is empty or holds something.  What the table holds is a list
(`contents`), and storing in an empty slot or emptying a slot adds or removes one element of it
(`contents_store`, `contents_clear`).  A search that goes round from any slot finds an empty one if
there is one (`search_empty`).
-/

namespace AtlasProbe.Slots

open List Function

variable {n : ℕ} {α : Type*}

/-- What the slots hold. -/
def contents (slots : Fin n → Option α) : List α := (List.finRange n).filterMap slots

variable {slots : Fin n → Option α}

lemma mem_contents {a : α} : a ∈ contents slots ↔ ∃ i, slots i = some a := by
  simp [contents]

/-- The contents of one slot and of the others. -/
lemma contents_perm (slots : Fin n → Option α) (i : Fin n) :
    (contents slots).Perm ((slots i).toList ++ contents (update slots i none)) := by
  obtain ⟨front, back, hsplit⟩ := append_of_mem (mem_finRange i)
  have hnodup := nodup_finRange n
  rw [hsplit, nodup_append, nodup_cons] at hnodup
  obtain ⟨-, ⟨hback, -⟩, hfront⟩ := hnodup
  have hsame : ∀ l : List (Fin n), i ∉ l →
      l.filterMap (update slots i none) = l.filterMap slots := by
    intro l hl
    refine filterMap_congr fun j hj => update_of_ne ?_ ..
    exact fun h => hl (h ▸ hj)
  have hi : i ∉ front := fun h => hfront i h i mem_cons_self rfl
  rw [contents, contents, hsplit, filterMap_append, filterMap_append, hsame front hi]
  simp only [filterMap_cons, update_self, hsame back hback]
  cases slots i with
  | none => exact List.Perm.refl _
  | some a => exact perm_middle

/-- To store in an empty slot adds to the contents. -/
lemma contents_store {i : Fin n} (h : slots i = none) (a : α) :
    (contents (update slots i (some a))).Perm (a :: contents slots) := by
  have hperm := contents_perm (update slots i (some a)) i
  rw [update_self, update_idem, ← h, update_eq_self] at hperm
  exact hperm

/-- To empty a slot takes something from the contents. -/
lemma contents_clear {i : Fin n} {a : α} (h : slots i = some a) :
    (contents slots).Perm (a :: contents (update slots i none)) := by
  have hperm := contents_perm slots i
  rwa [h] at hperm

lemma length_contents_le (slots : Fin n → Option α) : (contents slots).length ≤ n :=
  (length_filterMap_le _ _).trans_eq (length_finRange)

/-- If the table holds fewer things than it has slots, then a slot is empty. -/
lemma exists_empty (h : (contents slots).length < n) : ∃ i, slots i = none := by
  by_contra hfull
  rw [not_exists] at hfull
  choose held hheld using fun i => Option.ne_none_iff_exists'.mp (hfull i)
  have hcontents : contents slots = (finRange n).map held := by
    rw [contents, funext hheld, filterMap_eq_map']
  rw [hcontents, length_map, length_finRange] at h
  exact Nat.lt_irrefl n h

/-! ### Searching round from a slot -/

section Search

variable [NeZero n]

/-- The search looks at the slot `k` and up to `rest` slots behind it, round from the last slot to
the first one, and stops at an empty slot or at the last one it looks at. -/
def search (slots : Fin n → Option α) : ℕ → ℕ → Fin n
  | 0, k => Fin.ofNat n k
  | rest + 1, k =>
    if (slots (Fin.ofNat n k)).isNone then Fin.ofNat n k else search slots rest (k + 1)

lemma search_empty {slots : Fin n → Option α} {rest k j : ℕ} (hj : j ≤ rest)
    (h : slots (Fin.ofNat n (k + j)) = none) : slots (search slots rest k) = none := by
  induction rest generalizing k j with
  | zero =>
    obtain rfl : j = 0 := by omega
    exact h
  | succ rest ih =>
    unfold search
    by_cases hk : (slots (Fin.ofNat n k)).isNone = true
    · rw [if_pos hk]
      exact Option.isNone_iff_eq_none.mp hk
    · rw [if_neg hk]
      obtain ⟨j, rfl⟩ : ∃ i, j = i + 1 := by
        refine Nat.exists_eq_succ_of_ne_zero ?_
        rintro rfl
        exact hk (Option.isNone_iff_eq_none.mpr h)
      refine ih (j := j) (by omega) ?_
      rwa [Nat.add_assoc, Nat.add_comm 1]

/-- A search over all slots finds an empty one if there is one. -/
lemma search_empty_of_exists {slots : Fin n → Option α} (h : ∃ i, slots i = none) (k : ℕ) :
    slots (search slots (n - 1) k) = none := by
  obtain ⟨i, hi⟩ := h
  have hpos : 0 < n := Nat.pos_of_neZero n
  -- How far the slot `i` is from the start of the search.
  have hj : (n - k % n + i) % n ≤ n - 1 := Nat.le_sub_one_of_lt (Nat.mod_lt _ hpos)
  refine search_empty hj ?_
  have hmod : (k + (n - k % n + i) % n) % n = i := by
    have hsum : k % n + (n - k % n + i) = n + i := by
      have hk : k % n < n := Nat.mod_lt _ hpos
      omega
    rw [Nat.add_mod_mod, ← Nat.mod_add_mod, hsum, Nat.add_mod_left, Nat.mod_eq_of_lt i.isLt]
  have hslot : Fin.ofNat n (k + (n - k % n + i) % n) = i := Fin.ext hmod
  rw [hslot, hi]

end Search

end AtlasProbe.Slots
