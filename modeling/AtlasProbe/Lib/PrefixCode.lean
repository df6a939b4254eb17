import Mathlib.Data.List.Basic
import Mathlib.Data.Nat.Basic

/-!
# Prefix codes over an arbitrary alphabet

A `PrefixCode` assigns to every symbol a non-empty bit string such that no code word is a prefix of
another one.  A bit string is *stuck* when no code word is a prefix of it; every bit string has at
most one decomposition into code words followed by a stuck rest (`encode_append_eq`).  The
comparability lemmas are what a table-driven decoder needs: a table entry found from a few leading
bits names the only symbol that can start there.

A list of intervals that *tiles* a range (each one starts where its predecessor ends) covers every
number of the range exactly once; for the intervals of numbers that start with a code word this is
how a complete prefix code is recognised in one pass over its words.
-/

namespace AtlasProbe

open List

/-- One of the two strings is a prefix of the other. -/
def Comparable (u v : List Bool) : Prop := u <+: v ∨ v <+: u

variable {u v w : List Bool}

/-- Prefixes of one string are comparable. -/
lemma Comparable.of_prefix (hu : u <+: w) (hv : v <+: w) : Comparable u v :=
  prefix_or_prefix_of_prefix hu hv

lemma Comparable.symm (h : Comparable u v) : Comparable v u := Or.symm h

/-- Of two comparable strings the one that is not longer is the prefix. -/
lemma Comparable.prefix_of_length_le (h : Comparable u v) (hlen : u.length ≤ v.length) :
    u <+: v := by
  rcases h with h | h
  · exact h
  · obtain rfl := h.eq_of_length (le_antisymm h.length_le hlen)
    exact prefix_rfl

/-- A common front does not change comparability. -/
lemma comparable_append_left_iff (p u v : List Bool) :
    Comparable (p ++ u) (p ++ v) ↔ Comparable u v := by
  simp [Comparable]

/-- A string that is comparable with `u` is comparable with every prefix of `u`. -/
lemma Comparable.of_prefix_right (h : Comparable w u) (hv : v <+: u) : Comparable w v := by
  rcases h with h | h
  · exact Comparable.of_prefix h hv
  · exact .inr (hv.trans h)

/-- A code whose words are non-empty and none of which is a prefix of another. -/
structure PrefixCode (α : Type*) where
  /-- The code word of a symbol. -/
  code : α → List Bool
  /-- Code words are not empty. -/
  code_ne_nil : ∀ a, code a ≠ []
  /-- A code word that is a prefix of a code word belongs to the same symbol. -/
  prefixFree : ∀ a b, code a <+: code b → a = b

namespace PrefixCode

variable {α : Type*} (C : PrefixCode α)

/-- The concatenated code words of a string of symbols. -/
def encode (s : List α) : List Bool := s.flatMap C.code

@[simp]
lemma encode_nil : C.encode [] = [] := rfl

@[simp]
lemma encode_cons (a : α) (s : List α) : C.encode (a :: s) = C.code a ++ C.encode s := rfl

@[simp]
lemma encode_append (s t : List α) : C.encode (s ++ t) = C.encode s ++ C.encode t := by
  simp [encode]

/-- No code word starts the bit string `t`. -/
def Stuck (t : List Bool) : Prop := ∀ a, ¬ C.code a <+: t

variable {C}

variable {a b : α} {t w : List Bool} {s : List α}

/-- If the code word of `a` and the string `w` are comparable, `a` is the only symbol whose code
word can be a prefix of `w`. -/
lemma eq_of_code_prefix (hw : Comparable (C.code a) w) (hb : C.code b <+: w) : b = a := by
  rcases hw with ha | ha
  · rcases prefix_or_prefix_of_prefix ha hb with h | h
    · exact (C.prefixFree a b h).symm
    · exact C.prefixFree b a h
  · exact C.prefixFree b a (hb.trans ha)

/-- A string shorter than the code word of `a` is stuck when it starts a string that is comparable
with that code word. -/
lemma stuck_of_comparable (hw : Comparable (C.code a) w) (ht : t <+: w)
    (hlen : t.length < (C.code a).length) : C.Stuck t := by
  intro b hb
  have hba : b = a := eq_of_code_prefix hw (hb.trans ht)
  subst hba
  exact absurd hb.length_le (Nat.not_le_of_lt hlen)

/-- The first code word of a string is unique. -/
lemma code_append_inj {u : List Bool} (h : C.code a ++ t = C.code b ++ u) : a = b ∧ t = u := by
  have hab : a = b := eq_of_code_prefix (.inl ⟨u, rfl⟩) ⟨t, h⟩
  subst hab
  exact ⟨rfl, append_cancel_left h⟩

/-- If a string that starts with a code word splits into code words and a stuck rest, the first
symbol of the split is that code word's. -/
lemma encode_eq_code_append {u : List Bool} (ht : C.Stuck t) (h : C.code a ++ u = C.encode s ++ t) :
    ∃ s', s = a :: s' ∧ u = C.encode s' ++ t := by
  cases s with
  | nil => exact absurd ⟨u, by simpa using h⟩ (ht a)
  | cons b s =>
    simp only [encode_cons, append_assoc] at h
    obtain ⟨rfl, hu⟩ := code_append_inj h
    exact ⟨s, rfl, hu⟩

/-- A stuck string only splits as itself. -/
lemma Stuck.eq_of_encode_append (hw : C.Stuck w) (h : w = C.encode s ++ t) : s = [] ∧ w = t := by
  cases s with
  | nil => exact ⟨rfl, h⟩
  | cons b s => exact absurd ⟨C.encode s ++ t, by simpa using h.symm⟩ (hw b)

/-- If a string that starts with code words splits into code words and a stuck rest, the split
starts with the same symbols. -/
lemma encode_append_eq {s' : List α} : ∀ {s : List α} {t u : List Bool}, C.Stuck t →
    C.encode s' ++ u = C.encode s ++ t → ∃ s'', s = s' ++ s'' ∧ u = C.encode s'' ++ t := by
  induction s' with
  | nil => exact fun _ h => ⟨_, rfl, h⟩
  | cons a s' ih =>
    intro s t u ht h
    rw [encode_cons, append_assoc] at h
    obtain ⟨s₁, rfl, hu⟩ := encode_eq_code_append ht h
    obtain ⟨s'', rfl, hu'⟩ := ih ht hu
    exact ⟨s'', rfl, hu'⟩

end PrefixCode

/-! ### Tilings of a range of numbers -/

section Tiling

variable {α : Type*} (lo width : α → ℕ) {l : List α} {a b : ℕ}

/-- The intervals `[lo r, lo r + width r)` of the list follow each other without gap or overlap
from `a` to `b`. -/
def Tiles : List α → ℕ → ℕ → Prop
  | [], a, b => a = b
  | r :: l, a, b => lo r = a ∧ Tiles l (a + width r) b

instance decidableTiles : ∀ (l : List α) (a b : ℕ), Decidable (Tiles lo width l a b)
  | [], a, b => inferInstanceAs (Decidable (a = b))
  | _ :: l, _, _ =>
    haveI := decidableTiles l
    inferInstanceAs (Decidable (_ ∧ _))

variable {lo width} {x : ℕ} {r : α}

/-- Every interval of a tiling lies behind its starting point. -/
lemma Tiles.le_lo (h : Tiles lo width l a b) (hr : r ∈ l) : a ≤ lo r := by
  induction l generalizing a with
  | nil => simp at hr
  | cons q l ih =>
    rcases mem_cons.mp hr with rfl | hr
    · exact le_of_eq h.1.symm
    · exact le_trans (Nat.le_add_right a (width q)) (ih h.2 hr)

/-- A tiling covers its range. -/
lemma Tiles.exists_mem (h : Tiles lo width l a b) (ha : a ≤ x) (hb : x < b) :
    ∃ r ∈ l, lo r ≤ x ∧ x < lo r + width r := by
  induction l generalizing a with
  | nil =>
    have hab : a = b := h
    omega
  | cons r l ih =>
    by_cases hx : x < a + width r
    · exact ⟨r, mem_cons_self, by rw [h.1]; exact ⟨ha, hx⟩⟩
    · obtain ⟨q, hq, hqx⟩ := ih h.2 (Nat.le_of_not_lt hx)
      exact ⟨q, mem_cons_of_mem r hq, hqx⟩

/-- A tiling covers no number twice. -/
lemma Tiles.eq_of_mem (h : Tiles lo width l a b) {q : α} (hr : r ∈ l) (hq : q ∈ l)
    (hrx : lo r ≤ x ∧ x < lo r + width r) (hqx : lo q ≤ x ∧ x < lo q + width q) : r = q := by
  induction l generalizing a with
  | nil => simp at hr
  | cons p l ih =>
    obtain ⟨hp, hl⟩ := h
    rcases mem_cons.mp hr with rfl | hr' <;> rcases mem_cons.mp hq with rfl | hq'
    · rfl
    · have := hl.le_lo hq'
      omega
    · have := hl.le_lo hr'
      omega
    · exact ih hl hr' hq'

end Tiling

end AtlasProbe
