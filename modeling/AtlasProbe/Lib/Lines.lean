import Mathlib.Data.List.Basic

/-!
# Streams of lines

A stream is cut into the lines that are `complete` and the `rest` behind the last of them.  When
more arrives, the lines that were complete stay, and what comes depends on the rest only
(`complete_append`, `rest_append`).
-/

namespace AtlasProbe.Lines

open List

variable {α : Type*} (eol : α → Bool)

/-- The complete lines of a stream, without their ends, and the rest. -/
def split : List α → List (List α) × List α
  | [] => ([], [])
  | b :: stream =>
    if eol b then ([] :: (split stream).1, (split stream).2)
    else
      match split stream with
      | ([], rest) => ([], b :: rest)
      | (line :: lines, rest) => ((b :: line) :: lines, rest)

/-- The complete lines. -/
def complete (stream : List α) : List (List α) := (split eol stream).1

/-- The rest behind the last complete line. -/
def rest (stream : List α) : List α := (split eol stream).2

variable {eol} {stream line : List α} {b : α}

lemma split_of_forall_not (h : ∀ b ∈ stream, eol b = false) : split eol stream = ([], stream) := by
  induction stream with
  | nil => rfl
  | cons b stream ih =>
    rw [split, if_neg (by simp [h b mem_cons_self]), ih fun c hc => h c (mem_cons_of_mem _ hc)]

/-- The first line of a stream. -/
lemma split_append_cons (h : ∀ c ∈ line, eol c = false) (hb : eol b = true) :
    split eol (line ++ b :: stream) = (line :: complete eol stream, rest eol stream) := by
  induction line with
  | nil => rw [nil_append, split, if_pos hb]; rfl
  | cons c line ih =>
    rw [cons_append, split, if_neg (by simp [h c mem_cons_self]),
      ih fun d hd => h d (mem_cons_of_mem _ hd)]

/-- When more arrives behind a stream, only the rest matters. -/
lemma split_append (stream more : List α) :
    split eol (stream ++ more) =
      (complete eol stream ++ complete eol (rest eol stream ++ more),
        rest eol (rest eol stream ++ more)) := by
  induction stream with
  | nil => rfl
  | cons b stream ih =>
    unfold complete rest at ih ⊢
    rw [cons_append, split, split]
    by_cases hb : eol b
    · rw [if_pos hb, if_pos hb, ih]
      rfl
    · rw [if_neg hb, if_neg hb, ih]
      cases hlines : split eol stream with
      | mk lines rest =>
        cases lines with
        | nil =>
          simp only [nil_append, cons_append]
          rw [split, if_neg hb]
        | cons line lines => rfl

lemma complete_append (stream more : List α) :
    complete eol (stream ++ more) = complete eol stream ++ complete eol (rest eol stream ++ more) :=
  congrArg Prod.fst (split_append stream more)

lemma rest_append (stream more : List α) :
    rest eol (stream ++ more) = rest eol (rest eol stream ++ more) := by
  rw [rest, split_append]

lemma complete_append_cons (h : ∀ c ∈ line, eol c = false) (hb : eol b = true) :
    complete eol (line ++ b :: stream) = line :: complete eol stream :=
  congrArg Prod.fst (split_append_cons h hb)

lemma rest_append_cons (h : ∀ c ∈ line, eol c = false) (hb : eol b = true) :
    rest eol (line ++ b :: stream) = rest eol stream := by
  rw [rest, split_append_cons h hb]

lemma forall_mem_rest (stream : List α) : ∀ c ∈ rest eol stream, eol c = false := by
  induction stream with
  | nil => exact forall_mem_nil _
  | cons b stream ih =>
    unfold rest at ih ⊢
    rw [split]
    by_cases hb : eol b
    · rw [if_pos hb]
      exact ih
    · rw [if_neg hb]
      cases hlines : split eol stream with
      | mk lines rest =>
        rw [hlines] at ih
        cases lines with
        | nil => exact forall_mem_cons.mpr ⟨by simpa using hb, ih⟩
        | cons line lines => exact ih

lemma rest_of_complete_eq_nil (h : complete eol stream = []) : rest eol stream = stream := by
  induction stream with
  | nil => rfl
  | cons b stream ih =>
    simp only [complete, rest] at h ih ⊢
    rw [split] at h ⊢
    by_cases hb : eol b
    · rw [if_pos hb] at h
      cases h
    · rw [if_neg hb] at h ⊢
      cases hlines : split eol stream with
      | mk lines rest =>
        rw [hlines] at h ih
        cases lines with
        | nil => exact congrArg (b :: ·) (ih rfl)
        | cons line lines => cases h

/-- If a stream ends with a line, then its part before the first end is the start of a line. -/
lemma exists_complete_append {more : List α} (hne : line ≠ []) (h : ∀ c ∈ line, eol c = false)
    (hrest : rest eol (line ++ more) = []) :
    ∃ last lines, complete eol (line ++ more) = (line ++ last) :: lines := by
  induction line with
  | nil => exact absurd rfl hne
  | cons b line ih =>
    obtain ⟨hb, hline⟩ := forall_mem_cons.mp h
    simp only [complete, rest] at ih hrest ⊢
    rw [cons_append, split, if_neg (by simp [hb])] at hrest ⊢
    cases hlines : split eol (line ++ more) with
    | mk lines rest =>
      rw [hlines] at hrest ih
      cases lines with
      | nil => cases hrest
      | cons first lines =>
        cases line with
        | nil => exact ⟨first, lines, rfl⟩
        | cons c line =>
          obtain ⟨last, lines', heq⟩ := ih (cons_ne_nil _ _) hline hrest
          obtain ⟨rfl, rfl⟩ := List.cons.inj heq
          exact ⟨last, lines, rfl⟩

/-- If all lines of a stream are short, then so is the rest of what has arrived of it. -/
lemma length_rest_lt (more : List α) {n : ℕ} (hpos : 0 < n)
    (hrest : rest eol (stream ++ more) = [])
    (h : ∀ line ∈ complete eol (stream ++ more), line.length < n) :
    (rest eol stream).length < n := by
  rw [rest_append] at hrest
  rw [complete_append] at h
  by_cases hne : rest eol stream = []
  · rw [hne]
    exact hpos
  · obtain ⟨last, lines, heq⟩ := exists_complete_append hne (forall_mem_rest stream) hrest
    have hline := h (rest eol stream ++ last) (mem_append_right _ (heq ▸ mem_cons_self))
    rw [length_append] at hline
    omega

/-! ### Lines that are read in pieces -/

section Pieces

variable {ι : Type*} {pieces : ι → List α} {text : ι → α} {whole : ι → Prop} {sent : List ι}

lemma length_le_flatMap
    (h : ∀ i ∈ sent, pieces i = [text i] ∧ whole i ∨ 2 ≤ (pieces i).length ∧ ¬whole i) :
    sent.length ≤ (sent.flatMap pieces).length := by
  induction sent with
  | nil => exact Nat.le_refl _
  | cons i sent ih =>
    have hsent := ih fun j hj => h j (mem_cons_of_mem _ hj)
    rw [flatMap_cons, length_append, length_cons]
    rcases h i mem_cons_self with ⟨hone, -⟩ | ⟨htwo, -⟩
    · rw [hone, length_singleton]
      omega
    · omega

/-- If a line is read as it is or in several pieces, then the lines are read as they were sent if
and only if none is cut. -/
lemma flatMap_eq_map_iff
    (h : ∀ i ∈ sent, pieces i = [text i] ∧ whole i ∨ 2 ≤ (pieces i).length ∧ ¬whole i) :
    sent.flatMap pieces = sent.map text ↔ ∀ i ∈ sent, whole i := by
  induction sent with
  | nil => exact ⟨fun _ => forall_mem_nil _, fun _ => rfl⟩
  | cons i sent ih =>
    obtain ⟨hi, hsent⟩ := forall_mem_cons.mp h
    rw [flatMap_cons, map_cons, forall_mem_cons, ← ih hsent]
    rcases hi with ⟨hone, hwhole⟩ | ⟨htwo, hcut⟩
    · rw [hone]
      exact ⟨fun heq => ⟨hwhole, (List.cons.inj heq).2⟩, fun heq => congrArg (text i :: ·) heq.2⟩
    · refine ⟨fun heq => ?_, fun hall => absurd hall.1 hcut⟩
      have hlength := congrArg List.length heq
      have hle := length_le_flatMap hsent
      rw [length_append, length_cons, length_map] at hlength
      omega

end Pieces

end AtlasProbe.Lines
