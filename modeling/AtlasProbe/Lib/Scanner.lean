import AtlasProbe.Lib.Bytes
import Mathlib.Data.List.Basic
import Mathlib.Data.List.TakeDrop
import Mathlib.Order.Lattice

/-!
# Scanning words in place

A word in a buffer ends at a blank or at a zero.  A `Scanner` looks at the word at an index, and
puts a zero over the blank behind it.  It may do so even if it does not accept the word, so that the
next scanner that tries finds a buffer that has changed (`Cut`).  `WordAt.scan` says what a scanner
does to a word.
-/

namespace AtlasProbe

open List

/-- A scanner: for the words of certain bytes with certain lengths, for one word, or for the words
of one scanner or else of another one. -/
inductive Scanner
  | token (isByte : UInt8 → Bool) (isLength : ℕ → Bool)
      (plain : isByte 0 = false ∧ isByte 32 = false)
  | literal (text : Bytes) (plain : 0 ∉ text ∧ 32 ∉ text)
  | orElse (first second : Scanner)

/-- The result of a scan: the scanner has left the buffer, or it rejects the word, or it accepts the
word and returns where the word ends.  The numbers `seen` bound the bytes that were looked at. -/
inductive Scanned
  | outside
  | bad (mem : Bytes) (seen : ℕ)
  | found (mem : Bytes) (seen stop : ℕ)

namespace Scanner

/-- How many bytes agree at the starts of two texts. -/
def common : Bytes → Bytes → ℕ
  | b :: mem, c :: text => if b = c then common mem text + 1 else 0
  | _, _ => 0

/-- What is done with the byte behind a word. -/
def close (mem : Bytes) (stop : ℕ) (accept : Bool) : Scanned :=
  match mem[stop]? with
  | none => .outside
  | some c =>
    if c = 0 then if accept then .found mem (stop + 1) stop else .bad mem (stop + 1)
    else if c = 32 then
      if accept then .found (mem.set stop 0) (stop + 1) stop else .bad (mem.set stop 0) (stop + 1)
    else .bad mem (stop + 1)

/-- Scan the word at an index. -/
def scan : Scanner → Bytes → ℕ → Scanned
  | token isByte isLength _, mem, start =>
    let n := ((mem.drop start).takeWhile isByte).length
    close mem (start + n) (isLength n)
  | literal text _, mem, start =>
    let n := common (mem.drop start) text
    if n < text.length then
      if start + n < mem.length then .bad mem (start + n + 1) else .outside
    else close mem (start + n) true
  | orElse first second, mem, start =>
    match first.scan mem start with
    | .outside => .outside
    | .found mem seen stop => .found mem seen stop
    | .bad mem seen =>
      match second.scan mem start with
      | .outside => .outside
      | .bad mem seen' => .bad mem (max seen seen')
      | .found mem seen' stop => .found mem (max seen seen') stop

/-- The words that a scanner accepts. -/
def accepts : Scanner → Bytes → Bool
  | token isByte isLength _, word => word.all isByte && isLength word.length
  | literal text _, word => word == text
  | orElse first second, word => first.accepts word || second.accepts word

/-- Whether a scanner that rejects a word cuts the buffer behind it. -/
def cuts : Scanner → Bytes → Bool
  | token isByte _ _, word => word.all isByte
  | literal _ _, _ => false
  | orElse first second, word => first.cuts word || second.cuts word

/-! ### In any buffer -/

/-- A buffer in which bytes may have been replaced by zeros. -/
structure Cut (mem mem' : Bytes) : Prop where
  length : mem'.length = mem.length
  bytes : ∀ b ∈ mem', b ∈ mem ∨ b = 0

lemma Cut.refl (mem : Bytes) : Cut mem mem := ⟨rfl, fun _ hb => .inl hb⟩

lemma Cut.trans {mem₁ mem₂ mem₃ : Bytes} (h : Cut mem₁ mem₂) (h' : Cut mem₂ mem₃) :
    Cut mem₁ mem₃ := by
  refine ⟨h'.length.trans h.length, fun b hb => ?_⟩
  rcases h'.bytes b hb with hb | hb
  · exact h.bytes b hb
  · exact .inr hb

lemma cut_set (mem : Bytes) (i : ℕ) : Cut mem (mem.set i 0) :=
  ⟨length_set, fun _ hb => mem_or_eq_of_mem_set hb⟩

section Any

variable {mem mem' : Bytes} {start stop stop' seen : ℕ} {accept : Bool}

lemma close_found (h : close mem stop accept = .found mem' seen stop') :
    accept = true ∧ stop' = stop ∧ stop < mem.length ∧ (mem' = mem ∨ mem' = mem.set stop 0) := by
  unfold close at h
  split at h
  · cases h
  · next c hget =>
    have hlt := (List.getElem?_eq_some_iff.mp hget).1
    split_ifs at h with hzero haccept hblank haccept
    · cases h
      exact ⟨haccept, rfl, hlt, .inl rfl⟩
    · cases h
      exact ⟨haccept, rfl, hlt, .inr rfl⟩

lemma close_bad (h : close mem stop accept = .bad mem' seen) : Cut mem mem' := by
  unfold close at h
  split at h
  · cases h
  · split_ifs at h
    · cases h
      exact .refl mem
    · cases h
      exact cut_set mem stop
    · cases h
      exact .refl mem

/-- The bytes in front of an index stay when the byte at the index is replaced. -/
lemma take_drop_of_close {n : ℕ} (h : mem' = mem ∨ mem' = mem.set (start + n) 0) :
    (mem'.drop start).take n = (mem.drop start).take n := by
  rcases h with rfl | rfl
  · rfl
  · rw [drop_set, if_neg (by omega), Nat.add_sub_cancel_left, take_set_of_le le_rfl]

lemma common_eq_length {text : Bytes} (h : ¬common mem text < text.length) :
    common mem text = text.length ∧ mem.take text.length = text := by
  induction text generalizing mem with
  | nil => cases mem <;> exact ⟨rfl, rfl⟩
  | cons c text ih =>
    cases mem with
    | nil => exact absurd (Nat.succ_pos _) h
    | cons b mem =>
      unfold common at h ⊢
      split_ifs at h ⊢ with hb
      · subst hb
        obtain ⟨hcommon, htake⟩ := ih (by simpa using h)
        rw [hcommon, length_cons, take_succ_cons, htake]
        exact ⟨rfl, rfl⟩
      · exact absurd (Nat.succ_pos _) h

lemma scan_bad (sc : Scanner) (h : sc.scan mem start = .bad mem' seen) : Cut mem mem' := by
  induction sc generalizing mem mem' seen with
  | token isByte isLength plain => exact close_bad h
  | literal text plain =>
    unfold scan at h
    dsimp only at h
    split_ifs at h
    · cases h
      exact .refl mem
    · exact close_bad h
  | orElse first second ihfirst ihsecond =>
    unfold scan at h
    split at h
    · cases h
    · cases h
    · next mem₁ seen₁ hfirst =>
      split at h
      · cases h
      · next mem₂ seen₂ hsecond =>
        cases h
        exact (ihfirst hfirst).trans (ihsecond hsecond)
      · cases h

/-- What a scanner finds is a word that it accepts, whatever is in the buffer. -/
lemma scan_found (sc : Scanner) (h : sc.scan mem start = .found mem' seen stop) :
    start ≤ stop ∧ stop < mem.length ∧ Cut mem mem' ∧
      sc.accepts ((mem'.drop start).take (stop - start)) = true := by
  induction sc generalizing mem mem' seen stop with
  | token isByte isLength plain =>
    obtain ⟨haccept, rfl, hlt, hmem⟩ := close_found h
    have hvalue := take_drop_of_close hmem
    have hword := takeWhile_prefix (l := mem.drop start) isByte
    refine ⟨Nat.le_add_right _ _, hlt, ?_, ?_⟩
    · rcases hmem with rfl | rfl
      · exact .refl _
      · exact cut_set _ _
    · rw [Nat.add_sub_cancel_left, hvalue, ← prefix_iff_eq_take.mp hword, accepts, haccept,
        Bool.and_true]
      exact all_takeWhile
  | literal text plain =>
    unfold scan at h
    dsimp only at h
    split_ifs at h with hshort
    obtain ⟨hcommon, htake⟩ := common_eq_length hshort
    rw [hcommon] at h
    obtain ⟨-, rfl, hlt, hmem⟩ := close_found h
    refine ⟨Nat.le_add_right _ _, hlt, ?_, ?_⟩
    · rcases hmem with rfl | rfl
      · exact .refl _
      · exact cut_set _ _
    · rw [Nat.add_sub_cancel_left, take_drop_of_close hmem, htake]
      exact beq_self_eq_true text
  | orElse first second ihfirst ihsecond =>
    unfold scan at h
    split at h
    · cases h
    · next mem₁ seen₁ stop₁ hfirst =>
      cases h
      obtain ⟨hle, hlt, hcut, haccept⟩ := ihfirst hfirst
      exact ⟨hle, hlt, hcut, Bool.or_eq_true_iff.mpr (.inl haccept)⟩
    · next mem₁ seen₁ hfirst =>
      have hcut₁ := first.scan_bad hfirst
      split at h
      · cases h
      · cases h
      · next mem₂ seen₂ stop₂ hsecond =>
        cases h
        obtain ⟨hle, hlt, hcut, haccept⟩ := ihsecond hsecond
        exact ⟨hle, hcut₁.length ▸ hlt, hcut₁.trans hcut, Bool.or_eq_true_iff.mpr (.inr haccept)⟩

end Any

/-! ### At a word -/

section Word

variable {mem word rest : Bytes} {start : ℕ} {c : UInt8}

/-- The buffer has a word at an index. -/
structure WordAt (mem : Bytes) (start : ℕ) (word : Bytes) : Prop where
  plain : 0 ∉ word ∧ 32 ∉ word
  drop : ∃ c rest, mem.drop start = word ++ c :: rest ∧ (c = 0 ∨ c = 32)

/-- The buffer with a zero behind the word. -/
def closed (mem : Bytes) (start : ℕ) (word : Bytes) : Bytes :=
  mem.set (start + word.length) 0

lemma closed_closed : closed (closed mem start word) start word = closed mem start word :=
  set_set _

section At

variable (h : WordAt mem start word)

include h

lemma WordAt.drop_closed : ∃ rest, (closed mem start word).drop start = word ++ 0 :: rest := by
  obtain ⟨c, rest, hdrop, -⟩ := h.drop
  refine ⟨rest, ?_⟩
  rw [Scanner.closed, drop_set, if_neg (by omega), hdrop, Nat.add_sub_cancel_left,
    set_append_right _ _ le_rfl, Nat.sub_self]
  rfl

lemma WordAt.closed : WordAt (closed mem start word) start word := by
  obtain ⟨rest, hdrop⟩ := h.drop_closed
  exact ⟨h.plain, 0, rest, hdrop, .inl rfl⟩

lemma WordAt.getElem? :
    mem[start + word.length]? = some 0 ∧ Scanner.closed mem start word = mem ∨
      mem[start + word.length]? = some 32 := by
  obtain ⟨c, rest, hdrop, hc⟩ := h.drop
  have hget : mem[start + word.length]? = some c := by
    rw [← getElem?_drop, hdrop, getElem?_append_right le_rfl, Nat.sub_self]
    rfl
  rcases hc with rfl | rfl
  · obtain ⟨hlt, hzero⟩ := List.getElem?_eq_some_iff.mp hget
    refine .inl ⟨hget, ?_⟩
    rw [Scanner.closed, ← hzero, List.set_getElem_self]
  · exact .inr hget

/-- At the end of a word the buffer is closed. -/
lemma WordAt.close (accept : Bool) :
    close mem (start + word.length) accept =
      if accept then .found (Scanner.closed mem start word) (start + word.length + 1)
        (start + word.length)
      else .bad (Scanner.closed mem start word) (start + word.length + 1) := by
  unfold Scanner.close
  rcases h.getElem? with ⟨hget, hclosed⟩ | hget
  · rw [hget, hclosed]
    rfl
  · rw [hget]
    rfl

/-- In front of the end of a word there is no byte that ends one. -/
lemma WordAt.close_of_lt {n : ℕ} (hn : n < word.length) (accept : Bool) :
    Scanner.close mem (start + n) accept = .bad mem (start + n + 1) := by
  obtain ⟨c, rest, hdrop, -⟩ := h.drop
  have hget : mem[start + n]? = some word[n] := by
    rw [← getElem?_drop, hdrop, getElem?_append_left hn, getElem?_eq_getElem hn]
  have hne : word[n] ≠ 0 ∧ word[n] ≠ 32 :=
    ⟨fun heq => h.plain.1 (heq ▸ getElem_mem hn), fun heq =>
      h.plain.2 (heq ▸ getElem_mem hn)⟩
  unfold Scanner.close
  rw [hget]
  dsimp only
  rw [if_neg hne.1, if_neg hne.2]

lemma WordAt.length_lt : start + word.length < mem.length := by
  obtain ⟨c, rest, hdrop, -⟩ := h.drop
  have hlength := congrArg List.length hdrop
  rw [length_drop, length_append, length_cons] at hlength
  omega

end At

lemma length_takeWhile_lt {isByte : UInt8 → Bool} {more : Bytes} (h : ¬word.all isByte) :
    ((word ++ more).takeWhile isByte).length < word.length := by
  induction word with
  | nil => exact absurd rfl h
  | cons b word ih =>
    rw [cons_append, takeWhile_cons]
    split_ifs with hb
    · refine Nat.succ_lt_succ (ih fun hall => h ?_)
      rw [all_cons, hb, hall]
      rfl
    · exact Nat.succ_pos _

lemma common_le {text : Bytes} (hc : c ∉ text) :
    common (word ++ c :: rest) text ≤ word.length := by
  induction text generalizing word with
  | nil => cases word <;> exact Nat.zero_le _
  | cons b text ih =>
    rw [mem_cons, not_or] at hc
    obtain ⟨hb, htext⟩ := hc
    cases word with
    | nil =>
      rw [nil_append, common, if_neg hb]
      exact le_rfl
    | cons d word =>
      rw [cons_append, common]
      split_ifs
      · exact Nat.succ_le_succ (ih htext)
      · exact Nat.zero_le _

lemma common_self (text more : Bytes) : common (text ++ more) text = text.length := by
  induction text with
  | nil => cases more <;> rfl
  | cons b text ih => rw [cons_append, common, if_pos rfl, ih, length_cons]

/-- A scanner judges the word at an index, and looks at nothing behind it. -/
lemma WordAt.scan (sc : Scanner) (h : WordAt mem start word) :
    ∃ seen ≤ start + word.length + 1,
      sc.scan mem start =
        if sc.accepts word then
          .found (Scanner.closed mem start word) seen (start + word.length)
        else .bad (if sc.cuts word then Scanner.closed mem start word else mem) seen := by
  induction sc generalizing mem with
  | token isByte isLength plain =>
    obtain ⟨c, rest, hdrop, hc⟩ := h.drop
    have hstop : isByte c = false := by
      rcases hc with rfl | rfl
      · exact plain.1
      · exact plain.2
    unfold scan accepts cuts
    rw [hdrop]
    by_cases hall : word.all isByte
    · have hn : (word ++ c :: rest).takeWhile isByte = word := by
        rw [takeWhile_append_of_pos (all_eq_true.mp hall),
          takeWhile_cons_of_neg (by simp [hstop]), append_nil]
      refine ⟨start + word.length + 1, le_rfl, ?_⟩
      rw [hn, h.close, hall]
      rfl
    · have hn : ((word ++ c :: rest).takeWhile isByte).length < word.length := by
        exact length_takeWhile_lt hall
      refine ⟨_, Nat.succ_le_succ (Nat.add_le_add_left hn.le start), ?_⟩
      have hnot : word.all isByte = false := Bool.eq_false_iff.mpr hall
      rw [h.close_of_lt hn, hnot]
      rfl
  | literal text plain =>
    obtain ⟨c, rest, hdrop, hc⟩ := h.drop
    have htext : c ∉ text := by
      rcases hc with rfl | rfl
      · exact plain.1
      · exact plain.2
    have hle : common (word ++ c :: rest) text ≤ word.length := common_le htext
    unfold scan accepts cuts
    rw [hdrop]
    by_cases heq : word = text
    · subst heq
      refine ⟨start + word.length + 1, le_rfl, ?_⟩
      simp only [common_self, lt_irrefl, beq_self_eq_true]
      rw [h.close]
      rfl
    · refine ⟨start + common (word ++ c :: rest) text + 1, by omega, ?_⟩
      have hne : (word == text) = false := beq_eq_false_iff_ne.mpr heq
      rw [hne]
      by_cases hshort : common (word ++ c :: rest) text < text.length
      · have hlt := h.length_lt
        rw [if_pos hshort, if_pos (by omega)]
        rfl
      · rw [if_neg hshort, h.close_of_lt]
        · rfl
        · refine lt_of_le_of_ne hle fun hsame => heq ?_
          obtain ⟨hcommon, htake⟩ := common_eq_length hshort
          rw [← htake, ← hcommon, hsame, take_left]
  | orElse first second ihfirst ihsecond =>
    obtain ⟨seen₁, hseen₁, hfirst⟩ := ihfirst h
    unfold scan accepts cuts
    rw [hfirst]
    by_cases haccept₁ : first.accepts word
    · refine ⟨seen₁, hseen₁, ?_⟩
      simp only [haccept₁, if_true, Bool.true_or]
    · have hword :
          WordAt (if first.cuts word then Scanner.closed mem start word else mem) start word := by
        split_ifs
        · exact h.closed
        · exact h
      have hclosed : Scanner.closed (if first.cuts word then Scanner.closed mem start word else mem)
          start word = Scanner.closed mem start word := by
        split_ifs
        · exact closed_closed
        · rfl
      obtain ⟨seen₂, hseen₂, hsecond⟩ := ihsecond hword
      refine ⟨max seen₁ seen₂, max_le hseen₁ hseen₂, ?_⟩
      simp only [haccept₁, hsecond, Bool.false_or, Bool.false_eq_true, if_false]
      by_cases haccept₂ : second.accepts word
      · simp only [haccept₂, if_true, hclosed]
      · simp only [haccept₂, Bool.false_eq_true, hclosed]
        cases first.cuts word <;> cases second.cuts word <;> rfl

end Word

end Scanner

end AtlasProbe
