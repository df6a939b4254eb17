import AtlasProbe.Lib.Lines
import AtlasProbe.Lib.Text

/-!
# Reading a file line by line

A program that reads a file with `fgets` gets its `lines`, except that a line that does not fit into
the buffer arrives in `pieces`.  If every piece leaves room for a line end, then no line was cut
(`pieces_eq_lines`).
-/

namespace AtlasProbe.FileLines

open List

/-- A byte that ends a line. -/
def newline (b : UInt8) : Bool := b == 10

/-- The lines of a file that end with a line end. -/
def lines (file : Bytes) : List Bytes := Lines.complete newline file

/-- The file ends with a line end, or is empty. -/
def Whole (file : Bytes) : Prop := Lines.rest newline file = []

/-- What `fgets` returns for a buffer of `size` bytes when it is called `n` times, without line
ends. -/
def readLoop (size : ℕ) : ℕ → Bytes → List Bytes
  | 0, _ => []
  | n + 1, file =>
    match fgets size file with
    | none => []
    | some (line, rest) => line.takeWhile (· ≠ 10) :: readLoop size n rest

/-- What `fgets` returns until the file ends. -/
def pieces (size : ℕ) (file : Bytes) : List Bytes := readLoop size file.length file

variable {size n : ℕ} {file more : Bytes} {b : UInt8}

/-! ### Whole files -/

@[simp]
lemma whole_nil : Whole [] := rfl

lemma Whole.of_cons (h : Whole (b :: file)) : Whole file := by
  unfold Whole Lines.rest at h ⊢
  rw [Lines.split] at h
  by_cases hb : newline b
  · rwa [if_pos hb] at h
  · rw [if_neg hb] at h
    rcases hsplit : Lines.split newline file with ⟨_ | ⟨line, lines⟩, rest⟩
    · rw [hsplit] at h
      cases h
    · rw [hsplit] at h
      exact h

lemma Whole.ne_nil (h : Whole (b :: file)) (hb : b ≠ 10) : file ≠ [] := by
  rintro rfl
  unfold Whole Lines.rest Lines.split at h
  rw [if_neg (by simpa [newline] using hb)] at h
  cases h

lemma Whole.drop (h : Whole file) (k : ℕ) : Whole (file.drop k) := by
  induction k generalizing file with
  | zero => exact h
  | succ k ih =>
    cases file with
    | nil => exact h
    | cons b file => exact ih h.of_cons

lemma Whole.append (h : Whole file) (hmore : Whole more) : Whole (file ++ more) := by
  unfold Whole at h ⊢
  rw [Lines.rest_append, h]
  exact hmore

variable {line rest : Bytes}

lemma newline_eq_false (h : 10 ∉ line) : ∀ c ∈ line, newline c = false := by
  intro c hc
  rw [newline, beq_eq_false_iff_ne]
  rintro rfl
  exact h hc

lemma whole_line (h : 10 ∉ line) : Whole (line ++ [10]) :=
  Lines.rest_append_cons (newline_eq_false h) rfl

lemma lines_append (h : Whole file) : lines (file ++ more) = lines file ++ lines more := by
  rw [lines, Lines.complete_append, h]
  rfl

/-! ### What is read -/

lemma firstLine_append_drop (n : ℕ) (file : Bytes) :
    firstLine n file ++ file.drop (firstLine n file).length = file := by
  induction n generalizing file with
  | zero => rfl
  | succ n ih =>
    cases file with
    | nil => rfl
    | cons b file =>
      rw [firstLine]
      split_ifs with hb
      · rw [hb]
        rfl
      · exact congrArg (b :: ·) (ih file)

lemma eq_nil_of_fgets (h : fgets size file = none) : file = [] := by
  unfold fgets at h
  split_ifs at h with hfile
  exact hfile

/-- What `fgets` returns is the start of the file. -/
lemma append_of_fgets (h : fgets size file = some (line, rest)) : line ++ rest = file := by
  unfold fgets at h
  split_ifs at h
  cases h
  exact firstLine_append_drop _ _

lemma length_firstLine_le (n : ℕ) (file : Bytes) :
    (firstLine n file).length ≤ file.length := by
  have hlength := congrArg List.length (firstLine_append_drop n file)
  rw [length_append] at hlength
  omega

lemma firstLine_append (h : Whole file) (hne : file ≠ []) (n : ℕ) (more : Bytes) :
    firstLine n (file ++ more) = firstLine n file := by
  induction n generalizing file with
  | zero => rfl
  | succ n ih =>
    cases file with
    | nil => exact absurd rfl hne
    | cons b file =>
      rw [cons_append, firstLine, firstLine]
      by_cases hb : b = 10
      · rw [if_pos hb, if_pos hb]
      · rw [if_neg hb, if_neg hb, ih h.of_cons (h.ne_nil hb)]

/-- The first piece of a whole file is its first line, or as much as fits into the buffer. -/
lemma firstLine_cases (h : Whole file) (hne : file ≠ []) (n : ℕ) :
    (∃ line rest, file = line ++ 10 :: rest ∧ 10 ∉ line ∧ line.length ≤ n ∧
      firstLine (n + 1) file = line ++ [10]) ∨
    (firstLine (n + 1) file = file.take (n + 1) ∧ 10 ∉ file.take (n + 1) ∧
      n + 1 < file.length) := by
  induction n generalizing file with
  | zero =>
    cases file with
    | nil => exact absurd rfl hne
    | cons b file =>
      by_cases hb : b = 10
      · subst hb
        exact .inl ⟨[], file, rfl, not_mem_nil, le_rfl, rfl⟩
      · refine .inr ⟨?_, ?_, ?_⟩
        · rw [firstLine, if_neg hb, firstLine, take_succ_cons, take_zero]
        · rw [take_succ_cons, take_zero, mem_singleton]
          exact fun heq => hb heq.symm
        · have hpos := length_pos_iff.mpr (h.ne_nil hb)
          rw [length_cons]
          omega
  | succ n ih =>
    cases file with
    | nil => exact absurd rfl hne
    | cons b file =>
      by_cases hb : b = 10
      · subst hb
        exact .inl ⟨[], file, rfl, not_mem_nil, Nat.zero_le _, rfl⟩
      · rw [firstLine, if_neg hb, take_succ_cons]
        rcases ih h.of_cons (h.ne_nil hb) with ⟨line, rest, rfl, hline, hle, heq⟩ | ⟨heq, hnot, hlt⟩
        · refine .inl ⟨b :: line, rest, rfl, ?_, Nat.succ_le_succ hle, by rw [heq]; rfl⟩
          exact not_mem_cons_of_ne_of_not_mem (Ne.symm hb) hline
        · refine .inr ⟨by rw [heq], ?_, Nat.succ_lt_succ hlt⟩
          exact not_mem_cons_of_ne_of_not_mem (Ne.symm hb) hnot

/-- The first line of a file is determined. -/
lemma line_unique {line' rest' : Bytes} (h : 10 ∉ line) (h' : 10 ∉ line')
    (heq : line ++ 10 :: rest = line' ++ 10 :: rest') : line = line' ∧ rest = rest' := by
  have hline : line = line' := by
    rw [← (takeWhile_ne h).2 rest, heq, (takeWhile_ne h').2]
  subst hline
  exact ⟨rfl, (List.cons.inj (append_cancel_left heq)).2⟩

/-- The number of calls does not matter if it suffices. -/
lemma readLoop_eq_readLoop {m : ℕ} (hn : file.length ≤ n) (hm : file.length ≤ m) :
    readLoop (size + 2) n file = readLoop (size + 2) m file := by
  induction n generalizing file m with
  | zero =>
    rw [length_eq_zero_iff.mp (Nat.le_zero.mp hn)]
    cases m <;> rfl
  | succ n ih =>
    cases m with
    | zero =>
      rw [length_eq_zero_iff.mp (Nat.le_zero.mp hm)]
      rfl
    | succ m =>
      rw [readLoop, readLoop]
      cases hgets : fgets (size + 2) file with
      | none => rfl
      | some result =>
        obtain ⟨line, rest⟩ := result
        have hlt := length_of_fgets hgets
        have hrest : readLoop (size + 2) n rest = readLoop (size + 2) m rest :=
          ih (by omega) (by omega)
        dsimp only
        rw [hrest]

@[simp]
lemma pieces_nil : pieces size [] = [] := rfl

/-- The first piece, and those behind it. -/
lemma pieces_of_fgets (h : fgets (size + 2) file = some (line, rest)) :
    pieces (size + 2) file = line.takeWhile (· ≠ 10) :: pieces (size + 2) rest := by
  have hlt := length_of_fgets h
  obtain ⟨n, hn⟩ := Nat.exists_eq_add_of_lt hlt
  unfold pieces
  rw [hn, readLoop, h]
  exact congrArg _ (readLoop_eq_readLoop (by omega) le_rfl)

lemma fgets_of_ne_nil (size : ℕ) (hne : file ≠ []) :
    fgets (size + 2) file =
      some (firstLine (size + 1) file, file.drop (firstLine (size + 1) file).length) :=
  if_neg hne

/-- A whole file and what stands behind it are read one after the other. -/
lemma pieces_append (h : Whole file) :
    pieces (size + 2) (file ++ more) = pieces (size + 2) file ++ pieces (size + 2) more := by
  induction hn : file.length using Nat.strong_induction_on generalizing file with
  | _ n ih =>
    by_cases hne : file = []
    · subst hne
      rfl
    · have hfile := fgets_of_ne_nil size hne
      have hall := fgets_of_ne_nil size (append_ne_nil_of_left_ne_nil hne more)
      rw [firstLine_append h hne, drop_append_of_le_length (length_firstLine_le _ _)] at hall
      rw [pieces_of_fgets hfile, pieces_of_fgets hall,
        ih _ (hn ▸ length_of_fgets hfile) (h.drop _) rfl]
      rfl

lemma pieces_ne_nil (hne : file ≠ []) : pieces (size + 2) file ≠ [] := by
  rw [pieces_of_fgets (fgets_of_ne_nil size hne)]
  exact cons_ne_nil _ _

/-- The first piece of a whole file is a line, or fills the buffer. -/
lemma pieces_cases (size : ℕ) (h : Whole file) (hne : file ≠ []) :
    (∃ line rest, file = line ++ 10 :: rest ∧ 10 ∉ line ∧ line.length ≤ size ∧
      pieces (size + 2) file = line :: pieces (size + 2) rest) ∨
    (∃ line rest, file = line ++ rest ∧ rest ≠ [] ∧ 10 ∉ line ∧ line.length = size + 1 ∧
      pieces (size + 2) file = line :: pieces (size + 2) rest) := by
  have hfile := pieces_of_fgets (fgets_of_ne_nil size hne)
  rcases firstLine_cases h hne size with ⟨line, rest, heq, hline, hle, hfirst⟩ | ⟨hfirst, hnot, hlt⟩
  · refine .inl ⟨line, rest, heq, hline, hle, ?_⟩
    rw [hfile, hfirst, (takeWhile_ne hline).2, heq]
    simp
  · refine .inr ⟨file.take (size + 1), file.drop (size + 1),
      (take_append_drop _ _).symm, ?_, hnot, length_take_of_le hlt.le, ?_⟩
    · exact fun hnil => absurd (drop_eq_nil_iff.mp hnil) (Nat.not_le.mpr hlt)
    · rw [hfile, hfirst, (takeWhile_ne hnot).1, length_take_of_le hlt.le]

/-- If no piece fills the buffer, then the pieces are the lines. -/
lemma pieces_eq_lines (h : Whole file)
    (hle : ∀ piece ∈ pieces (size + 2) file, piece.length ≤ size) :
    pieces (size + 2) file = lines file := by
  induction hn : file.length using Nat.strong_induction_on generalizing file with
  | _ n ih =>
    by_cases hne : file = []
    · subst hne
      rfl
    · rcases pieces_cases size h hne with ⟨line, rest, heq, hline, -, hpieces⟩ |
        ⟨line, rest, -, -, -, hlength, hpieces⟩
      · subst heq
        have hrest : Whole rest := by
          have hdrop := h.drop (line.length + 1)
          rwa [← drop_drop, drop_left] at hdrop
        have hlt : rest.length < n := by
          rw [← hn, length_append, length_cons]
          omega
        rw [hpieces, ih _ hlt hrest (fun piece hin => hle piece ?_) rfl]
        · exact (Lines.complete_append_cons (newline_eq_false hline) rfl).symm
        · rw [hpieces]
          exact mem_cons_of_mem _ hin
      · have hlong := hle line (hpieces ▸ mem_cons_self)
        omega

/-- A line is read as it is if it leaves room for its end. -/
lemma pieces_line (h : 10 ∉ line) (hle : line.length ≤ size) :
    pieces (size + 2) (line ++ [10]) = [line] := by
  have hne : line ++ [10] ≠ [] := append_ne_nil_of_right_ne_nil _ (cons_ne_nil _ _)
  rcases pieces_cases size (whole_line h) hne with ⟨line', rest, heq, hline', -, hpieces⟩ |
    ⟨line', rest, heq, hrest, -, hlength, -⟩
  · obtain ⟨rfl, rfl⟩ := line_unique h hline' heq
    exact hpieces
  · have hpos := length_pos_iff.mpr hrest
    have htotal := congrArg List.length heq
    simp only [length_append, length_singleton] at htotal
    omega

/-- Otherwise it is cut. -/
lemma two_le_length_pieces (h : 10 ∉ line) (hlt : size < line.length) :
    2 ≤ (pieces (size + 2) (line ++ [10])).length := by
  have hne : line ++ [10] ≠ [] := append_ne_nil_of_right_ne_nil _ (cons_ne_nil _ _)
  rcases pieces_cases size (whole_line h) hne with ⟨line', rest, heq, hline', hle, -⟩ |
    ⟨line', rest, -, hrest, -, -, hpieces⟩
  · obtain ⟨rfl, -⟩ := line_unique h hline' heq
    omega
  · rw [hpieces]
    exact Nat.succ_le_succ (length_pos_iff.mpr (pieces_ne_nil hrest))

end AtlasProbe.FileLines
