import AtlasProbe.Httppost.Reply
import Mathlib.Data.FinEnum

/-!
# The framings of a reply

The body of a reply comes in chunks (`Chunk`, `chunkLoop_bytes`), with its length, or up to the end
of the connection.  The three readers copy the same body, and find the same of it.
-/

namespace AtlasProbe.Httppost

open List

/-! ### Lines -/

/-- A line without its newline, which fits in the buffer with it. -/
structure WireLine where
  front : Bytes
  plain : ∀ b ∈ front, b ≠ 0 ∧ b ≠ 10
  fits : front.length < 1023

/-- A line as it is sent. -/
def WireLine.bytes (l : WireLine) : Bytes := l.front ++ [10]

/-- A line without its end. -/
def WireLine.text (l : WireLine) : Bytes :=
  if l.front.getLast? = some 13 then l.front.dropLast else l.front

lemma firstLine_line {line : Bytes} (h : 10 ∉ line) (rest : Bytes) {n : ℕ}
    (hn : line.length ≤ n) : firstLine (n + 1) (line ++ 10 :: rest) = line ++ [10] := by
  induction line generalizing n with
  | nil => rfl
  | cons b line ih =>
    obtain ⟨hb, hline⟩ := not_or.mp (mem_cons.not.mp h)
    cases n with
    | zero => cases hn
    | succ n =>
      rw [cons_append, firstLine, if_neg (Ne.symm hb), ih hline (Nat.le_of_succ_le_succ hn)]
      rfl

lemma readLine_bytes (l : WireLine) (rest : Bytes) :
    readLine (l.bytes ++ rest) = some (l.text, rest) := by
  have hgets : fgets 1024 (l.bytes ++ rest) = some (l.bytes, rest) := by
    unfold fgets WireLine.bytes
    rw [append_assoc, singleton_append,
      firstLine_line (fun h => (l.plain 10 h).2 rfl) rest (Nat.le_of_lt_succ l.fits)]
    simp
  have hwhile : l.bytes.takeWhile (fun b => b ≠ 0 && b ≠ 10) = l.front := by
    unfold WireLine.bytes
    rw [takeWhile_append_of_pos (fun b hb => by simp [l.plain b hb]),
      takeWhile_cons_of_neg (by simp), append_nil]
  have hend : l.bytes[l.front.length]? = some 10 := getElem?_concat_length
  unfold readLine
  rw [hgets]
  dsimp only
  rw [hwhile, if_pos hend]
  rfl

/-! ### Chunks -/

/-- An empty line. -/
structure EmptyLine extends WireLine where
  text_eq : toWireLine.text = []

/-- A line with a plain hexadecimal number that fits in `size_t`. -/
structure SizeLine (n : ℕ) extends WireLine where
  ne_nil : toWireLine.text ≠ []
  digits : ∀ c ∈ toWireLine.text, (hexDigit c).isSome = true
  value : toWireLine.text.foldl (fun n c => 16 * n + (hexDigit c).getD 0) 0 = n
  lt : n < 2 ^ 64

/-- A chunk. -/
structure Chunk where
  data : Bytes
  ne_nil : data ≠ []
  size : SizeLine data.length
  close : EmptyLine

/-- A chunk as it is sent. -/
def Chunk.bytes (c : Chunk) : Bytes := c.size.bytes ++ (c.data ++ c.close.bytes)

lemma not_mark_of_hexDigit {c : UInt8} : (hexDigit c).isSome = true →
    isspace c = false ∧ c ≠ 45 ∧ c ≠ 43 ∧ c ≠ 120 ∧ c ≠ 88 := by
  revert c
  decide +kernel

lemma SizeLine.chunkSize {n : ℕ} (l : SizeLine n) : chunkSize l.text = some n := by
  have hsign : signOf (l.text.dropWhile isspace) = (false, l.text) := by
    obtain ⟨c, rest, hline⟩ := exists_cons_of_ne_nil l.ne_nil
    obtain ⟨hspace, hminus, hplus, -⟩ := not_mark_of_hexDigit (l.digits c (hline ▸ mem_cons_self))
    unfold signOf
    split <;> simp_all
  have hmark : skipHexMark l.text = l.text := by
    unfold skipHexMark
    split
    · next x d text heq =>
      obtain ⟨-, -, -, hx, hX⟩ := not_mark_of_hexDigit (l.digits x (by rw [heq]; simp))
      rw [if_neg (by simp [hx, hX])]
      exact heq.symm
    · rfl
  have hwhile : l.text.takeWhile (fun c => (hexDigit c).isSome) = l.text :=
    takeWhile_eq_self_iff.mpr l.digits
  have hnumber : strtoul16 l.text = (n, []) := by
    unfold strtoul16
    rw [hsign]
    dsimp only
    rw [hmark, hwhile, if_neg l.ne_nil, l.value, if_neg (Nat.not_le_of_lt l.lt), drop_length]
    rfl
  unfold Httppost.chunkSize
  rw [hnumber]
  rfl

lemma chunkLoop_bytes (chunks : List Chunk) (last : SizeLine 0) (rest : Bytes) {fuel : ℕ}
    (hfuel : (chunks.flatMap Chunk.bytes ++ (last.bytes ++ rest)).length ≤ fuel) (c : Copied) :
    chunkLoop fuel (chunks.flatMap Chunk.bytes ++ (last.bytes ++ rest)) c =
      some (c.add (chunks.flatMap Chunk.data), rest) := by
  induction chunks generalizing fuel c with
  | nil =>
    cases fuel with
    | zero => simp [WireLine.bytes] at hfuel
    | succ fuel =>
      rw [flatMap_nil, nil_append, chunkLoop, readLine_bytes]
      dsimp only
      rw [last.chunkSize, flatMap_nil, Copied.add_nil]
      rfl
  | cons chunk chunks ih =>
    cases fuel with
    | zero => simp [WireLine.bytes] at hfuel
    | succ fuel =>
      rw [flatMap_cons, flatMap_cons, Chunk.bytes, append_assoc, append_assoc, append_assoc,
        chunkLoop, readLine_bytes]
      dsimp only
      rw [chunk.size.chunkSize]
      dsimp only
      rw [if_neg (by simpa using chunk.ne_nil), copyPieces_eq, if_neg (by simp), drop_left,
        take_left]
      dsimp only
      rw [readLine_bytes, chunk.close.text_eq]
      dsimp only
      rw [if_neg (by simp), ih (by simp [Chunk.bytes, WireLine.bytes] at hfuel ⊢; omega),
        Copied.add_add]

lemma trailerLoop_bytes (trailer : List WireLine) (last : EmptyLine) (rest : Bytes) {fuel : ℕ}
    (hfuel : (trailer.flatMap WireLine.bytes ++ (last.bytes ++ rest)).length ≤ fuel) :
    trailerLoop fuel (trailer.flatMap WireLine.bytes ++ (last.bytes ++ rest)) = true := by
  induction trailer generalizing fuel with
  | nil =>
    cases fuel with
    | zero => simp [WireLine.bytes] at hfuel
    | succ fuel =>
      rw [flatMap_nil, nil_append, trailerLoop, readLine_bytes]
      simp [last.text_eq]
  | cons line trailer ih =>
    cases fuel with
    | zero => simp [WireLine.bytes] at hfuel
    | succ fuel =>
      rw [flatMap_cons, append_assoc, trailerLoop, readLine_bytes]
      dsimp only
      rw [ih (by simp [WireLine.bytes] at hfuel ⊢; omega), Bool.or_true]

/-- For every body in chunks, with any lines as its trailer, all three readers copy the body and
find whether it is `OK`: from the chunks, from as many bytes, and to the end of the input. -/
theorem framings_agree (chunks : List Chunk) (zero : SizeLine 0) (trailer : List WireLine)
    (close : EmptyLine) (rest : Bytes) :
    let body := chunks.flatMap Chunk.data
    ∃ c : Copied, c.out = body ∧ (c.foundOk = true ↔ body = okStr) ∧
      copyChunked (chunks.flatMap Chunk.bytes ++ (zero.bytes ++
        (trailer.flatMap WireLine.bytes ++ (close.bytes ++ rest)))) = some c ∧
      copyBytes body.length (body ++ rest) = some c ∧ copyAll false body = some c := by
  intro body
  refine ⟨Copied.start.add body, rfl, Copied.foundOk_iff body, ?_, ?_, ?_⟩
  · unfold copyChunked
    rw [chunkLoop_bytes chunks zero _ le_rfl]
    dsimp only
    rw [if_pos (trailerLoop_bytes trailer close rest le_rfl)]
  · rw [copyBytes, copyPieces_eq, if_neg (by simp), take_left]
    rfl
  · rw [copyAll, allLoop_eq le_rfl]
    rfl

example : (copyChunked (ascii "1\r\nO\r\n02\nK\n\r\n0\r\n\n")).map Copied.foundOk = some true := by
  decide +kernel

end AtlasProbe.Httppost
