import AtlasProbe.Lib.Text

/-!
# The reply to a post

`httppost` reads the status line and the headers of the reply, and then the body in one of three
ways.  The body is copied to the output, and compared with `OK` and a newline while it is copied.
-/

namespace AtlasProbe.Httppost

open List

/-! ### Lines -/

/-- `fgets` into a buffer of 1024 bytes, and the line without its end; nothing at the end of the
input or if there is no newline in front of a zero. -/
def readLine (input : Bytes) : Option (Bytes × Bytes) :=
  match fgets 1024 input with
  | none => none
  | some (got, rest) =>
    let line := got.takeWhile fun b => b ≠ 0 && b ≠ 10
    if got[line.length]? = some 10 then
      some (if line.getLast? = some 13 then line.dropLast else line, rest)
    else none

/-- Whether `strncasecmp` finds the word at the start of a text. -/
def startsWith (word text : Bytes) : Bool :=
  (text.take word.length).map tolower = word.map tolower

/-- The status code and what follows it in the status line. -/
def status (line : Bytes) : Option Bytes :=
  if !startsWith (ascii "http/") line then none
  else
    let cp := line.drop 5
    let check := (strtoul cp).2
    if check = cp ∨ check.head? ≠ some 46 then none
    else
      let cp := check.drop 1
      let check := (strtoul cp).2
      if check = cp ∨ !check.head?.any isspace then none
      else
        let cp := check.dropWhile isspace
        if cp.head?.any isdigit then some cp else none

/-- `check_result`: the rest of the reply, if the status starts with a `2` -/
def checkResult (input : Bytes) : Option Bytes :=
  match readLine input with
  | none => none
  | some (line, rest) =>
    match status line with
    | none => none
    | some cp => if cp.head? = some 50 then some rest else none

/-! ### Headers -/

/-- What the headers say about the body: the variables `chunked` and `content_length` -/
structure Headers where
  chunked : Bool
  contentLength : ℤ
  deriving DecidableEq

/-- The value of a header, behind its name and the colon. -/
def valueOf (text : Bytes) : Option Bytes :=
  let cp := text.dropWhile isspace
  if cp.head? = some 58 then some ((cp.drop 1).dropWhile isspace) else none

/-- A header line.  The white space behind `chunked` is tested the wrong way round. -/
def headerLine (line : Bytes) (h : Headers) : Option Headers :=
  if line.head?.any isspace then some h
  else
    let rest := line.dropWhile fun c => c ≠ 58 && !isspace c
    if startsWith (ascii "Transfer-Encoding") line then
      match valueOf rest with
      | none => none
      | some cp =>
        if !startsWith (ascii "chunked") cp then some h
        else if cp[7]?.any isspace then some h
        else some { h with chunked := true }
    else if !startsWith (ascii "Content-length") line then some h
    else
      match valueOf rest with
      | none => none
      | some cp =>
        let (value, check) := strtoul cp
        if check = cp then none
        else if check.dropWhile isspace ≠ [] then none
        else some { h with contentLength := (value : ℤ).bmod (2 ^ 32) }

/-- The loop of `eat_headers`, for at most `fuel` lines -/
def headerLoop : ℕ → Bytes → Headers → Option (Headers × Bytes)
  | 0, _, _ => none
  | fuel + 1, input, h =>
    match readLine input with
    | none => none
    | some (line, rest) =>
      if line = [] then some (h, rest)
      else
        match headerLine line h with
        | none => none
        | some h => headerLoop fuel rest h

/-- `eat_headers` -/
def eatHeaders (input : Bytes) : Option (Headers × Bytes) :=
  headerLoop input.length input ⟨false, -1⟩

/-! ### The body -/

/-- `OK_STR` -/
def okStr : Bytes := ascii "OK\n"

/-- What has been copied to the output, and what is still expected of `OK_STR` if all was as
expected: the variable `okp` -/
structure Copied where
  out : Bytes
  okp : Option Bytes
  deriving DecidableEq

/-- Compare a byte. -/
def okStep : Option Bytes → UInt8 → Option Bytes
  | some (c :: okp), b => if c = b then some okp else none
  | _, _ => none

/-- Copy some bytes. -/
def Copied.add (c : Copied) (data : Bytes) : Copied :=
  ⟨c.out ++ data, data.foldl okStep c.okp⟩

/-- Nothing has been copied. -/
def Copied.start : Copied := ⟨[], some okStr⟩

/-- The variable `found_ok` -/
def Copied.foundOk (c : Copied) : Bool := c.okp = some []

/-- The digit of a hexadecimal number. -/
def hexDigit (c : UInt8) : Option ℕ :=
  if 48 ≤ c && c ≤ 57 then some (c.toNat - 48)
  else if 97 ≤ c && c ≤ 102 then some (c.toNat - 87)
  else if 65 ≤ c && c ≤ 70 then some (c.toNat - 55)
  else none

/-- The text behind `0x`, if a digit follows. -/
def skipHexMark : Bytes → Bytes
  | 48 :: x :: c :: text =>
    if (x = 120 ∨ x = 88) ∧ (hexDigit c).isSome then c :: text else 48 :: x :: c :: text
  | text => text

/-- `strtoul` with base 16 and 64 bits -/
def strtoul16 (text : Bytes) : ℕ × Bytes :=
  let (negative, number) := signOf (text.dropWhile isspace)
  let number := skipHexMark number
  let digits := number.takeWhile fun c => (hexDigit c).isSome
  if digits = [] then (0, text)
  else
    let value := digits.foldl (fun n c => 16 * n + (hexDigit c).getD 0) 0
    let value :=
      if 2 ^ 64 ≤ value then 2 ^ 64 - 1 else if negative then (2 ^ 64 - value) % 2 ^ 64 else value
    (value, number.drop digits.length)

/-- The size in a chunk line. -/
def chunkSize (line : Bytes) : Option ℕ :=
  let (len, check) := strtoul16 line
  if check = [] ∨ check.head?.any isspace then some len else none

/-- The loop in which `copy_chunked` and `copy_bytes` copy `len` bytes, in at most `fuel` rounds: a
piece has at most 1024 bytes, and it is an error if it is not there as a whole. -/
def pieceLoop : ℕ → ℕ → Bytes → Copied → Option (Copied × Bytes)
  | 0, _, _, _ => none
  | fuel + 1, len, input, c =>
    if len = 0 then some (c, input)
    else
      let size := min len 1024
      if input.length < size then none
      else pieceLoop fuel (len - size) (input.drop size) (c.add (input.take size))

/-- Copy `len` bytes. -/
def copyPieces (len : ℕ) (input : Bytes) (c : Copied) : Option (Copied × Bytes) :=
  pieceLoop (input.length + 1) len input c

/-- The first loop of `copy_chunked`, for at most `fuel` chunks -/
def chunkLoop : ℕ → Bytes → Copied → Option (Copied × Bytes)
  | 0, _, _ => none
  | fuel + 1, input, c =>
    match readLine input with
    | none => none
    | some (line, rest) =>
      match chunkSize line with
      | none => none
      | some len =>
        if len = 0 then some (c, rest)
        else
          match copyPieces len rest c with
          | none => none
          | some (c, rest) =>
            match readLine rest with
            | none => none
            | some (line, rest) => if line ≠ [] then none else chunkLoop fuel rest c

/-- The second loop of `copy_chunked`, for at most `fuel` lines -/
def trailerLoop : ℕ → Bytes → Bool
  | 0, _ => false
  | fuel + 1, input =>
    match readLine input with
    | none => false
    | some (line, rest) => line = [] || trailerLoop fuel rest

/-- `copy_chunked` -/
def copyChunked (input : Bytes) : Option Copied :=
  match chunkLoop input.length input .start with
  | none => none
  | some (c, rest) => if trailerLoop rest.length rest then some c else none

/-- `copy_bytes` -/
def copyBytes (len : ℕ) (input : Bytes) : Option Copied :=
  (copyPieces len input .start).map Prod.fst

/-- The loop of `copy_all`, for at most `fuel` pieces -/
def allLoop : ℕ → Bytes → Copied → Copied
  | 0, _, c => c
  | fuel + 1, input, c =>
    if input = [] then c else allLoop fuel (input.drop 1024) (c.add (input.take 1024))

/-- `copy_all`, with whether reading ends with an error -/
def copyAll (ferror : Bool) (input : Bytes) : Option Copied :=
  if ferror then none else some (allLoop input.length input .start)

/-- The reader for the body that the headers ask for. -/
def copyBody (ferror : Bool) (h : Headers) (input : Bytes) : Option Copied :=
  if h.chunked then copyChunked input
  else if 0 ≤ h.contentLength then copyBytes h.contentLength.toNat input
  else copyAll ferror input

/-! ### Decoded bodies -/

/-- A stream of chunks, the bytes in them, and the rest behind the chunk of size zero. -/
inductive Chunks : Bytes → Bytes → Bytes → Prop
  | last {input line rest : Bytes} (hline : readLine input = some (line, rest))
      (hsize : chunkSize line = some 0) : Chunks input [] rest
  | chunk {input line data rest more body rest' : Bytes}
      (hline : readLine input = some (line, data ++ rest))
      (hsize : chunkSize line = some data.length) (hne : data ≠ [])
      (hend : readLine rest = some ([], more)) (hmore : Chunks more body rest') :
      Chunks input (data ++ body) rest'

/-- The body of a reply. -/
def Decodes (h : Headers) (input body : Bytes) : Prop :=
  if h.chunked then ∃ rest, Chunks input body rest
  else if 0 ≤ h.contentLength then ∃ rest, input = body ++ rest ∧ (body.length : ℤ) =
    h.contentLength
  else body = input

/-- The reply says that the request was accepted: its status starts with a `2`, and its body is
`OK` and a newline. -/
structure Accepted (reply : Bytes) : Prop where
  status : ∃ line rest cp, readLine reply = some (line, rest) ∧ status line = some cp ∧
    cp.head? = some 50
  body : ∃ rest hd input, checkResult reply = some rest ∧ eatHeaders rest = some (hd, input) ∧
    Decodes hd input okStr

/-! ### The readers -/

variable {input rest : Bytes} {fuel : ℕ}

/-- All was as expected, to the end, if and only if it is what was expected. -/
lemma foldl_okStep (okp data : Bytes) :
    data.foldl okStep (some okp) = some [] ↔ data = okp := by
  have hnone : ∀ data : Bytes, data.foldl okStep none = none := by
    intro data
    induction data with
    | nil => rfl
    | cons b data ih => exact ih
  induction data generalizing okp with
  | nil =>
    rw [foldl_nil, Option.some_inj]
    exact eq_comm
  | cons b data ih =>
    cases okp with
    | nil => simp [okStep, hnone]
    | cons c okp =>
      rw [foldl_cons, okStep]
      split_ifs with hb
      · refine (ih okp).trans ?_
        rw [hb, cons_inj_right]
      · rw [hnone]
        simp [Ne.symm hb]

lemma Copied.add_add (c : Copied) (data more : Bytes) :
    (c.add data).add more = c.add (data ++ more) := by
  unfold Copied.add
  rw [append_assoc, foldl_append]

lemma Copied.add_nil (c : Copied) : c.add [] = c := by
  rw [Copied.add, append_nil]
  rfl

/-- Piece by piece, the bytes are copied as a whole, if they are there. -/
lemma pieceLoop_eq {len : ℕ} (h : input.length < fuel) (c : Copied) :
    pieceLoop fuel len input c =
      if input.length < len then none else some (c.add (input.take len), input.drop len) := by
  induction fuel generalizing len input c with
  | zero => cases h
  | succ fuel ih =>
    rw [pieceLoop]
    by_cases hlen : len = 0
    · rw [if_pos hlen, hlen, if_neg (Nat.not_lt_zero _), take_zero, Copied.add_nil, drop_zero]
    · rw [if_neg hlen]
      dsimp only
      obtain ⟨size, hsize⟩ : ∃ size, min len 1024 = size := ⟨_, rfl⟩
      rw [hsize]
      by_cases hshort : input.length < size
      · rw [if_pos hshort, if_pos (by omega)]
      · have hrest : (input.drop size).length = input.length - size := length_drop
        have hsplit : len = size + (len - size) := by omega
        rw [if_neg hshort, ih (by omega), Copied.add_add, drop_drop, ← take_add, ← hsplit, hrest]
        by_cases hfew : input.length < len
        · rw [if_pos hfew, if_pos (by omega)]
        · rw [if_neg hfew, if_neg (by omega)]

lemma copyPieces_eq (len : ℕ) (input : Bytes) (c : Copied) : copyPieces len input c =
    if input.length < len then none else some (c.add (input.take len), input.drop len) :=
  pieceLoop_eq (Nat.lt_succ_self _) c

lemma allLoop_eq (h : input.length ≤ fuel) (c : Copied) : allLoop fuel input c = c.add input := by
  induction fuel generalizing input c with
  | zero =>
    rw [length_eq_zero_iff.mp (Nat.le_zero.mp h)]
    exact c.add_nil.symm
  | succ fuel ih =>
    rw [allLoop]
    split_ifs with hnil
    · rw [hnil, Copied.add_nil]
    · have hpos := length_pos_iff.mpr hnil
      rw [ih (by rw [length_drop]; omega), Copied.add_add, take_append_drop]

/-- The verdict on a body that has been copied. -/
lemma Copied.foundOk_iff (data : Bytes) :
    (Copied.start.add data).foundOk = true ↔ data = okStr := by
  unfold Copied.foundOk
  rw [decide_eq_true_iff]
  exact foldl_okStep okStr data

/-- What is copied in the loop over the chunks is what is in them. -/
lemma chunks_of_chunkLoop {c c' : Copied} (h : chunkLoop fuel input c = some (c', rest)) :
    ∃ body, Chunks input body rest ∧ c' = c.add body := by
  induction fuel generalizing input c with
  | zero => cases h
  | succ fuel ih =>
    rw [chunkLoop] at h
    split at h
    · cases h
    · next line behind hline =>
      split at h
      · cases h
      · next len hsize =>
        rw [copyPieces_eq] at h
        split_ifs at h with hzero hshort
        · cases h
          exact ⟨[], .last hline (hzero ▸ hsize), (Copied.add_nil _).symm⟩
        · dsimp only at h
          split at h
          · cases h
          · next line' more hend =>
            split_ifs at h with hempty
            obtain ⟨body, hbody, rfl⟩ := ih h
            have hlength : (behind.take len).length = len :=
              length_take_of_le (Nat.le_of_not_lt hshort)
            refine ⟨behind.take len ++ body, ?_, Copied.add_add _ _ _⟩
            refine .chunk ?_ (hlength.symm ▸ hsize) ?_ (not_not.mp hempty ▸ hend) hbody
            · rw [take_append_drop]
              exact hline
            · intro hnil
              rw [hnil] at hlength
              exact hzero hlength.symm

/-- The body is decoded, and found to be `OK` if and only if it is. -/
theorem copyBody_spec {ferror : Bool} {hd : Headers} {c : Copied}
    (h : copyBody ferror hd input = some c) :
    Decodes hd input c.out ∧ (c.foundOk = true ↔ c.out = okStr) := by
  unfold copyBody at h
  unfold Decodes
  split_ifs at h ⊢ with hchunked hlength
  · unfold copyChunked at h
    split at h
    · cases h
    · next c' rest hloop =>
      split_ifs at h
      cases h
      obtain ⟨body, hbody, rfl⟩ := chunks_of_chunkLoop hloop
      exact ⟨⟨rest, hbody⟩, Copied.foundOk_iff body⟩
  · rw [copyBytes, copyPieces_eq] at h
    split_ifs at h with hshort
    · cases h
    obtain rfl := Option.some.inj h
    refine ⟨⟨input.drop hd.contentLength.toNat, ?_, ?_⟩, Copied.foundOk_iff _⟩
    · exact (take_append_drop _ _).symm
    · change ((input.take hd.contentLength.toNat).length : ℤ) = _
      rw [length_take_of_le (Nat.le_of_not_lt hshort), Int.toNat_of_nonneg hlength]
  · rw [copyAll, allLoop_eq le_rfl] at h
    split_ifs at h
    cases h
    exact ⟨rfl, Copied.foundOk_iff _⟩

lemma status_of_checkResult {reply : Bytes} (h : checkResult reply = some rest) :
    ∃ line rest cp, readLine reply = some (line, rest) ∧ status line = some cp ∧
      cp.head? = some 50 := by
  unfold checkResult at h
  split at h
  · cases h
  · next line behind hline =>
    split at h
    · cases h
    · next cp hstatus =>
      split_ifs at h with hcp
      exact ⟨line, behind, cp, hline, hstatus, hcp⟩

end AtlasProbe.Httppost
