import AtlasProbe.Lib.Bytes
import Mathlib.Algebra.Ring.Nat
import Mathlib.Data.List.GetD
import Mathlib.Data.List.TakeWhile
import Mathlib.Tactic.ByContra

/-!
# Text as bytes

What programs print: ASCII strings (`ascii`), decimal numbers (`natText`, `intText`, `fixedText`),
and lines that `snprintf` cuts off at the size of a buffer; and what they read, with `fgets` and
`strtoul`.
-/

namespace AtlasProbe

open List

/-- The bytes of an ASCII string. -/
def ascii (s : String) : Bytes := s.toList.map fun c => UInt8.ofNat c.toNat

/-- `isspace` -/
def isspace (b : UInt8) : Bool := b == 32 || (9 ≤ b && b ≤ 13)

/-- `isdigit` -/
def isdigit (b : UInt8) : Bool := 48 ≤ b && b ≤ 57

/-- A hexadecimal digit. -/
def isHex (b : UInt8) : Bool := isdigit b || (65 ≤ b && b ≤ 70) || (97 ≤ b && b ≤ 102)

/-- `tolower` -/
def tolower (b : UInt8) : UInt8 := if 65 ≤ b && b ≤ 90 then b + 32 else b

/-! ### Numbers -/

/-- The decimal digits of `n` in front of `text`, cut off after `fuel` digits. -/
def natTextLoop : Nat → Nat → Bytes → Bytes
  | 0, _, text => text
  | fuel + 1, n, text =>
    let text := UInt8.ofNat (48 + n % 10) :: text
    if n / 10 = 0 then text else natTextLoop fuel (n / 10) text

/-- A number in decimal, as `%u` prints it. -/
def natText (n : Nat) : Bytes := natTextLoop (n + 1) n []

variable {text input : Bytes} {size k : Nat} {c : UInt8}

lemma isdigit_ofNat : ∀ d < 10, isdigit (UInt8.ofNat (48 + d)) = true := by decide

lemma eq_zero_of_ofNat : ∀ d < 10, UInt8.ofNat (48 + d) = 48 → d = 0 := by decide

/-- The digits of a number, the first of which is `0` for the number `0` only. -/
lemma natTextLoop_eq {fuel n : Nat} (h : n < fuel) (text : Bytes) :
    ∃ b ds, natTextLoop fuel n text = b :: (ds ++ text) ∧ isdigit b = true ∧
      (∀ d ∈ ds, isdigit d = true) ∧ (b = 48 → n = 0 ∧ ds = []) := by
  induction fuel generalizing n text with
  | zero => cases h
  | succ fuel ih =>
    have hdigit := isdigit_ofNat (n % 10) (Nat.mod_lt n (by decide))
    dsimp only [natTextLoop]
    by_cases hn : n / 10 = 0
    · rw [if_pos hn]
      refine ⟨_, [], rfl, hdigit, nofun, fun hzero => ⟨?_, rfl⟩⟩
      have hlt : n < 10 := by omega
      rw [Nat.mod_eq_of_lt hlt] at hzero
      exact eq_zero_of_ofNat n hlt hzero
    · rw [if_neg hn]
      obtain ⟨b, ds, heq, hb, hds, hzero⟩ := ih (n := n / 10) (by omega)
        (UInt8.ofNat (48 + n % 10) :: text)
      refine ⟨b, ds ++ [UInt8.ofNat (48 + n % 10)], by rw [heq]; simp, hb, ?_, ?_⟩
      · intro d hd
        obtain hd | hd := mem_append.1 hd
        · exact hds d hd
        · rw [mem_singleton.1 hd]
          exact hdigit
      · exact fun hb => absurd (hzero hb).1 hn

lemma isdigit_of_mem_natText (n : Nat) : ∀ b ∈ natText n, isdigit b = true := by
  obtain ⟨b, ds, heq, hb, hds, -⟩ := natTextLoop_eq (Nat.lt_succ_self n) []
  rw [natText, heq, append_nil]
  exact forall_mem_cons.mpr ⟨hb, hds⟩

lemma length_natTextLoop_le {n : Nat} (fuel : Nat) (h : n < 10 ^ (k + 1)) (text : Bytes) :
    (natTextLoop fuel n text).length ≤ text.length + (k + 1) := by
  induction fuel generalizing n k text with
  | zero => exact Nat.le_add_right _ _
  | succ fuel ih =>
    dsimp only [natTextLoop]
    by_cases hn : n / 10 = 0
    · rw [if_pos hn, length_cons]
      omega
    · rw [if_neg hn]
      cases k with
      | zero => omega
      | succ k =>
        have hlt : n / 10 < 10 ^ (k + 1) := Nat.div_lt_of_lt_mul (by rwa [Nat.mul_comm])
        have hlength := ih hlt (UInt8.ofNat (48 + n % 10) :: text)
        rw [length_cons] at hlength
        omega

/-- The number of digits. -/
lemma length_natText_le {n : Nat} (h : n < 10 ^ (k + 1)) : (natText n).length ≤ k + 1 := by
  have hlength := length_natTextLoop_le (n + 1) h []
  rwa [length_nil, Nat.zero_add] at hlength

/-- A number in decimal, as `%d` prints it. -/
def intText : Int → Bytes
  | .ofNat n => natText n
  | .negSucc n => 45 :: natText (n + 1)

lemma length_intText_le {n : Int} (h : n.natAbs < 10 ^ (k + 1)) : (intText n).length ≤ k + 2 := by
  cases n with
  | ofNat n => exact Nat.le_succ_of_le (length_natText_le h)
  | negSucc n => exact Nat.succ_le_succ (length_natText_le h)

/-- The last `k` digits of a number. -/
def digitsText : Nat → Nat → Bytes
  | 0, _ => []
  | k + 1, n => UInt8.ofNat (48 + n / 10 ^ k % 10) :: digitsText k n

lemma length_digitsText (k n : Nat) : (digitsText k n).length = k := by
  induction k with
  | zero => rfl
  | succ k ih => rw [digitsText, length_cons, ih]

lemma isdigit_of_mem_digitsText {k n : Nat} : ∀ d ∈ digitsText k n, isdigit d = true := by
  induction k with
  | zero => exact nofun
  | succ k ih =>
    refine forall_mem_cons.2 ⟨?_, ih⟩
    exact isdigit_ofNat _ (Nat.mod_lt _ (by decide))

/-- A number with `k` digits behind the point, as `%.kf` prints it, given by its sign and its
`10 ^ k`-fold. -/
def fixedText (k : Nat) (negative : Bool) (n : Nat) : Bytes :=
  (if negative then [45] else []) ++ (natText (n / 10 ^ k) ++ 46 :: digitsText k n)

lemma length_fixedText_le {m n : Nat} (negative : Bool) (h : n / 10 ^ k < 10 ^ (m + 1)) :
    (fixedText k negative n).length ≤ m + k + 3 := by
  have hlength := length_natText_le h
  have hsign : (if negative then [45] else [] : Bytes).length ≤ 1 := by
    cases negative <;> decide
  rw [fixedText, length_append, length_append, length_cons, length_digitsText]
  omega

/-- The last `k` hexadecimal digits of a number. -/
def hexText : Nat → Nat → Bytes
  | 0, _ => []
  | k + 1, n =>
    let digit := n / 16 ^ k % 16
    UInt8.ofNat (if digit < 10 then 48 + digit else 87 + digit) :: hexText k n

/-- What `snprintf` leaves of a text in a buffer of `size` bytes, one of which is for the end of the
string. -/
def snprintf (size : Nat) (text : Bytes) : Bytes := text.take (size - 1)

lemma snprintf_of_lt (h : text.length < size) :
    snprintf size text = text := take_of_length_le (by omega)

/-! ### Strings that end at a zero byte -/

/-- A text in which a byte does not occur is what comes in front of that byte. -/
lemma takeWhile_ne (h : c ∉ text) :
    text.takeWhile (· ≠ c) = text ∧ ∀ rest, (text ++ c :: rest).takeWhile (· ≠ c) = text := by
  have hall : ∀ b ∈ text, decide (b ≠ c) = true := fun b hb =>
    decide_eq_true (ne_of_mem_of_not_mem hb h)
  refine ⟨takeWhile_eq_self_iff.mpr hall, fun rest => ?_⟩
  rw [takeWhile_append_of_pos hall, takeWhile_cons_of_neg (by simp), append_nil]

/-- The bytes of a C string, in front of the zero that ends it. -/
structure CString where
  bytes : Bytes
  zero_notMem : 0 ∉ bytes

namespace CString

/-- The string in a buffer that starts with `buffer` and a zero. -/
def ofBuffer (buffer : Bytes) : CString where
  bytes := buffer.takeWhile (· ≠ 0)
  zero_notMem h := by simpa using List.mem_takeWhile_imp h

/-- `strlen` -/
def length (s : CString) : Nat := s.bytes.length

/-- The character at `k`, at most the length: the zero is part of the string. -/
def charAt (s : CString) (k : Nat) : UInt8 := s.bytes.getD k 0

/-- Whether `memcmp` finds the bytes of `t` in `s` from `k` on. -/
def memcmp (s : CString) (k : Nat) (t : CString) : Bool := (s.bytes.drop k).take t.length = t.bytes

variable {k : Nat} {s : CString}

lemma charAt_eq_zero_iff (h : k ≤ s.length) : s.charAt k = 0 ↔ k = s.length := by
  unfold charAt
  constructor
  · intro hzero
    by_contra hne
    have hlt : k < s.bytes.length := Nat.lt_of_le_of_ne h hne
    rw [getD_eq_getElem _ _ hlt] at hzero
    exact s.zero_notMem (hzero ▸ getElem_mem hlt)
  · rintro rfl
    exact getD_eq_default _ _ (Nat.le_refl _)

lemma drop_eq_cons_of_charAt {b : UInt8} (h : s.charAt k = b) (hb : b ≠ 0) :
    s.bytes.drop k = b :: s.bytes.drop (k + 1) := by
  have hlt : k < s.bytes.length := by
    by_contra hge
    exact hb (h ▸ getD_eq_default _ _ (Nat.le_of_not_lt hge))
  rw [charAt, getD_eq_getElem _ _ hlt] at h
  rw [drop_eq_getElem_cons hlt, h]

lemma drop_eq_append_of_memcmp {t : CString} (h : s.memcmp k t) :
    s.bytes.drop k = t.bytes ++ s.bytes.drop (k + t.length) := by
  have htake : (s.bytes.drop k).take t.length = t.bytes := of_decide_eq_true h
  calc s.bytes.drop k
      = (s.bytes.drop k).take t.length ++ (s.bytes.drop k).drop t.length :=
        (take_append_drop _ _).symm
    _ = t.bytes ++ s.bytes.drop (k + t.length) := by rw [htake, drop_drop]

end CString

/-! ### Reading -/

/-- At most `size` bytes of the input, up to the end of the line. -/
def firstLine : Nat → Bytes → Bytes
  | 0, _ => []
  | _ + 1, [] => []
  | size + 1, b :: input => if b = 10 then [10] else b :: firstLine size input

/-- What `fgets` reads into a buffer of `size` bytes, and the rest of the input; nothing at its end.
-/
def fgets (size : Nat) (input : Bytes) : Option (Bytes × Bytes) :=
  if input = [] then none
  else some (firstLine (size - 1) input, input.drop (firstLine (size - 1) input).length)

lemma length_firstLine_le_size (size : Nat) (input : Bytes) :
    (firstLine size input).length ≤ size := by
  induction size generalizing input with
  | zero => exact le_rfl
  | succ size ih =>
    cases input with
    | nil => exact Nat.zero_le _
    | cons b input =>
      rw [firstLine]
      split_ifs
      · exact Nat.succ_le_succ (Nat.zero_le _)
      · exact Nat.succ_le_succ (ih input)

lemma firstLine_ne_nil (size : Nat) (h : input ≠ []) : firstLine (size + 1) input ≠ [] := by
  cases input with
  | nil => exact absurd rfl h
  | cons b input =>
    unfold firstLine
    split_ifs <;> exact cons_ne_nil _ _

/-- With room for a byte, reading makes the input shorter. -/
lemma length_of_fgets {line rest : Bytes} (h : fgets (size + 2) input = some (line, rest)) :
    rest.length < input.length := by
  unfold fgets at h
  by_cases hinput : input = []
  · rw [if_pos hinput] at h
    cases h
  · rw [if_neg hinput] at h
    cases h
    have hline := length_pos_iff.mpr (firstLine_ne_nil size hinput)
    have hpos := length_pos_iff.mpr hinput
    rw [length_drop]
    simp only [Nat.add_one_sub_one] at hline ⊢
    omega

/-- A sign, if there is one, and the text behind it. -/
def signOf : Bytes → Bool × Bytes
  | 45 :: text => (true, text)
  | 43 :: text => (false, text)
  | text => (false, text)

/-- The number that digits say. -/
def decimal (digits : Bytes) : Nat := digits.foldl (fun n b => 10 * n + (b.toNat - 48)) 0

/-- `strtoul` with base ten and 64 bits: the number, and the text that is left.  Without a digit the
text is left as it is. -/
def strtoul (text : Bytes) : Nat × Bytes :=
  let (negative, number) := signOf (text.dropWhile isspace)
  let digits := number.takeWhile isdigit
  if digits = [] then (0, text)
  else
    let value := decimal digits
    let value :=
      if 2 ^ 64 ≤ value then 2 ^ 64 - 1 else if negative then (2 ^ 64 - value) % 2 ^ 64 else value
    (value, number.dropWhile isdigit)

lemma not_isspace_of_isdigit (h : isdigit c = true) : isspace c = false := by
  simp only [isdigit, isspace, Bool.and_eq_true, decide_eq_true_eq, Bool.or_eq_false_iff,
    beq_eq_false_iff_ne, Bool.and_eq_false_iff, decide_eq_false_iff_not, ne_eq,
    UInt8.le_iff_toNat_le, ← UInt8.toNat_inj, UInt8.toNat_ofNat] at h ⊢
  omega

/-- In front of a digit there is neither white space nor a sign, and a large number saturates. -/
lemma strtoul_digits (h : ∀ c ∈ text, isdigit c = true) :
    strtoul text = (if 2 ^ 64 ≤ decimal text then 2 ^ 64 - 1 else decimal text, []) := by
  cases text with
  | nil => rfl
  | cons c text =>
    have hc := h c mem_cons_self
    have hsign : signOf (c :: text) = (false, c :: text) := by
      unfold signOf
      split
      · simp_all [isdigit]
      · simp_all [isdigit]
      · rfl
    unfold strtoul
    rw [dropWhile_cons_of_neg (by simp [not_isspace_of_isdigit hc]), hsign]
    simp [takeWhile_eq_self_iff.mpr h, dropWhile_eq_nil_iff.mpr h, decimal]

/-- What `strlcpy` leaves in a buffer of `size` bytes. -/
def strlcpy (size : Nat) (text : Bytes) : Bytes := text.take (size - 1)

/-- What `strlcat` leaves in a buffer of `size` bytes that holds the string `front`. -/
def strlcat (size : Nat) (front text : Bytes) : Bytes :=
  front ++ text.take (size - 1 - front.length)

lemma strlcpy_of_lt (h : text.length < size) :
    strlcpy size text = text := take_of_length_le (by omega)

lemma strlcat_of_lt {front : Bytes} (h : front.length + text.length < size) :
    strlcat size front text = front ++ text := by
  rw [strlcat, take_of_length_le (by omega)]

end AtlasProbe
