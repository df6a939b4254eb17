import AtlasProbe.Lib.Text
import Mathlib.Logic.Basic

/-!
# The grammar of JSON

The grammar of RFC 8259 over bytes.  A nonterminal is a relation between a text and what is left of
it: `Gram .value t r` says that `t` is a value followed by `r`.  Bytes of `128` and more are not
checked to be UTF-8; a string may have any of them.
-/

namespace AtlasProbe.Json

/-! ### Bytes -/

/-- A blank, a tab or the end of a line. -/
def isWs (b : UInt8) : Bool := b == 32 || b == 9 || b == 10 || b == 13

/-- A byte that stands for itself in a string: neither a control character nor a quote nor a
backslash. -/
def isPlain (b : UInt8) : Bool := 32 ≤ b && b != 34 && b != 92

/-- A byte that may follow a backslash, other than `u`. -/
def isEscape (b : UInt8) : Bool :=
  b == 34 || b == 92 || b == 47 || b == 98 || b == 102 || b == 110 || b == 114 || b == 116

/-- The beginning of an exponent. -/
def isExp (b : UInt8) : Bool := b == 69 || b == 101

/-- The sign of an exponent. -/
def isSign (b : UInt8) : Bool := b == 43 || b == 45

/-! ### Tokens -/

/-- Any number of bytes in `p`. -/
inductive Many (p : UInt8 → Bool) : Bytes → Bytes → Prop
  | nil (t : Bytes) : Many p t t
  | cons {b : UInt8} {t r : Bytes} : p b = true → Many p t r → Many p (b :: t) r

/-- White space. -/
abbrev Ws : Bytes → Bytes → Prop := Many isWs

/-- The characters of a string, and the quote at its end. -/
inductive Chars : Bytes → Bytes → Prop
  | close (r : Bytes) : Chars (34 :: r) r
  | plain {b : UInt8} {t r : Bytes} : isPlain b = true → Chars t r → Chars (b :: t) r
  | escape {b : UInt8} {t r : Bytes} : isEscape b = true → Chars t r → Chars (92 :: b :: t) r
  | unicode {a b c d : UInt8} {t r : Bytes} : isHex a = true → isHex b = true →
      isHex c = true → isHex d = true → Chars t r → Chars (92 :: 117 :: a :: b :: c :: d :: t) r

/-- One digit or more. -/
inductive Digits : Bytes → Bytes → Prop
  | intro {b : UInt8} {t r : Bytes} : isdigit b = true → Many isdigit t r → Digits (b :: t) r

/-- An exponent, or none. -/
inductive Exponent : Bytes → Bytes → Prop
  | none (t : Bytes) : Exponent t t
  | unsigned {e : UInt8} {t r : Bytes} : isExp e = true → Digits t r → Exponent (e :: t) r
  | signed {e s : UInt8} {t r : Bytes} : isExp e = true → isSign s = true → Digits t r →
      Exponent (e :: s :: t) r

/-- A fraction, or none, and an exponent, or none. -/
inductive Fraction : Bytes → Bytes → Prop
  | none {t r : Bytes} : Exponent t r → Fraction t r
  | some {t s r : Bytes} : Digits t s → Exponent s r → Fraction (46 :: t) r

/-- A number without a sign. -/
inductive Unsigned : Bytes → Bytes → Prop
  | zero {t r : Bytes} : Fraction t r → Unsigned (48 :: t) r
  | digits {b : UInt8} {t s r : Bytes} : isdigit b = true → b ≠ 48 → Many isdigit t s →
      Fraction s r → Unsigned (b :: t) r

/-- A number. -/
inductive Number : Bytes → Bytes → Prop
  | pos {t r : Bytes} : Unsigned t r → Number t r
  | neg {t r : Bytes} : Unsigned t r → Number (45 :: t) r

/-- `true`, `false` and `null`. -/
def literals : List Bytes :=
  [[116, 114, 117, 101], [102, 97, 108, 115, 101], [110, 117, 108, 108]]

/-! ### Values -/

/-- The nonterminals for values and their parts. -/
inductive Kind where
  | value
  | element
  | elements
  | member
  | members

/-- Values, with and without white space around them, and what stands between the brackets of
arrays and objects that are not empty. -/
inductive Gram : Kind → Bytes → Bytes → Prop
  | string {t r : Bytes} : Chars t r → Gram .value (34 :: t) r
  | number {t r : Bytes} : Number t r → Gram .value t r
  | literal {w : Bytes} (r : Bytes) : w ∈ literals → Gram .value (w ++ r) r
  | emptyArray {t r : Bytes} : Ws t (93 :: r) → Gram .value (91 :: t) r
  | array {t r : Bytes} : Gram .elements t (93 :: r) → Gram .value (91 :: t) r
  | emptyObject {t r : Bytes} : Ws t (125 :: r) → Gram .value (123 :: t) r
  | object {t r : Bytes} : Gram .members t (125 :: r) → Gram .value (123 :: t) r
  | element {t a b r : Bytes} : Ws t a → Gram .value a b → Ws b r → Gram .element t r
  | lastElement {t r : Bytes} : Gram .element t r → Gram .elements t r
  | elements {t c r : Bytes} : Gram .element t (44 :: c) → Gram .elements c r →
      Gram .elements t r
  | member {t a b c r : Bytes} : Ws t (34 :: a) → Chars a b → Ws b (58 :: c) →
      Gram .element c r → Gram .member t r
  | lastMember {t r : Bytes} : Gram .member t r → Gram .members t r
  | members {t c r : Bytes} : Gram .member t (44 :: c) → Gram .members c r →
      Gram .members t r

/-- A JSON text. -/
def IsJson (t : Bytes) : Prop := Gram .element t []

/-- A JSON text that is an object. -/
def IsObject (t : Bytes) : Prop := IsJson t ∧ ∃ r, Ws t (123 :: r)

end AtlasProbe.Json
