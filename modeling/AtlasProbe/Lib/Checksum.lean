import AtlasProbe.Lib.Bytes
import Mathlib.Algebra.Ring.Nat
import Mathlib.Data.List.Basic

/-!
# The Internet checksum

The checksum of RFC 1071: the words of 16 bits are added up, the carries are added back, and the
result is complemented (`cksum`).  A word of the packet that is free can be chosen such that the
packet has a given checksum (`fudge`, `complement_fudge`).  A host may add up the words in its own
order (`hostCksum_eq`).
-/

namespace AtlasProbe.Checksum

/-- The sum of the words; a byte that is left over is the first half of a word. -/
def wordSum : Bytes → ℕ
  | a :: b :: bytes => 256 * a.toNat + b.toNat + wordSum bytes
  | [a] => 256 * a.toNat
  | [] => 0

/-- Add the carry of a sum of two words back. -/
def endAround (sum : ℕ) : ℕ := (sum + sum / 65536) % 65536

/-- Add the carries back, twice. -/
def addCarries (n : ℕ) : ℕ := endAround (n / 65536 + n % 65536)

/-- The checksum for a sum of words. -/
def complement (n : ℕ) : ℕ := 65535 - addCarries n

/-- The checksum of a packet. -/
def cksum (bytes : Bytes) : ℕ := complement (wordSum bytes)

section Carries

variable {n m : ℕ}

lemma endAround_cases (h : n ≤ 131070) :
    n < 65536 ∧ endAround n = n ∨ 65536 ≤ n ∧ endAround n + 65535 = n := by
  have hcarry : n / 65536 = 0 ∨ n / 65536 = 1 := by omega
  unfold endAround
  omega

lemma addCarries_le (n : ℕ) : addCarries n ≤ 65535 :=
  Nat.le_of_lt_succ (Nat.mod_lt _ (by decide))

lemma addCarries_cases (h : n < 4294967296) :
    addCarries n = n / 65536 + n % 65536 ∨
      65536 ≤ n / 65536 + n % 65536 ∧ addCarries n + 65535 = n / 65536 + n % 65536 := by
  have hsum : n / 65536 + n % 65536 ≤ 131070 := by omega
  rcases endAround_cases hsum with ⟨-, heq⟩ | hcarry
  · exact .inl heq
  · exact .inr hcarry

/-- Adding the carries keeps the sum modulo `65535`. -/
lemma addCarries_mod (h : n < 4294967296) : addCarries n % 65535 = n % 65535 := by
  have hcases := addCarries_cases h
  omega

lemma addCarries_eq_zero_iff (h : n < 4294967296) : addCarries n = 0 ↔ n = 0 := by
  have hcases := addCarries_cases h
  omega

/-- A sum that is known modulo `65535` and is not zero has one result. -/
lemma addCarries_eq (h : n < 4294967296) (hn : n ≠ 0) (hm : m ≤ 65535) (hpos : m ≠ 0)
    (hmod : n % 65535 = m % 65535) : addCarries n = m := by
  have hle := addCarries_le n
  have hne : addCarries n ≠ 0 := fun hzero => hn ((addCarries_eq_zero_iff h).mp hzero)
  have heq := (addCarries_mod h).trans hmod
  omega

end Carries

/-- The word that makes `val` the checksum of a packet whose words add up to `n` without it. -/
def fudge (n val : ℕ) : ℕ := endAround (complement n + (65535 - val))

lemma fudge_lt (n val : ℕ) : fudge n val < 65536 := Nat.mod_lt _ (by decide)

lemma fudge_mod {n val : ℕ} (h : n < 4294901760) (hval : val ≤ 65535) :
    (n + fudge n val) % 65535 = (65535 - val) % 65535 := by
  have hle := addCarries_le n
  have hmod := addCarries_mod (Nat.lt_trans h (by decide))
  have hsum : 65535 - addCarries n + (65535 - val) ≤ 131070 := by omega
  have hword := endAround_cases hsum
  unfold fudge complement
  omega

/-- With the word, the packet has the checksum.  Zero is the checksum unless all words are zero. -/
lemma complement_fudge {n val : ℕ} (h : n < 4294901760) (hval : val < 65535)
    (hpos : 0 < n ∨ 0 < val) : complement (n + fudge n val) = val := by
  have hmod := fudge_mod h (Nat.le_of_lt hval)
  have hlt := fudge_lt n val
  have hne : n + fudge n val ≠ 0 := by
    intro hzero
    rw [hzero] at hmod
    omega
  have hsum := addCarries_eq (m := 65535 - val) (by omega) hne (by omega) (by omega) hmod
  rw [complement, hsum]
  omega

/-! ### In the byte order of the machine -/

/-- The sum of the words as a little-endian machine reads them. -/
def hostSum : Bytes → ℕ
  | a :: b :: bytes => a.toNat + 256 * b.toNat + hostSum bytes
  | [a] => a.toNat
  | [] => 0

/-- Swap the bytes of a word. -/
def ntohs (n : ℕ) : ℕ := 256 * (n % 256) + n / 256

/-- The sums of the words of `len` bytes in the two byte orders. -/
structure Swapped (len n m : ℕ) : Prop where
  mod : 256 * n % 65535 = m % 65535
  le : n ≤ 256 * m
  ge : m ≤ 256 * n
  hostSum_le : n ≤ 65535 * len
  wordSum_le : m ≤ 65535 * len

lemma Swapped.add {len n m len' n' m' : ℕ} (h : Swapped len n m) (h' : Swapped len' n' m') :
    Swapped (len + len') (n + n') (m + m') := by
  obtain ⟨hmod, hle, hge, hhost, hword⟩ := h
  obtain ⟨hmod', hle', hge', hhost', hword'⟩ := h'
  constructor <;> omega

lemma swapped_hostSum (bytes : Bytes) :
    Swapped bytes.length (hostSum bytes) (wordSum bytes) := by
  induction bytes using wordSum.induct with
  | case1 a b bytes ih =>
    have ha := a.toNat_lt
    have hb := b.toNat_lt
    obtain ⟨hmod, hle, hge, hhost, hword⟩ := ih
    rw [hostSum, wordSum, List.length_cons, List.length_cons]
    constructor <;> omega
  | case2 a =>
    have ha := a.toNat_lt
    rw [hostSum, wordSum, List.length_singleton]
    constructor <;> omega
  | case3 => exact ⟨rfl, Nat.le_refl _, Nat.le_refl _, Nat.le_refl _, Nat.le_refl _⟩

lemma wordSum_le (bytes : Bytes) : wordSum bytes ≤ 65535 * bytes.length :=
  (swapped_hostSum bytes).wordSum_le

lemma swapped_parts (parts : List Bytes) :
    Swapped parts.flatten.length (parts.map hostSum).sum (parts.map wordSum).sum := by
  induction parts with
  | nil => exact swapped_hostSum []
  | cons bytes parts ih =>
    rw [List.flatten_cons, List.length_append]
    exact (swapped_hostSum bytes).add ih

/-- The checksum of a packet in several parts, as a little-endian machine computes it. -/
def hostCksum (parts : List Bytes) : ℕ := ntohs (complement (parts.map hostSum).sum)

/-- The byte order of the machine makes no difference. -/
lemma hostCksum_eq {parts : List Bytes} (h : parts.flatten.length < 65536) :
    hostCksum parts = complement (parts.map wordSum).sum := by
  obtain ⟨hmod, hle, hge, hhost, hword⟩ := swapped_parts parts
  unfold hostCksum
  generalize (parts.map hostSum).sum = n at *
  generalize (parts.map wordSum).sum = m at *
  have hn : n < 4294967296 := by omega
  have hm : m < 4294967296 := by omega
  have hcarry := addCarries_mod hn
  have hcarry' := addCarries_mod hm
  have hzero := addCarries_eq_zero_iff hn
  have hzero' := addCarries_eq_zero_iff hm
  have hbound := addCarries_le n
  have hbound' := addCarries_le m
  unfold ntohs complement
  omega

end AtlasProbe.Checksum
