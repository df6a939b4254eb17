import AtlasProbe.Lib.Bytes
import Mathlib.Data.Nat.Basic
import Mathlib.Data.List.Basic

/-!
# Fields of packets

A buffer is a function from indices to bytes, so that what is behind the end of a packet can be read
as well (`u8`, `u16`, `u32`).  Numbers in packets are in network order.  `Holds` says that a buffer
has given bytes at an index.
-/

namespace AtlasProbe.Wire

open List

/-! ### Reading -/

section Fields

variable (buf : ℕ → UInt8) (i : ℕ)

/-- A field of one byte. -/
def u8 : ℕ := (buf i).toNat

/-- A field of two bytes. -/
def u16 : ℕ := 256 * u8 buf i + u8 buf (i + 1)

/-- A field of four bytes. -/
def u32 : ℕ := 65536 * u16 buf i + u16 buf (i + 2)

lemma u8_lt : u8 buf i < 256 := (buf i).toNat_lt

lemma u16_lt : u16 buf i < 65536 := by
  have hhigh := u8_lt buf i
  have hlow := u8_lt buf (i + 1)
  unfold u16
  omega

lemma u32_lt : u32 buf i < 4294967296 := by
  have hhigh := u16_lt buf i
  have hlow := u16_lt buf (i + 2)
  unfold u32
  omega

end Fields

/-- The `n` bytes of a buffer from `i` on. -/
def bytesAt (buf : ℕ → UInt8) (i n : ℕ) : Bytes := (List.range n).map fun k => buf (i + k)

@[simp]
lemma length_bytesAt (buf : ℕ → UInt8) (i n : ℕ) : (bytesAt buf i n).length = n := by
  rw [bytesAt, length_map, length_range]

/-! ### Writing -/

/-- The last 16 bits of a number, in network order. -/
def be16 (n : ℕ) : Bytes := [UInt8.ofNat (n / 256), UInt8.ofNat n]

/-- The last 32 bits of a number, in network order. -/
def be32 (n : ℕ) : Bytes := be16 (n / 65536) ++ be16 n

@[simp]
lemma length_be16 (n : ℕ) : (be16 n).length = 2 := rfl

@[simp]
lemma length_be32 (n : ℕ) : (be32 n).length = 4 := rfl

/-! ### What a buffer holds -/

/-- The buffer has the given bytes from `i` on. -/
def Holds (buf : ℕ → UInt8) : ℕ → Bytes → Prop
  | _, [] => True
  | i, b :: bytes => buf i = b ∧ Holds buf (i + 1) bytes

section Holds

variable {buf : ℕ → UInt8} {i k n : ℕ} {bytes more : Bytes}

@[simp]
lemma holds_nil : Holds buf i [] := trivial

lemma holds_append :
    Holds buf i (bytes ++ more) ↔ Holds buf i bytes ∧ Holds buf (i + bytes.length) more := by
  induction bytes generalizing i with
  | nil => simp
  | cons b bytes ih =>
    rw [cons_append, Holds, Holds, ih, and_assoc, length_cons, Nat.add_assoc, Nat.add_comm 1]

lemma Holds.left (h : Holds buf i (bytes ++ more)) : Holds buf i bytes := (holds_append.mp h).1

lemma Holds.right (h : Holds buf i (bytes ++ more)) (hk : k = i + bytes.length) :
    Holds buf k more :=
  hk ▸ (holds_append.mp h).2

lemma Holds.u8 {b : UInt8} (h : Holds buf i (b :: bytes)) : u8 buf i = b.toNat :=
  congrArg UInt8.toNat h.1

lemma Holds.u16 (h : Holds buf i (be16 n)) : u16 buf i = n % 65536 := by
  obtain ⟨hhigh, hlow, -⟩ := h
  rw [Wire.u16, Wire.u8, Wire.u8, hhigh, hlow, UInt8.toNat_ofNat', UInt8.toNat_ofNat']
  omega

lemma Holds.u32 (h : Holds buf i (be32 n)) : u32 buf i = n % 4294967296 := by
  have hlow : Holds buf (i + 2) (be16 n) := h.right rfl
  rw [Wire.u32, h.left.u16, hlow.u16]
  omega

/-- The bytes of a buffer are those that it holds. -/
lemma Holds.get (h : Holds buf i bytes) (hk : k < bytes.length) :
    buf (i + k) = bytes.get ⟨k, hk⟩ := by
  induction bytes generalizing i k with
  | nil => cases hk
  | cons b bytes ih =>
    cases k with
    | zero => exact h.1
    | succ k =>
      have hnext := ih h.2 (Nat.lt_of_succ_lt_succ hk)
      rwa [Nat.add_assoc, Nat.add_comm 1 k] at hnext

lemma Holds.bytesAt (h : Holds buf i bytes) : bytesAt buf i bytes.length = bytes := by
  refine ext_get (length_bytesAt buf i bytes.length) fun k hk hk' => ?_
  unfold Wire.bytesAt
  rw [get_eq_getElem, getElem_map, getElem_range]
  exact h.get hk'

lemma Holds.getD (h : Holds buf i bytes) (hk : k < bytes.length) :
    buf (i + k) = bytes.getD k 0 := by
  rw [h.get hk, getD_eq_getElem?_getD, getElem?_eq_getElem hk]
  rfl

/-- A list as a buffer holds its parts. -/
lemma holds_getD (before bytes : Bytes) :
    Holds (fun k => (before ++ bytes).getD k 0) before.length bytes := by
  induction bytes generalizing before with
  | nil => exact holds_nil
  | cons b bytes ih =>
    refine ⟨by simp, ?_⟩
    have hnext := ih (before ++ [b])
    rwa [append_assoc, length_append] at hnext

end Holds

end AtlasProbe.Wire
