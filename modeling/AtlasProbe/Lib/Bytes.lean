import Mathlib.Data.List.Basic

/-!
# Byte strings

Texts, packets and the contents of files and buffers are lists of bytes (`Bytes`).  `store` writes
into a buffer; what is in front of the place stays (`take_store`), and what has been written can be
read back behind it (`take_store_add`).
-/

namespace AtlasProbe

open List

/-- A string of bytes. -/
abbrev Bytes := List UInt8

/-- Store bytes at an offset. -/
def store (bytes : Bytes) (offset : ℕ) (data : Bytes) : Bytes :=
  bytes.take offset ++ data ++ bytes.drop (offset + data.length)

section Store

variable {bytes data : Bytes} {offset : ℕ} (h : offset ≤ bytes.length)

include h

lemma length_store :
    (store bytes offset data).length = max (offset + data.length) bytes.length := by
  simp only [store, length_append, length_take, length_drop]
  omega

/-- What has been stored, behind what was there before. -/
lemma take_store_add :
    (store bytes offset data).take (offset + data.length) = bytes.take offset ++ data := by
  refine take_left' ?_
  rw [length_append, length_take_of_le h]

/-- What is in front of the offset stays. -/
lemma take_store {k : ℕ} (hk : k ≤ offset) :
    (store bytes offset data).take k = bytes.take k := by
  rw [store, append_assoc, take_append_of_le_length (by rwa [length_take_of_le h]), take_take,
    Nat.min_eq_left hk]

/-- Data that are stored one behind the other are stored at once. -/
lemma store_store (more : Bytes) :
    store (store bytes offset data) (offset + data.length) more =
      store bytes offset (data ++ more) := by
  have hdrop : (store bytes offset data).drop (offset + data.length + more.length) =
      bytes.drop (offset + (data ++ more).length) := by
    rw [store, ← drop_drop, drop_left' (by rw [length_append, length_take_of_le h]), drop_drop,
      length_append, Nat.add_assoc]
  rw [store, take_store_add h, hdrop, store, append_assoc (bytes.take offset)]

end Store

end AtlasProbe
