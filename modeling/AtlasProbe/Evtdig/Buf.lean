import AtlasProbe.Lib.Text
import Mathlib.Algebra.Order.Group.Nat

/-!
# Growing buffers

`struct buf` of the source: bytes in a heap block of `maxsize` bytes, of which the first `offset`
ones have been written out already.
-/

namespace AtlasProbe.Evtdig

/-- `struct buf`; `bytes` are the first `size` bytes of the block. -/
structure Buf where
  offset : ℕ
  bytes : Bytes
  maxsize : ℕ
  offset_le : offset ≤ bytes.length
  size_le : bytes.length ≤ maxsize

/-- `BUF_CHUNK`. -/
def bufChunk : ℕ := 256

/-- The field `size`. -/
def Buf.size (b : Buf) : ℕ := b.bytes.length

/-- The bytes that have not been written out. -/
def Buf.contents (b : Buf) : Bytes := b.bytes.drop b.offset

/-- `buf_init`, and also what `buf_cleanup` leaves. -/
def bufInit : Buf := ⟨0, [], 0, le_rfl, le_rfl⟩

/-- `buf_add`, when there is memory. -/
def bufAdd (b : Buf) (data : Bytes) : Buf :=
  if h : b.size + data.length ≤ b.maxsize then
    { b with
      bytes := b.bytes ++ data
      offset_le := by
        rw [List.length_append]
        exact le_trans b.offset_le (Nat.le_add_right _ _)
      size_le := by
        rw [List.length_append]
        exact h }
  else
    { offset := 0
      bytes := b.bytes.drop b.offset ++ data
      maxsize := b.size - b.offset + data.length + bufChunk
      offset_le := Nat.zero_le _
      size_le := by
        rw [List.length_append, List.length_drop]
        exact Nat.le_add_right _ _ }

/-- `buf_add` appends. -/
lemma contents_bufAdd (b : Buf) (data : Bytes) :
    (bufAdd b data).contents = b.contents ++ data := by
  unfold bufAdd
  split
  · exact List.drop_append_of_le_length b.offset_le
  · rfl

/-- A buffer of which nothing is written out stays so. -/
lemma offset_bufAdd {b : Buf} (h : b.offset = 0) (data : Bytes) :
    (bufAdd b data).offset = 0 := by
  unfold bufAdd
  split
  · exact h
  · rfl

/-- In a buffer of which nothing is written out the bytes are the contents. -/
lemma bytes_bufAdd {b : Buf} (h : b.offset = 0) (data : Bytes) :
    (bufAdd b data).bytes = b.bytes ++ data := by
  have hcontents := contents_bufAdd b data
  rw [Buf.contents, Buf.contents, offset_bufAdd h, h] at hcontents
  exact hcontents

/-- `DEFAULT_LINE_LENGTH`, the size of the static buffer `line`. -/
def lineLength : ℕ := 256

/-- Add a text to the buffer `err` by way of `line`, with a comma if it is not the first one. -/
def addErr (err : Buf) (text : Bytes) : Buf :=
  bufAdd err (snprintf lineLength ((if err.size ≠ 0 then ascii ", " else []) ++ text))

/-- A number of two bytes in network order. -/
def uint16 (b : Bytes) : ℕ := 256 * (b.getD 0 0).toNat + (b.getD 1 0).toNat

end AtlasProbe.Evtdig
