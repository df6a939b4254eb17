import AtlasProbe.Http2.HuffmanTable
import AtlasProbe.Lib.PrefixCode

/-!
# The rows of `huffman_encode` form a complete prefix code

Ordered by length, the code words of the table follow each other without a gap: read as intervals
of 32-bit numbers they tile everything below the last four numbers, which belong to the EOS code.
One pass over the table checks this, and it gives both directions at once: no code word is a prefix
of another one (`word_prefix_unique`), and every 32-bit string that does not start with EOS starts
with a code word (`tiles_rowsByLength` with `mem_interval_iff`).  `huffmanCode` is the code as a
`PrefixCode` of bytes.
-/

namespace AtlasProbe.Http2

open List

/-- The first 32-bit number that starts with the row's code word. -/
def HuffmanEncode.lo (row : HuffmanEncode) : ℕ :=
  (row.encoding % 2 ^ row.bits) <<< (32 - row.bits)

/-- How many 32-bit numbers start with the row's code word. -/
def HuffmanEncode.width (row : HuffmanEncode) : ℕ := 2 ^ (32 - row.bits)

open HuffmanEncode (lo width word value)

/-- The rows ordered by the length of their code word. -/
def rowsByLength : List HuffmanEncode :=
  (List.range 31).flatMap fun l => huffmanEncode.filter fun row => row.bits = l

/-- Code words have between 5 and 30 bits. -/
lemma bits_mem_range : ∀ row ∈ huffmanEncode, 5 ≤ row.bits ∧ row.bits ≤ 30 := by
  decide +kernel

/-- The value of a row is its index. -/
lemma map_value_huffmanEncode : huffmanEncode.map value = List.range 256 := by
  decide +kernel

/-- The code words tile the 32-bit numbers up to the EOS code. -/
lemma tiles_rowsByLength :
    Tiles lo width rowsByLength 0 (2 ^ 32 - 4) := by
  decide +kernel

variable {row row' : HuffmanEncode} {x : ℕ}

/-- Every row occurs in the ordered list. -/
lemma mem_rowsByLength (h : row ∈ huffmanEncode) : row ∈ rowsByLength := by
  have hbits := (bits_mem_range row h).2
  simp only [rowsByLength, mem_flatMap, mem_range, mem_filter]
  exact ⟨row.bits, by omega, h, by simp⟩

/-- The ordered list has no other rows. -/
lemma mem_of_mem_rowsByLength (h : row ∈ rowsByLength) : row ∈ huffmanEncode := by
  simp only [rowsByLength, mem_flatMap, mem_filter] at h
  obtain ⟨_, _, hmem, _⟩ := h
  exact hmem

/-- A 32-bit number lies in a row's interval exactly when its bits start with the code word. -/
lemma mem_interval_iff (hb : row.bits ≤ 32) (hx : x < 2 ^ 32) :
    (row.lo ≤ x ∧ x < row.lo + row.width) ↔ row.word <+: natBits 32 x :=
  (natBits_prefix_natBits_iff hb hx).symm

/-- Two code words that start the same 32-bit string are the same. -/
lemma row_eq_of_prefix (h : row ∈ huffmanEncode) (h' : row' ∈ huffmanEncode) (hx : x < 2 ^ 32)
    (hw : row.word <+: natBits 32 x) (hw' : row'.word <+: natBits 32 x) : row = row' := by
  have hb : row.bits ≤ 32 := by have := bits_mem_range row h; omega
  have hb' : row'.bits ≤ 32 := by have := bits_mem_range row' h'; omega
  exact tiles_rowsByLength.eq_of_mem (mem_rowsByLength h) (mem_rowsByLength h')
    ((mem_interval_iff hb hx).mpr hw) ((mem_interval_iff hb' hx).mpr hw')

/-- A code word that is a prefix of a code word belongs to the same row. -/
lemma word_prefix_unique (h : row ∈ huffmanEncode) (h' : row' ∈ huffmanEncode)
    (hw : row.word <+: row'.word) : row = row' := by
  have hb' : row'.bits ≤ 32 := by have := bits_mem_range row' h'; omega
  have hpos : 0 < row'.width := Nat.two_pow_pos _
  have hlt : row'.lo < 2 ^ 32 := by
    have hle : row'.lo + row'.width ≤ 2 ^ 32 := mod_shiftLeft_add_le hb' row'.encoding
    omega
  have hself : row'.word <+: natBits 32 row'.lo := by
    rw [← mem_interval_iff hb' hlt]
    exact ⟨le_rfl, Nat.lt_add_of_pos_right hpos⟩
  exact row_eq_of_prefix h h' hlt (hw.trans hself) hself

/-! ### The code of a byte -/

/-- The table has a row for every byte. -/
lemma length_huffmanEncode : huffmanEncode.length = 256 := by
  have h := congrArg List.length map_value_huffmanEncode
  simpa using h

/-- The row of a byte. -/
def encodeRow (c : UInt8) : HuffmanEncode :=
  huffmanEncode.get ⟨c.toNat, by rw [length_huffmanEncode]; exact c.toNat_lt⟩

/-- The row of a byte is in the table. -/
lemma encodeRow_mem (c : UInt8) : encodeRow c ∈ huffmanEncode := get_mem _ _

/-- The row of a byte has that byte as its value. -/
lemma value_encodeRow (c : UInt8) : (encodeRow c).value = c.toNat := by
  have hlen : c.toNat < (huffmanEncode.map value).length := by
    rw [length_map, length_huffmanEncode]
    exact c.toNat_lt
  have h : (huffmanEncode.map value).get ⟨c.toNat, hlen⟩ = (encodeRow c).value := by
    simp [encodeRow]
  rw [← h]
  simp [map_value_huffmanEncode]

/-- Every row is the row of its value. -/
lemma exists_encodeRow (h : row ∈ huffmanEncode) : ∃ c : UInt8, encodeRow c = row := by
  obtain ⟨i, hi⟩ := get_of_mem h
  have hlt : i.1 < 256 := lt_of_lt_of_eq i.2 length_huffmanEncode
  refine ⟨UInt8.ofNat i.1, ?_⟩
  rw [← hi]
  simp [encodeRow, Nat.mod_eq_of_lt hlt]

/-- The HPACK Huffman code as the source's table has it. -/
def huffmanCode : PrefixCode UInt8 where
  code c := (encodeRow c).word
  code_ne_nil c h := by
    have hlen := congrArg List.length h
    have hbits := bits_mem_range _ (encodeRow_mem c)
    simp only [word, length_natBits, List.length_nil] at hlen
    omega
  prefixFree a b h := by
    have hrow := word_prefix_unique (encodeRow_mem a) (encodeRow_mem b) h
    have hval := congrArg value hrow
    rw [value_encodeRow, value_encodeRow] at hval
    exact UInt8.toNat_inj.mp hval

@[simp]
lemma length_code (c : UInt8) : (huffmanCode.code c).length = (encodeRow c).bits := by
  simp [huffmanCode, word]

end AtlasProbe.Http2
