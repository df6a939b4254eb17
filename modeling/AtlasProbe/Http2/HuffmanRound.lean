import AtlasProbe.Http2.HuffmanDecode

/-!
# One round of the Huffman decoder

The unread input of the decoder is a bit string (`BitBuf.rem`), and a round of the loop is described
on it: it strips the code word of a symbol, or stops at fewer than eight one-bits, or rejects a
string that neither starts with a code word nor is such a padding (`huffmanRound_ok`).  The only
exception is the read past `huffman_decode_fffffe`, which happens when the 24 bits `fffffe` are
followed by fewer than four bits.
-/

namespace AtlasProbe.Http2

open List BitBuf

/-! ### The bit buffer as a bit string -/

/-- The unread bits. -/
def BitBuf.rem (r : BitBuf) : List Bool := natBits r.bitslen r.bits ++ byteBits r.inp

lemma BitBuf.rem_start (buf : Bytes) : (start buf).rem = byteBits buf := rfl

variable {w i plen pre : ℕ} {r : BitBuf} {u t : List Bool}

/-- Refilling does not change the unread bits. -/
lemma BitBuf.rem_refill (hw : w ≤ 8) (r : BitBuf) : (r.refill w).rem = r.rem := by
  unfold refill
  split
  · rfl
  · next b inp hinp =>
    split
    · next hlt =>
      have hbits : natBits (r.bitslen + 8) ((r.bits <<< 8) % 2 ^ 32 ||| b.toNat) =
          natBits (r.bitslen + 8) (r.bits <<< 8 ||| b.toNat) := by
        apply natBits_congr
        intro i hi
        rw [Nat.testBit_or, Nat.testBit_mod_two_pow]
        have hi32 : i < 32 := by omega
        simp [hi32]
      simp only [rem, hinp, byteBits_cons]
      rw [hbits, natBits_shiftLeft_or r.bits b.toNat_lt, append_assoc]
    · rfl

/-- After refilling, `w` bits are available or the input has ended. -/
lemma BitBuf.refill_full (hw : w ≤ 8) (r : BitBuf) :
    w ≤ (r.refill w).bitslen ∨ (r.refill w).inp = [] := by
  unfold refill
  split
  · next hinp => exact .inr hinp
  · split
    · exact .inl (by simp only; omega)
    · exact .inl (by omega)

/-- A refill that leaves fewer than `w` bits did nothing. -/
lemma BitBuf.refill_eq_self (hw : w ≤ 8) (h : (r.refill w).bitslen < w) : r.refill w = r := by
  unfold refill at h ⊢
  split
  · rfl
  · next b inp hinp =>
    rw [hinp] at h
    split
    · next hlt =>
      simp only [if_pos hlt] at h
      omega
    · rfl

/-- The buffer never holds more than 15 bits. -/
lemma BitBuf.refill_bitslen_le (hw : w ≤ 8) (h : r.bitslen ≤ 15) : (r.refill w).bitslen ≤ 15 := by
  unfold refill
  split
  · exact h
  · split
    · simp only
      omega
    · exact h

@[simp]
lemma BitBuf.skip_bitslen (n : ℕ) (r : BitBuf) : (r.skip n).bitslen = r.bitslen - n := rfl

@[simp]
lemma BitBuf.skip_inp (n : ℕ) (r : BitBuf) : (r.skip n).inp = r.inp := rfl

/-- The unread bits split at the bits that `skip` drops. -/
lemma BitBuf.rem_eq_append_skip {n : ℕ} (h : n ≤ r.bitslen) :
    r.rem = natBits n (r.bits >>> (r.bitslen - n)) ++ (r.skip n).rem := by
  have hsplit := natBits_add n (r.bitslen - n) r.bits
  rw [Nat.add_sub_cancel' h] at hsplit
  simp only [rem, skip, hsplit, append_assoc]

/-- If the unread bits start with a string that fits the buffer, `skip` drops that string. -/
lemma BitBuf.rem_skip_of_eq_append (hu : u.length ≤ r.bitslen) (h : r.rem = u ++ t) :
    (r.skip u.length).rem = t := by
  rw [rem_eq_append_skip hu] at h
  exact (append_inj h (by simp)).2

/-- At the end of the input the unread bits are those of the buffer. -/
lemma BitBuf.length_rem_of_inp (h : r.inp = []) : r.rem.length = r.bitslen := by
  simp [rem, h]

/-- At the end of the input `skip` drops bits from the unread bits. -/
lemma BitBuf.rem_skip_of_inp (n : ℕ) (h : r.inp = []) : (r.skip n).rem = r.rem.drop n := by
  by_cases hle : n ≤ r.bitslen
  · rw [rem_eq_append_skip hle, drop_left' (length_natBits _ _)]
  · have hlen : (r.skip n).rem.length = 0 := by
      rw [length_rem_of_inp (by simpa using h), skip_bitslen]
      omega
    rw [drop_eq_nil_of_le (by rw [length_rem_of_inp h]; omega), eq_nil_of_length_eq_zero hlen]

/-- A looked-up index of `w` bits agrees with the unread bits: it is a prefix of them if enough bits
are available, else it extends them. -/
def Peek (r : BitBuf) (w i : ℕ) : Prop :=
  (w ≤ r.bitslen ∧ natBits w i <+: r.rem) ∨
    (r.bitslen < w ∧ r.rem.length = r.bitslen ∧
      natBits w i = r.rem ++ List.replicate (w - r.bitslen) false)

/-- The byte the decoder looks up. -/
lemma BitBuf.peek_byte (h : 8 ≤ r.bitslen ∨ r.inp = []) : Peek r 8 r.byte := by
  unfold byte
  by_cases hlt : r.bitslen < 8
  · have hinp : r.inp = [] := h.resolve_left (by omega)
    refine .inr ⟨hlt, length_rem_of_inp hinp, ?_⟩
    rw [if_pos hlt, show (256 : ℕ) = 2 ^ 8 from rfl, natBits_mod_two_pow le_rfl]
    have hshift := natBits_shiftLeft r.bitslen (8 - r.bitslen) r.bits
    rw [Nat.add_sub_cancel' hlt.le] at hshift
    simp [rem, hinp, hshift]
  · have hle : 8 ≤ r.bitslen := by omega
    refine .inl ⟨hle, ?_⟩
    rw [if_neg hlt, show (256 : ℕ) = 2 ^ 8 from rfl, natBits_mod_two_pow le_rfl,
      rem_eq_append_skip hle]
    exact prefix_append _ _

/-- The nibble the decoder looks up, as long as four bits are available. -/
lemma BitBuf.peek_nibble (h : 4 ≤ r.bitslen) : Peek r 4 r.nibble := by
  unfold nibble
  refine .inl ⟨h, ?_⟩
  rw [if_neg (by omega), show (16 : ℕ) = 2 ^ 4 from rfl, natBits_mod_two_pow le_rfl,
    rem_eq_append_skip h]
  exact prefix_append _ _

lemma BitBuf.byte_lt (r : BitBuf) : r.byte < 256 := by
  unfold byte
  split <;> exact Nat.mod_lt _ (by decide)

/-- A padded byte ends in a zero, so `ff` is only found when eight bits are available. -/
lemma BitBuf.eight_le_of_byte (h : r.byte = 0xff) : 8 ≤ r.bitslen := by
  by_contra hlt
  unfold byte at h
  rw [if_pos (by omega)] at h
  have hbit : (r.bits <<< (8 - r.bitslen) % 256).testBit 0 = false := by
    rw [show (256 : ℕ) = 2 ^ 8 from rfl, Nat.testBit_mod_two_pow, Nat.testBit_shiftLeft]
    have : ¬ 8 - r.bitslen ≤ 0 := by omega
    simp [this]
  rw [h] at hbit
  exact absurd hbit (by decide)

/-! ### Which code words are longer than a table's index -/

/-- The first `n` bits of the code words that are longer than `n` bits. -/
def longPrefixes (n : ℕ) : List ℕ :=
  (huffmanEncode.filter fun row => n < row.bits).map fun row =>
    (row.encoding >>> (row.bits - n)) % 2 ^ n

lemma longPrefixes_8 : ∀ x ∈ longPrefixes 8, x = 0xfe ∨ x = 0xff := by decide +kernel

lemma longPrefixes_16 : ∀ x ∈ longPrefixes 16, x = 0xfffe ∨ x = 0xffff := by decide +kernel

lemma longPrefixes_24 : ∀ x ∈ longPrefixes 24, 0xfffff0 ≤ x := by decide +kernel

lemma longPrefixes_28 : ∀ x ∈ longPrefixes 28, x = 0xfffffff := by decide +kernel

/-- A code word comparable with an index has at most as many bits as the index word, unless that
one is the start of a longer code word. -/
lemma bits_le_of_comparable (hpre : pre < 2 ^ plen) (hi : i < 2 ^ w) {c : UInt8}
    (hcmp : Comparable (huffmanCode.code c) (indexWord w plen pre i))
    (hlong : pre * 2 ^ w + i ∉ longPrefixes (plen + w)) : (encodeRow c).bits ≤ plen + w := by
  by_contra hlt
  refine hlong ?_
  simp only [longPrefixes, mem_map, mem_filter, decide_eq_true_eq]
  refine ⟨encodeRow c, ⟨encodeRow_mem c, by omega⟩, ?_⟩
  have hword : indexWord w plen pre i <+: (encodeRow c).word := by
    refine hcmp.symm.prefix_of_length_le ?_
    rw [length_indexWord, length_code]
    omega
  rw [HuffmanEncode.word_eq_append (Nat.lt_of_not_le hlt), indexWord,
    ← natBits_shiftLeft_or pre hi] at hword
  have hbound : pre * 2 ^ w + i < 2 ^ (plen + w) := by
    calc pre * 2 ^ w + i < pre * 2 ^ w + 2 ^ w := Nat.add_lt_add_left hi _
      _ = (pre + 1) * 2 ^ w := (Nat.succ_mul pre (2 ^ w)).symm
      _ ≤ 2 ^ plen * 2 ^ w := Nat.mul_le_mul_right _ hpre
      _ = 2 ^ (plen + w) := (Nat.pow_add 2 plen w).symm
  rw [← Nat.shiftLeft_add_eq_or_of_lt hi, Nat.shiftLeft_eq, natBits_prefix_iff hbound] at hword
  exact hword.symm

/-! ### The end of a round -/

/-- What the end of a round says about the unread bits `u`: a code word is stripped, or fewer than
eight one-bits are left, or neither a code word nor such a padding starts there. -/
def StepOk (u : List Bool) : HuffmanStep → Prop
  | .emit value rest =>
    ∃ c : UInt8, value = c.toNat ∧ u = huffmanCode.code c ++ rest.rem ∧ rest.bitslen ≤ 15
  | .finish => ∃ k < 8, u = List.replicate k true
  | .goaway _ => huffmanCode.Stuck u ∧ ∀ k < 8, u ≠ List.replicate k true

/-- The end of a round that reads an entry behind the end of `huffman_decode_fffffe`. -/
def PastRead (past : ℕ → HuffmanDecode) (u : List Bool) (step : HuffmanStep) : Prop :=
  ∃ (t : List Bool) (n : ℕ) (rest : BitBuf), t.length < 4 ∧ u = natBits 24 0xfffffe ++ t ∧
    16 ≤ n ∧ rest.rem = t.drop (past n).bits ∧ rest.bitslen ≤ 15 ∧
    step = if (past n).bits ≤ t.length then .emit (past n).value rest else .goaway "not enough bits"

/-- Eight or more bits are no padding. -/
lemma ne_padding (h : 8 ≤ u.length) : ∀ k < 8, u ≠ List.replicate k true := by
  rintro k hk rfl
  rw [length_replicate] at h
  omega

/-! ### Taking a symbol from a table -/

section Entry

variable {e : HuffmanDecode} (reason : String) (he : EntryOk plen (indexWord w plen pre i) e)
  (hpre : pre < 2 ^ plen) (hi : i < 2 ^ w) (hpeek : Peek r w i)
  (hlong : w ≤ r.bitslen → pre * 2 ^ w + i ∉ longPrefixes (plen + w))

include he hpre hi hpeek hlong

/-- An entry whose bits are all available is the symbol that the unread bits start with. -/
lemma EntryOk.emit (hbits : e.bits ≤ r.bitslen) :
    ∃ c : UInt8, e.value = c.toNat ∧
      natBits plen pre ++ r.rem = huffmanCode.code c ++ (r.skip e.bits).rem := by
  obtain ⟨c, rfl, hlt, hcmp⟩ := he
  refine ⟨c, rfl, ?_⟩
  have hstart : huffmanCode.code c <+: natBits plen pre ++ r.rem := by
    rcases hpeek with ⟨hle, hidx⟩ | ⟨_, hlen, hidx⟩
    · have hshort := bits_le_of_comparable hpre hi hcmp (hlong hle)
      have hcode := hcmp.prefix_of_length_le (by rw [length_code, length_indexWord]; exact hshort)
      exact hcode.trans ((prefix_append_right_inj _).mpr hidx)
    · rw [indexWord, hidx, ← append_assoc] at hcmp
      refine (hcmp.of_prefix_right (prefix_append _ _)).prefix_of_length_le ?_
      simp only [length_code, length_append, length_natBits] at hbits ⊢
      omega
  obtain ⟨t, ht⟩ := hstart
  have hword : huffmanCode.code c = natBits plen pre ++
      natBits ((encodeRow c).bits - plen) (encodeRow c).encoding := by
    have hsplit := HuffmanEncode.word_eq_append hlt
    change huffmanCode.code c = _ at hsplit
    rw [hsplit, append_assoc] at ht
    rw [hsplit, (append_inj ht (by simp)).1]
  rw [hword, append_assoc, append_cancel_left_eq] at ht
  have hskip := rem_skip_of_eq_append
    (by simpa using hbits) ht.symm
  rw [length_natBits] at hskip
  rw [hskip, hword, append_assoc, ht]

/-- An entry with more bits than available: the unread bits start with no code word. -/
lemma EntryOk.stuck (hbits : ¬ e.bits ≤ r.bitslen) :
    r.bitslen < w ∧ huffmanCode.Stuck (natBits plen pre ++ r.rem) := by
  obtain ⟨c, rfl, hlt, hcmp⟩ := he
  rcases hpeek with ⟨hle, hidx⟩ | ⟨hlt', hlen, hidx⟩
  · have hshort := bits_le_of_comparable hpre hi hcmp (hlong hle)
    simp only at hbits
    omega
  · refine ⟨hlt', PrefixCode.stuck_of_comparable hcmp ?_ ?_⟩
    · rw [indexWord, hidx, ← append_assoc]
      exact prefix_append _ _
    · simp only [length_code, length_append, length_natBits] at hbits ⊢
      omega

/-- Taking a symbol from a table whose prefix has at least eight bits. -/
lemma takeSymbol_ok (hr : r.bitslen ≤ 15) (hplen : 8 ≤ plen) :
    StepOk (natBits plen pre ++ r.rem) (takeSymbol e r reason) := by
  unfold takeSymbol
  by_cases hbits : e.bits ≤ r.bitslen
  · rw [if_pos hbits]
    obtain ⟨c, hc, hrem⟩ := he.emit hpre hi hpeek hlong hbits
    exact ⟨c, hc, hrem, le_trans (Nat.sub_le _ _) hr⟩
  · rw [if_neg hbits]
    refine ⟨(he.stuck hpre hi hpeek hlong hbits).2, ne_padding ?_⟩
    rw [length_append, length_natBits]
    omega

end Entry

/-! ### One round -/

/-- The bit buffer before a lookup of `w` bits. -/
structure Ready (w : ℕ) (r : BitBuf) : Prop where
  /-- No bit of the buffer is lost by shifting in another byte. -/
  le : r.bitslen ≤ 15
  /-- Enough bits are available unless the input has ended. -/
  full : w ≤ r.bitslen ∨ r.inp = []

/-- Refilling prepares a lookup. -/
lemma ready_refill (hw : w ≤ 8) (h : r.bitslen ≤ 15) : Ready w (r.refill w) :=
  ⟨refill_bitslen_le hw h, refill_full hw r⟩

lemma Ready.skip (h : Ready w r) (n : ℕ) : (r.skip n).bitslen ≤ 15 :=
  le_trans (Nat.sub_le _ _) h.le

/-- The next lookup of a byte is prepared. -/
lemma Ready.next (h : Ready w r) (n : ℕ) : Ready 8 ((r.skip n).refill 8) :=
  ready_refill le_rfl (h.skip n)

/-- The looked-up byte is stripped. -/
lemma BitBuf.rem_eq_byte_append (h : 8 ≤ r.bitslen) :
    r.rem = natBits 8 r.byte ++ ((r.skip 8).refill 8).rem := by
  rw [rem_refill le_rfl, rem_eq_append_skip h, byte, if_neg (by omega),
    show (256 : ℕ) = 2 ^ 8 from rfl, natBits_mod_two_pow le_rfl]

/-- A looked-up index is comparable with the unread bits. -/
lemma Peek.comparable (h : Peek r w i) : Comparable r.rem (natBits w i) := by
  rcases h with ⟨_, h⟩ | ⟨_, _, h⟩
  · exact .inr h
  · exact .inl ⟨_, h.symm⟩

/-- No code word consists of ones only. -/
lemma code_ne_ones (c : UInt8) (k : ℕ) : huffmanCode.code c ≠ List.replicate k true := by
  have hrows : ∀ row ∈ huffmanEncode, row.encoding % 2 ^ row.bits ≠ 2 ^ row.bits - 1 := by
    decide +kernel
  intro h
  have hk : k = (encodeRow c).bits := by
    rw [← length_code, h, length_replicate]
  refine hrows _ (encodeRow_mem c) ?_
  have hpow : 0 < 2 ^ (encodeRow c).bits := Nat.two_pow_pos _
  refine natBits_injective (Nat.mod_lt _ hpow) (Nat.sub_lt hpow (by decide)) ?_
  rw [natBits_mod_two_pow le_rfl, natBits_two_pow_sub_one, ← hk, ← h, hk]
  rfl

/-- A string of ones starts with no code word. -/
lemma stuck_ones (k : ℕ) : huffmanCode.Stuck (List.replicate k true) := by
  intro c h
  exact code_ne_ones c _ (prefix_replicate_iff.mp h).2

/-- A string comparable with the EOS code starts with no code word. -/
lemma stuck_eos (h1 : 252 ≤ i) (h2 : i < 256) (h : Comparable u (natBits 8 i)) :
    huffmanCode.Stuck (natBits 24 0xffffff ++ u) := by
  have heos : List.replicate 30 true <+: natBits 24 0xffffff ++ natBits 8 i := by
    obtain rfl | rfl | rfl | rfl : i = 252 ∨ i = 253 ∨ i = 254 ∨ i = 255 := by omega
    all_goals decide
  intro c hc
  have hcmp : Comparable (huffmanCode.code c) (List.replicate 30 true) := by
    have hword : Comparable (natBits 24 0xffffff ++ natBits 8 i) (natBits 24 0xffffff ++ u) :=
      (comparable_append_left_iff _ _ _).mpr h.symm
    exact (hword.of_prefix_right hc).symm.of_prefix_right heos
  have hlen : (huffmanCode.code c).length ≤ (List.replicate 30 true).length := by
    rw [length_code]
    exact (bits_mem_range _ (encodeRow_mem c)).2
  exact stuck_ones 30 c (hcmp.prefix_of_length_le hlen)

section Round

variable {r : BitBuf} {T : HuffmanTables} (hT : T.Ok) (past : ℕ → HuffmanDecode)

include hT

/-- The round after the prefix `ffffff`. -/
lemma roundFfffff_ok (hr : Ready 8 r) :
    StepOk (natBits 24 0xffffff ++ r.rem) (roundFfffff T r) := by
  have hpeek := peek_byte hr.full
  have hpad : ∀ k < 8, natBits 24 0xffffff ++ r.rem ≠ List.replicate k true :=
    ne_padding (by rw [length_append, length_natBits]; omega)
  unfold roundFfffff
  by_cases hff : r.byte = 0xff
  · rw [if_neg (not_not_intro hff)]
    exact ⟨stuck_eos (by omega) r.byte_lt hpeek.comparable, hpad⟩
  rw [if_pos hff]
  by_cases heos : r.byte < 252
  · refine takeSymbol_ok _ (hT.decodeFfffff _ heos) (by decide) r.byte_lt hpeek ?_ hr.le (by decide)
    intro _ hmem
    have hnone : longPrefixes 32 = [] := by decide +kernel
    rw [hnone] at hmem
    exact not_mem_nil hmem
  · rw [hT.decodeEos _ (by omega) r.byte_lt, takeSymbol,
      if_neg (by have := hr.le; simp only; omega)]
    exact ⟨stuck_eos (by omega) r.byte_lt hpeek.comparable, hpad⟩

/-- The branch for the prefix `fffff`, when the next byte is neither `fffffe` nor `ffffff`. -/
lemma roundFffff_ok (hr : Ready 8 r) (h8 : 8 ≤ r.bitslen) (hbyte : 0xf0 ≤ r.byte)
    (hff : r.byte ≠ 0xff) (reason : String) :
    StepOk (natBits 16 0xffff ++ r.rem) (takeSymbol
      (T.decodeFffff.entry ((r.skip 4).refill 8).byte) ((r.skip 4).refill 8) reason) := by
  have hready := hr.next 4
  -- the four bits that are stripped are ones
  have hhigh : natBits 8 r.byte = natBits 4 0xf ++ natBits 4 r.byte := by
    have hshift : r.byte >>> 4 = 0xf := by
      have := r.byte_lt
      rw [Nat.shiftRight_eq_div_pow]
      omega
    rw [← hshift]
    exact natBits_add 4 4 r.byte
  have hrem : r.rem = natBits 4 0xf ++ ((r.skip 4).refill 8).rem := by
    have hsplit := rem_eq_byte_append h8
    rw [hhigh, append_assoc] at hsplit
    have hskip := rem_skip_of_eq_append (by rw [length_natBits]; omega) hsplit
    rw [length_natBits] at hskip
    rw [rem_refill le_rfl, hskip, hsplit]
  have hword : natBits 16 0xffff ++ natBits 4 0xf = natBits 20 0xfffff := by decide
  rw [hrem, ← append_assoc, hword]
  have hpeek := peek_byte hready.full
  refine takeSymbol_ok _ (hT.decodeFffff _ (byte_lt _)) (by decide) (byte_lt _) hpeek
    ?_ hready.le (by decide)
  intro hle hmem
  -- the only longer code words start with seven `f`s, but then this byte would be `ff`
  have hbyte' : ((r.skip 4).refill 8).byte = 0xff := by
    have := longPrefixes_28 _ hmem
    omega
  have hrem' := rem_eq_byte_append hle
  rw [hbyte'] at hrem'
  rw [rem_eq_byte_append h8, hrem'] at hrem
  have hones : natBits 4 0xf ++ (natBits 8 0xff ++
      ((((r.skip 4).refill 8).skip 8).refill 8).rem) = natBits 8 0xff ++ (natBits 4 0xf ++
      ((((r.skip 4).refill 8).skip 8).refill 8).rem) := by
    rw [← append_assoc, ← append_assoc]
    rfl
  rw [hones] at hrem
  exact hff (natBits_injective r.byte_lt (by decide) (append_inj hrem (by simp)).1)

omit hT in
/-- With fewer than four bits behind `fe`, the unmasked nibble still holds bits of the `fe`. -/
lemma nibble_past (h8 : 8 ≤ r.bitslen) (hfe : r.byte = 0xfe) (hlt : r.bitslen - 8 < 4) :
    16 ≤ (r.skip 8).nibble := by
  obtain ⟨l, hl⟩ : ∃ l, r.bitslen = l + 8 := ⟨r.bitslen - 8, by omega⟩
  have hbits : r.bits >>> l % 256 = 0xfe := by
    rw [byte, hl] at hfe
    exact hfe
  rw [nibble, if_pos (by simpa using hlt), skip_bitslen, hl]
  simp only [skip] at hbits ⊢
  obtain rfl | rfl | rfl | rfl : l = 0 ∨ l = 1 ∨ l = 2 ∨ l = 3 := by omega
  all_goals omega

omit hT in
/-- The bits that the branch for the prefix `fffffe` looks at. -/
lemma rem_eq_fe_append (h8 : 8 ≤ r.bitslen) (hfe : r.byte = 0xfe) :
    natBits 16 0xffff ++ r.rem = natBits 24 0xfffffe ++ ((r.skip 8).refill 4).rem := by
  have hword : natBits 16 0xffff ++ natBits 8 0xfe = natBits 24 0xfffffe := by decide
  rw [← hword, append_assoc, rem_refill (by decide), rem_eq_byte_append h8, hfe, rem_refill le_rfl]

/-- The branch for the prefix `fffffe`, when four more bits are available. -/
lemma roundFffffe_ok (hr : Ready 8 r) (h8 : 8 ≤ r.bitslen) (hfe : r.byte = 0xfe)
    (h4 : 4 ≤ ((r.skip 8).refill 4).bitslen) :
    StepOk (natBits 16 0xffff ++ r.rem)
      (takeSymbol (nibbleEntry T past ((r.skip 8).refill 4).nibble) ((r.skip 8).refill 4)
        "not enough bits") := by
  have hready : Ready 4 ((r.skip 8).refill 4) := ready_refill (by decide) (hr.skip 8)
  rw [rem_eq_fe_append h8 hfe]
  have hlt : ((r.skip 8).refill 4).nibble < 16 := by
    rw [nibble, if_neg (by omega)]
    exact Nat.mod_lt _ (by decide)
  have hentry : EntryOk 24 (indexWord 4 24 0xfffffe ((r.skip 8).refill 4).nibble)
      (nibbleEntry T past ((r.skip 8).refill 4).nibble) := by
    rw [nibbleEntry, if_pos hlt]
    exact hT.decodeFffffe _ hlt
  refine takeSymbol_ok _ hentry (by decide) hlt (peek_nibble h4) ?_ hready.le (by decide)
  intro _ hmem
  have := longPrefixes_28 _ hmem
  omega

omit hT in
/-- The branch for the prefix `fffffe`, when fewer than four bits are left. -/
lemma roundFffffe_past (hr : Ready 8 r) (h8 : 8 ≤ r.bitslen) (hfe : r.byte = 0xfe)
    (h4 : ((r.skip 8).refill 4).bitslen < 4) :
    PastRead past (natBits 16 0xffff ++ r.rem)
      (takeSymbol (nibbleEntry T past ((r.skip 8).refill 4).nibble) ((r.skip 8).refill 4)
        "not enough bits") := by
  have hready : Ready 4 ((r.skip 8).refill 4) := ready_refill (by decide) (hr.skip 8)
  rw [rem_eq_fe_append h8 hfe]
  -- the input has ended, so the refill did nothing
  have hsame : (r.skip 8).refill 4 = r.skip 8 := refill_eq_self (by decide) h4
  have hinp : ((r.skip 8).refill 4).inp = [] := hready.full.resolve_left (by omega)
  rw [hsame] at h4 hinp ⊢
  have hnib : 16 ≤ (r.skip 8).nibble := nibble_past h8 hfe h4
  have hlen : (r.skip 8).rem.length = (r.skip 8).bitslen := length_rem_of_inp hinp
  refine ⟨(r.skip 8).rem, (r.skip 8).nibble, (r.skip 8).skip (past (r.skip 8).nibble).bits,
    by omega, rfl, hnib, rem_skip_of_inp _ hinp, le_trans (Nat.sub_le _ _) (hr.skip 8), ?_⟩
  rw [takeSymbol, nibbleEntry, if_neg (Nat.not_lt_of_le hnib), hlen]

/-- The round after the prefix `ffff`. -/
lemma roundFfff_ok (hr : Ready 8 r) :
    StepOk (natBits 16 0xffff ++ r.rem) (roundFfff T past r) ∨
      PastRead past (natBits 16 0xffff ++ r.rem) (roundFfff T past r) := by
  have hpeek := peek_byte hr.full
  have hmask : ∀ b < 256, b &&& 0xf0 = 0xf0 ↔ 0xf0 ≤ b := by decide +kernel
  unfold roundFfff
  by_cases hfe : 8 ≤ r.bitslen ∧ r.byte = 0xfe
  · rw [if_pos hfe]
    rcases Nat.lt_or_ge ((r.skip 8).refill 4).bitslen 4 with h4 | h4
    · exact .inr (roundFffffe_past past hr hfe.1 hfe.2 h4)
    · exact .inl (roundFffffe_ok hT past hr hfe.1 hfe.2 h4)
  rw [if_neg hfe]
  by_cases hf : 8 ≤ r.bitslen ∧ r.byte &&& 0xf0 = 0xf0 ∧ r.byte ≠ 0xff
  · rw [if_pos hf]
    exact .inl (roundFffff_ok hT hr hf.1 ((hmask _ r.byte_lt).mp hf.2.1) hf.2.2 _)
  rw [if_neg hf]
  by_cases hff : r.byte = 0xff
  · rw [if_neg (not_not_intro hff)]
    have hword : natBits 16 0xffff ++ natBits 8 0xff = natBits 24 0xffffff := by decide
    have hrem := rem_eq_byte_append (eight_le_of_byte hff)
    rw [hrem, hff, ← append_assoc, hword]
    exact .inl (roundFfffff_ok hT (hr.next 8))
  · rw [if_pos hff]
    refine .inl (takeSymbol_ok _ (hT.decodeFfff _ r.byte_lt) (by decide) r.byte_lt hpeek ?_ hr.le
      (by decide))
    intro hle hmem
    have hlong := longPrefixes_24 _ hmem
    exact hf ⟨hle, (hmask _ r.byte_lt).mpr (by omega), hff⟩

/-- The round after the prefix `ff`. -/
lemma roundFf_ok (hr : Ready 8 r) :
    StepOk (natBits 8 0xff ++ r.rem) (roundFf T past r) ∨
      PastRead past (natBits 8 0xff ++ r.rem) (roundFf T past r) := by
  have hpeek := peek_byte hr.full
  unfold roundFf
  by_cases hfe : 8 ≤ r.bitslen ∧ r.byte = 0xfe
  · rw [if_pos hfe]
    have hready := hr.next 8
    have hword : natBits 8 0xff ++ natBits 8 0xfe = natBits 16 0xfffe := by decide
    rw [rem_eq_byte_append hfe.1, hfe.2, ← append_assoc, hword]
    refine .inl (takeSymbol_ok _ (hT.decodeFffe _ (byte_lt _)) (by decide)
      (byte_lt _) (peek_byte hready.full) ?_ hready.le (by decide))
    intro _ hmem
    have hlong := longPrefixes_24 _ hmem
    have := ((r.skip 8).refill 8).byte_lt
    omega
  rw [if_neg hfe]
  by_cases hff : r.byte = 0xff
  · rw [if_neg (not_not_intro hff)]
    have hword : natBits 8 0xff ++ natBits 8 0xff = natBits 16 0xffff := by decide
    have hrem := rem_eq_byte_append (eight_le_of_byte hff)
    rw [hrem, hff, ← append_assoc, hword]
    exact roundFfff_ok hT past (hr.next 8)
  · rw [if_pos hff]
    refine .inl (takeSymbol_ok _ (hT.decodeFf _ r.byte_lt) (by decide) r.byte_lt hpeek ?_ hr.le
      (by decide))
    intro hle hmem
    have hne : r.byte ≠ 0xfe := fun h => hfe ⟨hle, h⟩
    have hlong := longPrefixes_16 _ hmem
    omega

omit hT in
/-- The test of the bits behind the last symbol. -/
lemma endOfString_ok (hr : Ready 8 r) (hlt : r.bitslen < 8) (hstuck : huffmanCode.Stuck r.rem) :
    StepOk r.rem (endOfString r) := by
  have hinp : r.inp = [] := hr.full.resolve_left (by omega)
  have hrem : r.rem = natBits r.bitslen r.bits := by simp [rem, hinp]
  have hmask : (2 ^ r.bitslen - 1) % 256 = 2 ^ r.bitslen - 1 := by
    have hpow : 2 ^ r.bitslen < 2 ^ 8 := Nat.pow_lt_pow_right (by decide) hlt
    exact Nat.mod_eq_of_lt (by omega)
  simp only [endOfString, hmask]
  by_cases hones : r.bits &&& (2 ^ r.bitslen - 1) = 2 ^ r.bitslen - 1
  · rw [if_pos hones]
    exact ⟨r.bitslen, hlt, hrem.trans ((and_mask_eq_iff _ _).mp hones)⟩
  · rw [if_neg hones]
    refine ⟨hstuck, ?_⟩
    intro k _ hk
    have hlen : k = r.bitslen := by
      rw [← length_rem_of_inp hinp, hk, length_replicate]
    rw [hlen, hrem] at hk
    exact hones ((and_mask_eq_iff _ _).mpr hk)

/-- One round of the loop. -/
theorem huffmanRound_ok (hr : r.bitslen ≤ 15) :
    StepOk r.rem (huffmanRound T past r) ∨ PastRead past r.rem (huffmanRound T past r) := by
  have hready : Ready 8 (r.refill 8) := ready_refill le_rfl hr
  rw [huffmanRound, ← rem_refill le_rfl r]
  generalize r.refill 8 = r at hready
  have hpeek := peek_byte hready.full
  unfold round0
  by_cases hfe : 8 ≤ r.bitslen ∧ r.byte = 0xfe
  · rw [if_pos hfe]
    have hready' := hready.next 8
    rw [rem_eq_byte_append hfe.1, hfe.2]
    refine .inl (takeSymbol_ok _ (hT.decodeFe _ (byte_lt _)) (by decide)
      (byte_lt _) (peek_byte hready'.full) ?_ hready'.le (by decide))
    intro _ hmem
    have hlong := longPrefixes_16 _ hmem
    have := ((r.skip 8).refill 8).byte_lt
    omega
  rw [if_neg hfe]
  by_cases hff : r.byte = 0xff
  · rw [rem_eq_byte_append (eight_le_of_byte hff), hff]
    exact roundFf_ok hT past (hready.next 8)
  · rw [if_pos hff]
    have hlong : 8 ≤ r.bitslen → 0 * 2 ^ 8 + r.byte ∉ longPrefixes (0 + 8) := by
      intro hle hmem
      have := longPrefixes_8 _ hmem
      omega
    have hentry := hT.decode0 _ r.byte_lt
    refine .inl ?_
    by_cases hbits : (T.decode0.entry r.byte).bits ≤ r.bitslen
    · rw [if_pos hbits]
      obtain ⟨c, hc, hrem⟩ := hentry.emit (by decide) r.byte_lt hpeek hlong hbits
      exact ⟨c, hc, hrem, hready.skip _⟩
    · rw [if_neg hbits]
      obtain ⟨hlt, hstuck⟩ := hentry.stuck (by decide) r.byte_lt hpeek hlong hbits
      exact endOfString_ok hready hlt hstuck

end Round

/-! ### When the round reads behind the table -/

/-- If the unread bits start with a byte, that byte is looked up and stripped. -/
lemma Ready.byte_eq (hr : Ready 8 r) {b : ℕ} (hb : b < 256) (h : r.rem = natBits 8 b ++ u) :
    8 ≤ r.bitslen ∧ r.byte = b ∧ ((r.skip 8).refill 8).rem = u := by
  have h8 : 8 ≤ r.bitslen := by
    by_contra hlt
    have hlen := length_rem_of_inp (hr.full.resolve_left hlt)
    rw [h, length_append, length_natBits] at hlen
    omega
  rw [rem_eq_byte_append h8] at h
  obtain ⟨hbyte, hu⟩ := append_inj h (by simp)
  exact ⟨h8, natBits_injective r.byte_lt hb hbyte, hu⟩

/-- The round reads behind `huffman_decode_fffffe` whenever `fffffe` is followed by fewer than four
bits. -/
lemma huffmanRound_past (T : HuffmanTables) (past : ℕ → HuffmanDecode) (hr : r.bitslen ≤ 15)
    (ht : t.length < 4) (hrem : r.rem = natBits 24 0xfffffe ++ t) :
    PastRead past r.rem (huffmanRound T past r) := by
  have hword : natBits 24 0xfffffe ++ t =
      natBits 8 0xff ++ (natBits 8 0xff ++ (natBits 8 0xfe ++ t)) := rfl
  have hready : Ready 8 (r.refill 8) := ready_refill le_rfl hr
  rw [← rem_refill le_rfl r, hword] at hrem
  rw [huffmanRound, ← rem_refill le_rfl r]
  generalize r.refill 8 = r₀ at hready hrem
  obtain ⟨h0, hbyte0, hrem0⟩ := hready.byte_eq (by decide) hrem
  have hready1 := hready.next 8
  rw [round0, if_neg (by omega), if_neg (by omega), rem_eq_byte_append h0, hbyte0]
  generalize (r₀.skip 8).refill 8 = r₁ at hready1 hrem0
  obtain ⟨h1, hbyte1, hrem1⟩ := hready1.byte_eq (by decide) hrem0
  have hready2 := hready1.next 8
  rw [roundFf, if_neg (by omega), if_neg (by omega), rem_eq_byte_append h1, hbyte1]
  generalize (r₁.skip 8).refill 8 = r₂ at hready2 hrem1
  obtain ⟨h2, hbyte2, hrem2⟩ := hready2.byte_eq (by decide) hrem1
  rw [roundFfff, if_pos ⟨h2, hbyte2⟩]
  refine roundFffffe_past past hready2 h2 hbyte2 ?_
  rw [rem_refill le_rfl, ← rem_refill (show 4 ≤ 8 by decide)] at hrem2
  have hlen := congrArg List.length hrem2
  rw [rem, length_append, length_natBits] at hlen
  omega

end AtlasProbe.Http2
