import AtlasProbe.Http2.HuffmanCode
import Mathlib.Data.List.Nodup

/-!
# `init_huffman` never fails and fills every table correctly

The filling loops of `init_huffman` are followed row by row.  `FillInv` is the invariant of a loop
after some of its rows: an entry in use belongs to a row whose code word is comparable with the
prefix of the table followed by the bits of the index, and every row comparable with an index has
claimed its entry.  Prefix-freeness of the code keeps each row clear of the entries of the earlier
ones, so no call of `fatal` is reached; completeness of the code leaves no entry free.
-/

namespace AtlasProbe.Http2

open List

/-! ### Reading and writing table entries -/

variable {tbl : DecodeTable} {i plen : ℕ}

/-- Reading back an entry after a write. -/
lemma DecodeTable.entry_set (tbl : DecodeTable) (hi : i < tbl.length) (e : HuffmanDecode) (j : ℕ) :
    DecodeTable.entry (tbl.set i e) j = if j = i then e else tbl.entry j := by
  unfold DecodeTable.entry
  by_cases h : i = j
  · subst h
    simp [hi]
  · simp [h, Ne.symm h]

open DecodeTable (entry_set entry)

/-- `addShort` succeeds on free entries and claims exactly these. -/
lemma addShort_eq_some (len value : ℕ) {n byte : ℕ} (hle : byte + n ≤ tbl.length)
    (hfree : ∀ i, byte ≤ i → i < byte + n → (tbl.entry i).bits = 0) :
    ∃ tbl', addShort tbl byte len value n = some tbl' ∧ tbl'.length = tbl.length ∧
      ∀ i, entry tbl' i = if byte ≤ i ∧ i < byte + n then ⟨len, value⟩ else tbl.entry i := by
  induction n generalizing tbl byte with
  | zero =>
    refine ⟨tbl, rfl, rfl, ?_⟩
    intro i
    rw [if_neg (by omega)]
  | succ n ih =>
    have hbyte : byte < tbl.length := by omega
    have hset := entry_set tbl hbyte ⟨len, value⟩
    obtain ⟨tbl', hadd, hlength, hentry⟩ := @ih (tbl.set byte ⟨len, value⟩)
      (byte + 1) (by rw [length_set]; omega)
      (by
        intro i h1 h2
        rw [hset, if_neg (by omega)]
        exact hfree i (by omega) (by omega))
    refine ⟨tbl', ?_, by rw [hlength, length_set], ?_⟩
    · rw [addShort, if_neg (by simpa using hfree byte le_rfl (by omega)), hadd]
    · intro i
      rw [hentry, hset]
      by_cases h1 : i = byte
      · subst h1
        simp
      · by_cases h2 : byte + 1 ≤ i ∧ i < byte + 1 + n
        · rw [if_pos h2, if_pos (by omega)]
        · rw [if_neg h2, if_neg h1, if_neg (by omega)]

/-! ### The invariant of a filling loop -/

/-- The string an index stands for: the table's prefix followed by the bits of the index. -/
def indexWord (w plen pre i : ℕ) : List Bool := natBits plen pre ++ natBits w i

@[simp]
lemma length_indexWord (w plen pre i : ℕ) : (indexWord w plen pre i).length = plen + w := by
  simp [indexWord]

/-- The state of a filling loop after the rows `done`. -/
structure FillInv (w plen pre : ℕ) (done : List HuffmanEncode) (tbl : DecodeTable) : Prop where
  /-- The size of the table never changes. -/
  length : tbl.length = 2 ^ w
  /-- An entry in use belongs to a row comparable with its index. -/
  used : ∀ i < 2 ^ w, (tbl.entry i).bits ≠ 0 → ∃ row ∈ done, plen < row.bits ∧
    Comparable row.word (indexWord w plen pre i) ∧ tbl.entry i = ⟨row.bits - plen, row.value⟩
  /-- A row comparable with an index has claimed its entry. -/
  claimed : ∀ i < 2 ^ w, ∀ row ∈ done, plen < row.bits →
    Comparable row.word (indexWord w plen pre i) → (tbl.entry i).bits ≠ 0

/-- Before the first row. -/
lemma fillInv_emptyTable (w plen pre : ℕ) : FillInv w plen pre [] (emptyTable (2 ^ w)) where
  length := by simp [emptyTable]
  used i hi h := by
    simp only [entry, emptyTable, getD_eq_getElem?_getD, getElem?_replicate,
      hi, if_true, Option.getD_some, ne_eq, not_true_eq_false] at h
  claimed i _ row h := by simp at h

section Row

variable {w plen pre i len enc : ℕ} {done : List HuffmanEncode} {tbl : DecodeTable}
  {row : HuffmanEncode}

/-- A row all of whose entries are in use leaves the invariant alone. -/
lemma FillInv.skip (hinv : FillInv w plen pre done tbl)
    (hskip : ∀ i < 2 ^ w, plen < row.bits → Comparable row.word (indexWord w plen pre i) →
      (tbl.entry i).bits ≠ 0) : FillInv w plen pre (done ++ [row]) tbl where
  length := hinv.length
  used i hi h := by
    obtain ⟨r, hr, hrest⟩ := hinv.used i hi h
    exact ⟨r, mem_append_left _ hr, hrest⟩
  claimed i hi r hr hbits hcmp := by
    rcases mem_append.mp hr with hr | hr
    · exact hinv.claimed i hi r hr hbits hcmp
    · rw [mem_singleton.mp hr] at hbits hcmp
      exact hskip i hi hbits hcmp

/-- A row that claims a set of entries, exactly those comparable with it, extends the invariant. -/
lemma FillInv.claim (hinv : FillInv w plen pre done tbl) (hbits : plen < row.bits)
    {tbl' : DecodeTable} {S : ℕ → Prop} [DecidablePred S] (hlength : tbl'.length = tbl.length)
    (hS : ∀ i < 2 ^ w, S i ↔ Comparable row.word (indexWord w plen pre i))
    (hentry : ∀ i < 2 ^ w, entry tbl' i =
      if S i then ⟨row.bits - plen, row.value⟩ else tbl.entry i) :
    FillInv w plen pre (done ++ [row]) tbl' where
  length := by rw [hlength, hinv.length]
  used i hi h := by
    rw [hentry i hi] at h ⊢
    by_cases hs : S i
    · exact ⟨row, by simp, hbits, (hS i hi).mp hs, by rw [if_pos hs]⟩
    · rw [if_neg hs] at h ⊢
      obtain ⟨r, hr, hrest⟩ := hinv.used i hi h
      exact ⟨r, mem_append_left _ hr, hrest⟩
  claimed i hi r hr hb hcmp := by
    rw [hentry i hi]
    by_cases hs : S i
    · rw [if_pos hs]
      simp only
      omega
    · rw [if_neg hs]
      rcases mem_append.mp hr with hr | hr
      · exact hinv.claimed i hi r hr hb hcmp
      · rw [mem_singleton.mp hr] at hcmp
        exact absurd ((hS i hi).mpr hcmp) hs

/-! ### Which entries a row is responsible for -/

/-- A code word longer than the table's prefix splits into its first `plen` bits and the rest. -/
lemma HuffmanEncode.word_eq_append (hbits : plen < row.bits) :
    row.word = natBits plen (row.encoding >>> (row.bits - plen)) ++
      natBits (row.bits - plen) row.encoding := by
  have h := natBits_add plen (row.bits - plen) row.encoding
  rw [Nat.add_sub_cancel' hbits.le] at h
  exact h

/-- A code word comparable with an index passes the prefix test of the loop. -/
lemma prefix_test_of_comparable (hpre : pre < 2 ^ plen) (hbits : plen < row.bits)
    (h : Comparable row.word (indexWord w plen pre i)) :
    (row.encoding >>> (row.bits - plen)) % 2 ^ plen = pre := by
  have hcmp : Comparable (natBits plen pre) row.word := (h.of_prefix_right (prefix_append _ _)).symm
  have hstart : natBits plen pre <+: row.word := by
    apply hcmp.prefix_of_length_le
    simp only [length_natBits, HuffmanEncode.word]
    omega
  rw [HuffmanEncode.word_eq_append hbits] at hstart
  exact ((natBits_prefix_iff hpre _).mp hstart).symm

/-- After the prefix test only the bits behind the prefix matter. -/
lemma comparable_indexWord_iff (hbits : plen < row.bits)
    (htest : (row.encoding >>> (row.bits - plen)) % 2 ^ plen = pre) (i : ℕ) :
    Comparable row.word (indexWord w plen pre i) ↔
      Comparable (natBits (row.bits - plen) row.encoding) (natBits w i) := by
  rw [HuffmanEncode.word_eq_append hbits, indexWord, ← htest, natBits_mod_two_pow le_rfl,
    comparable_append_left_iff]

/-- The entry of a code word with at least `w` bits behind the prefix. -/
lemma comparable_long_iff (hlen : w ≤ len) (hi : i < 2 ^ w) :
    Comparable (natBits len enc) (natBits w i) ↔ i = (enc >>> (len - w)) % 2 ^ w := by
  have hsplit : natBits len enc = natBits w (enc >>> (len - w)) ++ natBits (len - w) enc := by
    have h := natBits_add w (len - w) enc
    rwa [Nat.add_sub_cancel' hlen] at h
  rw [hsplit]
  constructor
  · intro h
    exact (natBits_prefix_iff hi _).mp (h.symm.prefix_of_length_le (by simp))
  · intro h
    exact .inr ((natBits_prefix_iff hi _).mpr h)

/-- The entries of a code word with at most `w` bits behind the prefix are consecutive. -/
lemma comparable_short_iff (hlen : len ≤ w) (hi : i < 2 ^ w) :
    Comparable (natBits len enc) (natBits w i) ↔ (enc % 2 ^ len) <<< (w - len) ≤ i ∧
      i < (enc % 2 ^ len) <<< (w - len) + 2 ^ (w - len) := by
  rw [← natBits_prefix_natBits_iff hlen hi]
  exact ⟨fun h => h.prefix_of_length_le (by simpa using hlen), .inl⟩

/-- They start at the code word, shifted to the front of the index. -/
lemma shiftLeft_mod (hlen : len ≤ w) (enc : ℕ) :
    (enc <<< (w - len)) % 2 ^ w = (enc % 2 ^ len) <<< (w - len) := by
  obtain ⟨k, rfl⟩ : ∃ k, w = len + k := ⟨w - len, by omega⟩
  rw [Nat.add_sub_cancel_left, Nat.shiftLeft_eq, Nat.shiftLeft_eq, Nat.pow_add,
    Nat.mul_mod_mul_right]

/-! ### One row, and the whole loop -/

/-- The entries whose index starts with the row's code word are still free. -/
lemma FillInv.free_of_prefix (hinv : FillInv w plen pre done tbl)
    (hfree : ∀ r ∈ done, ¬ Comparable r.word row.word) (hi : i < 2 ^ w)
    (h : row.word <+: indexWord w plen pre i) : (tbl.entry i).bits = 0 := by
  by_contra hne
  obtain ⟨r, hr, _, hcmp, _⟩ := hinv.used i hi hne
  exact hfree r hr (hcmp.of_prefix_right h)

/-- The long branch never calls `fatal`: an entry in use belongs to another long code word. -/
lemma addLong_eq_some (hinv : FillInv w plen pre done tbl) (hbits : plen < row.bits)
    (hfree : ∀ r ∈ done, ¬ Comparable r.word row.word)
    (htest : (row.encoding >>> (row.bits - plen)) % 2 ^ plen = pre)
    {byte : ℕ} (hlong : w ≤ row.bits - plen)
    (hbyte : byte = (row.encoding >>> (row.bits - plen - w)) % 2 ^ w) {old : HuffmanDecode}
    (hold : old = tbl.entry byte ∨ row.bits - plen ≤ w) :
    ∃ tbl', addLong w tbl old byte (row.bits - plen) row.value = some tbl' ∧
      FillInv w plen pre (done ++ [row]) tbl' := by
  have hlt : byte < 2 ^ w := by
    rw [hbyte]
    exact Nat.mod_lt _ (Nat.two_pow_pos _)
  have hresp : ∀ i < 2 ^ w, i = byte ↔ Comparable row.word (indexWord w plen pre i) := by
    intro i hi
    rw [comparable_indexWord_iff hbits htest, comparable_long_iff hlong hi, hbyte]
  have hcmp : Comparable row.word (indexWord w plen pre byte) := (hresp byte hlt).mp rfl
  have hle : (indexWord w plen pre byte).length ≤ row.word.length := by
    simp only [length_indexWord, HuffmanEncode.word, length_natBits]
    omega
  unfold addLong
  by_cases hzero : (tbl.entry byte).bits = 0
  · rw [if_pos hzero]
    refine ⟨_, rfl, hinv.claim hbits (by simp) hresp ?_⟩
    intro i _
    exact entry_set tbl (by rw [hinv.length]; exact hlt) _ i
  · rw [if_neg hzero]
    obtain ⟨r, hr, hrbits, hrcmp, hrentry⟩ := hinv.used byte hlt hzero
    have hindex : indexWord w plen pre byte <+: row.word := hcmp.symm.prefix_of_length_le hle
    -- the earlier code word and this one both continue behind the index
    have hlen : ¬ row.bits - plen ≤ w := by
      intro hle'
      have heq : row.word <+: indexWord w plen pre byte := by
        apply hcmp.prefix_of_length_le
        simp only [length_indexWord, HuffmanEncode.word, length_natBits]
        omega
      exact hzero (hinv.free_of_prefix hfree hlt heq)
    have hold' : ¬ old.bits ≤ w := by
      intro hle'
      rcases hold with hold | hold
      · rw [hold, hrentry] at hle'
        have hrword : r.word <+: indexWord w plen pre byte := by
          apply hrcmp.prefix_of_length_le
          simp only [length_indexWord, HuffmanEncode.word, length_natBits] at hle' ⊢
          omega
        exact hfree r hr (.inl (hrword.trans hindex))
      · exact hlen hold
    rw [if_neg (not_or.mpr ⟨hold', hlen⟩)]
    -- the entry is in use already, so this row is covered by the invariant as it stands
    refine ⟨tbl, rfl, hinv.skip fun i hi _ hqcmp => ?_⟩
    rw [(hresp i hi).mpr hqcmp]
    exact hzero

/-- A row of a filling loop never calls `fatal` and extends the invariant. -/
lemma addRow_eq_some (hpre : pre < 2 ^ plen) {long : Bool} {chk : ℕ → ℕ}
    (hinv : FillInv w plen pre done tbl) (hfree : ∀ r ∈ done, ¬ Comparable r.word row.word)
    (hpos : 0 < row.bits)
    (hlong : (row.encoding >>> (row.bits - plen)) % 2 ^ plen = pre →
      (long = true ∧ chk = id) ∨ row.bits ≤ plen + w) :
    ∃ tbl', addRow w plen pre long chk tbl row = some tbl' ∧
      FillInv w plen pre (done ++ [row]) tbl' := by
  unfold addRow
  by_cases hskip : 0 < plen ∧ row.bits ≤ plen
  · rw [if_pos hskip]
    exact ⟨tbl, rfl, hinv.skip fun i _ hbits => absurd hskip.2 (by omega)⟩
  rw [if_neg hskip]
  have hbits : plen < row.bits := by omega
  by_cases htest : (row.encoding >>> (row.bits - plen)) % 2 ^ plen = pre
  · rw [if_neg (not_not_intro htest)]
    have hcase := hlong htest
    by_cases hbranch : long = true ∧ w ≤ row.bits - plen
    · rw [if_pos hbranch]
      refine addLong_eq_some hinv hbits hfree htest hbranch.2 rfl ?_
      rcases hcase with ⟨_, hid⟩ | hshort
      · exact .inl (by rw [hid]; rfl)
      · exact .inr (by omega)
    · rw [if_neg hbranch]
      have hshort : row.bits - plen ≤ w := by
        rcases hcase with ⟨htrue, _⟩ | hshort
        · rw [not_and] at hbranch
          have := hbranch htrue
          omega
        · omega
      rw [shiftLeft_mod hshort]
      have hresp : ∀ i < 2 ^ w, ((row.encoding % 2 ^ (row.bits - plen)) <<<
          (w - (row.bits - plen)) ≤ i ∧ i < (row.encoding % 2 ^ (row.bits - plen)) <<<
            (w - (row.bits - plen)) + 2 ^ (w - (row.bits - plen))) ↔
          Comparable row.word (indexWord w plen pre i) := by
        intro i hi
        rw [comparable_indexWord_iff hbits htest, comparable_short_iff hshort hi]
      have hbound := mod_shiftLeft_add_le hshort row.encoding
      obtain ⟨tbl', hadd, hlength, hentry⟩ := addShort_eq_some (row.bits - plen) row.value
        (hbound.trans_eq hinv.length.symm) (by
          intro i h1 h2
          have hi : i < 2 ^ w := by omega
          have hcmp := (hresp i hi).mp ⟨h1, h2⟩
          refine hinv.free_of_prefix hfree hi (hcmp.prefix_of_length_le ?_)
          simp only [length_indexWord, HuffmanEncode.word, length_natBits]
          omega)
      exact ⟨tbl', hadd, hinv.claim hbits hlength hresp fun i _ => hentry i⟩
  · rw [if_pos htest]
    exact ⟨tbl, rfl, hinv.skip fun i _ hb hcmp =>
      absurd (prefix_test_of_comparable hpre hb hcmp) htest⟩

/-- A filling loop over rows with pairwise incomparable code words never calls `fatal`. -/
lemma foldlM_addRow_eq_some (hpre : pre < 2 ^ plen) {long : Bool} {chk : ℕ → ℕ}
    {rows : List HuffmanEncode} (hinv : FillInv w plen pre done tbl)
    (hpair : (done ++ rows).Pairwise fun r r' => ¬ Comparable r.word r'.word)
    (hpos : ∀ row ∈ rows, 0 < row.bits)
    (hlong : ∀ row ∈ rows, (row.encoding >>> (row.bits - plen)) % 2 ^ plen = pre →
      (long = true ∧ chk = id) ∨ row.bits ≤ plen + w) :
    ∃ tbl', rows.foldlM (addRow w plen pre long chk) tbl = some tbl' ∧
      FillInv w plen pre (done ++ rows) tbl' := by
  induction rows generalizing done tbl with
  | nil => exact ⟨tbl, rfl, by simpa using hinv⟩
  | cons row rows ih =>
    obtain ⟨hpos, hposes⟩ := forall_mem_cons.mp hpos
    obtain ⟨hlong, hlongs⟩ := forall_mem_cons.mp hlong
    have hfree : ∀ r ∈ done, ¬ Comparable r.word row.word := by
      intro r hr
      exact (pairwise_append.mp hpair).2.2 r hr row mem_cons_self
    obtain ⟨tbl₁, hrow, hinv₁⟩ := addRow_eq_some hpre hinv hfree hpos hlong
    obtain ⟨tbl₂, hrest, hinv₂⟩ := ih hinv₁ (by simpa using hpair) hposes hlongs
    refine ⟨tbl₂, ?_, by simpa using hinv₂⟩
    rw [foldlM_cons, hrow]
    exact hrest

end Row

/-! ### The tables of `init_huffman` -/

/-- The code words of different rows are incomparable. -/
lemma pairwise_huffmanEncode :
    huffmanEncode.Pairwise fun r r' => ¬ Comparable r.word r'.word := by
  have hnodup : huffmanEncode.Nodup := by
    apply List.Nodup.of_map HuffmanEncode.value
    rw [map_value_huffmanEncode]
    exact nodup_range
  refine List.Pairwise.imp_of_mem ?_ hnodup
  intro r r' hr hr' hne hcmp
  rcases hcmp with h | h
  · exact hne (word_prefix_unique hr hr' h)
  · exact hne (word_prefix_unique hr' hr h).symm

/-- A filling loop over the whole table succeeds: either it has the branch for long code words with
the right check, or no row with its prefix is longer than its index. -/
lemma fillTable_eq_some (w plen pre : ℕ) (long : Bool) (chk : ℕ → ℕ) (hpre : pre < 2 ^ plen)
    (hlong : (long = true ∧ chk = id) ∨ ∀ row ∈ huffmanEncode,
      (row.encoding >>> (row.bits - plen)) % 2 ^ plen = pre → row.bits ≤ plen + w) :
    ∃ tbl, fillTable w plen pre long chk = some tbl ∧ FillInv w plen pre huffmanEncode tbl := by
  have hpos : ∀ row ∈ huffmanEncode, 0 < row.bits := fun row hrow => by
    have := bits_mem_range row hrow
    omega
  exact foldlM_addRow_eq_some hpre (fillInv_emptyTable w plen pre) pairwise_huffmanEncode hpos
    fun row hrow htest => hlong.imp_right fun h => h row hrow htest

/-- The entry `e` names the byte whose code word is comparable with `word`, and how many bits of
the code word follow the first `plen`. -/
def EntryOk (plen : ℕ) (word : List Bool) (e : HuffmanDecode) : Prop :=
  ∃ c : UInt8, e = ⟨(encodeRow c).bits - plen, c.toNat⟩ ∧ plen < (encodeRow c).bits ∧
    Comparable (huffmanCode.code c) word

/-- An entry that names a byte is in use. -/
lemma EntryOk.bits_ne_zero {word : List Bool} {e : HuffmanDecode} (h : EntryOk plen word e) :
    e.bits ≠ 0 := by
  obtain ⟨c, rfl, hlt, _⟩ := h
  simp only
  omega

/-- After a filling loop every index that does not stand for the EOS code names a byte. -/
lemma FillInv.entryOk {w pre : ℕ} (hinv : FillInv w plen pre huffmanEncode tbl)
    (hsize : plen + w ≤ 32)
    (hproper : ∃ row ∈ huffmanEncode, plen < row.bits ∧ natBits plen pre <+: row.word)
    (hi : i < 2 ^ w) (hx : (pre <<< w ||| i) <<< (32 - (plen + w)) < 2 ^ 32 - 4) :
    EntryOk plen (indexWord w plen pre i) (tbl.entry i) := by
  -- the index, padded to 32 bits, starts with some code word
  have hpad : indexWord w plen pre i <+: natBits 32 ((pre <<< w ||| i) <<< (32 - (plen + w))) := by
    refine ⟨List.replicate (32 - (plen + w)) false, ?_⟩
    rw [indexWord, ← natBits_shiftLeft_or pre hi, ← natBits_shiftLeft]
    congr 1
    omega
  obtain ⟨row, hmem, hinterval⟩ := tiles_rowsByLength.exists_mem (Nat.zero_le _) hx
  have hrow := mem_of_mem_rowsByLength hmem
  have hle := (bits_mem_range row hrow).2
  have hword := (mem_interval_iff (by omega) (by omega)).mp hinterval
  have hcmp : Comparable row.word (indexWord w plen pre i) := Comparable.of_prefix hword hpad
  have hbits : plen < row.bits := by
    by_contra hle
    obtain ⟨row₀, hrow₀, hlt, hpre₀⟩ := hproper
    have hstart : row.word <+: natBits plen pre := by
      apply (hcmp.of_prefix_right (prefix_append _ _)).prefix_of_length_le
      simp only [HuffmanEncode.word, length_natBits]
      omega
    have heq := word_prefix_unique hrow hrow₀ (hstart.trans hpre₀)
    rw [heq] at hle
    exact hle hlt
  have hused := hinv.claimed i hi row hrow hbits hcmp
  obtain ⟨r, hr, hrbits, hrcmp, hentry⟩ := hinv.used i hi hused
  obtain ⟨c, rfl⟩ := exists_encodeRow hr
  exact ⟨c, by rw [hentry, value_encodeRow], hrbits, hrcmp⟩

/-- The final check of a loop passes when every entry names a byte. -/
lemma checkFilled_eq_some {n : ℕ} (hlen : tbl.length = n) (h : ∀ i < n, (tbl.entry i).bits ≠ 0) :
    checkFilled tbl = some tbl := by
  unfold checkFilled
  rw [if_pos]
  rw [all_eq_true]
  intro e he
  obtain ⟨i, hi⟩ := get_of_mem he
  have hlt : i.1 < n := lt_of_lt_of_eq i.2 hlen
  have hne := h i.1 hlt
  have hentry : tbl.entry i.1 = e := by
    rw [← hi]
    simp [entry]
  rw [hentry] at hne
  simpa using hne

/-- What `init_huffman` leaves in the eight tables. -/
structure HuffmanTables.Ok (T : HuffmanTables) : Prop where
  decode0 : ∀ i < 256, EntryOk 0 (indexWord 8 0 0 i) (T.decode0.entry i)
  decodeFe : ∀ i < 256, EntryOk 8 (indexWord 8 8 0xfe i) (T.decodeFe.entry i)
  decodeFf : ∀ i < 256, EntryOk 8 (indexWord 8 8 0xff i) (T.decodeFf.entry i)
  decodeFffe : ∀ i < 256, EntryOk 16 (indexWord 8 16 0xfffe i) (T.decodeFffe.entry i)
  decodeFfff : ∀ i < 256, EntryOk 16 (indexWord 8 16 0xffff i) (T.decodeFfff.entry i)
  decodeFffff : ∀ i < 256, EntryOk 20 (indexWord 8 20 0xfffff i) (T.decodeFffff.entry i)
  decodeFffffe : ∀ i < 16, EntryOk 24 (indexWord 4 24 0xfffffe i) (T.decodeFffffe.entry i)
  decodeFfffff : ∀ i < 252, EntryOk 24 (indexWord 8 24 0xffffff i) (T.decodeFfffff.entry i)
  /-- The entries of the EOS code. -/
  decodeEos : ∀ i, 252 ≤ i → i < 256 → T.decodeFfffff.entry i = ⟨42, 42⟩

/-- The prefix of a table is a proper prefix of a code word. -/
def properPrefix (plen pre : ℕ) : Bool :=
  huffmanEncode.any fun row =>
    plen < row.bits && (row.encoding >>> (row.bits - plen)) % 2 ^ plen == pre

/-- The test `properPrefix` in terms of bit strings. -/
lemma exists_of_properPrefix {pre : ℕ} (h : properPrefix plen pre = true) :
    ∃ row ∈ huffmanEncode, plen < row.bits ∧ natBits plen pre <+: row.word := by
  simp only [properPrefix, any_eq_true, Bool.and_eq_true, decide_eq_true_eq, beq_iff_eq] at h
  obtain ⟨row, hrow, hbits, htest⟩ := h
  refine ⟨row, hrow, hbits, ?_⟩
  rw [HuffmanEncode.word_eq_append hbits, ← htest, natBits_mod_two_pow le_rfl]
  exact prefix_append _ _

/-- A loop with its final check: the table exists and every entry names a byte. -/
lemma fillTable_checked (w plen pre : ℕ) (long : Bool) (chk : ℕ → ℕ)
    (hlong : (long = true ∧ chk = id) ∨ ∀ row ∈ huffmanEncode,
      (row.encoding >>> (row.bits - plen)) % 2 ^ plen = pre → row.bits ≤ plen + w)
    (htable : pre < 2 ^ plen ∧ plen + w ≤ 32 ∧ properPrefix plen pre = true ∧
      ∀ i < 2 ^ w, (pre <<< w ||| i) <<< (32 - (plen + w)) < 2 ^ 32 - 4) :
    ∃ tbl, (fillTable w plen pre long chk = some tbl ∧
      (fillTable w plen pre long chk >>= checkFilled) = some tbl) ∧
      ∀ i < 2 ^ w, EntryOk plen (indexWord w plen pre i) (tbl.entry i) := by
  obtain ⟨hpre, hsize, hproper, hx⟩ := htable
  obtain ⟨tbl, hfill, hinv⟩ := fillTable_eq_some w plen pre long chk hpre hlong
  have hok : ∀ i < 2 ^ w, EntryOk plen (indexWord w plen pre i) (tbl.entry i) :=
    fun i hi => hinv.entryOk hsize (exists_of_properPrefix hproper) hi (hx i hi)
  refine ⟨tbl, ⟨hfill, ?_⟩, hok⟩
  rw [hfill]
  exact checkFilled_eq_some hinv.length fun i hi => (hok i hi).bits_ne_zero

/-- The entries after the EOS code has been claimed. -/
lemma entry_claimEos (hlen : tbl.length = 256) (i : ℕ) :
    (claimEos tbl).entry i = if 252 ≤ i ∧ i < 256 then ⟨42, 42⟩ else tbl.entry i := by
  unfold claimEos
  rw [entry_set _ (by simp [hlen]), entry_set _ (by simp [hlen]),
    entry_set _ (by simp [hlen]), entry_set _ (by simp [hlen])]
  by_cases h : 252 ≤ i ∧ i < 256
  · obtain rfl | rfl | rfl | rfl : i = 252 ∨ i = 253 ∨ i = 254 ∨ i = 255 := by omega
    all_goals simp
  · rw [if_neg h, if_neg (by omega), if_neg (by omega), if_neg (by omega), if_neg (by omega)]

/-- The loop for `huffman_decode_ffffff`, whose last four entries are claimed for the EOS code. -/
lemma initDecodeFfffff_ok : ∃ tbl, initDecodeFfffff = some tbl ∧
    (∀ i < 252, EntryOk 24 (indexWord 8 24 0xffffff i) (tbl.entry i)) ∧
    ∀ i, 252 ≤ i → i < 256 → tbl.entry i = ⟨42, 42⟩ := by
  obtain ⟨tbl, hfill, hinv⟩ := fillTable_eq_some 8 24 0xffffff false id (by decide)
    (.inr (by decide +kernel))
  have hlen : tbl.length = 256 := hinv.length
  have hok : ∀ i < 252, EntryOk 24 (indexWord 8 24 0xffffff i) ((claimEos tbl).entry i) := by
    have hx : ∀ i < 252, (0xffffff <<< 8 ||| i) <<< (32 - (24 + 8)) < 2 ^ 32 - 4 := by
      decide +kernel
    intro i hi
    rw [entry_claimEos hlen, if_neg (by omega)]
    exact hinv.entryOk (by decide) (exists_of_properPrefix (by decide +kernel)) (by omega) (hx i hi)
  have heos : ∀ i, 252 ≤ i → i < 256 → (claimEos tbl).entry i = ⟨42, 42⟩ := by
    intro i h1 h2
    rw [entry_claimEos hlen, if_pos ⟨h1, h2⟩]
  refine ⟨claimEos tbl, ?_, hok, heos⟩
  rw [initDecodeFfffff, hfill]
  refine checkFilled_eq_some (n := 256) (by simp [claimEos, hlen]) ?_
  intro i hi
  by_cases h : i < 252
  · exact (hok i h).bits_ne_zero
  · rw [heos i (by omega) hi]
    decide

/-- `init_huffman` never calls `fatal`, and every entry it leaves names the right byte. -/
theorem initHuffman_ok : ∃ T, initHuffman = some T ∧ T.Ok := by
  obtain ⟨t0, ⟨h0, _⟩, ok0⟩ := fillTable_checked 8 0 0 true id (.inl ⟨rfl, rfl⟩) (by decide +kernel)
  obtain ⟨tfe, ⟨_, hfe⟩, okfe⟩ := fillTable_checked 8 8 0xfe false id (.inr (by decide +kernel))
    (by decide +kernel)
  obtain ⟨tff, ⟨_, hff⟩, okff⟩ := fillTable_checked 8 8 0xff true id (.inl ⟨rfl, rfl⟩)
    (by decide +kernel)
  obtain ⟨tfffe, ⟨_, hfffe⟩, okfffe⟩ := fillTable_checked 8 16 0xfffe false id
    (.inr (by decide +kernel)) (by decide +kernel)
  obtain ⟨tffff, ⟨_, hffff⟩, okffff⟩ := fillTable_checked 8 16 0xffff true id (.inl ⟨rfl, rfl⟩)
    (by decide +kernel)
  obtain ⟨tfffff, ⟨_, hfffff⟩, okfffff⟩ := fillTable_checked 8 20 0xfffff true id
    (.inl ⟨rfl, rfl⟩) (by decide +kernel)
  -- here the check of an entry in use is the wrong one, but no entry is asked for twice
  obtain ⟨tfffffe, ⟨_, hfffffe⟩, okfffffe⟩ := fillTable_checked 4 24 0xfffffe true
    (fun _ => byteAfterFffff) (.inr (by decide +kernel)) (by decide +kernel)
  obtain ⟨tffffff, hffffff, okffffff, okeos⟩ := initDecodeFfffff_ok
  refine ⟨⟨t0, tfe, tff, tfffe, tffff, tfffff, tfffffe, tffffff⟩, ?_,
    ⟨ok0, okfe, okff, okfffe, okffff, okfffff, okfffffe, okffffff, okeos⟩⟩
  have hvalues : checkValues = some () := if_pos map_value_huffmanEncode
  rw [initHuffman, hvalues, initDecode0, h0, initDecodeFe, hfe, initDecodeFf, hff, initDecodeFffe,
    hfffe, initDecodeFfff, hffff, initDecodeFffff, hfffff, initDecodeFffffe, hfffffe, hffffff]
  rfl

/-- The tables the decoder runs on. -/
def huffmanTables : HuffmanTables :=
  initHuffman.get (by obtain ⟨T, hT, _⟩ := initHuffman_ok; rw [hT]; rfl)

/-- The tables the decoder runs on are those `init_huffman` builds. -/
lemma initHuffman_eq_some : initHuffman = some huffmanTables := (Option.some_get _).symm

/-- Every entry of the decoder's tables names the right byte. -/
lemma huffmanTables_ok : huffmanTables.Ok := by
  obtain ⟨T, hT, hok⟩ := initHuffman_ok
  rw [initHuffman_eq_some, Option.some.injEq] at hT
  rw [hT]
  exact hok

end AtlasProbe.Http2
