import AtlasProbe.Http2.Padding
import Mathlib.Tactic.Ring

/-!
# Literal header fields

A literal header field has a name, either a string or an index, and a value, and each of the two
strings may be raw or Huffman-coded.  This module gives the bytes of such a field and shows what
`Xdecode_header2` makes of them: it decodes the name and the value and stores the two, whatever
follows the field (`xDecodeHeader2_fieldBytes`).
-/

namespace AtlasProbe.Http2

open List

variable (u : Platform)

/-! ### Integers -/

/-- The bits that a continuation byte shifts in are all there. -/
lemma shiftIn_of_lt {newBits shift : ℕ} (hshift : shift < 32) (h : newBits <<< shift < 2 ^ 32) :
    shiftIn u newBits shift = some (newBits <<< shift) := by
  unfold shiftIn
  rw [if_pos hshift]
  dsimp only
  rw [Nat.mod_eq_of_lt h, Nat.shiftLeft_shiftRight, if_neg (not_not.mpr rfl)]

/-- A continuation byte that is not the last one. -/
lemma toNat_continuation (m : ℕ) :
    (UInt8.ofNat (0x80 ||| (m &&& 0x7f))).toNat = 128 + m % 128 := by
  have hlt : m % 128 < 2 ^ 7 := Nat.mod_lt _ (by decide)
  have hor : 0x80 ||| m % 128 = 128 + m % 128 := (Nat.shiftLeft_add_eq_or_of_lt hlt 1).symm
  rw [show m &&& 0x7f = m % 128 from Nat.and_two_pow_sub_one_eq_mod m 7, hor]
  exact UInt8.toNat_ofNat_of_lt' (Nat.add_lt_add_left hlt 128)

/-- The two parts of a continuation byte. -/
lemma and_continuation (m : ℕ) :
    (128 + m % 128) &&& 0x7f = m % 128 ∧ (128 + m % 128) &&& 0x80 ≠ 0 := by
  have hall : ∀ k < 128, (128 + k) &&& 0x7f = k ∧ (128 + k) &&& 0x80 ≠ 0 := by decide
  exact hall _ (Nat.mod_lt _ (by decide))

/-- A shift by 32 bits is too large for the value. -/
lemma shift_lt {o m : ℕ} (hfirst : o = 0 ∨ 0 < m) (h : m * 2 ^ (o * 7) < 2 ^ 32) : o * 7 < 32 := by
  rcases hfirst with rfl | hpos
  · decide
  · by_contra hge
    have hbig : 2 ^ 32 ≤ 2 ^ (o * 7) := Nat.pow_le_pow_right (by decide) (not_lt.mp hge)
    have hmul : 2 ^ (o * 7) ≤ m * 2 ^ (o * 7) := Nat.le_mul_of_pos_left _ hpos
    omega

/-- The continuation bytes of an integer are read back. -/
lemma decodeIntLoop_lengthLoopBytes {len maxValue m o v : ℕ} (rest : Bytes) (c : Conn)
    (hfirst : o = 0 ∨ 0 < m) (hv : v < 2 ^ (o * 7))
    (hsum : v + m * 2 ^ (o * 7) + maxValue < 2 ^ 32)
    (hlen : o + 1 + (lengthLoopBytes m).length ≤ len) :
    decodeIntLoop u len maxValue (lengthLoopBytes m ++ rest) (o + 1) v c =
      .ok (o + 1 + (lengthLoopBytes m).length, v + m * 2 ^ (o * 7) + maxValue) c := by
  induction m using lengthLoopBytes.induct generalizing o v with
  | case1 m hmore ih =>
    have hshift : o * 7 < 32 := shift_lt hfirst (by omega)
    obtain ⟨hlow, hhigh⟩ := and_continuation m
    have hsplit : m = 128 * (m / 128) + m % 128 := (Nat.div_add_mod m 128).symm
    have hnext : 2 ^ ((o + 1) * 7) = 128 * 2 ^ (o * 7) := by
      rw [Nat.add_mul, Nat.pow_add]
      omega
    have hvalue : m * 2 ^ (o * 7) = m / 128 * 2 ^ ((o + 1) * 7) + m % 128 * 2 ^ (o * 7) := by
      nth_rewrite 1 [hsplit]
      ring
    have hnew : (m % 128) <<< (o * 7) = m % 128 * 2 ^ (o * 7) := Nat.shiftLeft_eq _ _
    have hdiv : 0 < m / 128 := Nat.div_pos (by omega) (by decide)
    have hmod : m % 128 * 2 ^ (o * 7) ≤ 127 * 2 ^ (o * 7) := Nat.mul_le_mul_right _ (by omega)
    rw [lengthLoopBytes, if_pos hmore, length_cons] at hlen ⊢
    rw [cons_append, decodeIntLoop, if_pos (by omega), toNat_continuation, hlow,
      Nat.add_sub_cancel, shiftIn_of_lt u hshift (by rw [hnew]; omega)]
    dsimp only
    rw [if_pos hhigh, Nat.or_comm, ← Nat.shiftLeft_add_eq_or_of_lt hv]
    have hshiftRight : m >>> 7 = m / 128 := Nat.shiftRight_eq_div_pow m 7
    rw [hshiftRight] at hlen ih ⊢
    rw [ih (.inr hdiv) (by rw [hnext]; omega) (by omega) (by omega)]
    congr 2 <;> omega
  | case2 m hless =>
    have hshift : o * 7 < 32 := shift_lt hfirst (by omega)
    have hbyte : (UInt8.ofNat m).toNat = m :=
      UInt8.toNat_ofNat_of_lt' (lt_of_le_of_lt (not_lt.mp hless) (by decide))
    have hall : ∀ k < 128, k &&& 0x7f = k ∧ k &&& 0x80 = 0 := by decide
    obtain ⟨hlow, hhigh⟩ := hall m (by omega)
    have hnew : m <<< (o * 7) = m * 2 ^ (o * 7) := Nat.shiftLeft_eq _ _
    rw [lengthLoopBytes, if_neg hless, length_singleton] at hlen ⊢
    rw [cons_append, decodeIntLoop, if_pos (by omega), hbyte, hlow, Nat.add_sub_cancel,
      shiftIn_of_lt u hshift (by rw [hnew]; omega)]
    dsimp only
    rw [if_neg (not_not.mpr hhigh), Nat.or_comm, ← Nat.shiftLeft_add_eq_or_of_lt hv, hnew,
      Nat.add_comm (m * 2 ^ (o * 7)) v, Nat.mod_eq_of_lt hsum, if_neg (by omega)]
    rfl

lemma readByte_cons_bind {α : Type} (b : UInt8) (buf : Bytes) (f : UInt8 → Handler α) :
    (readByte (b :: buf) >>= f) = f b := rfl

/-- What the first byte of an integer says, for the prefixes and flags of literals. -/
structure IsFlag (prefixLen prefixValue : ℕ) : Prop where
  first : ∀ value < 2 ^ (8 - prefixLen), (UInt8.ofNat (prefixValue ||| value)).toNat &&&
    (2 ^ (8 - prefixLen) - 1) = value

variable {len index : ℕ} {coding : Coding} {value : Bytes} (prefixLen prefixValue : ℕ)

/-- The integers that the encoder writes are read back. -/
lemma xDecodeInt2_lengthBytes {prefixLen prefixValue : ℕ} (hflag : IsFlag prefixLen prefixValue)
    {value : ℕ} (hvalue : value < 2 ^ 32)
    (hlen : (lengthBytes prefixLen prefixValue value).length ≤ len) (rest : Bytes) (c : Conn) :
    xDecodeInt2 u (lengthBytes prefixLen prefixValue value ++ rest) len prefixLen c =
      .ok ((lengthBytes prefixLen prefixValue value).length, value) c := by
  unfold lengthBytes at hlen ⊢
  have hpos : 0 < 2 ^ (8 - prefixLen) := Nat.two_pow_pos _
  by_cases hsmall : value < 2 ^ (8 - prefixLen) - 1
  · have hfirst := hflag.first value (by omega)
    rw [if_pos hsmall, cons_append, xDecodeInt2, readByte_cons_bind, hfirst, if_pos hsmall]
    rfl
  · have hfirst := hflag.first (2 ^ (8 - prefixLen) - 1) (by omega)
    rw [if_neg hsmall] at hlen ⊢
    rw [length_cons] at hlen
    rw [cons_append, xDecodeInt2, readByte_cons_bind, hfirst,
      if_neg (lt_irrefl _), drop_succ_cons, drop_zero]
    rw [decodeIntLoop_lengthLoopBytes u rest c (.inl rfl) (Nat.two_pow_pos _) (by omega) (by omega),
      length_cons]
    congr 2 <;> omega

/-! ### Strings -/

/-- How a string literal is written. -/
inductive Coding where
  | raw
  | huffman
  deriving DecidableEq

/-- The first bit of a string literal. -/
def Coding.flag : Coding → ℕ
  | raw => 0x00
  | huffman => 0x80

/-- The bytes behind the length of a string literal. -/
def Coding.payload : Coding → Bytes → Bytes
  | raw, s => s
  | huffman, s => enc s

/-- The bytes of a string literal. -/
def stringBytes (coding : Coding) (s : Bytes) : Bytes :=
  lengthBytes 1 coding.flag (coding.payload s).length ++ coding.payload s

/-- What the decoder makes of a string literal: a raw string is taken as it is, unless it is a name
that is too long, and a Huffman-coded one is decoded. -/
def literal (coding : Coding) (s : Bytes) (cap : ℕ) (isName : Bool) :
    Handler Bytes :=
  match coding with
  | .raw =>
    if isName = true ∧ cap < s.length then goaway .compressionError "name too long" else pure s
  | .huffman => huffmanString u (enc s) (enc s).length cap

lemma isFlag_coding (coding : Coding) : IsFlag 1 coding.flag := by
  cases coding <;> exact ⟨by decide +kernel⟩

/-- The first byte of an integer. -/
lemma lengthBytes_first {m n : ℕ} (hn : m ≤ n) {P : UInt8 → Prop} (hm : m < 2 ^ (8 - prefixLen))
    (hP : ∀ value < 2 ^ (8 - prefixLen), m ≤ value → P (UInt8.ofNat (prefixValue ||| value))) :
    ∃ b l, lengthBytes prefixLen prefixValue n = b :: l ∧ P b := by
  unfold lengthBytes
  by_cases hsmall : n < 2 ^ (8 - prefixLen) - 1
  · rw [if_pos hsmall]
    exact ⟨_, _, rfl, hP n (by omega) hn⟩
  · rw [if_neg hsmall]
    exact ⟨_, _, rfl, hP _ (by omega) (by omega)⟩

/-- The first bit of a string literal says how it is written. -/
lemma lengthBytes_flag (coding : Coding) (n : ℕ) : ∃ b l, lengthBytes 1 coding.flag n = b :: l ∧
    (b.toNat &&& 0x80 = 0x80 ↔ coding = .huffman) := by
  refine lengthBytes_first 1 coding.flag n.zero_le (by decide) ?_
  cases coding <;> decide +kernel

lemma readBytes_front (s rest : Bytes) : readBytes (s ++ rest) s.length = pure s := by
  unfold readBytes
  rw [if_pos (by rw [length_append]; omega), take_left]

/-- A string literal is decoded wherever it stands. -/
lemma decodeString_stringBytes (coding : Coding) {s : Bytes}
    (hs : (coding.payload s).length < 2 ^ 32) (pre rest : Bytes)
    (hlen : pre.length + (stringBytes coding s).length ≤ len) (cap : ℕ) (isName : Bool) :
    decodeString u (pre ++ (stringBytes coding s ++ rest)) len pre.length cap isName =
      literal u coding s cap isName >>= fun str =>
        pure (str, pre.length + (stringBytes coding s).length) := by
  obtain ⟨b, l, hcons, hbit⟩ := lengthBytes_flag coding (coding.payload s).length
  have hsum : (stringBytes coding s).length =
      (lengthBytes 1 coding.flag (coding.payload s).length).length + (coding.payload s).length :=
    length_append
  have hpos : 0 < (lengthBytes 1 coding.flag (coding.payload s).length).length := by
    rw [hcons]
    exact Nat.succ_pos _
  have hfirst : readByte (stringBytes coding s ++ rest) = pure b := by
    rw [stringBytes, hcons]
    rfl
  have hdrop : (pre ++ (stringBytes coding s ++ rest)).drop (pre.length +
      (lengthBytes 1 coding.flag (coding.payload s).length).length) = coding.payload s ++ rest := by
    rw [← drop_drop, drop_left, stringBytes, append_assoc, drop_left]
  funext c
  have hroom : (lengthBytes 1 coding.flag (coding.payload s).length).length ≤ len - pre.length := by
    omega
  have hint := xDecodeInt2_lengthBytes u (isFlag_coding coding) hs hroom
    (coding.payload s ++ rest) c
  rw [← append_assoc, ← stringBytes] at hint
  unfold decodeString
  rw [if_neg (by omega), drop_left, hfirst]
  change (xDecodeInt2 u (stringBytes coding s ++ rest) (len - pre.length) 1 >>= _) c = _
  rw [bind_apply_ok hint]
  dsimp only
  rw [if_neg (by omega), hdrop, hsum, ← Nat.add_assoc]
  cases coding with
  | raw =>
    have hclear : ¬ b.toNat &&& 0x80 = 0x80 := fun h => nomatch hbit.mp h
    rw [if_neg hclear, literal]
    change (if isName = true ∧ cap < s.length then _ else _ : Handler (Bytes × ℕ)) c = _
    split
    · rfl
    · change (readBytes (s ++ rest) s.length >>= _) c = _
      rw [readBytes_front]
  | huffman =>
    have hread : huffmanString u (enc s ++ rest) (enc s).length cap =
        huffmanString u (enc s) (enc s).length cap :=
      huffmanString_append u (k := 0) le_rfl rest cap
    rw [if_pos (hbit.mpr rfl), literal]
    change (huffmanString u (enc s ++ rest) (enc s).length cap >>= _) c = _
    rw [hread]

/-! ### Fields -/

/-- How the name of a literal field is given. -/
inductive FieldName where
  | new (coding : Coding) (name : Bytes)
  | indexed (index : ℕ)

/-- The bytes of a literal field, with or without incremental indexing. -/
def fieldBytes (indexing : Bool) (name : FieldName) (coding : Coding) (value : Bytes) :
    Bytes :=
  match name with
  | .new c str => (if indexing then 0x40 else 0x00) ::
    (stringBytes c str ++ stringBytes coding value)
  | .indexed index =>
    (if indexing then lengthBytes 2 0x40 index else lengthBytes 4 0x00 index) ++
      stringBytes coding value

/-- The name can be written: lengths and indices have 32 bits, and zero is no index. -/
def FieldName.Fits : FieldName → Prop
  | new coding name => (coding.payload name).length < 2 ^ 32
  | indexed index => 1 ≤ index ∧ index < 2 ^ 32

/-- What the decoder makes of the name. -/
def FieldName.decode : FieldName → Handler Bytes
  | new coding name => do
    let namebuf ← literal u coding name 255 true
    pure (cString namebuf)
  | indexed index => indexedName index

/-- Whether the decoder adds the field to the table. -/
def FieldName.adds (indexing : Bool) : FieldName → Bool
  | new _ _ => true
  | indexed _ => indexing

/-- What the decoder does with the name and the value of a literal field. -/
def storeField (added : Bool) (name value : Bytes) : Handler Unit := do
  if added then addDyn name value else pure ()
  xReportHeader name value

/-- The decoder of a field with a new name. -/
lemma decodeNewName_fieldBytes (b : UInt8) {c : Coding} {str : Bytes}
    (hname : (c.payload str).length < 2 ^ 32) (hvalue : (coding.payload value).length < 2 ^ 32)
    (rest : Bytes)
    (hlen : 1 + (stringBytes c str).length + (stringBytes coding value).length ≤ len) :
    decodeNewName u (b :: (stringBytes c str ++ (stringBytes coding value ++ rest))) len =
      (FieldName.new c str).decode u >>= fun name =>
        literal u coding value 1024 false >>= fun v =>
          storeField true name v >>= fun _ =>
            pure (1 + (stringBytes c str).length + (stringBytes coding value).length) := by
  have hpre : (b :: stringBytes c str).length = 1 + (stringBytes c str).length := by
    rw [length_cons, Nat.add_comm]
  have hroom : [b].length + (stringBytes c str).length ≤ len := by
    rw [length_singleton]
    omega
  have hfirst := decodeString_stringBytes u c hname [b] (stringBytes coding value ++ rest) hroom
    255 true
  have hsecond := decodeString_stringBytes u coding hvalue (b :: stringBytes c str) rest
    (hpre ▸ hlen) 1024 false
  rw [hpre, cons_append] at hsecond
  unfold decodeNewName FieldName.decode storeField
  change (decodeString u ([b] ++ (stringBytes c str ++ (stringBytes coding value ++ rest))) len
    [b].length 255 true >>= _) = _
  rw [hfirst]
  simp only [bind_assoc, pure_bind, length_singleton, hsecond]
  rfl

/-- The decoder of a field with an indexed name. -/
lemma decodeIndexedName_fieldBytes (hflag : IsFlag prefixLen prefixValue) (indexing : Bool)
    (hindex : 1 ≤ index) (hlt : index < 2 ^ 32) (hvalue : (coding.payload value).length < 2 ^ 32)
    (rest : Bytes)
    (hlen : (lengthBytes prefixLen prefixValue index).length + (stringBytes coding value).length ≤
      len) :
    decodeIndexedName u prefixLen indexing
        (lengthBytes prefixLen prefixValue index ++ (stringBytes coding value ++ rest)) len =
      indexedName index >>= fun name => literal u coding value 1024 false >>= fun v =>
        storeField indexing name v >>= fun _ =>
          pure ((lengthBytes prefixLen prefixValue index).length +
            (stringBytes coding value).length) := by
  have hstr := decodeString_stringBytes u coding hvalue (lengthBytes prefixLen prefixValue index)
    rest hlen 1024 false
  have hroom : (lengthBytes prefixLen prefixValue index).length ≤ len := by omega
  funext c
  have hint := xDecodeInt2_lengthBytes u hflag hlt hroom (stringBytes coding value ++ rest) c
  unfold decodeIndexedName storeField
  rw [bind_apply_ok hint]
  dsimp only
  rw [if_neg (by omega), hstr]
  cases indexing with
  | true => simp only [bind_assoc, pure_bind, if_true]
  | false => simp only [bind_assoc, pure_bind, Bool.false_eq_true, if_false]

/-- A literal field is decoded from its parts, whatever follows it. -/
theorem xDecodeHeader2_fieldBytes (indexing : Bool) {name : FieldName} (hname : name.Fits)
    {coding : Coding} {value : Bytes} (hvalue : (coding.payload value).length < 2 ^ 32)
    (rest : Bytes) (hlen : (fieldBytes indexing name coding value).length ≤ len) :
    xDecodeHeader2 u (fieldBytes indexing name coding value ++ rest) len =
      name.decode u >>= fun key => literal u coding value 1024 false >>= fun v =>
        storeField (name.adds indexing) key v >>= fun _ =>
          pure (fieldBytes indexing name coding value).length := by
  cases name with
  | new c str =>
    have hsum : (fieldBytes indexing (.new c str) coding value).length =
        1 + (stringBytes c str).length + (stringBytes coding value).length := by
      rw [fieldBytes, length_cons, length_append]
      omega
    have hfield := fun b => decodeNewName_fieldBytes u b hname hvalue rest (hsum ▸ hlen)
    rw [hsum, fieldBytes, cons_append, append_assoc]
    cases indexing with
    | true => exact hfield 0x40
    | false => exact hfield 0x00
  | indexed index =>
    obtain ⟨hindex, hlt⟩ := hname
    cases indexing with
    | true =>
      obtain ⟨b, l, hcons, htop, hnew, hnew', hbits⟩ := lengthBytes_first 2 0x40 hindex
        (P := fun b => b.toNat &&& 0x80 ≠ 0x80 ∧ b ≠ 0x40 ∧ b ≠ 0x00 ∧ b.toNat &&& 0xC0 = 0x40)
        (by decide) (by decide +kernel)
      have hfield := decodeIndexedName_fieldBytes u 2 0x40 ⟨by decide +kernel⟩ true hindex hlt
        hvalue rest (length_append ▸ hlen)
      rw [fieldBytes, length_append, append_assoc, if_pos rfl]
      rw [hcons] at hfield ⊢
      rw [xDecodeHeader2, cons_append, readByte_cons_bind, if_neg htop,
        if_neg (by simp [hnew, hnew']), if_pos hbits]
      exact hfield
    | false =>
      obtain ⟨b, l, hcons, htop, hnew, hnew', hbits, hlow⟩ := lengthBytes_first 4 0x00 hindex
        (P := fun b => b.toNat &&& 0x80 ≠ 0x80 ∧ b ≠ 0x40 ∧ b ≠ 0x00 ∧
          b.toNat &&& 0xC0 ≠ 0x40 ∧ b.toNat &&& 0xF0 = 0x00)
        (by decide) (by decide +kernel)
      have hfield := decodeIndexedName_fieldBytes u 4 0x00 ⟨by decide +kernel⟩ false hindex hlt
        hvalue rest (length_append ▸ hlen)
      rw [fieldBytes, length_append, append_assoc, if_neg Bool.false_ne_true]
      rw [hcons] at hfield ⊢
      rw [xDecodeHeader2, cons_append, readByte_cons_bind, if_neg htop,
        if_neg (by simp [hnew, hnew']), if_neg hbits, if_pos hlow]
      exact hfield

end AtlasProbe.Http2
