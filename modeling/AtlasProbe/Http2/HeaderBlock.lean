import AtlasProbe.Http2.HuffmanLiteral

/-!
# Header blocks

What a server sends in a HEADERS frame, and what the source makes of it.  A header field
(`SentField`) stands for a header in HPACK (`SentField.header`) and has bytes (`SentField.bytes`).
A field is plain (`SentField.Plain`) if it does not use the dynamic table, its name has no zero byte
and none of its Huffman-coded strings ends unpadded.  `Frame.Carries` says that the payload of a
HEADERS frame consists of plain fields, behind the bytes that its flags ask for and without padding.

The decoder reads back what was sent: a plain field is refused or reported as what it stands for
(`wp_xDecodeHeader2_bytes`), and so is a whole block (`wp_decodeBlock`) and a whole frame
(`wp_xReceiveHeaders2`).  The static table of the source misspells two names of HPACK; this makes no
difference to the two headers that the source looks at (`header_hpackTable`).
-/

namespace AtlasProbe.Http2

open List

/-! ### The fields that a server sends -/

/-- The static table of HPACK; the source has other names for two of the entries. -/
def hpackTable : List TableEnt :=
  (staticTable.set 19 ⟨"access-control-allow-origin", none⟩).set 47 ⟨"proxy-authenticate", none⟩

/-- The entry of a static table with an index from 1 to 61. -/
def entry (table : List TableEnt) (index : ℕ) : TableEnt := table.getD (index - 1) ⟨"", none⟩

/-- A header field: the index of a header, or a literal one. -/
inductive SentField where
  | indexed (index : ℕ)
  | literal (indexing : Bool) (name : FieldName) (coding : Coding) (value : Bytes)

/-- The bytes of a field. -/
def SentField.bytes : SentField → Bytes
  | indexed index => lengthBytes 1 0x80 index
  | literal indexing name coding value => fieldBytes indexing name coding value

/-- The name of a literal field. -/
def FieldName.text (table : List TableEnt) : FieldName → Bytes
  | new _ name => name
  | indexed index => ascii (entry table index).name

/-- The name and the value that a field stands for. -/
def SentField.header (table : List TableEnt) : SentField → Bytes × Bytes
  | indexed index => (ascii (entry table index).name, ascii ((entry table index).value.getD ""))
  | literal _ name _ value => (name.text table, value)

/-- The string may be written in this way. -/
def Coding.Plain (coding : Coding) (s : Bytes) : Prop := coding = .huffman → ¬ EndsUnpadded s

/-- The name is a string without a zero byte or the name of a static entry. -/
def FieldName.Plain : FieldName → Prop
  | new coding name => 0 ∉ name ∧ coding.Plain name
  | indexed index => 1 ≤ index ∧ index ≤ 61

/-- The field does not use the dynamic table, and its strings are plain. -/
def SentField.Plain : SentField → Prop
  | indexed index => 1 ≤ index ∧ index ≤ 61
  | literal _ name coding value => name.Plain ∧ coding.Plain value

/-- The payload of a HEADERS frame consists of plain fields, behind a pad length of zero and the
priority fields if the flags ask for them. -/
def Frame.Carries (f : Frame) (fields : List SentField) : Prop :=
  (∀ x ∈ fields, x.Plain) ∧ ∃ prio, prio.length = prioLength f.flags ∧
    f.payload = (if padded f.flags then [0] else []) ++ (prio ++ fields.flatMap SentField.bytes)

/-- The names that the source looks at are not misspelled. -/
lemma entry_hpackTable (index : ℕ) :
    (entry hpackTable index).value = (entry staticTable index).value ∧
      ∀ key ∈ [ascii ":status", ascii "content-type"],
        (ascii (entry hpackTable index).name = key ↔
          ascii (entry staticTable index).name = key) := by
  have hall : ∀ i < 61, (hpackTable.getD i ⟨"", none⟩).value =
      (staticTable.getD i ⟨"", none⟩).value ∧ ∀ key ∈ [ascii ":status", ascii "content-type"],
        (ascii (hpackTable.getD i ⟨"", none⟩).name = key ↔
          ascii (staticTable.getD i ⟨"", none⟩).name = key) := by decide +kernel
  by_cases hi : index - 1 < 61
  · exact hall _ hi
  · have hnone : ∀ table : List TableEnt, table.length = 61 → entry table index = ⟨"", none⟩ :=
      fun table hlen => getD_eq_default _ _ (by omega)
    rw [hnone hpackTable (by decide), hnone staticTable (by decide)]
    exact ⟨rfl, fun _ _ => Iff.rfl⟩

/-- A field stands for the same value with both tables, and for the same header if the source looks
at it. -/
lemma header_hpackTable (x : SentField) :
    (x.header hpackTable).2 = (x.header staticTable).2 ∧
      ∀ key ∈ [ascii ":status", ascii "content-type"],
        ((x.header hpackTable).1 = key ↔ (x.header staticTable).1 = key) := by
  cases x with
  | indexed index =>
    obtain ⟨hvalue, hname⟩ := entry_hpackTable index
    exact ⟨by rw [SentField.header, SentField.header, hvalue], hname⟩
  | literal indexing name coding value =>
    refine ⟨rfl, ?_⟩
    cases name with
    | new c str => exact fun _ _ => Iff.rfl
    | indexed index => exact (entry_hpackTable index).2

/-! ### Decoding a field -/

variable (u : Platform) {c : Conn}

/-- A plain string is decoded to itself, or it is refused. -/
lemma Coding.Plain.literalText_eq {coding : Coding} {s v : Bytes} (h : coding.Plain s) {cap : ℕ}
    {isName : Bool} (hv : literalText u coding s cap isName = some v) : v = s := by
  obtain ⟨v', -, ⟨rfl, -⟩ | ⟨hcoding, hend, -⟩⟩ := literalText_eq_some u hv 1
  · rfl
  · exact absurd hend (h hcoding)

/-- So is a plain name. -/
lemma FieldName.Plain.key_eq {name : FieldName} (h : name.Plain) {dyn : List Dyn} {key : Bytes}
    (hkey : name.key u dyn = some key) : key = name.text staticTable := by
  cases name with
  | new coding str =>
    obtain ⟨v, hv, rfl⟩ := Option.map_eq_some_iff.mp hkey
    rw [h.2.literalText_eq u hv]
    exact cString_eq_self h.1
  | indexed index =>
    rw [FieldName.key, if_neg (not_lt.mpr h.2)] at hkey
    exact (Option.some.inj hkey).symm

/-- A literal has a byte. -/
lemma lengthBytes_ne_nil (prefixLen prefixValue n : ℕ) :
    lengthBytes prefixLen prefixValue n ≠ [] := by
  unfold lengthBytes
  dsimp only
  split <;> exact cons_ne_nil _ _

lemma bytes_ne_nil (x : SentField) : x.bytes ≠ [] := by
  cases x with
  | indexed index => exact lengthBytes_ne_nil _ _ _
  | literal indexing name coding value =>
    cases name with
    | new c str => exact cons_ne_nil _ _
    | indexed index =>
      refine append_ne_nil_of_left_ne_nil ?_ _
      split <;> exact lengthBytes_ne_nil _ _ _

/-- The parts of a literal field are not longer than the field. -/
lemma length_payload_le {indexing : Bool} {name : FieldName} {coding : Coding}
    {value : Bytes} (hname : name.Plain)
    (h : (fieldBytes indexing name coding value).length < 2 ^ 32) :
    name.Fits ∧ (coding.payload value).length < 2 ^ 32 := by
  cases name with
  | new c str =>
    simp only [fieldBytes, stringBytes, length_cons, length_append] at h
    exact ⟨by unfold FieldName.Fits; omega, by omega⟩
  | indexed index =>
    simp only [fieldBytes, stringBytes, length_append] at h
    obtain ⟨hpos, hle⟩ := hname
    exact ⟨⟨hpos, by omega⟩, by omega⟩

/-- The index of a header of the static table. -/
lemma wp_decodeIndexed_bytes {index len : ℕ} (hpos : 1 ≤ index) (hle : index ≤ 61)
    (hlen : (lengthBytes 1 0x80 index).length ≤ len) (rest : Bytes) (c : Conn) :
    Wp (decodeIndexed u (lengthBytes 1 0x80 index ++ rest) len) c
      (fun n c' => n = (lengthBytes 1 0x80 index).length ∧
        reports c'.log = reports c.log ++ [(SentField.indexed index).header staticTable])
      fun _ _ => True := by
  have hint : Wp (xDecodeInt2 u (lengthBytes 1 0x80 index ++ rest) len 1) c
      (fun r c' => r = ((lengthBytes 1 0x80 index).length, index) ∧ c' = c) fun _ _ => True := by
    have hok := xDecodeInt2_lengthBytes u (isFlag_coding .huffman) (by omega : index < 2 ^ 32) hlen
      rest c
    unfold Wp
    rw [show (0x80 : ℕ) = Coding.huffman.flag from rfl, hok]
    exact ⟨rfl, rfl⟩
  refine hint.bind ?_
  rintro _ _ ⟨rfl, rfl⟩
  refine wp_ite (fun _ => trivial) fun _ => wp_ite (fun h => absurd h (not_lt.mpr hle)) fun _ => ?_
  cases hvalue : (staticEntry index).value with
  | none => trivial
  | some entValue =>
    refine (wp_storeField true _ _ _).seq (fun _ _ _ => trivial) fun _ c' hstored => ⟨rfl, ?_⟩
    change (entry staticTable index).value = some entValue at hvalue
    rw [reports_of_stored hstored, SentField.header, hvalue]
    rfl

/-- A plain field is refused, or it is reported as what it stands for. -/
lemma wp_xDecodeHeader2_bytes {x : SentField} (hx : x.Plain) {len : ℕ} (hlen : x.bytes.length ≤ len)
    (hlt : len < 2 ^ 32) (rest : Bytes) (c : Conn) :
    Wp (xDecodeHeader2 u (x.bytes ++ rest) len) c
      (fun n c' => n = x.bytes.length ∧
        reports c'.log = reports c.log ++ [x.header staticTable]) fun _ _ => True := by
  cases x with
  | indexed index =>
    obtain ⟨b, l, hcons, hbit⟩ := lengthBytes_flag .huffman index
    have hindexed := wp_decodeIndexed_bytes u hx.1 hx.2 hlen rest c
    change lengthBytes 1 0x80 index = b :: l at hcons
    rw [SentField.bytes] at hlen ⊢
    rw [hcons] at hindexed ⊢
    rw [xDecodeHeader2, cons_append, readByte_cons_bind, if_pos (hbit.mpr rfl)]
    exact hindexed
  | literal indexing name coding value =>
    obtain ⟨hname, hvalue⟩ := hx
    obtain ⟨hfits, hpayload⟩ := length_payload_le hname (lt_of_le_of_lt hlen hlt)
    rw [SentField.bytes, xDecodeHeader2_fieldBytes u indexing hfits hpayload rest hlen]
    refine (wp_decode u name c).seq (fun _ _ _ => trivial) ?_
    rintro key c₁ ⟨hkey, hc₁⟩
    obtain rfl := hname.key_eq u hkey
    refine (wp_literal u coding value 1024 false c₁).seq (fun _ _ _ => trivial) ?_
    rintro v c₂ ⟨hv, hc₂⟩
    obtain rfl := hvalue.literalText_eq u hv
    refine (wp_storeField _ _ _ c₂).seq (fun _ _ _ => trivial) fun _ c₃ hstored => ⟨rfl, ?_⟩
    rw [reports_of_stored hstored, hc₂.reports, hc₁.reports]
    rfl

/-! ### Decoding a block -/

/-- A block of plain fields is refused, or its headers are reported. -/
lemma wp_decodeBlock {fields : List SentField} (hfields : ∀ x ∈ fields, x.Plain) :
    ∀ (fuel : ℕ) (c : Conn), (fields.flatMap SentField.bytes).length ≤ fuel →
      (fields.flatMap SentField.bytes).length < 2 ^ 32 →
      Wp (decodeBlock u fuel (fields.flatMap SentField.bytes)) c
        (fun _ c' => reports c'.log =
          reports c.log ++ fields.map (SentField.header staticTable)) fun _ _ => True := by
  induction fields with
  | nil =>
    intro fuel c _ _
    cases fuel <;> exact (append_nil _).symm
  | cons x fields ih =>
    intro fuel c hfuel hlt
    have hpos := length_pos_iff.mpr (bytes_ne_nil x)
    rw [flatMap_cons] at hfuel hlt ⊢
    rw [length_append] at hfuel hlt
    obtain ⟨fuel, rfl⟩ : ∃ k, fuel = k + 1 := ⟨fuel - 1, by omega⟩
    rw [decodeBlock, if_neg (append_ne_nil_of_left_ne_nil (bytes_ne_nil x) _)]
    refine (wp_xDecodeHeader2_bytes u (hfields x mem_cons_self) (by rw [length_append]; omega)
      (by rw [length_append]; omega) _ c).bind ?_
    rintro _ c₁ ⟨rfl, hc₁⟩
    rw [drop_left]
    refine (ih (fun y hy => hfields y (mem_cons_of_mem _ hy)) fuel c₁ (by omega) (by omega)).mono
      (fun _ c₂ hc₂ => ?_) fun _ _ h => h
    rw [hc₂, hc₁, map_cons, append_assoc, singleton_append]

/-- A HEADERS frame that carries plain fields is refused, or their headers are reported. -/
lemma wp_xReceiveHeaders2 {f : Frame} {length : ℕ} {buf : Bytes} {fields : List SentField}
    (hmemory : f.InMemory length buf) (hcarries : f.Carries fields) (c : Conn) :
    Wp (xReceiveHeaders2 u f.flags length f.streamId buf) c
      (fun _ c' => reports c'.log =
        reports c.log ++ fields.map (SentField.header staticTable)) fun _ _ => True := by
  by_cases hstream : f.streamId = 1
  swap
  · exact wp_ite (fun _ => trivial) fun _ => wp_ite (fun _ => trivial) fun h => absurd hstream h
  obtain ⟨hplain, prio, hprio, hpayload⟩ := hcarries
  have hlength := hmemory.length_payload
  have hlt := hmemory.lt
  have hbuf : buf = f.payload ++ buf.drop length := by
    rw [hmemory.payload, take_append_drop]
  have hblock : xReceiveHeaders2 u f.flags length f.streamId buf =
      decodeBlock u (fields.flatMap SentField.bytes).length (fields.flatMap SentField.bytes) := by
    rw [hstream, hbuf, ← hlength]
    rw [← hlength] at hlt
    cases hflag : padded f.flags with
    | true =>
      rw [hflag, if_pos rfl] at hpayload
      have hpadded : f.payload = paddedPayload prio (fields.flatMap SentField.bytes) [] := by
        rw [hpayload, paddedPayload, append_nil]
        rfl
      rw [hpadded] at hlt ⊢
      exact xReceiveHeaders2_noPadding u hflag hprio hlt _
    | false =>
      rw [hflag, if_neg Bool.false_ne_true, nil_append] at hpayload
      rw [hpayload] at hlt ⊢
      exact xReceiveHeaders2_unpadded u hflag hprio hlt _
  have hle : (fields.flatMap SentField.bytes).length ≤ length := by
    rw [← hlength, hpayload, length_append, length_append]
    omega
  rw [hblock]
  exact wp_decodeBlock u hplain _ c le_rfl (by omega)

end AtlasProbe.Http2
