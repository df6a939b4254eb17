import AtlasProbe.Http2.Literal

/-!
# Raw and Huffman-coded string literals

A literal header field with a raw string and the one with the same string Huffman-coded have the
same meaning (`SameMeaning`), unless the string is empty or too long for the buffer of
`Xdecode_huffman2`, or ends with the byte `0xfe` on a byte boundary.  What a literal is decoded to
is `literalText`, and `stored` is what is done with it.
-/

namespace AtlasProbe.Http2

open List

variable (u : Platform)

/-! ### The strings that survive Huffman coding -/

/-- The encoding of the string ends with the code word of `0xfe` and has no padding. -/
def EndsUnpadded (s : Bytes) : Prop :=
  s.getLast? = some 0xfe ∧ (huffmanCode.encode s).length % 8 = 0

/-- The decoder gets the string back from its encoding, on every platform. -/
structure SurvivesHuffman (cap : ℕ) (s : Bytes) : Prop where
  ne_nil : s ≠ []
  length_le : s.length ≤ cap
  not_endsUnpadded : ¬ EndsUnpadded s

/-- The bits of an encoding. -/
lemma byteBits_enc (s : Bytes) :
    ∃ k < 8, byteBits (enc s) = huffmanCode.encode s ++ List.replicate k true ∧
      8 * (enc s).length = (huffmanCode.encode s).length + k := by
  obtain ⟨k, hk, hbits⟩ := (eq_enc_iff (enc s) s).mp rfl
  have hlen := congrArg List.length hbits
  rw [length_byteBits, length_append, length_replicate] at hlen
  exact ⟨k, hk, hbits, hlen⟩

variable {s value : Bytes} {cap : ℕ} {added : Bool} (indexing : Bool) (name : FieldName)

/-- Different strings have different encodings. -/
lemma enc_injective {s' : Bytes} (h : enc s = enc s') : s = s' := by
  obtain ⟨k, -, hs, -⟩ := byteBits_enc s
  obtain ⟨k', -, hs', -⟩ := byteBits_enc s'
  rw [h, hs'] at hs
  obtain ⟨s₁, rfl, hones⟩ := PrefixCode.encode_append_eq (stuck_ones k) hs
  obtain ⟨rfl, -⟩ := (stuck_ones k').eq_of_encode_append hones
  rw [append_nil]

lemma code_fe : huffmanCode.code 0xfe = natBits 24 0xfffffe ++ [false, false, false] := by
  decide +kernel

/-- Of the code words with at most 27 bits only that of `0xfe` can start with `fffffe`. -/
lemma eq_fe_of_code_prefix {c : UInt8} {t : List Bool} (ht : t.length < 4)
    (h : huffmanCode.code c <+: natBits 24 0xfffffe ++ t) : c = 0xfe := by
  have hrows : ∀ row ∈ huffmanEncode, row.bits ≤ 27 →
      (row.word <+: natBits 24 0xfffffe ∨ natBits 24 0xfffffe <+: row.word) →
      row.value = 0xfe := by decide +kernel
  have hbits : (encodeRow c).bits ≤ 27 := by
    have hlen := h.length_le
    rw [length_code, length_append, length_natBits] at hlen
    omega
  have hvalue := hrows _ (encodeRow_mem c) hbits
    (List.prefix_or_prefix_of_prefix h (prefix_append _ _))
  rw [value_encodeRow] at hvalue
  exact UInt8.toNat_inj.mp hvalue

/-- The bits of an encoding that ends with `0xfe` and has no padding. -/
lemma EndsUnpadded.byteBits_enc (h : EndsUnpadded s) : ∃ s', s = s' ++ [0xfe] ∧
    byteBits (enc s) = huffmanCode.encode s' ++ (natBits 24 0xfffffe ++ [false, false, false]) := by
  obtain ⟨s', rfl⟩ := getLast?_eq_some_iff.mp h.1
  obtain ⟨k, hk, hbits, hlen⟩ := Http2.byteBits_enc (s' ++ [0xfe])
  have hmod := h.2
  obtain rfl : k = 0 := by omega
  refine ⟨s', rfl, ?_⟩
  rw [hbits, PrefixCode.encode_append, PrefixCode.encode_cons, code_fe, PrefixCode.encode_nil,
    append_nil, replicate_zero, append_nil]

/-- On the encoding of a string, the decoder reads behind its table if the string ends with `0xfe`
on a byte boundary and there is room for it. -/
lemma readsPast_enc_iff (cap : ℕ) (s : Bytes) :
    ReadsPast cap (byteBits (enc s)) ↔ s.length ≤ cap ∧ EndsUnpadded s := by
  obtain ⟨k, hk, hbits, hlen⟩ := byteBits_enc s
  constructor
  · rintro ⟨s₁, t, hs₁, ht, hpast⟩
    rw [hbits] at hpast
    obtain ⟨s₂, rfl, hrest⟩ := PrefixCode.encode_append_eq (stuck_ones k) hpast.symm
    cases s₂ with
    | nil =>
      have hshort := congrArg List.length hrest
      rw [PrefixCode.encode_nil, nil_append, length_append, length_natBits,
        length_replicate] at hshort
      omega
    | cons c s₃ =>
      rw [PrefixCode.encode_cons, append_assoc] at hrest
      obtain rfl := eq_fe_of_code_prefix ht ⟨_, hrest.symm⟩
      rw [code_fe, append_assoc] at hrest
      -- the code word has taken all bits
      have hshort := congrArg List.length hrest
      simp only [length_append, length_cons, length_replicate] at hshort
      have hnil : s₃ = [] := by
        have hzero : (huffmanCode.encode s₃).length = 0 := by omega
        cases s₃ with
        | nil => rfl
        | cons c s₃ =>
          have hpos := length_pos_iff.mpr (huffmanCode.code_ne_nil c)
          rw [PrefixCode.encode_cons, length_append] at hzero
          omega
      subst hnil
      refine ⟨?_, getLast?_concat, ?_⟩
      · rw [length_append, length_singleton]
        omega
      · omega
  · rintro ⟨hcap, hend⟩
    obtain ⟨s₁, rfl, heq⟩ := hend.byteBits_enc
    rw [length_append, length_singleton] at hcap
    exact ⟨s₁, [false, false, false], by omega, by decide, heq⟩

/-! ### The string of a literal -/

/-- The string that the decoder makes of a literal, if it does not refuse it. -/
def literalText (coding : Coding) (s : Bytes) (cap : ℕ) (isName : Bool) : Option Bytes :=
  match coding with
  | .raw => if isName = true ∧ cap < s.length then none else some s
  | .huffman =>
    match xDecodeHuffman2 u.past (enc s) cap with
    | .goaway _ => none
    | .done out => if out = [] then none else some out

/-- A literal is decoded or refused, and nothing else happens. -/
lemma wp_literal (coding : Coding) (s : Bytes) (cap : ℕ) (isName : Bool) (c : Conn) :
    Wp (literal u coding s cap isName) c
      (fun v c' => literalText u coding s cap isName = some v ∧ Silent c c')
      fun _ _ => literalText u coding s cap isName = none := by
  cases coding with
  | raw =>
    refine wp_ite (fun h => ?_) fun h => ⟨if_neg h, .refl _⟩
    exact if_pos h
  | huffman =>
    have hvalue : Wp (literal u .huffman s cap isName) c
        (fun v _ => literalText u .huffman s cap isName = some v)
        fun _ _ => literalText u .huffman s cap isName = none := by
      unfold literal literalText huffmanString readBytes
      dsimp only
      rw [wp_bind, wp_note, if_pos le_rfl, take_length]
      change Wp (match xDecodeHuffman2 u.past (enc s) cap with
        | .goaway reason => goaway .compressionError reason
        | .done out => if out = [] then throw .failed else pure out : Handler Bytes) _ _ _
      cases xDecodeHuffman2 u.past (enc s) cap with
      | goaway reason => rfl
      | done out => exact wp_ite (fun h => if_pos h) fun h => if_neg h
    exact (hvalue.and (silent_readLogic.huffmanString u (enc s) (enc s).length cap c)).mono
      (fun _ _ h => h) fun _ _ h => h.1

/-- A Huffman-coded string is decoded unless it is empty or too long, or ends unpadded. -/
lemma literalText_huffman (h : ¬ (s.length ≤ cap ∧ EndsUnpadded s)) (isName : Bool) :
    literalText u .huffman s cap isName = if s = [] ∨ cap < s.length then none else some s := by
  rw [← readsPast_enc_iff] at h
  have hdone := xDecodeHuffman2_eq_done_iff u.past h
  unfold literalText
  cases hresult : xDecodeHuffman2 u.past (enc s) cap with
  | goaway reason =>
    have hlong : cap < s.length := by
      by_contra hle
      cases hresult.symm.trans ((hdone s).mpr ⟨not_lt.mp hle, rfl⟩)
    exact (if_pos (.inr hlong)).symm
  | done out =>
    obtain ⟨hcap, henc⟩ := (hdone out).mp hresult
    obtain rfl := enc_injective henc
    simp only [not_lt.mpr hcap, or_false]

/-- A platform on which the bits behind `fffffe` are taken for the byte `b`. -/
def Platform.pastByte (b : UInt8) : Platform :=
  { Platform.x86 with past := fun _ => ⟨3, b.toNat⟩ }

/-- A string that ends unpadded is decoded to a string with another last byte, or it is refused. -/
lemma literalText_past {s' : Bytes} (hcap : (s' ++ [0xfe]).length ≤ cap)
    (hend : EndsUnpadded (s' ++ [0xfe])) (isName : Bool) :
    ∃ n, literalText u .huffman (s' ++ [0xfe]) cap isName =
        some (s' ++ [UInt8.ofNat (u.past n).value]) ∨
      (u.past n).bits ≠ 3 ∧ literalText u .huffman (s' ++ [0xfe]) cap isName = none := by
  obtain ⟨s₁, hs, hbits⟩ := hend.byteBits_enc
  obtain rfl := append_cancel_right hs
  rw [length_append, length_singleton] at hcap
  obtain ⟨n, hloop⟩ := huffmanLoop_past huffmanTables_ok u.past cap []
    (by decide : [false, false, false].length < 4) (Nat.zero_le _)
    (length_rem_start_lt (enc (s' ++ [0xfe]))) (by rw [length_nil]; omega) hbits
  rw [huffmanLoop_eq_some u.past (enc (s' ++ [0xfe])) cap (Nat.lt_succ_self _)] at hloop
  refine ⟨n, ?_⟩
  unfold literalText
  rcases hloop with hdone | ⟨hne, reason, hgoaway⟩
  · rw [Option.some.inj hdone]
    dsimp only
    rw [if_neg (by simp)]
    exact .inl rfl
  · rw [Option.some.inj hgoaway]
    exact .inr ⟨hne, rfl⟩

/-- On the platform `pastByte b` the last byte of such a string becomes `b`. -/
lemma literalText_pastByte {s' : Bytes} (hcap : (s' ++ [0xfe]).length ≤ cap)
    (hend : EndsUnpadded (s' ++ [0xfe])) (isName : Bool) (b : UInt8) :
    literalText (.pastByte b) .huffman (s' ++ [0xfe]) cap isName = some (s' ++ [b]) := by
  obtain ⟨n, hok | ⟨hne, -⟩⟩ := literalText_past (.pastByte b) hcap hend isName
  · rw [hok, Platform.pastByte, UInt8.ofNat_toNat]
  · exact absurd rfl hne

/-- A literal that is decoded on one platform is decoded on all the platforms `pastByte b`, and to
the same string unless it is Huffman-coded and ends unpadded. -/
lemma literalText_eq_some {coding : Coding} {isName : Bool} {v : Bytes}
    (h : literalText u coding s cap isName = some v) (b : UInt8) :
    ∃ v', literalText (.pastByte b) coding s cap isName = some v' ∧
      (v = s ∧ v' = s ∨ coding = .huffman ∧ EndsUnpadded s ∧
        ∃ s' x, s = s' ++ [0xfe] ∧ v = s' ++ [x] ∧ v' = s' ++ [b]) := by
  cases coding with
  | raw =>
    cases (Option.ite_none_left_eq_some.mp h).2
    exact ⟨s, h, .inl ⟨rfl, rfl⟩⟩
  | huffman =>
    by_cases hend : s.length ≤ cap ∧ EndsUnpadded s
    · obtain ⟨hcap, hend⟩ := hend
      obtain ⟨s', rfl⟩ := getLast?_eq_some_iff.mp hend.1
      obtain ⟨n, hok | ⟨-, hnone⟩⟩ := literalText_past u hcap hend isName
      · cases h.symm.trans hok
        exact ⟨_, literalText_pastByte hcap hend isName b, .inr ⟨rfl, hend, s', _, rfl, rfl, rfl⟩⟩
      · cases h.symm.trans hnone
    · rw [literalText_huffman u hend] at h
      cases (Option.ite_none_left_eq_some.mp h).2
      exact ⟨s, (literalText_huffman _ hend isName).trans h, .inl ⟨rfl, rfl⟩⟩

/-! ### What a field does -/

/-- The name of a literal field, if it is not refused. -/
def FieldName.key (dyn : List Dyn) : FieldName → Option Bytes
  | new coding name => (literalText u coding name 255 true).map cString
  | indexed index =>
    if 61 < index then
      if dyn.length ≤ index - 61 then none
      else some (dyn.getD (dyn.length - 1 - (index - 61)) ⟨[], []⟩).key
    else some (ascii (staticEntry index).name)

/-- The name is decoded or refused, and nothing else happens. -/
lemma wp_decode (name : FieldName) (c : Conn) :
    Wp (name.decode u) c (fun key c' => name.key u c.env.http2Dyn = some key ∧ Silent c c')
      fun _ _ => name.key u c.env.http2Dyn = none := by
  cases name with
  | new coding str =>
    refine (wp_literal u coding str 255 true c).seq (fun _ _ h => ?_) fun v c' h => ⟨?_, h.2⟩
    · rw [FieldName.key, h, Option.map_none]
    · rw [FieldName.key, h.1, Option.map_some]
  | indexed index =>
    unfold FieldName.decode FieldName.key indexedName xGetDyn
    dsimp only
    split
    · rw [if_neg (by omega), wp_bind, wp_bind, wp_getEnv]
      exact wp_ite (fun h => if_pos h) fun h => ⟨if_neg h, .refl _⟩
    · exact ⟨rfl, .refl c⟩

/-- What is known when a header has been stored, if it is not refused. -/
def stored (c : Conn) (added : Bool) (key value : Bytes) :
    Option (List (Bytes × Bytes) × List Dyn) :=
  if BadStatus key value then none
  else some (reports c.log ++ [(key, value)],
    c.env.http2Dyn ++ if added then [⟨key, value⟩] else [])

lemma wp_storeField (added : Bool) (key value : Bytes) (c : Conn) :
    Wp (storeField added key value) c
      (fun _ c' => stored c added key value = some (reports c'.log, c'.env.http2Dyn))
      fun _ _ => stored c added key value = none := by
  unfold stored
  cases added with
  | true =>
    refine (wp_xReportHeader key value (c.addDyn key value)).mono ?_ fun _ _ h => if_pos h.1
    rintro _ _ ⟨hok, rfl⟩
    rw [if_neg hok, reports_report, reports_addDyn]
    rfl
  | false =>
    refine (wp_xReportHeader key value c).mono ?_ fun _ _ h => if_pos h.1
    rintro _ _ ⟨hok, rfl⟩
    rw [if_neg hok, reports_report]
    exact congrArg (fun dyn => some (_, dyn)) (append_nil _)

/-- A header that is stored has been reported. -/
lemma reports_of_stored {c : Conn} {key value : Bytes} {l : List (Bytes × Bytes)} {dyn : List Dyn}
    (h : stored c added key value = some (l, dyn)) : l = reports c.log ++ [(key, value)] := by
  cases (Option.ite_none_left_eq_some.mp h).2
  rfl

/-- A string that survives is decoded. -/
lemma SurvivesHuffman.literalText_eq (h : SurvivesHuffman cap s) (isName : Bool) :
    literalText u .huffman s cap isName = some s := by
  rw [literalText_huffman u fun hend => h.not_endsUnpadded hend.2, if_neg]
  rintro (hnil | hlong)
  · exact h.ne_nil hnil
  · exact absurd h.length_le (not_le.mpr hlong)

section Value

variable (indexing : Bool) {name : FieldName} (hname : name.Fits) {value : Bytes}
  (hraw : value.length < 2 ^ 32) (hhuffman : (enc value).length < 2 ^ 32) (c : Conn)

include hname hraw hhuffman

end Value

section Name

variable (indexing : Bool) {str : Bytes} (hpos : str ≠ []) (hle : str.length ≤ 255)
  (hnul : 0 ∉ str) (hhuffman : (enc str).length < 2 ^ 32) {coding : Coding} {value : Bytes}
  (hvalue : (coding.payload value).length < 2 ^ 32) (c : Conn)

omit u in
/-- A name without a zero byte is its own C string. -/
lemma cString_eq_self {s : Bytes} (h : 0 ∉ s) : cString s = s := (takeWhile_ne h).1

include hle hhuffman hvalue

include hpos hnul

end Name

end AtlasProbe.Http2
