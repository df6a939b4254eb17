import AtlasProbe.Http2.Safety

/-!
# The header encoder and the header decoder

`add_header2` writes a header in the never-indexed representation, whose first byte is `0x10`.
`Xdecode_header2` knows the other representations only, so that the decoder of the source rejects
every header of its encoder.
-/

namespace AtlasProbe.Http2

open List

variable (u : Platform) (env : Http2Env)

/-! ### The bytes of a header -/

/-- The bytes that the loop of `add_length2` adds. -/
def lengthLoopBytes (value : ℕ) : Bytes :=
  if 0x7f < value then
    UInt8.ofNat (0x80 ||| (value &&& 0x7f)) :: lengthLoopBytes (value >>> 7)
  else
    [UInt8.ofNat value]
termination_by value
decreasing_by
  rw [Nat.shiftRight_eq_div_pow]
  omega

/-- The bytes that `add_length2` adds. -/
def lengthBytes (prefixLen prefixValue value : ℕ) : Bytes :=
  let firstMax := 2 ^ (8 - prefixLen) - 1
  if value < firstMax then
    [UInt8.ofNat (prefixValue ||| value)]
  else
    UInt8.ofNat (prefixValue ||| firstMax) :: lengthLoopBytes (value - firstMax)

/-- The bytes that `add_header2` adds. -/
def headerBytes (name value : Bytes) : Bytes :=
  [0x10] ++ lengthBytes 1 0 ((cString name).length % 2 ^ 32) ++ cString name ++
    lengthBytes 1 0 ((cString value).length % 2 ^ 32) ++ cString value

/-- Successive calls of `add_header2`. -/
def addHeaders (env : Http2Env) (headers : List (Bytes × Bytes)) : Http2Env :=
  headers.foldl (fun env h => addHeader2 env h.1 h.2) env

@[simp]
lemma http2Headers_addByte2 (byte : UInt8) :
    (addByte2 env byte).http2Headers = env.http2Headers ++ [byte] := rfl

@[simp]
lemma http2Headers_addStr2 (str : Bytes) :
    (addStr2 env str).http2Headers = env.http2Headers ++ cString str := rfl

lemma http2Headers_addLengthLoop (value : ℕ) :
    (addLengthLoop env value).http2Headers = env.http2Headers ++ lengthLoopBytes value := by
  induction env, value using addLengthLoop.induct with
  | case1 env value h ih =>
    rw [addLengthLoop, lengthLoopBytes, if_pos h, if_pos h, ih, http2Headers_addByte2,
      append_assoc, singleton_append]
  | case2 env value h =>
    rw [addLengthLoop, lengthLoopBytes, if_neg h, if_neg h, http2Headers_addByte2]

lemma http2Headers_addLength2 (prefixLen prefixValue value : ℕ) :
    (addLength2 env prefixLen prefixValue value).http2Headers =
      env.http2Headers ++ lengthBytes prefixLen prefixValue value := by
  unfold addLength2 lengthBytes
  dsimp only
  split
  · rfl
  · rw [http2Headers_addLengthLoop, http2Headers_addByte2, append_assoc, singleton_append]

/-- What `add_header2` adds does not depend on what is there. -/
lemma http2Headers_addHeader2 (name value : Bytes) :
    (addHeader2 env name value).http2Headers = env.http2Headers ++ headerBytes name value := by
  simp only [addHeader2, headerBytes, http2Headers_addStr2, http2Headers_addLength2,
    http2Headers_addByte2, append_assoc]

lemma http2Headers_addHeaders (headers : List (Bytes × Bytes)) :
    ∀ env : Http2Env, (addHeaders env headers).http2Headers =
      env.http2Headers ++ headers.flatMap fun h => headerBytes h.1 h.2 := by
  induction headers with
  | nil => exact fun env => by rw [flatMap_nil, append_nil]; rfl
  | cons h headers ih =>
    intro env
    rw [flatMap_cons, ← append_assoc, ← http2Headers_addHeader2]
    exact ih _

/-! ### Decoding them -/

/-- The headers reported in a log. -/
def reports (log : List Event) : List (Bytes × Bytes) :=
  log.filterMap fun
    | .report key value => some (key, value)
    | _ => none

lemma reports_append (l l' : List Event) : reports (l ++ l') = reports l ++ reports l' :=
  filterMap_append

/-- The bytes that `add_header2` adds for `headers` to the header block of `env` are decoded by the
loop of `Xreceive_headers2`, whatever follows them: the same headers are reported in the same order,
and the dynamic table stays as it is. -/
def DecodesBack (env : Http2Env) (headers : List (Bytes × Bytes)) : Prop :=
  let block := (addHeaders env headers).http2Headers.drop env.http2Headers.length
  ∀ (rest : Bytes) (c : Conn), ∃ c',
    headersLoop u block.length block.length (block ++ rest) block.length 0 c = .ok () c' ∧
      reports c'.log = reports c.log ++ headers ∧ c'.env.http2Dyn = c.env.http2Dyn

/-- A header in the never-indexed representation is refused. -/
lemma xDecodeHeader2_neverIndexed (buf : Bytes) (len : ℕ) (c : Conn) :
    xDecodeHeader2 u (0x10 :: buf) len c = .error .failed
      { c with outbuf := c.outbuf ++ goawayFrame .compressionError "bad first byte" } := rfl

/-- No header of the encoder is decoded. -/
lemma not_decodesBack_cons (h : Bytes × Bytes)
    (headers : List (Bytes × Bytes)) : ¬ DecodesBack u env (h :: headers) := by
  intro hdecodes
  have hblock : ∃ b, (addHeaders env (h :: headers)).http2Headers.drop env.http2Headers.length =
      0x10 :: b := by
    rw [http2Headers_addHeaders, drop_left, flatMap_cons]
    exact ⟨_, rfl⟩
  obtain ⟨b, hb⟩ := hblock
  obtain ⟨c', hc', _⟩ := hdecodes [] plainConn
  rw [hb, length_cons, headersLoop, if_pos (Nat.succ_pos _), cons_append, drop_zero,
    bind_apply_error (xDecodeHeader2_neverIndexed u _ _ _)] at hc'
  cases hc'

/-- The decoder understands what the encoder has written if and only if this is nothing. -/
theorem decodesBack_iff (env : Http2Env) (headers : List (Bytes × Bytes)) :
    DecodesBack u env headers ↔ headers = [] := by
  constructor
  · intro hdecodes
    cases headers with
    | nil => rfl
    | cons h headers => exact absurd hdecodes (not_decodesBack_cons u env h headers)
  · rintro rfl rest c
    refine ⟨c, ?_, by rw [append_nil], rfl⟩
    rw [http2Headers_addHeaders, flatMap_nil, append_nil, drop_length]
    rfl

/-- The header `a: b` of a single call is not decoded. -/
theorem decodesBack_fails : ¬ DecodesBack .x86 (http2Init 0) [([97], [98])] :=
  not_decodesBack_cons _ _ _ _

end AtlasProbe.Http2
