import AtlasProbe.Http2.Env

/-!
# Decoding header fields

The HPACK decoder of the source: the static table, prefix integers (`Xdecode_int2`), string
literals, the dynamic table (`add_dyn`, `Xget_dyn`), the interpretation of a decoded header
(`Xreport_header`) and `Xdecode_header2`, which decodes one header field.

The memory a function reads is a list that starts at its argument `buf` and goes on to the end of
what has been written; the length it is told (`len`) is separate, since the caller may be wrong
about it.
-/

namespace AtlasProbe.Http2

/-! ### The static table -/

/-- `struct table_ent`. -/
structure TableEnt where
  name : String
  value : Option String

/-- `static_table[]` from index 1 on. -/
def staticTable : List TableEnt :=
  [⟨":authority", none⟩, ⟨":method", some "GET"⟩, ⟨":method", some "POST"⟩, ⟨":path", some "/"⟩,
   ⟨":path", some "/index.html"⟩, ⟨":scheme", some "http"⟩, ⟨":scheme", some "https"⟩,
   ⟨":status", some "200"⟩, ⟨":status", some "204"⟩, ⟨":status", some "206"⟩,
   ⟨":status", some "304"⟩, ⟨":status", some "400"⟩, ⟨":status", some "404"⟩,
   ⟨":status", some "500"⟩, ⟨"accept-charset", none⟩, ⟨"accept-encoding", some "gzip, deflate"⟩,
   ⟨"accept-language", none⟩, ⟨"accept-ranges", none⟩, ⟨"accept", none⟩,
   ⟨"accept-control-allow-origin", none⟩, ⟨"age", none⟩, ⟨"allow", none⟩, ⟨"authorization", none⟩,
   ⟨"cache-control", none⟩, ⟨"content-disposition", none⟩, ⟨"content-encoding", none⟩,
   ⟨"content-language", none⟩, ⟨"content-length", none⟩, ⟨"content-location", none⟩,
   ⟨"content-range", none⟩, ⟨"content-type", none⟩, ⟨"cookie", none⟩, ⟨"date", none⟩,
   ⟨"etag", none⟩, ⟨"expect", none⟩, ⟨"expires", none⟩, ⟨"from", none⟩, ⟨"host", none⟩,
   ⟨"if-match", none⟩, ⟨"if-modified-since", none⟩, ⟨"if-none-match", none⟩, ⟨"if-range", none⟩,
   ⟨"if-unmodified-since", none⟩, ⟨"last-modified", none⟩, ⟨"link", none⟩, ⟨"location", none⟩,
   ⟨"max-forwards", none⟩, ⟨"proxy-authentication", none⟩, ⟨"proxy-authorization", none⟩,
   ⟨"range", none⟩, ⟨"referer", none⟩, ⟨"refresh", none⟩, ⟨"retry-after", none⟩, ⟨"server", none⟩,
   ⟨"set-cookie", none⟩, ⟨"strict-transport-security", none⟩, ⟨"transfer-encoding", none⟩,
   ⟨"user-agent", none⟩, ⟨"vary", none⟩, ⟨"via", none⟩, ⟨"www-authenticate", none⟩]

/-- `static_table[value]` for an index from 1 to 61. -/
def staticEntry (value : ℕ) : TableEnt := staticTable.getD (value - 1) ⟨"", none⟩

/-! ### Integers -/

section Decode

variable (u : Platform)

/-- Shift in seven bits of a multi-byte integer; `none` if bits are lost. -/
def shiftIn (newBits shift : ℕ) : Option ℕ :=
  if shift < 32 then
    let newValue := (newBits <<< shift) % 2 ^ 32
    if newValue >>> shift ≠ newBits then none else some newValue
  else
    u.wideShift newBits shift

/-- The loop of `Xdecode_int2` over the bytes behind the first one; `o` is the offset of the next
byte. -/
def decodeIntLoop (len maxValue : ℕ) : Bytes → ℕ → ℕ → Handler (ℕ × ℕ)
  | [], o, _ =>
    if o < len then throw .overread
    else goaway .compressionError "multi-byte int runs beyond buffer"
  | byte :: buf, o, v =>
    if o < len then
      match shiftIn u (byte.toNat &&& 0x7f) ((o - 1) * 7) with
      | none => goaway .compressionError "overflow in multi-byte integer"
      | some newValue =>
        if byte.toNat &&& 0x80 ≠ 0 then
          decodeIntLoop len maxValue buf (o + 1) (v ||| newValue)
        else if ((v ||| newValue) + maxValue) % 2 ^ 32 < maxValue then
          goaway .compressionError "overflow in multi-byte integer"
        else
          pure (o + 1, ((v ||| newValue) + maxValue) % 2 ^ 32)
    else goaway .compressionError "multi-byte int runs beyond buffer"

/-- `Xdecode_int2`: the number of bytes and the value. -/
def xDecodeInt2 (buf : Bytes) (len prefixLen : ℕ) : Handler (ℕ × ℕ) := do
  let maxValue := 2 ^ (8 - prefixLen) - 1
  let byte ← readByte buf
  if byte.toNat &&& maxValue < maxValue then
    pure (1, byte.toNat &&& maxValue)
  else
    decodeIntLoop u len maxValue (buf.drop 1) 1 0

/-! ### Strings -/

/-- A call of `Xdecode_huffman2` on `len` bytes with an output buffer of `cap` bytes.  The string
has to be in memory that has been written.  An empty result is a failure like any other one, only
that no GOAWAY frame is sent. -/
def huffmanString (buf : Bytes) (len cap : ℕ) : Handler Bytes := do
  note (.huffman len)
  let str ← readBytes buf len
  match xDecodeHuffman2 u.past str cap with
  | .goaway reason => goaway .compressionError reason
  | .done out => if out = [] then throw .failed else pure out

/-- A string literal at offset `o`: the string and the offset behind it.  Huffman-coded strings
may have `cap` bytes; names that are not (`isName`) may have no more than this either. -/
def decodeString (buf : Bytes) (len o cap : ℕ) (isName : Bool) :
    Handler (Bytes × ℕ) := do
  if len ≤ o then
    goaway .compressionError "out of space"
  else do
    let byte ← readByte (buf.drop o)
    let (tmplen, value) ← xDecodeInt2 u (buf.drop o) (len - o) 1
    if len - (o + tmplen) < value then
      goaway .compressionError "string too large for space"
    else if byte.toNat &&& 0x80 = 0x80 then do
      let str ← huffmanString u (buf.drop (o + tmplen)) value cap
      pure (str, o + tmplen + value)
    else if isName = true ∧ cap < value then
      goaway .compressionError "name too long"
    else do
      let str ← readBytes (buf.drop (o + tmplen)) value
      pure (str, o + tmplen + value)

/-! ### The dynamic table -/

/-- `add_dyn`.  Growing the table stores its new capacity in `http2_input_max`. -/
def addDyn (key value : Bytes) : Handler Unit := do
  let env ← getEnv
  note (.addDyn env.http2Dyn.length env.http2Input.size)
  modifyEnv fun env =>
    { env with
      http2InputMax :=
        if env.http2DynMax < env.http2Dyn.length + 1 then env.http2Dyn.length + 16
        else env.http2InputMax
      http2Dyn := env.http2Dyn ++ [⟨key, value⟩] }

/-- `Xget_dyn`. -/
def xGetDyn (value : ℕ) : Handler Dyn := do
  if value < 61 then
    throw .fatal
  else do
    let env ← getEnv
    if env.http2Dyn.length ≤ value - 61 then
      goaway .compressionError "bad dynamic index"
    else
      pure (env.http2Dyn.getD (env.http2Dyn.length - 1 - (value - 61)) ⟨[], []⟩)

/-! ### Reporting a header -/

/-- `memcasecmp` finds no difference between two strings of the same length. -/
def memcasecmpEq : Bytes → Bytes → Bool
  | c1 :: s1, c2 :: s2 =>
    (c1 = c2 || (c1 < 128 && c2 < 128 && tolower c1 = tolower c2)) && memcasecmpEq s1 s2
  | _, _ => true

/-- The part of a content type in front of the parameters, without white space around it. -/
def mediaType (value : Bytes) : Bytes :=
  let v := value.takeWhile (· ≠ 59)
  ((v.reverse.dropWhile isspace).reverse).dropWhile isspace

/-- The test of a content type against one of the known ones. -/
def isMediaType (value : Bytes) (name : String) : Bool :=
  (mediaType value).length = (ascii name).length && memcasecmpEq (mediaType value) (ascii name)

/-- `Xparse_status_code2`. -/
def xParseStatusCode2 (value : Bytes) : Handler ℕ :=
  if value.length ≠ 3 then
    goaway .protocolError "bad status code"
  else if value.all isdigit = false then
    goaway .protocolError "error parsing status code"
  else
    pure (decimal value)

/-- The part of `Xreport_header` for the status. -/
def reportStatus (key value : Bytes) : Handler Unit :=
  if key = ascii ":status" then do
    let status ← xParseStatusCode2 value
    modifyEnv fun env => { env with status := status }
  else
    pure ()

/-- The part of `Xreport_header` for the content type. -/
def reportType (key value : Bytes) : Handler Unit :=
  if key = ascii "content-type" then
    modifyEnv fun env =>
      { env with
        typeHtml := env.typeHtml || isMediaType value "text/html"
        typeDns := env.typeDns || isMediaType value "application/dns-message" }
  else
    pure ()

/-- `Xreport_header`. -/
def xReportHeader (key value : Bytes) : Handler Unit := do
  note (.report key value)
  reportStatus key value
  reportType key value

/-! ### Header fields -/

/-- An indexed header field: the number of bytes. -/
def decodeIndexed (buf : Bytes) (len : ℕ) : Handler ℕ := do
  let (tmplen, value) ← xDecodeInt2 u buf len 1
  if value = 0 then
    goaway .compressionError "bad index"
  else if 61 < value then do
    let dyn ← xGetDyn value
    xReportHeader dyn.key dyn.value
    pure tmplen
  else
    match (staticEntry value).value with
    | none => goaway .compressionError "entry has no value"
    | some entValue => do
      addDyn (ascii (staticEntry value).name) (ascii entValue)
      xReportHeader (ascii (staticEntry value).name) (ascii entValue)
      pure tmplen

/-- A literal header field with a new name, with or without incremental indexing. -/
def decodeNewName (buf : Bytes) (len : ℕ) : Handler ℕ := do
  let (namebuf, o) ← decodeString u buf len 1 255 true
  let (value, o) ← decodeString u buf len o 1024 false
  addDyn (cString namebuf) value
  xReportHeader (cString namebuf) value
  pure o

/-- The name that an index stands for. -/
def indexedName (value : ℕ) : Handler Bytes :=
  if 61 < value then do
    let dyn ← xGetDyn value
    pure dyn.key
  else
    pure (ascii (staticEntry value).name)

/-- A literal header field with an indexed name: the index has a prefix of `prefixLen` bits, and
the field is added to the dynamic table if `indexing` is set. -/
def decodeIndexedName (prefixLen : ℕ) (indexing : Bool) (buf : Bytes) (len : ℕ) :
    Handler ℕ := do
  let (tmplen, value) ← xDecodeInt2 u buf len prefixLen
  if value = 0 then
    goaway .compressionError "bad index"
  else do
    let name ← indexedName value
    let (str, o) ← decodeString u buf len tmplen 1024 false
    if indexing then addDyn name str else pure ()
    xReportHeader name str
    pure o

/-- `Xdecode_header2`: the number of bytes of the header field at `buf`. -/
def xDecodeHeader2 (buf : Bytes) (len : ℕ) : Handler ℕ := do
  let byte ← readByte buf
  if byte.toNat &&& 0x80 = 0x80 then
    decodeIndexed u buf len
  else if byte = 0x40 ∨ byte = 0x00 then
    decodeNewName u buf len
  else if byte.toNat &&& 0xC0 = 0x40 then
    decodeIndexedName u 2 true buf len
  else if byte.toNat &&& 0xF0 = 0x00 then
    decodeIndexedName u 4 false buf len
  else
    goaway .compressionError "bad first byte"

end Decode

end AtlasProbe.Http2
