import AtlasProbe.Http2.Hpack

/-!
# The frame handlers

One handler for each type of frame, `Xreceive_data2` to `Xreceive_window_update2`.  A handler gets
the fields of the frame header and the memory `buf` that starts with the payload; this memory may
go on behind the payload.  What the handlers only print is left out.
-/

namespace AtlasProbe.Http2

/-- The flag `HTTP2_HDR_DATA_END_STREAM`, the same bit as `HTTP2_HDR_HEADERS_END_STREAM`. -/
def endStream (flags : UInt8) : Bool := flags.toNat &&& 0x01 ≠ 0

/-- The flag `HTTP2_HDR_DATA_PADDED`, the same bit as `HTTP2_HDR_HEADERS_PADDED`. -/
def padded (flags : UInt8) : Bool := flags.toNat &&& 0x08 ≠ 0

/-- The flag `HTTP2_HDR_HEADERS_PRIORITY`. -/
def priority (flags : UInt8) : Bool := flags.toNat &&& 0x20 ≠ 0

/-- The flag `HTTP2_HDR_SETTINGS_ACK`. -/
def settingsAck (flags : UInt8) : Bool := flags.toNat &&& 0x01 ≠ 0

/-! ### DATA -/

/-- `add_credits2`. -/
def addCredits2 (streamId credits : ℕ) : Handler Unit := do
  modifyEnv fun env =>
    { env with http2SendGlobalCredits := (env.http2SendGlobalCredits + credits) % 2 ^ 32 }
  if streamId = 1 then
    modifyEnv fun env =>
      { env with http2SendStream1Credits := (env.http2SendStream1Credits + credits) % 2 ^ 32 }
  else
    throw .fatal

/-- Append to `http2_data`. -/
def addData (data : Bytes) : Handler Unit :=
  modifyEnv fun env =>
    { env with
      http2DataMax :=
        if env.http2DataMax < env.http2Data.length + data.length then
          env.http2Data.length + data.length + 4096
        else env.http2DataMax
      http2Data := env.http2Data ++ data }

/-- The end of `Xreceive_data2`, behind the padding check. -/
def receiveDataBody (length streamId padOffset padLength : ℕ) (buf : Bytes) :
    Handler Unit := do
  addCredits2 streamId length
  let env ← getEnv
  if env.typeDns then do
    let data ← readBytes (buf.drop padOffset) (length - (padOffset + padLength))
    addData data
  else
    pure ()

/-- `Xreceive_data2`. -/
def xReceiveData2 (flags : UInt8) (length streamId : ℕ) (buf : Bytes) : Handler Unit := do
  if padded flags then do
    let pad ← readByte buf
    if length ≤ pad.toNat then
      goaway .protocolError "padding error"
    else
      receiveDataBody length streamId 1 pad.toNat buf
  else
    receiveDataBody length streamId 0 0 buf

/-! ### HEADERS -/

section Headers

variable (u : Platform)

/-- The loop of `Xreceive_headers2` from offset `o` on, cut off after `fuel` rounds.  The
difference `headers_len-o` is a `size_t`. -/
def headersLoop (length headersLen : ℕ) (buf : Bytes) : ℕ → ℕ → Handler Unit
  | 0, _ => pure ()
  | fuel + 1, o =>
    if o < length then do
      let len ← xDecodeHeader2 u (buf.drop o) ((2 ^ 64 + headersLen - o) % 2 ^ 64)
      headersLoop length headersLen buf fuel (o + len)
    else
      pure ()

/-- The end of `Xreceive_headers2`, behind the fields for padding and priority.  Every round of
the loop consumes a byte. -/
def receiveHeadersBody (length padLength o : ℕ) (buf : Bytes) : Handler Unit :=
  if length < o + padLength then
    goaway .protocolError "too much padding"
  else
    headersLoop u length (length - padLength) buf length o

/-- `Xreceive_headers2`. -/
def xReceiveHeaders2 (flags : UInt8) (length streamId : ℕ) (buf : Bytes) :
    Handler Unit := do
  let prioOffset := if priority flags then 5 else 0
  if streamId = 0 then
    goaway .protocolError "0 stream ID"
  else if streamId ≠ 1 then
    -- only one stream is created and supported
    goaway .protocolError "stream not open"
  else if padded flags then do
    let pad ← readByte buf
    receiveHeadersBody u length pad.toNat (1 + prioOffset) buf
  else
    receiveHeadersBody u length 0 prioOffset buf

end Headers

/-! ### The other frames -/

/-- `Xreceive_rst_stream2`. -/
def xReceiveRstStream2 (length streamId : ℕ) : Handler Unit :=
  if length ≠ 4 then goaway .frameSizeError "length"
  else if streamId = 0 then goaway .protocolError "zero stream ID"
  else pure ()

/-- `Xreceive_settings2`. -/
def xReceiveSettings2 (flags : UInt8) (length streamId : ℕ) : Handler Unit :=
  if length % 6 ≠ 0 then goaway .frameSizeError "frame"
  else if settingsAck flags ∧ length ≠ 0 then
    goaway .frameSizeError "non-empty ACK settings frame"
  else if streamId ≠ 0 then goaway .protocolError "non-zero stream ID"
  else pure ()

/-- `Xreceive_ping2`. -/
def xReceivePing2 (length streamId : ℕ) : Handler Unit :=
  if streamId ≠ 0 then goaway .protocolError "non-zero stream ID"
  else if length ≠ 8 then goaway .frameSizeError "ping frame not 8 octets"
  else pure ()

/-- `Xreceive_goaway2`. -/
def xReceiveGoaway2 (length streamId : ℕ) : Handler Unit :=
  if streamId ≠ 0 then goaway .protocolError "non-zero stream ID"
  else if length < 8 then goaway .frameSizeError "goaway frame not at least 8 octets"
  else pure ()

/-- A number in network order. -/
def beNat (bytes : Bytes) : ℕ := bytes.foldl (fun n b => 256 * n + b.toNat) 0

/-- Which window an update is for. -/
inductive Window where
  | connection
  | stream1

/-- The value of a window. -/
def Window.get (env : Http2Env) : Window → ℕ
  | connection => env.http2ConnectionWindow
  | stream1 => env.http2Stream1Window

/-- Store a window. -/
def Window.set (env : Http2Env) (value : ℕ) : Window → Http2Env
  | connection => { env with http2ConnectionWindow := value }
  | stream1 => { env with http2Stream1Window := value }

/-- Add to a window and store it, even if it becomes too large. -/
def growWindow (w : Window) (value : ℕ) : Handler Unit := do
  let env ← getEnv
  modifyEnv fun env => w.set env ((w.get env + value) % 2 ^ 32)
  if 0x7fffffff < (w.get env + value) % 2 ^ 32 then
    goaway .flowControlError "window overflow"
  else
    pure ()

/-- `Xreceive_window_update2`. -/
def xReceiveWindowUpdate2 (length streamId : ℕ) (buf : Bytes) : Handler Unit := do
  if length ≠ 4 then
    goaway .frameSizeError "window update frame not 4 octets"
  else do
    let bytes ← readBytes buf 4
    let value := beNat bytes % 2 ^ 31
    if value = 0 then
      goaway .protocolError "zero increment"
    else if streamId = 0 then
      growWindow .connection value
    else if streamId = 1 then
      growWindow .stream1 value
    else
      goaway .internalError "window increment for unknown stream"

/-! ### Dispatch -/

/-- The `switch` of `Xhttp2_dns_input1`.  The flag END_STREAM of a DATA frame ends the response. -/
def dispatch (u : Platform) (type flags : UInt8) (length streamId : ℕ) (buf : Bytes) :
    Handler Unit := do
  if type = 0 then do
    xReceiveData2 flags length streamId buf
    if endStream flags then modifyEnv fun env => { env with done := true } else pure ()
  else if type = 1 then xReceiveHeaders2 u flags length streamId buf
  else if type = 3 then xReceiveRstStream2 length streamId
  else if type = 4 then xReceiveSettings2 flags length streamId
  else if type = 6 then xReceivePing2 length streamId
  else if type = 7 then xReceiveGoaway2 length streamId
  else if type = 8 then xReceiveWindowUpdate2 length streamId buf
  else goaway .protocolError "unknown type"

end AtlasProbe.Http2
