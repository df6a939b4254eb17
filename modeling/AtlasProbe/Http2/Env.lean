import AtlasProbe.Http2.HuffmanExact
import AtlasProbe.Lib.StateLogic
import AtlasProbe.Lib.Text
import AtlasProbe.Lib.Wire

/-!
# The HTTP/2 environment

The state of an HTTP/2 connection: `struct http2_env`, the input and output buffers of its
bufferevent, and a log of what happened.  The input buffer `http2_input` is a heap block with an
explicit allocated size; the first byte that is written behind it and the first read of a byte that
was never written end the run (`Stop.overflow`, `Stop.overread`), since nothing is promised after
them.

A function of the source that may fail runs in the monad `Handler`: every `return -1` (or `0` for
the decoders), which all callers pass on to `http2_dns_input`, is the error `Stop.failed`.
-/

namespace AtlasProbe.Http2

open Wire (be32)

/-! ### Heap blocks -/

/-- A block of the heap. -/
structure Block where
  /-- The size last passed to `realloc`. -/
  size : ℕ
  /-- The bytes at the start of the block that have been written. -/
  bytes : Bytes
  /-- Only bytes of the block are written. -/
  bytes_le : bytes.length ≤ size
  deriving DecidableEq

/-- The block of a null pointer. -/
def Block.null : Block := ⟨0, [], @Nat.le.refl .zero⟩

/-- `realloc` keeps the bytes that fit the new size. -/
def Block.realloc (b : Block) (size : ℕ) : Block :=
  ⟨size, b.bytes.take size, by rw [List.length_take]; exact Nat.min_le_left _ _⟩

/-- Write `data` at an offset up to which the block has been written, as far as it fits. -/
def Block.write (b : Block) (offset : ℕ) (data : Bytes) : Block :=
  ⟨b.size, (store b.bytes offset data).take b.size,
    by rw [List.length_take]; exact Nat.min_le_left _ _⟩

/-! ### `struct http2_env` -/

/-- `struct dyn`, an entry of the dynamic table. -/
structure Dyn where
  key : Bytes
  value : Bytes
  deriving DecidableEq

/-- `struct http2_env`.  The lengths `http2_headers_offset`, `http2_dyn_idx` and `http2_data_len`
are the lengths of the lists. -/
structure Http2Env where
  http2SendGlobalCredits : ℕ
  http2SendStream1Credits : ℕ
  http2ConnectionWindow : ℕ
  http2Stream1Window : ℕ
  http2Headers : Bytes
  http2HeadersMax : ℕ
  http2Dyn : List Dyn
  http2DynMax : ℕ
  http2Input : Block
  http2InputMax : ℕ
  http2InputLen : ℕ
  http2Data : Bytes
  http2DataMax : ℕ
  typeHtml : Bool
  typeDns : Bool
  done : Bool
  status : ℕ
  deriving DecidableEq

/-- `http2_init`; the field `status` is left as `malloc` found it. -/
def http2Init (status : ℕ) : Http2Env where
  http2SendGlobalCredits := 0
  http2SendStream1Credits := 0
  http2ConnectionWindow := 65535
  http2Stream1Window := 65535
  http2Headers := []
  http2HeadersMax := 0
  http2Dyn := []
  http2DynMax := 0
  http2Input := Block.null
  http2InputMax := 0
  http2InputLen := 0
  http2Data := []
  http2DataMax := 0
  typeHtml := false
  typeDns := false
  done := false
  status := status

/-! ### The connection -/

/-- A frame: `struct http2_hdr`, with the reserved bit of the stream identifier cleared, and the
payload. -/
structure Frame where
  type : UInt8
  flags : UInt8
  streamId : ℕ
  payload : Bytes
  deriving DecidableEq

/-- What is recorded of a run. -/
inductive Event where
  /-- A frame has been read completely. -/
  | received (f : Frame)
  /-- The handler of the frame has returned without error. -/
  | accepted (f : Frame)
  /-- `Xreport_header` is called. -/
  | report (key value : Bytes)
  /-- `add_dyn` is called with `idx` entries in the table and `size` bytes allocated for
  `http2_input`. -/
  | addDyn (idx size : ℕ)
  /-- `Xdecode_huffman2` is called on `len` bytes. -/
  | huffman (len : ℕ)
  /-- The callback `reply_cb` is called. -/
  | reply (status : ℕ) (data : Bytes)
  deriving DecidableEq

/-- The state of a connection. -/
structure Conn where
  env : Http2Env
  /-- The input buffer of the bufferevent. -/
  inbuf : Bytes
  /-- What has been added to the output buffer of the bufferevent. -/
  outbuf : Bytes
  log : List Event
  deriving DecidableEq

/-- Why a run ends early. -/
inductive Stop where
  /-- A function returned `-1` (or `0`), which makes `http2_dns_input` return `-1`. -/
  | failed
  /-- `fatal` was called. -/
  | fatal
  /-- A byte was read that was never written. -/
  | overread
  /-- A byte was written behind the end of a heap block. -/
  | overflow
  deriving DecidableEq

/-- Code that runs on a connection. -/
abbrev Handler := EStateM Stop Conn

/-- What the compiled program does where C leaves the behaviour open. -/
structure Platform where
  /-- The entries read behind the end of `huffman_decode_fffffe`. -/
  past : ℕ → HuffmanDecode
  /-- The result of the overflow test and the shifted value for a shift of at least 32 bits. -/
  wideShift : ℕ → ℕ → Option ℕ

/-- A platform with zeros behind the table that takes a shift count modulo 32. -/
def Platform.x86 : Platform where
  past _ := ⟨0, 0⟩
  wideShift newBits shift :=
    let newValue := (newBits <<< (shift % 32)) % 2 ^ 32
    if newValue >>> (shift % 32) ≠ newBits then none else some newValue

/-- The environment. -/
def getEnv : Handler Http2Env := do return (← get).env

/-- Change the environment. -/
def modifyEnv (f : Http2Env → Http2Env) : Handler Unit := modify fun c => { c with env := f c.env }

/-- Record an event. -/
def note (e : Event) : Handler Unit := modify fun c => { c with log := c.log ++ [e] }

/-- Read the first byte of the memory `buf`. -/
def readByte : Bytes → Handler UInt8
  | [] => throw .overread
  | b :: _ => pure b

/-- Read `n` bytes of the memory `buf`. -/
def readBytes (buf : Bytes) (n : ℕ) : Handler Bytes :=
  if n ≤ buf.length then pure (buf.take n) else throw .overread

/-! ### Sending frames -/

/-- The error codes that the source uses. -/
inductive ErrorCode where
  | protocolError
  | internalError
  | flowControlError
  | frameSizeError
  | compressionError

/-- The number of an error code. -/
def ErrorCode.toNat : ErrorCode → ℕ
  | protocolError => 0x1
  | internalError => 0x2
  | flowControlError => 0x3
  | frameSizeError => 0x6
  | compressionError => 0x9

/-- Three bytes in network order. -/
def be24 (n : ℕ) : Bytes := [UInt8.ofNat (n >>> 16), UInt8.ofNat (n >>> 8), UInt8.ofNat n]

/-- A frame header as the senders fill it in. -/
def sendHdr (length type flags streamId : ℕ) : Bytes :=
  be24 length ++ [UInt8.ofNat type, UInt8.ofNat flags] ++ be32 (streamId % 2 ^ 31)

/-- The bytes of `send_goaway2`; the last stream identifier is zero in every call. -/
def goawayFrame (code : ErrorCode) (reason : String) : Bytes :=
  sendHdr (8 + (ascii reason).length) 7 0 0 ++ be32 0 ++ be32 code.toNat ++ ascii reason

/-- `send_goaway2` and the `return -1` (or `0`) that follows it in every case. -/
def goaway {α : Type} (code : ErrorCode) (reason : String) : Handler α := do
  modify fun c => { c with outbuf := c.outbuf ++ goawayFrame code reason }
  throw .failed

/-! ### Encoding headers -/

/-- The bytes of a C string. -/
def cString (s : Bytes) : Bytes := s.takeWhile (· ≠ 0)

/-- `add_byte2`. -/
def addByte2 (env : Http2Env) (byte : UInt8) : Http2Env :=
  { env with
    http2HeadersMax :=
      if env.http2HeadersMax < env.http2Headers.length + 1 then env.http2Headers.length + 64
      else env.http2HeadersMax
    http2Headers := env.http2Headers ++ [byte] }

/-- The loop of `add_length2` that writes seven bits at a time. -/
def addLengthLoop (env : Http2Env) (value : ℕ) : Http2Env :=
  if 0x7f < value then
    addLengthLoop (addByte2 env (UInt8.ofNat (0x80 ||| (value &&& 0x7f)))) (value >>> 7)
  else
    addByte2 env (UInt8.ofNat value)
termination_by value
decreasing_by
  rw [Nat.shiftRight_eq_div_pow]
  omega

/-- `add_length2`. -/
def addLength2 (env : Http2Env) (prefixLen prefixValue value : ℕ) : Http2Env :=
  let firstMax := 2 ^ (8 - prefixLen) - 1
  if value < firstMax then
    addByte2 env (UInt8.ofNat (prefixValue ||| value))
  else
    addLengthLoop (addByte2 env (UInt8.ofNat (prefixValue ||| firstMax))) (value - firstMax)

/-- `add_str2`. -/
def addStr2 (env : Http2Env) (str : Bytes) : Http2Env :=
  let len := (cString str).length
  { env with
    http2HeadersMax :=
      if env.http2HeadersMax < env.http2Headers.length + len then
        env.http2Headers.length + len + 64
      else env.http2HeadersMax
    http2Headers := env.http2Headers ++ cString str }

/-- `add_header2`; a length is passed on as a `uint32_t`. -/
def addHeader2 (env : Http2Env) (name value : Bytes) : Http2Env :=
  let env := addByte2 env 0x10
  let env := addLength2 env 1 0x00 ((cString name).length % 2 ^ 32)
  let env := addStr2 env name
  let env := addLength2 env 1 0x00 ((cString value).length % 2 ^ 32)
  addStr2 env value

/-! ### The request -/

/-- `send_settings2`: server push is disabled. -/
def sendSettings2 : Bytes := sendHdr 6 4 0 0 ++ [0, 2] ++ be32 0

/-- Free the header block. -/
def Http2Env.clearHeaders (env : Http2Env) : Http2Env :=
  { env with http2Headers := [], http2HeadersMax := 0 }

/-- `send_headers2` hands over the header block and frees it. -/
def sendHeaders2 (env : Http2Env) (streamId : ℕ) : Http2Env × Bytes :=
  (env.clearHeaders, sendHdr env.http2Headers.length 1 4 streamId ++ env.http2Headers)

/-- `send_data2`. -/
def sendData2 (data : Bytes) (streamId : ℕ) : Bytes :=
  sendHdr data.length 0 1 streamId ++ data

/-- `send_request2`. -/
def sendRequest2 (c : Conn) (hostnamePort path data : Bytes) : Conn :=
  let env := addHeader2 c.env (ascii ":method") (ascii "POST")
  let env := addHeader2 env (ascii ":scheme") (ascii "https")
  let env := addHeader2 env (ascii ":authority") hostnamePort
  let env := addHeader2 env (ascii ":path") path
  let env := addHeader2 env (ascii "user-agent") (ascii "RIPE Atlas")
  let env := addHeader2 env (ascii "accept") (ascii "application/dns-message")
  let env := addHeader2 env (ascii "content-type") (ascii "application/dns-message")
  let env := addHeader2 env (ascii "content-length") (ascii (toString data.length))
  let sent := sendHeaders2 env 1
  { c with
    env := sent.1
    outbuf := c.outbuf ++ ascii "PRI * HTTP/2.0\r\n\r\nSM\r\n\r\n" ++ sendSettings2 ++ sent.2 ++
      sendData2 data 1 }

/-- A new connection on which `http2_dns` has sent its request. -/
def http2Dns (status : ℕ) (hostnamePort path data : Bytes) : Conn :=
  sendRequest2 ⟨http2Init status, [], [], []⟩ hostnamePort path data

/-- A connection on which the request is empty. -/
abbrev plainConn : Conn := http2Dns 0 [] [] []

variable (env : Http2Env)

/-- Adding to the header block changes nothing else. -/
lemma clearHeaders_addLengthLoop (value : ℕ) :
    (addLengthLoop env value).clearHeaders = env.clearHeaders := by
  induction env, value using addLengthLoop.induct with
  | case1 env value h ih =>
    rw [addLengthLoop, if_pos h, ih]
    rfl
  | case2 env value h =>
    rw [addLengthLoop, if_neg h]
    rfl

lemma clearHeaders_addLength2 (prefixLen prefixValue value : ℕ) :
    (addLength2 env prefixLen prefixValue value).clearHeaders = env.clearHeaders := by
  unfold addLength2
  dsimp only
  split
  · rfl
  · rw [clearHeaders_addLengthLoop]
    rfl

lemma clearHeaders_addStr2 (str : Bytes) :
    (addStr2 env str).clearHeaders = env.clearHeaders := rfl

lemma clearHeaders_addHeader2 (name value : Bytes) :
    (addHeader2 env name value).clearHeaders = env.clearHeaders := by
  unfold addHeader2
  simp only [clearHeaders_addStr2, clearHeaders_addLength2]
  rfl

/-- Sending the request leaves a fresh environment. -/
lemma env_http2Dns (status : ℕ) (hostnamePort path data : Bytes) :
    (http2Dns status hostnamePort path data).env = http2Init status := by
  simp only [http2Dns, sendRequest2, sendHeaders2, clearHeaders_addHeader2]
  rfl

end AtlasProbe.Http2
