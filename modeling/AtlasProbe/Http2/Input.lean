import AtlasProbe.Http2.Frames

/-!
# Reading frames

`Xhttp2_dns_input1` reads one frame in two stages, the frame header and the rest, and may stop in
both when the input buffer runs dry; how far it got is `http2_input_len`.  `http2_dns_input` calls
it until the input is used up, an error occurs or the response is complete, and a session is what
happens when the bytes of the server arrive in chunks.
-/

namespace AtlasProbe.Http2

variable (u : Platform)

/-- Make room for `needed` bytes in `http2_input`. -/
def makeRoom (needed : ℕ) (env : Http2Env) : Http2Env :=
  if env.http2InputMax < needed then
    { env with http2Input := env.http2Input.realloc needed, http2InputMax := needed }
  else env

/-- `evbuffer_remove` of up to `len` bytes to the end of what has been read of the frame; the run
ends at the first byte that is behind the block. -/
def removeInput (len : ℕ) : Handler Unit := do
  let c ← get
  let data := c.inbuf.take len
  let fit := data.take (c.env.http2Input.size - c.env.http2InputLen)
  set { c with
    inbuf := c.inbuf.drop fit.length
    env := { c.env with
      http2Input := c.env.http2Input.write c.env.http2InputLen fit
      http2InputLen := c.env.http2InputLen + fit.length } }
  if fit.length < data.length then throw .overflow else pure ()

/-- One of the two reading stages of `Xhttp2_dns_input1`: make room for `needed` bytes and read
what is missing, as far as the input goes.  The result says whether it was enough. -/
def fill (needed : ℕ) : Handler Bool := do
  modifyEnv (makeRoom needed)
  let env ← getEnv
  if env.http2InputLen < needed then do
    removeInput (needed - env.http2InputLen)
    let env ← getEnv
    pure (needed ≤ env.http2InputLen)
  else
    pure true

/-- The length field at the start of `http2_input`. -/
def frameLength (bytes : Bytes) : ℕ := beNat (bytes.take 3)

/-- The frame at the start of `http2_input`. -/
def frameOf (bytes : Bytes) : Frame where
  type := bytes.getD 3 0
  flags := bytes.getD 4 0
  streamId := beNat ((bytes.drop 5).take 4) % 2 ^ 31
  payload := (bytes.drop 9).take (frameLength bytes)

/-- The end of `Xhttp2_dns_input1`, when the frame is complete. -/
def handleFrame : Handler Unit := do
  let env ← getEnv
  let f := frameOf env.http2Input.bytes
  note (.received f)
  dispatch u f.type f.flags (frameLength env.http2Input.bytes) f.streamId
    (env.http2Input.bytes.drop 9)
  note (.accepted f)
  modifyEnv fun env => { env with http2InputLen := 0 }

/-- The second stage of `Xhttp2_dns_input1`, when the frame header is complete. -/
def readFrame : Handler Unit := do
  let env ← getEnv
  if ← fill (9 + frameLength env.http2Input.bytes) then handleFrame u else pure ()

/-- `Xhttp2_dns_input1`. -/
def xHttp2DnsInput1 : Handler Unit := do
  if ← fill 9 then readFrame u else pure ()

/-! ### The loop -/

/-- How a call of `http2_dns_input` ends. -/
inductive Outcome where
  /-- All input is used up; the result is `1`. -/
  | more
  /-- The response is complete and has been passed on; the result is `0`. -/
  | replied
  /-- The call returned `-1`, or did not return. -/
  | stopped (why : Stop)
  deriving DecidableEq

/-- The loop of `http2_dns_input`, cut off after `fuel` rounds. -/
def inputLoop : ℕ → Conn → Option (Outcome × Conn)
  | 0, _ => none
  | fuel + 1, c =>
    if c.inbuf = [] then
      some (.more, c)
    else
      match xHttp2DnsInput1 u c with
      | .error why c' => some (.stopped why, c')
      | .ok _ c' =>
        if c'.env.done then
          some (.replied, { c' with log := c'.log ++ [.reply c'.env.status c'.env.http2Data] })
        else
          inputLoop fuel c'

/-- `http2_dns_input`.  Two rounds for each byte are always enough, so the default is not used. -/
def http2DnsInput (c : Conn) : Outcome × Conn :=
  if c.env.done then (.stopped .failed, c)
  else (inputLoop u (2 * c.inbuf.length + 2) c).getD (.more, c)

/-! ### Sessions -/

/-- A chunk of input arrives. -/
def Conn.extend (c : Conn) (chunk : Bytes) : Conn := { c with inbuf := c.inbuf ++ chunk }

/-- A chunk arrives and `http2_dns_input` is called, unless the session has ended. -/
def feed (s : Outcome × Conn) (chunk : Bytes) : Outcome × Conn :=
  match s.1 with
  | .more => http2DnsInput u (s.2.extend chunk)
  | _ => s

/-- The server's bytes arrive in chunks. -/
def session (c : Conn) (chunks : List Bytes) : Outcome × Conn :=
  chunks.foldl (feed u) (.more, c)

end AtlasProbe.Http2
