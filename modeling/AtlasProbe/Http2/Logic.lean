import AtlasProbe.Http2.Input

/-!
# Reasoning about all frame handlers at once

The frame handlers are put together from a few operations on the connection: reading the
environment, sending a GOAWAY frame, stopping, adding to the dynamic table, reporting a header, and
so on.  A property of handlers that holds of these operations and is kept by sequencing holds of
every handler (`FrameLogic.dispatch`), so an invariant of the connection is proved by looking at the
operations only.  `wp_xReportHeader` says what reporting a header does.
-/

namespace AtlasProbe.Http2

section Rules

variable {c : Conn} {E : Stop → Conn → Prop} {Q : Unit → Conn → Prop}

@[simp]
lemma wp_getEnv {Q : Http2Env → Conn → Prop} : Wp getEnv c Q E ↔ Q c.env c := Iff.rfl

@[simp]
lemma wp_modifyEnv (f : Http2Env → Http2Env) :
    Wp (modifyEnv f) c Q E ↔ Q () { c with env := f c.env } := Iff.rfl

@[simp]
lemma wp_note (e : Event) : Wp (note e) c Q E ↔ Q () { c with log := c.log ++ [e] } := Iff.rfl

end Rules

/-- A property of handlers that holds of everything that reading a header field is made of. -/
structure ReadLogic (P : ∀ {α : Type}, Handler α → Prop) : Prop where
  pure : ∀ {α : Type} (a : α), P (pure a : Handler α)
  bind : ∀ {α β : Type} {m : Handler α} {f : α → Handler β}, P m → (∀ a, P (f a)) → P (m >>= f)
  stop : ∀ {α : Type} (why : Stop), why ≠ .overflow → P (throw why : Handler α)
  goaway : ∀ {α : Type} (code : ErrorCode) (reason : String), P (goaway code reason : Handler α)
  getEnv : P getEnv
  huffman : ∀ len, P (note (.huffman len))

/-- A property of handlers that holds of everything that decoding headers is made of. -/
structure HeaderLogic (P : ∀ {α : Type}, Handler α → Prop) : Prop extends ReadLogic P where
  addDyn : ∀ key value, P (addDyn key value)
  report : ∀ key value, P (xReportHeader key value)

/-- A property of handlers that holds of everything the handlers of frames without data and headers
are made of. -/
structure WindowLogic (P : ∀ {α : Type}, Handler α → Prop) : Prop extends ReadLogic P where
  window : ∀ w n, P (growWindow w n)

/-- A property of handlers that holds of everything the frame handlers but that of DATA frames are
made of. -/
structure ControlLogic (P : ∀ {α : Type}, Handler α → Prop) : Prop
  extends HeaderLogic P, WindowLogic P

/-- A property of handlers that holds of everything the frame handlers are made of. -/
structure FrameLogic (P : ∀ {α : Type}, Handler α → Prop) : Prop extends ControlLogic P where
  credits : ∀ streamId n, P (addCredits2 streamId n)
  data : ∀ d, P (addData d)
  done : P (modifyEnv fun env => { env with done := true })

lemma ReadLogic.ite {P : ∀ {α : Type}, Handler α → Prop} (_ : ReadLogic P) {α : Type} {c : Prop}
    [Decidable c] {m n : Handler α} (hm : P m) (hn : P n) : P (if c then m else n) := by
  split
  · exact hm
  · exact hn

namespace ReadLogic

variable {P : ∀ {α : Type}, Handler α → Prop} (L : ReadLogic P) (u : Platform) (buf : Bytes)

include L

lemma readByte : P (readByte buf) := by
  cases buf with
  | nil => exact L.stop _ (by decide)
  | cons b buf => exact L.pure b

lemma readBytes (n : ℕ) : P (readBytes buf n) := by
  exact L.ite (L.pure _) (L.stop _ (by decide))

lemma decodeIntLoop (len maxValue : ℕ) (buf : Bytes) :
    ∀ o v, P (decodeIntLoop u len maxValue buf o v) := by
  induction buf with
  | nil =>
    intro o v
    exact L.ite (L.stop _ (by decide)) (L.goaway _ _)
  | cons byte buf ih =>
    intro o v
    refine L.ite ?_ (L.goaway _ _)
    split
    · exact L.goaway _ _
    · exact L.ite (ih _ _) (L.ite (L.goaway _ _) (L.pure _))

lemma xDecodeInt2 (len prefixLen : ℕ) : P (xDecodeInt2 u buf len prefixLen) := by
  refine L.bind (L.readByte buf) ?_
  intro byte
  exact L.ite (L.pure _) (L.decodeIntLoop u _ _ _ _ _)

lemma huffmanString (len cap : ℕ) : P (huffmanString u buf len cap) := by
  refine L.bind (L.huffman len) fun _ => L.bind (L.readBytes buf len) ?_
  intro str
  split
  · exact L.goaway _ _
  · split
    · exact L.stop _ (by decide)
    · exact L.pure _

lemma decodeString (len o cap : ℕ) (isName : Bool) : P (decodeString u buf len o cap isName) := by
  refine L.ite (L.goaway _ _) (L.bind (L.readByte _) fun byte => L.bind (L.xDecodeInt2 u _ _ _) ?_)
  rintro ⟨tmplen, value⟩
  refine L.ite (L.goaway _ _) (L.ite ?_ (L.ite (L.goaway _ _) ?_))
  · exact L.bind (L.huffmanString u _ _ _) fun str => L.pure _
  · exact L.bind (L.readBytes _ _) fun str => L.pure _

lemma xGetDyn (value : ℕ) : P (xGetDyn value) := by
  refine L.ite (L.stop _ (by decide)) (L.bind L.getEnv fun env => ?_)
  split
  · exact L.goaway _ _
  · exact L.pure _

lemma indexedName (value : ℕ) : P (indexedName value) := by
  exact L.ite (L.bind (L.xGetDyn value) fun dyn => L.pure _) (L.pure _)

end ReadLogic

namespace HeaderLogic

variable {P : ∀ {α : Type}, Handler α → Prop} (L : HeaderLogic P) (u : Platform) (buf : Bytes)
  (len : ℕ)

include L

lemma decodeIndexed : P (decodeIndexed u buf len) := by
  refine L.bind (L.xDecodeInt2 u _ _ _) ?_
  rintro ⟨tmplen, value⟩
  refine L.ite (L.goaway _ _) (L.ite ?_ ?_)
  · exact L.bind (L.xGetDyn value) fun dyn => L.bind (L.report _ _) fun _ => L.pure _
  · split
    · exact L.goaway _ _
    · exact L.bind (L.addDyn _ _) fun _ => L.bind (L.report _ _) fun _ => L.pure _

lemma decodeNewName : P (decodeNewName u buf len) := by
  refine L.bind (L.decodeString u _ _ _ _ _) ?_
  rintro ⟨namebuf, o⟩
  refine L.bind (L.decodeString u _ _ _ _ _) ?_
  rintro ⟨value, o⟩
  exact L.bind (L.addDyn _ _) fun _ => L.bind (L.report _ _) fun _ => L.pure _

lemma decodeIndexedName (prefixLen : ℕ) (indexing : Bool) (buf : Bytes) (len : ℕ) :
    P (decodeIndexedName u prefixLen indexing buf len) := by
  refine L.bind (L.xDecodeInt2 u _ _ _) ?_
  rintro ⟨tmplen, value⟩
  refine L.ite (L.goaway _ _) (L.bind (L.indexedName value) fun name =>
    L.bind (L.decodeString u _ _ _ _ _) ?_)
  rintro ⟨str, o⟩
  refine L.ite ?_ ?_
  · exact L.bind (L.addDyn _ _) fun _ => L.bind (L.report _ _) fun _ => L.pure _
  · exact L.bind (L.report _ _) fun _ => L.pure _

lemma xDecodeHeader2 : P (xDecodeHeader2 u buf len) := by
  refine L.bind (L.readByte buf) fun byte => L.ite ?_ (L.ite ?_ (L.ite ?_ (L.ite ?_ ?_)))
  · exact L.decodeIndexed u buf len
  · exact L.decodeNewName u buf len
  · exact L.decodeIndexedName u _ _ buf len
  · exact L.decodeIndexedName u _ _ buf len
  · exact L.goaway _ _

lemma headersLoop (length headersLen : ℕ) (buf : Bytes) (fuel : ℕ) :
    ∀ o, P (headersLoop u length headersLen buf fuel o) := by
  induction fuel with
  | zero => exact fun o => L.pure ()
  | succ fuel ih =>
    intro o
    exact L.ite (L.bind (L.xDecodeHeader2 u _ _) fun len => ih _) (L.pure ())

lemma receiveHeadersBody (length padLength o : ℕ) (buf : Bytes) :
    P (receiveHeadersBody u length padLength o buf) := by
  exact L.ite (L.goaway _ _) (L.headersLoop u _ _ _ _ _)

/-- The handler of HEADERS frames. -/
theorem xReceiveHeaders2 (flags : UInt8) (length streamId : ℕ) (buf : Bytes) :
    P (xReceiveHeaders2 u flags length streamId buf) := by
  refine L.ite (L.goaway _ _) (L.ite (L.goaway _ _) (L.ite ?_ ?_))
  · exact L.bind (L.readByte buf) fun pad => L.receiveHeadersBody u _ _ _ _
  · exact L.receiveHeadersBody u _ _ _ _

end HeaderLogic

namespace WindowLogic

variable {P : ∀ {α : Type}, Handler α → Prop} (L : WindowLogic P) (u : Platform)
  (length streamId : ℕ)

include L

lemma xReceiveRstStream2 : P (xReceiveRstStream2 length streamId) := by
  exact L.ite (L.goaway _ _) (L.ite (L.goaway _ _) (L.pure ()))

lemma xReceiveSettings2 (flags : UInt8) (length streamId : ℕ) :
    P (xReceiveSettings2 flags length streamId) := by
  exact L.ite (L.goaway _ _) (L.ite (L.goaway _ _) (L.ite (L.goaway _ _) (L.pure ())))

lemma xReceivePing2 : P (xReceivePing2 length streamId) := by
  exact L.ite (L.goaway _ _) (L.ite (L.goaway _ _) (L.pure ()))

lemma xReceiveGoaway2 : P (xReceiveGoaway2 length streamId) := by
  exact L.ite (L.goaway _ _) (L.ite (L.goaway _ _) (L.pure ()))

lemma xReceiveWindowUpdate2 (buf : Bytes) : P (xReceiveWindowUpdate2 length streamId buf) := by
  refine L.ite (L.goaway _ _) (L.bind (L.readBytes buf 4) fun bytes => L.ite (L.goaway _ _) ?_)
  exact L.ite (L.window _ _) (L.ite (L.window _ _) (L.goaway _ _))

/-- The handlers of all frames but DATA and HEADERS frames. -/
theorem dispatch_of_ne {type : UInt8} (hdata : type ≠ 0) (hheaders : type ≠ 1) (flags : UInt8)
    (length streamId : ℕ) (buf : Bytes) : P (dispatch u type flags length streamId buf) := by
  unfold Http2.dispatch
  rw [if_neg hdata, if_neg hheaders]
  refine L.ite ?_ (L.ite ?_ (L.ite ?_ (L.ite ?_ (L.ite ?_ ?_))))
  · exact L.xReceiveRstStream2 _ _
  · exact L.xReceiveSettings2 _ _ _
  · exact L.xReceivePing2 _ _
  · exact L.xReceiveGoaway2 _ _
  · exact L.xReceiveWindowUpdate2 _ _ _
  · exact L.goaway _ _

end WindowLogic

/-- The handlers of all frames but DATA frames. -/
theorem ControlLogic.dispatch_of_ne {P : ∀ {α : Type}, Handler α → Prop} (L : ControlLogic P)
    (u : Platform) {type : UInt8} (hdata : type ≠ 0) (flags : UInt8) (length streamId : ℕ)
    (buf : Bytes) : P (dispatch u type flags length streamId buf) := by
  by_cases hheaders : type = 1
  · rw [dispatch, if_neg hdata, if_pos hheaders]
    exact L.xReceiveHeaders2 u _ _ _ _
  · exact L.toWindowLogic.dispatch_of_ne u hdata hheaders _ _ _ _

namespace FrameLogic

variable {P : ∀ {α : Type}, Handler α → Prop} (L : FrameLogic P) (u : Platform)

include L

lemma receiveDataBody (length streamId padOffset padLength : ℕ) (buf : Bytes) :
    P (receiveDataBody length streamId padOffset padLength buf) := by
  refine L.bind (L.credits _ _) fun _ => L.bind L.getEnv fun env => ?_
  exact L.ite (L.bind (L.readBytes _ _) fun data => L.data _) (L.pure ())

lemma xReceiveData2 (flags : UInt8) (length streamId : ℕ) (buf : Bytes) :
    P (xReceiveData2 flags length streamId buf) := by
  refine L.ite (L.bind (L.readByte buf) fun pad => L.ite (L.goaway _ _) ?_) ?_
  · exact L.receiveDataBody _ _ _ _ _
  · exact L.receiveDataBody _ _ _ _ _

/-- All frame handlers. -/
theorem dispatch (type flags : UInt8) (length streamId : ℕ) (buf : Bytes) :
    P (dispatch u type flags length streamId buf) := by
  by_cases htype : type = 0
  · unfold Http2.dispatch
    rw [if_pos htype]
    exact L.bind (L.xReceiveData2 _ _ _ _) fun _ => L.ite L.done (L.pure ())
  · exact L.toControlLogic.dispatch_of_ne u htype _ _ _ _

end FrameLogic

/-! ### Elementary changes -/

/-- A property of handlers that holds of the elementary changes of the connection. -/
structure StepLogic (P : ∀ {α : Type}, Handler α → Prop) : Prop extends ReadLogic P where
  addDyn : ∀ key value, P (addDyn key value)
  report : ∀ key value, P (note (.report key value))
  status : ∀ status, P (modifyEnv fun env => { env with status := status })
  types : ∀ html dns, P (modifyEnv fun env =>
    { env with typeHtml := env.typeHtml || html, typeDns := env.typeDns || dns })
  globalCredits : ∀ n, P (modifyEnv fun env =>
    { env with http2SendGlobalCredits := (env.http2SendGlobalCredits + n) % 2 ^ 32 })
  stream1Credits : ∀ n, P (modifyEnv fun env =>
    { env with http2SendStream1Credits := (env.http2SendStream1Credits + n) % 2 ^ 32 })
  data : ∀ d, P (addData d)
  window : ∀ (w : Window) n, P (modifyEnv fun env => w.set env ((w.get env + n) % 2 ^ 32))
  done : P (modifyEnv fun env => { env with done := true })

namespace StepLogic

variable {P : ∀ {α : Type}, Handler α → Prop} (L : StepLogic P)

include L

lemma xParseStatusCode2 (value : Bytes) : P (xParseStatusCode2 value) := by
  unfold Http2.xParseStatusCode2
  split
  · exact L.goaway _ _
  · exact L.ite (L.goaway _ _) (L.pure _)

lemma xReportHeader (key value : Bytes) : P (xReportHeader key value) := by
  refine L.bind (L.report key value) fun _ => L.bind ?_ fun _ => ?_
  · exact L.ite (L.bind (L.xParseStatusCode2 value) fun status => L.status status) (L.pure ())
  · exact L.ite (L.types _ _) (L.pure ())

lemma addCredits2 (streamId n : ℕ) : P (addCredits2 streamId n) := by
  exact L.bind (L.globalCredits n) fun _ => L.ite (L.stream1Credits n) (L.stop _ (by decide))

lemma growWindow (w : Window) (n : ℕ) : P (growWindow w n) := by
  refine L.bind L.getEnv fun env => L.bind (L.window w n) fun _ => ?_
  exact L.ite (L.goaway _ _) (L.pure ())

/-- A property of the elementary changes is one of all frame handlers. -/
theorem frameLogic : FrameLogic P where
  toReadLogic := L.toReadLogic
  addDyn := L.addDyn
  report := L.xReportHeader
  credits := L.addCredits2
  data := L.data
  window := L.growWindow
  done := L.done

end StepLogic

/-- The connection after `add_dyn`. -/
def Conn.addDyn (c : Conn) (key value : Bytes) : Conn :=
  { c with
    log := c.log ++ [.addDyn c.env.http2Dyn.length c.env.http2Input.size]
    env := { c.env with
      http2InputMax :=
        if c.env.http2DynMax < c.env.http2Dyn.length + 1 then c.env.http2Dyn.length + 16
        else c.env.http2InputMax
      http2Dyn := c.env.http2Dyn ++ [⟨key, value⟩] } }

/-! ### Reporting a header -/

/-- The header is a status that `Xparse_status_code2` refuses. -/
def BadStatus (key value : Bytes) : Prop :=
  key = ascii ":status" ∧ ¬ (value.length = 3 ∧ value.all isdigit = true)

instance decidableBadStatus (key value : Bytes) : Decidable (BadStatus key value) :=
  inferInstanceAs (Decidable (_ ∧ _))

/-- The connection after `Xreport_header`. -/
def Conn.report (c : Conn) (key value : Bytes) : Conn :=
  { c with
    log := c.log ++ [.report key value]
    env := { c.env with
      status := if key = ascii ":status" then decimal value else c.env.status
      typeHtml := c.env.typeHtml ||
        (key = ascii "content-type" && isMediaType value "text/html")
      typeDns := c.env.typeDns ||
        (key = ascii "content-type" && isMediaType value "application/dns-message") } }

/-- `Xreport_header` looks at the header, or refuses a bad status. -/
lemma wp_xReportHeader (key value : Bytes) (c : Conn) :
    Wp (xReportHeader key value) c (fun _ c' => ¬ BadStatus key value ∧ c' = c.report key value)
      fun why c' => BadStatus key value ∧ why = .failed ∧ ∃ reason, c' = { c with
        log := c.log ++ [.report key value]
        outbuf := c.outbuf ++ goawayFrame .protocolError reason } := by
  have hkeys : ascii ":status" ≠ ascii "content-type" := by decide
  unfold xReportHeader
  rw [wp_bind, wp_note, wp_bind]
  by_cases hkey : key = ascii ":status"
  · subst hkey
    rw [reportStatus, if_pos rfl, wp_bind]
    refine wp_ite (fun hlen => ⟨⟨rfl, fun h => hlen h.1⟩, rfl, _, rfl⟩) fun hlen =>
      wp_ite (fun hdigits => ⟨⟨rfl, fun h => ?_⟩, rfl, _, rfl⟩) fun hdigits => ?_
    · cases hdigits.symm.trans h.2
    · rw [wp_pure, wp_modifyEnv, reportType, if_neg hkeys]
      rw [not_not] at hlen
      rw [Bool.not_eq_false] at hdigits
      refine ⟨fun h => h.2 ⟨hlen, hdigits⟩, ?_⟩
      simp [Conn.report, hkeys, decimal]
  · rw [reportStatus, if_neg hkey]
    refine wp_ite (fun htype => ⟨fun h => hkey h.1, ?_⟩) fun htype => ⟨fun h => hkey h.1, ?_⟩
    · simp [Conn.report, htype, hkeys.symm]
    · simp [Conn.report, hkey, htype]

end AtlasProbe.Http2
