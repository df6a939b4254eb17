import AtlasProbe.Http2.HeaderBlock

/-!
# Assembling the response

The response is specified over what the server has sent: the frames that have been accepted
(`acceptedFrames`) and the header fields that the HEADERS frames among them carry (`sent`).  Its
data are those of the DATA frames behind a header that announces a DNS message (`assembled`), its
status is the last one (`lastStatus`), and it is complete when the stream has been ended
(`Frame.endsStream`).  Nothing of this depends on how the source decodes headers.

A frame handler only adds to what has been reported (`Reported`), except that the one of DATA frames
adds data (`DataAdded`).  With the headers that `HeaderBlock` reads back, an accepted frame changes
the connection as it changes the response (`AcceptsFrame`), so the connection keeps up with the
response along a run (`Assembled`, `Reached.assembled`).  This is for sessions in which HEADERS
frames do not end the stream and carry plain fields without padding.
-/

namespace AtlasProbe.Http2

open List

/-! ### The response that frames stand for -/

/-- The payload of a DATA frame without the pad length and the padding. -/
def Frame.unpadded (f : Frame) : Bytes :=
  if padded f.flags then (f.payload.drop 1).take (f.payload.length - (1 + f.padLength))
  else f.payload

/-- The frame ends the stream of the response. -/
def Frame.endsStream (f : Frame) : Bool :=
  (f.type = 0 || f.type = 1) && f.streamId = 1 && endStream f.flags

/-- The header announces a DNS message. -/
def isDnsType (h : Bytes × Bytes) : Bool :=
  h.1 = ascii "content-type" && (mediaType h.2).map tolower = ascii "application/dns-message"

/-- A status of three digits. -/
def isStatus (h : Bytes × Bytes) : Bool :=
  h.1 = ascii ":status" && h.2.length = 3 && h.2.all isdigit

/-- The last status among the headers, or `status` if there is none. -/
def lastStatus (status : ℕ) (headers : List (Bytes × Bytes)) : ℕ :=
  headers.foldl (fun s h => if isStatus h then decimal h.2 else s) status

/-- The headers of a frame, if it carries the fields `sent f`. -/
def Frame.headers (sent : Frame → List SentField) (f : Frame) : List (Bytes × Bytes) :=
  if f.type = 1 then (sent f).map (SentField.header hpackTable) else []

/-- The data of the DATA frames on stream 1 behind the announcement of a DNS message; `dns` says
whether it has been announced before. -/
def assembled (sent : Frame → List SentField) (dns : Bool) : List Frame → Bytes
  | [] => []
  | f :: frames => (if f.type = 0 ∧ f.streamId = 1 ∧ dns = true then f.unpadded else []) ++
    assembled sent (dns || (f.headers sent).any isDnsType) frames

/-- The frames that have been accepted. -/
def acceptedFrames (log : List Event) : List Frame :=
  log.filterMap fun
    | .accepted f => some f
    | _ => none

/-- The calls of `reply_cb`. -/
def replies (log : List Event) : List (ℕ × Bytes) :=
  log.filterMap fun
    | .reply status data => some (status, data)
    | _ => none

lemma acceptedFrames_append (l l' : List Event) :
    acceptedFrames (l ++ l') = acceptedFrames l ++ acceptedFrames l' := filterMap_append

lemma replies_append (l l' : List Event) : replies (l ++ l') = replies l ++ replies l' :=
  filterMap_append

lemma lastStatus_append (status : ℕ) (l l' : List (Bytes × Bytes)) :
    lastStatus status (l ++ l') = lastStatus (lastStatus status l) l' := foldl_append

/-! ### The response as a connection keeps it -/

/-- The part of the environment that the response is in. -/
structure Answer where
  typeDns : Bool
  status : ℕ
  data : Bytes
  done : Bool

/-- The response so far. -/
def Http2Env.answer (env : Http2Env) : Answer :=
  ⟨env.typeDns, env.status, env.http2Data, env.done⟩

/-- The response after some headers. -/
def Answer.report (a : Answer) (headers : List (Bytes × Bytes)) : Answer :=
  { a with
    typeDns := a.typeDns || headers.any isDnsType
    status := lastStatus a.status headers }

/-- The response after a frame, if it carries the fields `sent f`. -/
def Answer.accept (sent : Frame → List SentField) (a : Answer) (f : Frame) : Answer :=
  { a.report (f.headers sent) with
    data := a.data ++ if f.type = 0 ∧ f.streamId = 1 ∧ a.typeDns = true then f.unpadded else []
    done := a.done || f.endsStream }

/-- Frame by frame, the response becomes the one that the frames stand for. -/
lemma foldl_accept (sent : Frame → List SentField) (frames : List Frame) : ∀ a : Answer,
    frames.foldl (Answer.accept sent) a =
      ⟨a.typeDns || (frames.flatMap (Frame.headers sent)).any isDnsType,
        lastStatus a.status (frames.flatMap (Frame.headers sent)),
        a.data ++ assembled sent a.typeDns frames, a.done || frames.any Frame.endsStream⟩ := by
  induction frames with
  | nil =>
    intro a
    simp only [foldl_nil, flatMap_nil, any_nil, Bool.or_false, assembled, append_nil]
    rfl
  | cons f frames ih =>
    intro a
    rw [foldl_cons, ih]
    simp only [Answer.accept, Answer.report, flatMap_cons, any_append, lastStatus_append,
      assembled, any_cons, Bool.or_assoc, append_assoc]

lemma Answer.report_nil (a : Answer) : a.report [] = a := by
  rw [report, any_nil, Bool.or_false]
  rfl

lemma Answer.report_append (a : Answer) (l l' : List (Bytes × Bytes)) :
    a.report (l ++ l') = (a.report l).report l' := by
  simp only [report, any_append, lastStatus_append, Bool.or_assoc]

/-- The source finds the content type and the status in its own static table. -/
lemma Answer.report_header (a : Answer) (fields : List SentField) :
    a.report (fields.map (SentField.header staticTable)) =
      a.report (fields.map (SentField.header hpackTable)) := by
  have hdns : ∀ x : SentField, isDnsType (x.header staticTable) =
      isDnsType (x.header hpackTable) := by
    intro x
    obtain ⟨hvalue, hname⟩ := header_hpackTable x
    rw [isDnsType, isDnsType, hvalue,
      decide_eq_decide.mpr (hname (ascii "content-type") (by decide))]
  have hstatus : ∀ x : SentField, isStatus (x.header staticTable) =
      isStatus (x.header hpackTable) := by
    intro x
    obtain ⟨hvalue, hname⟩ := header_hpackTable x
    rw [isStatus, isStatus, hvalue, decide_eq_decide.mpr (hname (ascii ":status") (by decide))]
  simp only [report, lastStatus, any_map, foldl_map, Function.comp_def, hdns, hstatus,
    (header_hpackTable _).1]

/-- `memcasecmp` compares the letters in lower case. -/
lemma memcasecmpEq_iff : ∀ s t : Bytes, s.length = t.length →
    (memcasecmpEq s t = true ↔ s.map tolower = t.map tolower) := by
  have hbyte : ∀ a b : UInt8, (a = b || (a < 128 && b < 128 && tolower a = tolower b)) = true ↔
      tolower a = tolower b := by
    have hhigh : ∀ a : UInt8, ¬ a < 128 → tolower a = a := by decide +kernel
    have hlow : ∀ a : UInt8, a < 128 → tolower a < 128 := by decide +kernel
    intro a b
    by_cases ha : a < 128 <;> by_cases hb : b < 128 <;> grind
  intro s
  induction s with
  | nil =>
    intro t h
    rw [length_eq_zero_iff.mp h.symm]
    exact ⟨fun _ => rfl, fun _ => rfl⟩
  | cons a s ih =>
    intro t h
    cases t with
    | nil => cases h
    | cons b t =>
      rw [memcasecmpEq, Bool.and_eq_true, hbyte, ih t (Nat.succ.inj h), map_cons, map_cons,
        cons.injEq]

/-- The test of the source for the media type. -/
lemma isMediaType_dns (value : Bytes) : isMediaType value "application/dns-message" =
    decide ((mediaType value).map tolower = ascii "application/dns-message") := by
  have hlower :
      (ascii "application/dns-message").map tolower = ascii "application/dns-message" := by decide
  rw [isMediaType, Bool.eq_iff_iff, Bool.and_eq_true, decide_eq_true_eq, decide_eq_true_eq]
  constructor
  · rintro ⟨hlen, heq⟩
    rw [(memcasecmpEq_iff _ _ hlen).mp heq, hlower]
  · intro heq
    have hlen : (mediaType value).length = (ascii "application/dns-message").length := by
      rw [← heq, length_map]
    exact ⟨hlen, (memcasecmpEq_iff _ _ hlen).mpr (heq.trans hlower.symm)⟩

/-! ### Header handlers -/

/-- A handler has reported headers, and the response has kept up with them. -/
structure Reported (c c' : Conn) (headers : List (Bytes × Bytes)) : Prop where
  reports : reports c'.log = reports c.log ++ headers
  accepted : acceptedFrames c'.log = acceptedFrames c.log
  replies : replies c'.log = replies c.log
  answer : c'.env.answer = c.env.answer.report headers

variable {c c₁ c₂ c₃ c' : Conn} {headers headers' : List (Bytes × Bytes)} {f : Frame}

/-- A step whose events are nothing but these headers. -/
lemma reported_of_log {evs : List Event} (hlog : c'.log = c.log ++ evs)
    (hevs : acceptedFrames evs = [] ∧ replies evs = [])
    (hanswer : c'.env.answer = c.env.answer.report (Http2.reports evs)) :
    Reported c c' (Http2.reports evs) where
  reports := by rw [hlog, reports_append]
  accepted := by rw [hlog, acceptedFrames_append, hevs.1, append_nil]
  replies := by rw [hlog, replies_append, hevs.2, append_nil]
  answer := hanswer

/-- A step that neither reports anything nor touches the response. -/
lemma reported_nil {evs : List Event} (hlog : c'.log = c.log ++ evs)
    (hevs : reports evs = [] ∧ acceptedFrames evs = [] ∧ replies evs = [])
    (hanswer : c'.env.answer = c.env.answer) : Reported c c' [] := by
  rw [← hevs.1]
  refine reported_of_log hlog hevs.2 ?_
  rw [hevs.1, Answer.report_nil, hanswer]

/-- A step without events that does not touch the response. -/
lemma reported_silent (hlog : c'.log = c.log) (hanswer : c'.env.answer = c.env.answer) :
    Reported c c' [] := reported_nil (by rw [hlog, append_nil]) ⟨rfl, rfl, rfl⟩ hanswer

lemma Reported.refl (c : Conn) : Reported c c [] := reported_silent rfl rfl

lemma Reported.trans (h : Reported c₁ c₂ headers) (h' : Reported c₂ c₃ headers') :
    Reported c₁ c₃ (headers ++ headers') where
  reports := by rw [h'.reports, h.reports, append_assoc]
  accepted := h'.accepted.trans h.accepted
  replies := h'.replies.trans h.replies
  answer := by rw [h'.answer, h.answer, Answer.report_append]

/-- `Xreport_header` keeps the response up with the report. -/
lemma reported_xReportHeader (key value : Bytes) :
    Keeps (fun c c' => ∃ headers, Reported c c' headers) (xReportHeader key value) := by
  intro c
  have hdns : isDnsType (key, value) = (decide (key = ascii "content-type") &&
      isMediaType value "application/dns-message") := by rw [isDnsType, isMediaType_dns]
  refine (wp_xReportHeader key value c).mono ?_ ?_
  · rintro _ _ ⟨hok, rfl⟩
    have hstatus : isStatus (key, value) = decide (key = ascii ":status") := by
      by_cases hkey : key = ascii ":status"
      · simpa [isStatus, hkey, BadStatus] using hok
      · simp [isStatus, hkey]
    refine ⟨_, @reported_of_log _ _ [.report key value] rfl ⟨rfl, rfl⟩ ?_⟩
    change _ = c.env.answer.report [(key, value)]
    simp [Answer.report, lastStatus, hdns, hstatus, Http2Env.answer, Conn.report]
  · rintro _ _ ⟨⟨hkey, hbad⟩, -, reason, rfl⟩
    have hkeys : ascii ":status" ≠ ascii "content-type" := by decide
    refine ⟨_, @reported_of_log _ _ [.report key value] rfl ⟨rfl, rfl⟩ ?_⟩
    change _ = c.env.answer.report [(key, value)]
    have hstatus : isStatus (key, value) = false := by simpa [isStatus, hkey] using hbad
    rw [decide_eq_false (hkey ▸ hkeys), Bool.false_and] at hdns
    simp [Answer.report, lastStatus, hdns, hstatus, Http2Env.answer]

/-- The handlers of frames without data and headers report nothing. -/
lemma reported_windowLogic : WindowLogic fun {_} m => Keeps (fun c c' => Reported c c' []) m where
  pure a := keeps_pure Reported.refl a
  bind hm hf := Keeps.bind (fun _ _ _ h h' => h.trans h') hm hf
  stop why _ := keeps_throw Reported.refl why
  goaway _ _ _ := reported_silent rfl rfl
  getEnv c := Reported.refl c
  huffman _ _ := reported_nil rfl ⟨rfl, rfl, rfl⟩ rfl
  window w n := by
    have hset : ∀ (value : ℕ) (c : Conn) (out : Bytes),
        Reported c { c with env := w.set c.env value, outbuf := out } [] := by
      cases w <;> exact fun _ _ _ => reported_silent rfl rfl
    intro c
    simp only [growWindow, wp_bind, wp_getEnv]
    exact wp_ite (fun _ => hset _ c _) fun _ => hset _ c _

/-- The handlers of all frames but DATA frames only report headers. -/
lemma reported_controlLogic :
    ControlLogic fun {_} m => Keeps (fun c c' => ∃ headers, Reported c c' headers) m := by
  have hsilent : ∀ {α : Type} {m : Handler α}, Keeps (fun c c' => Reported c c' []) m →
      Keeps (fun c c' => ∃ headers, Reported c c' headers) m :=
    fun h c => (h c).mono (fun _ _ h => ⟨[], h⟩) fun _ _ h => ⟨[], h⟩
  exact {
    pure := fun a => hsilent (reported_windowLogic.pure a)
    bind := Keeps.bind fun _ _ _ ⟨hs, h⟩ ⟨hs', h'⟩ => ⟨hs ++ hs', h.trans h'⟩
    stop := fun why hwhy => hsilent (reported_windowLogic.stop why hwhy)
    goaway := fun code reason => hsilent (reported_windowLogic.goaway code reason)
    getEnv := hsilent reported_windowLogic.getEnv
    huffman := fun len => hsilent (reported_windowLogic.huffman len)
    window := fun w n => hsilent (reported_windowLogic.window w n)
    addDyn := fun _ _ => hsilent fun _ => reported_nil rfl ⟨rfl, rfl, rfl⟩ rfl
    report := reported_xReportHeader }

/-! ### DATA frames -/

/-- What the handler of an accepted DATA frame does. -/
structure DataAdded (f : Frame) (c c' : Conn) : Prop where
  streamId : f.streamId = 1
  log : c'.log = c.log
  answer : c'.env.answer = { c.env.answer with
    data := c.env.http2Data ++ if c.env.typeDns then f.unpadded else [] }

section Data

variable {length : ℕ} {buf : Bytes}

/-- The part of the memory between the pad length and the padding. -/
lemma Frame.InMemory.unpadded_eq (h : f.InMemory length buf) (hflag : padded f.flags = true)
    {pad : UInt8} (hpad : buf.head? = some pad) (hlt : pad.toNat < length) :
    f.unpadded = (buf.drop 1).take (length - (1 + pad.toNat)) := by
  have hne : f.payload ≠ [] := by
    rw [← length_pos_iff, h.length_payload]
    omega
  rw [Frame.unpadded, if_pos hflag, h.length_payload, h.padLength_eq hne hpad, h.payload,
    drop_take, take_take, Nat.min_eq_left (by omega)]

/-- The handler of DATA frames behind the padding check. -/
lemma receiveDataBody_response {padOffset padLength : ℕ}
    (hunpadded : f.unpadded = (buf.drop padOffset).take (length - (padOffset + padLength)))
    (c : Conn) :
    Wp (receiveDataBody length f.streamId padOffset padLength buf) c
      (fun _ c' => DataAdded f c c') fun _ c' => Reported c c' [] := by
  have herror : ∀ m n, Reported c { c with env := { c.env with
      http2SendGlobalCredits := m, http2SendStream1Credits := n } } [] := fun _ _ =>
    reported_silent rfl rfl
  simp only [receiveDataBody, addCredits2, wp_bind]
  refine wp_ite (fun hstream => ?_) fun _ => herror _ _
  refine wp_ite (fun hdns => ?_) fun hdns => ?_
  · simp only [wp_bind]
    refine wp_ite (fun _ => ⟨hstream, rfl, ?_⟩) fun _ => herror _ _
    rw [if_pos hdns, hunpadded]
    rfl
  · refine ⟨hstream, rfl, ?_⟩
    rw [if_neg hdns, append_nil]
    rfl

/-- The handler of DATA frames. -/
lemma xReceiveData2_response (h : f.InMemory length buf) (c : Conn) :
    Wp (xReceiveData2 f.flags length f.streamId buf) c (fun _ c' => DataAdded f c c')
      fun _ c' => Reported c c' [] := by
  refine wp_ite (fun hflag => ?_) fun hflag => ?_
  · cases buf with
    | nil => exact Reported.refl c
    | cons pad buf =>
      refine wp_ite (fun _ => reported_silent rfl rfl) fun hlen => ?_
      exact receiveDataBody_response (h.unpadded_eq hflag rfl (Nat.lt_of_not_le hlen)) c
  · refine receiveDataBody_response ?_ c
    rw [Frame.unpadded, if_neg hflag, h.payload, drop_zero, Nat.sub_zero]

end Data

/-! ### Runs -/

/-- A HEADERS frame that does not end the stream and carries the fields `sent f`, all of them plain
and without padding. -/
def Frame.Understood (sent : Frame → List SentField) (f : Frame) : Prop :=
  f.type = 1 → endStream f.flags = false ∧ f.Carries (sent f)

/-- A frame has been accepted and has changed the response as it should. -/
structure AcceptsFrame (sent : Frame → List SentField) (f : Frame) (c c' : Conn) : Prop where
  accepted : acceptedFrames c'.log = acceptedFrames c.log ++ [f]
  replies : replies c'.log = replies c.log
  answer : f.Understood sent → c'.env.answer = c.env.answer.accept sent f

section Runs

variable {sent : Frame → List SentField} {status : ℕ} {u : Platform}

/-- What happens in front of a frame does not matter if nothing is reported. -/
lemma AcceptsFrame.of_reported (h : Reported c c₁ []) (h' : AcceptsFrame sent f c₁ c') :
    AcceptsFrame sent f c c' where
  accepted := by rw [h'.accepted, h.accepted]
  replies := h'.replies.trans h.replies
  answer hf := by rw [h'.answer hf, h.answer, Answer.report_nil]

/-- An accepted frame that is not a DATA frame, with its headers. -/
lemma Reported.acceptsFrame (h : Reported c c' headers) (htype : f.type ≠ 0)
    (hf : f.Understood sent → f.endsStream = false ∧
      ∀ a : Answer, a.report headers = a.report (f.headers sent)) :
    AcceptsFrame sent f c (c'.accept f) where
  accepted := (acceptedFrames_append _ _).trans (by rw [h.accepted]; rfl)
  replies := ((replies_append _ _).trans (append_nil _)).trans h.replies
  answer hunderstood := by
    obtain ⟨hopen, hheaders⟩ := hf hunderstood
    rw [Answer.accept, hopen, if_neg fun hf => htype hf.1, append_nil, Bool.or_false, ← hheaders]
    exact h.answer

/-- An accepted DATA frame, which ends the response if it has the flag for it. -/
lemma DataAdded.acceptsFrame (h : DataAdded f c c') (htype : f.type = 0) {d : Bool}
    (hd : d = (c.env.done || endStream f.flags)) :
    AcceptsFrame sent f c (Conn.accept { c' with env := { c'.env with done := d } } f) where
  accepted := (acceptedFrames_append _ _).trans (by rw [h.log]; rfl)
  replies := ((replies_append _ _).trans (append_nil _)).trans (by rw [h.log])
  answer _ := by
    have hheaders : f.headers sent = [] := if_neg (by rw [htype]; decide)
    have hends : f.endsStream = endStream f.flags := by
      rw [Frame.endsStream, decide_eq_true htype, decide_eq_true h.streamId]
      rfl
    have hanswer := h.answer
    simp only [Answer.accept, hheaders, Answer.report_nil, htype, h.streamId, true_and, hends]
    simp only [Http2Env.answer, Answer.mk.injEq] at hanswer ⊢
    exact ⟨hanswer.1, hanswer.2.1, hanswer.2.2.1, hd⟩

/-- Handling a frame changes the response as the frame does; a frame that is refused leaves the data
alone. -/
lemma handleFrame_response (sent : Frame → List SentField) (hc : Complete c) :
    Wp (handleFrame u) c (fun _ c' => ∃ f, AcceptsFrame sent f c c')
      fun _ c' => ∃ headers, Reported c c' headers := by
  rw [wp_handleFrame]
  have hmemory := hc.inMemory
  have hreceive : Reported c (c.receive (frameOf c.env.http2Input.bytes)) [] :=
    reported_nil rfl ⟨rfl, rfl, rfl⟩ rfl
  generalize frameOf c.env.http2Input.bytes = f at hmemory hreceive ⊢
  generalize c.receive f = c₁ at hreceive ⊢
  have herror : ∀ c', (∃ headers, Reported c₁ c' headers) → ∃ headers, Reported c c' headers :=
    fun c' ⟨headers, h⟩ => ⟨_, hreceive.trans h⟩
  by_cases hdata : f.type = 0
  · rw [dispatch, if_pos hdata, wp_bind]
    refine (xReceiveData2_response hmemory c₁).mono ?_ fun _ c' h => herror c' ⟨[], h⟩
    intro _ c₂ h
    refine wp_ite (fun hflag => ?_) fun hflag => ?_
    · refine ⟨f, .of_reported hreceive (h.acceptsFrame hdata ?_)⟩
      rw [hflag, Bool.or_true]
    · refine ⟨f, .of_reported hreceive (h.acceptsFrame hdata ?_)⟩
      rw [Bool.not_eq_true] at hflag
      rw [hflag, Bool.or_false]
      exact congrArg Answer.done h.answer
  by_cases hheaders : f.type = 1
  · rw [dispatch, if_neg hdata, if_pos hheaders]
    have hreported := reported_controlLogic.xReceiveHeaders2 u f.flags
      (frameLength c.env.http2Input.bytes) f.streamId (c.env.http2Input.bytes.drop 9) c₁
    unfold Wp
    cases hrun : xReceiveHeaders2 u f.flags (frameLength c.env.http2Input.bytes) f.streamId
        (c.env.http2Input.bytes.drop 9) c₁ with
    | error why c' => exact herror c' (hreported.of_error hrun)
    | ok _ c₂ =>
      obtain ⟨headers, h⟩ := hreported.of_ok hrun
      refine ⟨f, .of_reported hreceive (h.acceptsFrame hdata fun hf => ?_)⟩
      -- the headers that have been reported are those that were sent
      have hreports := (wp_xReceiveHeaders2 u hmemory (hf hheaders).2 c₁).of_ok hrun
      rw [h.reports, append_cancel_left_eq] at hreports
      rw [Frame.endsStream, (hf hheaders).1, Bool.and_false, Frame.headers, if_pos hheaders,
        hreports]
      exact ⟨rfl, fun a => a.report_header _⟩
  · refine (reported_windowLogic.dispatch_of_ne u hdata hheaders _ _ _ _ c₁).mono ?_
      fun _ c' h => herror c' ⟨[], h⟩
    intro _ c₂ h
    refine ⟨f, .of_reported hreceive (h.acceptsFrame hdata fun _ => ?_)⟩
    rw [Frame.endsStream, decide_eq_false hdata, decide_eq_false hheaders, Frame.headers,
      if_neg hheaders]
    exact ⟨rfl, fun _ => rfl⟩

/-- Reading input does not touch the response. -/
lemma ReadMore.reported {x : Bytes} (h : ReadMore c c' x) : Reported c c' [] :=
  reported_silent h.log (by rw [h.env]; rfl)

/-- What a call of `Xhttp2_dns_input1` does to the response. -/
lemma xHttp2DnsInput1_response (sent : Frame → List SentField) (hc : Reader c) :
    Wp (xHttp2DnsInput1 u) c
      (fun _ c' => Reported c c' [] ∨ ∃ f, AcceptsFrame sent f c c')
      fun _ c' => ∃ headers, Reported c c' headers := by
  refine wp_xHttp2DnsInput1 u hc (fun _ _ hread _ => ⟨_, hread.reported⟩)
    (fun _ _ hread _ => .inl hread.reported) ?_
  exact fun c₁ x hread hcomplete => (handleFrame_response sent hcomplete).mono
    (fun _ c' ⟨f, h⟩ => .inr ⟨f, .of_reported hread.reported h⟩)
    fun _ c' ⟨headers, h⟩ => ⟨_, hread.reported.trans h⟩

/-- The connection has kept up with the frames that have been accepted. -/
structure Assembled (sent : Frame → List SentField) (status : ℕ) (c : Conn) : Prop where
  answer : c.env.answer =
    (acceptedFrames c.log).foldl (Answer.accept sent) ⟨false, status, [], false⟩
  noReply : replies c.log = []

lemma Assembled.reported (h : Assembled sent status c) (h' : Reported c c' []) :
    Assembled sent status c' where
  answer := by rw [h'.answer, Answer.report_nil, h.answer, h'.accepted]
  noReply := h'.replies.trans h.noReply

/-- The step of a run: an accepted frame. -/
lemma Assembled.acceptsFrame (h : Assembled sent status c) (h' : AcceptsFrame sent f c c')
    (hf : f.Understood sent) : Assembled sent status c' where
  answer := by rw [h'.answer hf, h.answer, h'.accepted, foldl_concat]
  noReply := h'.replies.trans h.noReply

/-- The response is the one that the accepted frames stand for. -/
lemma Assembled.answer_eq (h : Assembled sent status c) : c.env.answer =
    ⟨((acceptedFrames c.log).flatMap (Frame.headers sent)).any isDnsType,
      lastStatus status ((acceptedFrames c.log).flatMap (Frame.headers sent)),
      assembled sent false (acceptedFrames c.log),
      (acceptedFrames c.log).any Frame.endsStream⟩ := by
  rw [h.answer, foldl_accept]
  rfl

/-- How a run ends: the response is complete only after the reply, and a frame that is refused
leaves data and replies alone. -/
def EndsAssembled (sent : Frame → List SentField) (status : ℕ) (c : Conn) : Outcome → Prop
  | .more => Assembled sent status c
  | .replied => ∃ c', Assembled sent status c' ∧ c'.env.done = true ∧ c = c'.reply
  | .stopped _ => ∃ c' headers, Assembled sent status c' ∧ c'.env.done = false ∧
    Reported c' c headers

/-- A run keeps the connection up with the response, if its frames are understood. -/
lemma Reached.assembled {c₀ : Conn} (h₀ : Reader c₀) (hinit : Assembled sent status c₀)
    {o : Outcome} (h : Reached u c₀ o c) :
    (∀ f ∈ acceptedFrames c.log, f.Understood sent) → EndsAssembled sent status c o := by
  induction h with
  | start => exact fun _ => hinit
  | arrive chunk _ _ ih =>
    intro hframes
    have h := ih hframes
    exact ⟨h.answer, h.noReply⟩
  | call hc _ _ hcall ih =>
    intro hframes
    rcases (xHttp2DnsInput1_response sent (hc.reader h₀ rfl)).of_ok hcall with hread | ⟨f, h⟩
    · rw [hread.accepted] at hframes
      exact Assembled.reported (ih hframes) hread
    · rw [h.accepted] at hframes
      refine Assembled.acceptsFrame (ih fun f hf => hframes f (mem_append_left _ hf)) h ?_
      exact hframes f (mem_append_right _ mem_cons_self)
  | stop hc hdone _ hcall ih =>
    intro hframes
    obtain ⟨headers, h⟩ := (xHttp2DnsInput1_response sent (hc.reader h₀ rfl)).of_error hcall
    rw [h.accepted] at hframes
    exact ⟨_, headers, ih hframes, hdone, h⟩
  | @reply c hc hdone ih =>
    intro hframes
    have hlog : acceptedFrames c.reply.log = acceptedFrames c.log :=
      (acceptedFrames_append _ _).trans (append_nil _)
    rw [hlog] at hframes
    exact ⟨c, ih hframes, hdone, rfl⟩

end Runs

/-- The response in a connection is the one that the accepted frames stand for, and it has been
passed on exactly once if the stream has been ended, and not at all otherwise. -/
structure Response (sent : Frame → List SentField) (status : ℕ) (o : Outcome) (c : Conn) :
    Prop where
  data : c.env.http2Data = assembled sent false (acceptedFrames c.log)
  done : c.env.done = true ↔ ∃ f ∈ acceptedFrames c.log, f.endsStream
  replied : o = .replied ↔ c.env.done = true
  reply : replies c.log = if c.env.done then
    [(lastStatus status ((acceptedFrames c.log).flatMap (Frame.headers sent)),
      assembled sent false (acceptedFrames c.log))] else []
  /-- A HEADERS frame that is refused may have changed the status. -/
  status : (∀ why, o ≠ .stopped why) →
    c.env.status = lastStatus status ((acceptedFrames c.log).flatMap (Frame.headers sent))

/-- What a run ends with is a response, if it differs from an assembled connection only in the reply
and, after an error, in the status. -/
lemma Assembled.response {sent : Frame → List SentField} {status : ℕ} {o : Outcome}
    (h : Assembled sent status c') (haccepted : acceptedFrames c.log = acceptedFrames c'.log)
    (hdata : c.env.http2Data = c'.env.http2Data) (hdone : c.env.done = c'.env.done)
    (hreplied : o = .replied ↔ c'.env.done = true)
    (hreplies : replies c.log =
      if c'.env.done then [(c'.env.status, c'.env.http2Data)] else [])
    (hstatus : (∀ why, o ≠ .stopped why) → c.env.status = c'.env.status) :
    Response sent status o c := by
  obtain ⟨-, hstatus', hdata', hdone'⟩ := Answer.mk.inj h.answer_eq
  constructor
  case data => rw [hdata, haccepted, hdata']
  case done => rw [hdone, haccepted, hdone', any_eq_true]
  case replied => rw [hdone, hreplied]
  case reply => rw [hdone, haccepted, hreplies, hstatus', hdata']
  case status => exact fun hno => (hstatus hno).trans (by rw [haccepted, hstatus'])

/-- In every session after `http2_dns` whose accepted HEADERS frames do not end the stream and carry
the plain fields `sent`, the response is assembled exactly from what was sent, and it is passed on
once when the stream has been ended. -/
theorem session_response (u : Platform) (status : ℕ) (hostnamePort path data : Bytes)
    (chunks : List Bytes) (sent : Frame → List SentField)
    (hframes : ∀ f ∈ acceptedFrames
      (session u (http2Dns status hostnamePort path data) chunks).2.log, f.Understood sent) :
    Response sent status (session u (http2Dns status hostnamePort path data) chunks).1
      (session u (http2Dns status hostnamePort path data) chunks).2 := by
  have h₀ := between_http2Dns status hostnamePort path data
  have henv := env_http2Dns status hostnamePort path data
  have hlog : (http2Dns status hostnamePort path data).log = [] := rfl
  generalize http2Dns status hostnamePort path data = c₀ at *
  have hinit : Assembled sent status c₀ := by
    constructor <;> rw [hlog]
    · rw [henv]
      rfl
    · rfl
  have hrun := session_reached (u := u) h₀.reader h₀.done chunks
  have hmore := h₀.session u chunks
  generalize session u c₀ chunks = r at *
  obtain ⟨o, c⟩ := r
  dsimp only at hframes hrun hmore ⊢
  have hends := hrun.assembled h₀.reader hinit hframes
  cases o with
  | more =>
    have hopen := (hmore rfl).done
    refine hends.response rfl rfl rfl ?_ ?_ fun _ => rfl
    · rw [hopen]
      exact ⟨nofun, nofun⟩
    · rw [hends.noReply, hopen]
      rfl
  | stopped why =>
    obtain ⟨c', headers, hassembled, hopen, h⟩ := hends
    obtain ⟨-, -, hdata, hdone⟩ := Answer.mk.inj h.answer
    refine hassembled.response h.accepted hdata hdone ?_ ?_ fun hno => absurd rfl (hno why)
    · rw [hopen]
      exact ⟨nofun, nofun⟩
    · rw [h.replies, hassembled.noReply, hopen]
      rfl
  | replied =>
    -- the reply is the last event, and adds nothing to the response
    obtain ⟨c', hassembled, hended, rfl⟩ := hends
    have haccepted : acceptedFrames c'.reply.log = acceptedFrames c'.log :=
      (acceptedFrames_append _ _).trans (append_nil _)
    have hreplies : replies c'.reply.log =
        replies c'.log ++ [(c'.env.status, c'.env.http2Data)] := replies_append _ _
    refine hassembled.response haccepted rfl rfl ⟨fun _ => hended, fun _ => rfl⟩ ?_ fun _ => rfl
    rw [hreplies, hassembled.noReply, nil_append, if_pos hended]

/-- The frames of a small response: data that come too early, a HEADERS frame with `:status: 404`,
one with priority fields, `:status: 200` and the content type `application/dns-message`, and a
padded DATA frame with two bytes that ends the stream. -/
def smallResponse : List Bytes :=
  [[0, 0, 1, 0, 0, 0, 0, 0, 1, 5, 0, 0, 1, 1, 4, 0, 0, 0, 1, 0x8d],
    [0, 0, 31, 1, 0x24, 0, 0, 0, 1, 0, 0, 0, 0, 15, 0x88, 0x5f, 23] ++
      ascii "application/dns-message",
    [0, 0, 4, 0, 9, 0, 0, 0, 1, 1, 7, 8, 0]]

/-- The header fields of the small response. -/
def smallFields (f : Frame) : List SentField :=
  if f.payload = [0x8d] then [.indexed 13]
  else [.indexed 8, .literal true (.indexed 31) .raw (ascii "application/dns-message")]

/-- The small response is passed on with its two bytes and the status 200. -/
theorem session_response_small :
    let r := session .x86 (http2Dns 0 [] [] []) smallResponse
    Response smallFields 0 r.1 r.2 ∧ replies r.2.log = [(200, [7, 8])] := by
  refine ⟨session_response .x86 0 [] [] [] smallResponse smallFields ?_, by decide +kernel⟩
  have hfields : ∀ f, ∀ x ∈ smallFields f, x.Plain := by
    intro f x hx
    unfold smallFields at hx
    split at hx
    · obtain rfl := mem_singleton.mp hx
      exact ⟨by decide, by decide⟩
    · obtain rfl | rfl := mem_pair.mp hx
      · exact ⟨by decide, by decide⟩
      · exact ⟨⟨by decide, by decide⟩, nofun⟩
  have hall : ∀ f ∈ acceptedFrames (session .x86 (http2Dns 0 [] [] []) smallResponse).2.log,
      f.type = 1 → endStream f.flags = false ∧
        (f.payload.take (prioLength f.flags)).length = prioLength f.flags ∧
        f.payload = (if padded f.flags then [0] else []) ++
          (f.payload.take (prioLength f.flags) ++ (smallFields f).flatMap SentField.bytes) := by
    decide +kernel
  intro f hf htype
  obtain ⟨hopen, hprio, hpayload⟩ := hall f hf htype
  exact ⟨hopen, hfields f, _, hprio, hpayload⟩

/-- A HEADERS frame that ends the stream, with `:status: 200`, is accepted on stream 1, but the
response is not passed on. -/
theorem session_headers_endStream :
    let r := session .x86 plainConn [[0, 0, 1, 1, 5, 0, 0, 0, 1, 0x88]]
    r.1 = .more ∧ r.2.env.done = false ∧ (∃ f ∈ acceptedFrames r.2.log, f.endsStream) ∧
      replies r.2.log = [] := by
  refine ⟨by decide +kernel, by decide +kernel, ⟨⟨1, 5, 1, [0x88]⟩, ?_, ?_⟩, by decide +kernel⟩
  · decide +kernel
  · decide

end AtlasProbe.Http2
