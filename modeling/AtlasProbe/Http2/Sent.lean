import AtlasProbe.Http2.Run

/-!
# What the probe sends

After its request the probe sends nothing but one GOAWAY frame, and then it gives up (`Sends`,
`xHttp2DnsInput1_sends`).  A window that the server announces is stored before it is checked, but it
is in range (`Conn.InRange`) as long as the connection goes on.
-/

namespace AtlasProbe.Http2

/-! ### What a part of a run sends -/

/-- The windows are in the range that the protocol allows. -/
def Conn.InRange (c : Conn) : Prop :=
  c.env.http2ConnectionWindow ≤ 0x7fffffff ∧ c.env.http2Stream1Window ≤ 0x7fffffff

/-- Nothing is sent, and the windows stay in range. -/
structure Waits (c c' : Conn) : Prop where
  outbuf : c'.outbuf = c.outbuf
  windows : c.InRange → c'.InRange

/-- Nothing is sent, or a GOAWAY frame before the code returns an error. -/
def Closes (c : Conn) (why : Stop) (c' : Conn) : Prop :=
  c'.outbuf = c.outbuf ∨
    why = .failed ∧ ∃ code reason, c'.outbuf = c.outbuf ++ goawayFrame code reason

lemma Waits.closes {c c₁ c' : Conn} {why : Stop} (h : Waits c c₁) (h' : Closes c₁ why c') :
    Closes c why c' := by
  unfold Closes at h' ⊢
  rwa [h.outbuf] at h'

/-- The code sends nothing if it ends well. -/
def Sends {α : Type} (m : Handler α) : Prop := Spec Waits Closes m fun _ => True

lemma sends_pure {α : Type} (a : α) : Sends (pure a) := fun _ => ⟨trivial, rfl, id⟩

lemma Sends.bind {α β : Type} {m : Handler α} {f : α → Handler β} (hm : Sends m)
    (hf : ∀ a, Sends (f a)) : Sends (m >>= f) :=
  Spec.bind (fun _ _ _ h h' => ⟨h'.outbuf.trans h.outbuf, h'.windows ∘ h.windows⟩)
    (fun _ _ _ _ => Waits.closes) hm fun a _ => hf a

lemma sends_goaway {α : Type} (code : ErrorCode) (reason : String) :
    Sends (goaway code reason : Handler α) := fun _ => .inr ⟨rfl, code, reason, rfl⟩

lemma sends_growWindow (w : Window) (n : ℕ) : Sends (growWindow w n) := by
  intro c
  unfold growWindow
  rw [wp_bind, wp_getEnv, wp_bind, wp_modifyEnv]
  -- The new window is in range if the check that follows passes.
  refine wp_ite (fun _ => ?_) fun hsmall => ?_
  · cases w <;> exact .inr ⟨rfl, _, _, rfl⟩
  · cases w with
    | connection => exact ⟨trivial, rfl, fun h => ⟨Nat.le_of_not_lt hsmall, h.2⟩⟩
    | stream1 => exact ⟨trivial, rfl, fun h => ⟨h.1, Nat.le_of_not_lt hsmall⟩⟩

lemma sends_xReportHeader (key value : Bytes) : Sends (xReportHeader key value) := by
  intro c
  refine (wp_xReportHeader key value c).mono ?_ ?_
  · rintro _ _ ⟨-, rfl⟩
    exact ⟨trivial, rfl, id⟩
  · rintro _ _ ⟨-, rfl, reason, rfl⟩
    exact .inr ⟨rfl, _, reason, rfl⟩

lemma sends_frameLogic : FrameLogic fun {_} m => Sends m where
  pure := sends_pure
  bind := Sends.bind
  stop _ _ _ := .inl rfl
  goaway := sends_goaway
  getEnv _ := ⟨trivial, rfl, id⟩
  huffman _ _ := ⟨trivial, rfl, id⟩
  addDyn _ _ _ := ⟨trivial, rfl, id⟩
  report := sends_xReportHeader
  window := sends_growWindow
  credits _ _ := Sends.bind (fun _ => ⟨trivial, rfl, id⟩) fun _ =>
    .ite (fun _ _ => ⟨trivial, rfl, id⟩) fun _ _ => .inl rfl
  data _ _ := ⟨trivial, rfl, id⟩
  done _ := ⟨trivial, rfl, id⟩

/-! ### Runs -/

/-- What a call of `Xhttp2_dns_input1` sends. -/
lemma xHttp2DnsInput1_sends {u : Platform} {c : Conn} (hc : Reader c) :
    Wp (xHttp2DnsInput1 u) c (fun _ => Waits c) (Closes c) := by
  have hwaits {c₁ : Conn} {x : Bytes} (hread : ReadMore c c₁ x) : Waits c c₁ := by
    refine ⟨hread.outbuf, fun h => ?_⟩
    unfold Conn.InRange
    rw [hread.env]
    exact h
  refine wp_xHttp2DnsInput1 u hc (fun _ _ hread _ => .inl hread.outbuf)
    (fun _ _ hread _ => hwaits hread) fun c₁ x hread _ => ?_
  rw [wp_handleFrame]
  refine (sends_frameLogic.dispatch u _ _ _ _ _ _).mono ?_ fun _ _ => (hwaits hread).closes
  exact fun _ c' h =>
    ⟨h.2.outbuf.trans (hwaits hread).outbuf, h.2.windows ∘ (hwaits hread).windows⟩

/-- **The probe speaks once.**  In every run, whatever the server sends, nothing is sent behind the
request as long as the session goes on or when it ends with a reply, and both windows are in range.
A session that ends with an error has sent at most one GOAWAY frame, which is the last thing on the
connection; one that ends in another way has sent none. -/
theorem reached_sends {u : Platform} {c₀ c : Conn} {o : Outcome} (h₀ : Reader c₀)
    (hrange : c₀.InRange) (h : Reached u c₀ o c) :
    ((o = .more ∨ o = .replied) ∧ c.outbuf = c₀.outbuf ∧ c.InRange) ∨
      ∃ why, o = .stopped why ∧ Closes c₀ why c := by
  induction h with
  | start => exact .inl ⟨.inl rfl, rfl, hrange⟩
  | arrive chunk _ _ ih =>
    obtain ⟨-, hc⟩ | ⟨_, ⟨⟩, -⟩ := ih
    exact .inl ⟨.inl rfl, hc⟩
  | call hc _ _ hcall ih =>
    obtain ⟨-, hout, hrange'⟩ | ⟨_, ⟨⟩, -⟩ := ih
    have hwaits := (xHttp2DnsInput1_sends (hc.reader h₀ rfl)).of_ok hcall
    exact .inl ⟨.inl rfl, hwaits.outbuf.trans hout, hwaits.windows hrange'⟩
  | stop hc _ _ hcall ih =>
    obtain ⟨-, hout, hrange'⟩ | ⟨_, ⟨⟩, -⟩ := ih
    have hcloses := (xHttp2DnsInput1_sends (hc.reader h₀ rfl)).of_error hcall
    exact .inr ⟨_, rfl, Waits.closes ⟨hout, fun _ => hrange'⟩ hcloses⟩
  | reply _ _ ih =>
    obtain ⟨-, hc⟩ | ⟨_, ⟨⟩, -⟩ := ih
    exact .inl ⟨.inr rfl, hc⟩

/-- After `http2_dns`, a PING frame of no bytes ends the session with an error. -/
theorem reached_sends_ping :
    ∃ c, Reached .x86 plainConn (.stopped .failed) c ∧
      Closes plainConn .failed c := by
  have h₀ : Between plainConn := between_http2Dns 0 [] [] []
  have hrange : plainConn.InRange := ⟨by decide +kernel, by decide +kernel⟩
  have hrun := session_reached (u := .x86) h₀.reader h₀.done [[0, 0, 0, 6, 0, 0, 0, 0, 0]]
  have hstop : (session .x86 plainConn [[0, 0, 0, 6, 0, 0, 0, 0, 0]]).1 =
      .stopped .failed := by
    decide +kernel
  rw [hstop] at hrun
  rcases reached_sends h₀.reader hrange hrun with ⟨hgoes, -⟩ | ⟨_, ⟨⟩, hcloses⟩
  · simp at hgoes
  · exact ⟨_, hrun, hcloses⟩

end AtlasProbe.Http2
