import AtlasProbe.Http2.Segmentation

/-!
# Runs

A run consists of chunks that arrive and of calls of `Xhttp2_dns_input1`; it ends with an error or
with the reply.  `Reached` are the states of all runs.  Whenever a chunk may arrive, the reader is
in order (`Reached.reader`), and a session is a run (`session_reached`).
-/

namespace AtlasProbe.Http2

variable (u : Platform)

/-- The connection after `reply_cb` has been called. -/
def Conn.reply (c : Conn) : Conn :=
  { c with log := c.log ++ [.reply c.env.status c.env.http2Data] }

/-- The states of the runs from `c₀`, with what `http2_dns_input` returns in them. -/
inductive Reached (c₀ : Conn) : Outcome → Conn → Prop where
  | start : Reached c₀ .more c₀
  | arrive {c : Conn} (chunk : Bytes) :
    Reached c₀ .more c → c.env.done = false → Reached c₀ .more (c.extend chunk)
  | call {c c' : Conn} :
    Reached c₀ .more c → c.env.done = false → c.inbuf ≠ [] → xHttp2DnsInput1 u c = .ok () c' →
      Reached c₀ .more c'
  | stop {c c' : Conn} {why : Stop} :
    Reached c₀ .more c → c.env.done = false → c.inbuf ≠ [] → xHttp2DnsInput1 u c = .error why c' →
      Reached c₀ (.stopped why) c'
  | reply {c : Conn} :
    Reached c₀ .more c → c.env.done = true → Reached c₀ .replied c.reply

variable {u}

/-- The reader is in order whenever a chunk may arrive. -/
lemma Reached.reader {c₀ c : Conn} (h₀ : Reader c₀) {o : Outcome} (h : Reached u c₀ o c) :
    o = .more → Reader c := by
  induction h with
  | start => exact fun _ => h₀
  | arrive chunk _ _ ih => exact fun _ => (ih rfl).extend chunk
  | call _ _ _ hcall ih => exact fun _ => xHttp2DnsInput1_reader u (ih rfl) hcall
  | stop | reply => exact fun h => nomatch h

/-! ### Sessions are runs -/

/-- What the loop of `http2_dns_input` reaches. -/
lemma Reached.inputLoop {c₀ : Conn} (fuel : ℕ) : ∀ {c : Conn} {r : Outcome × Conn},
    Reached u c₀ .more c → c.env.done = false → Http2.inputLoop u fuel c = some r →
    Reached u c₀ r.1 r.2 ∧ (r.1 = .more → r.2.env.done = false) := by
  induction fuel with
  | zero => exact fun _ _ h => nomatch h
  | succ fuel ih =>
    intro c r hc hdone h
    by_cases hinbuf : c.inbuf = []
    · rw [inputLoop_nil u _ hinbuf] at h
      cases h
      exact ⟨hc, fun _ => hdone⟩
    · cases hcall : xHttp2DnsInput1 u c with
      | error why c' =>
        rw [inputLoop_error u _ hinbuf hcall] at h
        cases h
        exact ⟨.stop hc hdone hinbuf hcall, fun h => nomatch h⟩
      | ok _ c' =>
        have hc' : Reached u c₀ .more c' := .call hc hdone hinbuf hcall
        cases hdone' : c'.env.done with
        | true =>
          rw [inputLoop_done u _ hinbuf hcall hdone'] at h
          cases h
          exact ⟨.reply hc' hdone', fun h => nomatch h⟩
        | false =>
          rw [inputLoop_next u _ hinbuf hcall hdone'] at h
          exact ih hc' hdone' h

/-- What a call of `http2_dns_input` on a chunk reaches. -/
lemma Reached.feed {c₀ : Conn} (h₀ : Reader c₀) {s : Outcome × Conn} (hs : Reached u c₀ s.1 s.2)
    (hdone : s.1 = .more → s.2.env.done = false) (chunk : Bytes) :
    Reached u c₀ (Http2.feed u s chunk).1 (Http2.feed u s chunk).2 ∧
      ((Http2.feed u s chunk).1 = .more → (Http2.feed u s chunk).2.env.done = false) := by
  by_cases hmore : s.1 = .more
  · rw [feed_of_eq_more u hmore]
    have hdone' := hdone hmore
    rw [hmore] at hs
    have harrive := Reached.arrive chunk hs hdone'
    exact Reached.inputLoop _ harrive hdone'
      (inputLoop_eq_some u (harrive.reader h₀ rfl) hdone' le_rfl)
  · rw [feed_of_ne_more u hmore]
    exact ⟨hs, hdone⟩

/-- A session is a run. -/
theorem session_reached {c₀ : Conn} (h₀ : Reader c₀) (hdone : c₀.env.done = false)
    (chunks : List Bytes) :
    Reached u c₀ (session u c₀ chunks).1 (session u c₀ chunks).2 := by
  suffices h : ∀ s : Outcome × Conn, Reached u c₀ s.1 s.2 → (s.1 = .more → s.2.env.done = false) →
      Reached u c₀ (chunks.foldl (Http2.feed u) s).1 (chunks.foldl (Http2.feed u) s).2 from
    h (.more, c₀) .start fun _ => hdone
  induction chunks with
  | nil => exact fun s hs _ => hs
  | cons chunk chunks ih =>
    intro s hs hmore
    obtain ⟨hfeed, hdone'⟩ := Reached.feed h₀ hs hmore chunk
    exact ih _ hfeed hdone'

end AtlasProbe.Http2
