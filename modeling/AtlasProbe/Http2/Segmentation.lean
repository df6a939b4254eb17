import AtlasProbe.Http2.Reader
import AtlasProbe.Lib.Chunks

/-!
# Sessions do not depend on how the bytes arrive

The loop of `http2_dns_input` ends after at most two rounds for each byte (`inputLoop_terminates`).
Bytes that arrive later can be added to the input buffer before a call instead: a call of
`Xhttp2_dns_input1` that completes a frame is not affected by them, and one that runs dry goes on
where it stopped (`xHttp2DnsInput1_extend`).  Hence a session depends on the concatenation of its
chunks only.
-/

namespace AtlasProbe.Http2

open List

variable (u : Platform)

/-! ### Rounds of the loop -/

section Rounds

variable {c c' : Conn} (fuel : ℕ)

/-- The loop ends when the input is used up. -/
lemma inputLoop_nil (h : c.inbuf = []) : inputLoop u (fuel + 1) c = some (.more, c) := if_pos h

/-- The loop ends with an error. -/
lemma inputLoop_error {why : Stop} (h : c.inbuf ≠ [])
    (hcall : xHttp2DnsInput1 u c = .error why c') :
    inputLoop u (fuel + 1) c = some (.stopped why, c') := by
  rw [inputLoop, if_neg h, hcall]

/-- The loop ends with the reply. -/
lemma inputLoop_done (h : c.inbuf ≠ []) (hcall : xHttp2DnsInput1 u c = .ok () c')
    (hdone : c'.env.done = true) :
    inputLoop u (fuel + 1) c = some (.replied,
      { c' with log := c'.log ++ [.reply c'.env.status c'.env.http2Data] }) := by
  rw [inputLoop, if_neg h, hcall]
  exact if_pos hdone

/-- The loop goes on. -/
lemma inputLoop_next (h : c.inbuf ≠ []) (hcall : xHttp2DnsInput1 u c = .ok () c')
    (hdone : c'.env.done = false) : inputLoop u (fuel + 1) c = inputLoop u fuel c' := by
  rw [inputLoop, if_neg h, hcall]
  simp only [hdone, Bool.false_eq_true, if_false]

end Rounds

/-! ### Termination -/

/-- A bound for the rounds of the loop: two for each byte, and one if a frame is partly read. -/
def Conn.rounds (c : Conn) : ℕ := 2 * c.inbuf.length + if c.env.http2InputLen = 0 then 0 else 1

variable {c c' : Conn} {s t : Outcome × Conn} {fuel needed : ℕ} (b : Bytes)

/-- A call that returns leaves the reader in order. -/
lemma xHttp2DnsInput1_reader (hc : Reader c) (h : xHttp2DnsInput1 u c = .ok () c') : Reader c' := by
  have hcall : Wp (xHttp2DnsInput1 u) c (fun _ => Reader) fun _ _ => True := by
    refine wp_xHttp2DnsInput1 u hc (fun _ _ _ _ => trivial) (fun _ _ _ hdry => hdry.toReader) ?_
    refine fun c₁ _ _ _ => (handleFrame_input u c₁).mono ?_ fun _ _ _ => trivial
    rintro _ _ ⟨c₂, f, -, rfl⟩
    exact ⟨Nat.zero_le _, Nat.zero_le _, fun _ => rfl⟩
  exact hcall.of_ok h

/-- A call that returns on a non-empty input makes progress. -/
lemma xHttp2DnsInput1_rounds (hc : Reader c) (hinbuf : c.inbuf ≠ [])
    (h : xHttp2DnsInput1 u c = .ok () c') : c'.rounds < c.rounds := by
  have hpos : 0 < c.inbuf.length := length_pos_iff.mpr hinbuf
  have hcall : Wp (xHttp2DnsInput1 u) c (fun _ c' => c'.rounds < c.rounds) fun _ _ => True := by
    refine wp_xHttp2DnsInput1 u hc (fun _ _ _ _ => trivial) ?_ ?_
    · intro c₁ x hread hdry
      simp only [Conn.rounds, hdry.inbuf, length_nil]
      split <;> split <;> omega
    · refine fun c₁ x hread hcomplete => (handleFrame_input u c₁).mono ?_ fun _ _ _ => trivial
      rintro _ _ ⟨c₂, f, hsame, rfl⟩
      have hlength := congrArg List.length hread.inbuf
      rw [length_append, ← hsame.inbuf] at hlength
      have hnew := hread.len
      have hnine := hcomplete.len_eq
      simp only [Conn.rounds, Conn.accept, if_true]
      split <;> omega
  exact hcall.of_ok h

/-- The loop of `http2_dns_input` terminates. -/
theorem inputLoop_terminates (hc : Reader c) (hrounds : c.rounds < fuel) :
    ∃ r, ∀ k, inputLoop u (fuel + k) c = some r := by
  induction fuel generalizing c with
  | zero => omega
  | succ fuel ih =>
    simp only [Nat.succ_add]
    by_cases hinbuf : c.inbuf = []
    · exact ⟨_, fun k => inputLoop_nil u _ hinbuf⟩
    · cases hcall : xHttp2DnsInput1 u c with
      | error why c' => exact ⟨_, fun k => inputLoop_error u _ hinbuf hcall⟩
      | ok _ c' =>
        cases hdone : c'.env.done with
        | true => exact ⟨_, fun k => inputLoop_done u _ hinbuf hcall hdone⟩
        | false =>
          have hlt := xHttp2DnsInput1_rounds u hc hinbuf hcall
          obtain ⟨r, hr⟩ := ih (xHttp2DnsInput1_reader u hc hcall) (by omega)
          exact ⟨r, fun k => (inputLoop_next u _ hinbuf hcall hdone).trans (hr k)⟩

/-- The result of `http2_dns_input` is that of its loop. -/
lemma inputLoop_eq_some (hc : Reader c) (hdone : c.env.done = false)
    (hfuel : 2 * c.inbuf.length + 2 ≤ fuel) : inputLoop u fuel c = some (http2DnsInput u c) := by
  obtain ⟨r, hr⟩ := @inputLoop_terminates u c (2 * c.inbuf.length + 2) hc
    (by unfold Conn.rounds; split <;> omega)
  obtain ⟨k, rfl⟩ : ∃ k, fuel = 2 * c.inbuf.length + 2 + k :=
    ⟨fuel - (2 * c.inbuf.length + 2), by omega⟩
  have hzero := hr 0
  rw [hr k, http2DnsInput, hdone, hzero]
  rfl

/-! ### Bytes that arrive later -/

/-- The frame handlers do not look at the input buffer. -/
lemma commutes_stepLogic (b : Bytes) :
    StepLogic fun {_} m => Commutes (fun c => Conn.extend c b) m where
  pure := commutes_pure
  bind := Commutes.bind
  stop why _ := commutes_throw why
  goaway _ _ _ := rfl
  getEnv _ := rfl
  huffman _ _ := rfl
  addDyn _ _ _ := rfl
  report _ _ _ := rfl
  status _ _ := rfl
  types _ _ _ := rfl
  globalCredits _ _ := rfl
  stream1Credits _ _ := rfl
  data _ _ := rfl
  window _ _ _ := rfl
  done _ := rfl

/-- Handling a frame does not look at the input buffer. -/
lemma handleFrame_extend (c : Conn) (b : Bytes) :
    handleFrame u (c.extend b) = mapState (fun c => c.extend b) (handleFrame u c) := by
  have hdispatch := (commutes_stepLogic b).frameLogic.dispatch u
  refine Commutes.bind (g := fun c => Conn.extend c b) (fun _ => rfl) (fun env => ?_) c
  refine Commutes.bind (fun _ => rfl) fun _ => ?_
  refine Commutes.bind (hdispatch _ _ _ _ _) fun _ => ?_
  exact Commutes.bind (fun _ => rfl) fun _ _ => rfl

/-- Taking input of which enough is there. -/
lemma takeIn_extend {len : ℕ}
    (h : min (c.env.http2Input.size - c.env.http2InputLen) len ≤ c.inbuf.length) :
    (c.extend b).takeIn len = (c.takeIn len).extend b := by
  have hfit : ((c.inbuf ++ b).take len).take (c.env.http2Input.size - c.env.http2InputLen) =
      (c.inbuf.take len).take (c.env.http2Input.size - c.env.http2InputLen) := by
    rw [take_take, take_take, take_append_of_le_length h]
  have hle : ((c.inbuf.take len).take (c.env.http2Input.size - c.env.http2InputLen)).length ≤
      c.inbuf.length := by
    rw [length_take, length_take]
    omega
  simp only [Conn.takeIn, Conn.extend, hfit, drop_append_of_le_length hle]

/-- Input that runs dry is taken up where it stopped. -/
lemma takeIn_takeIn (len : ℕ) (b : Bytes)
    (hlen : c.env.http2InputLen ≤ c.env.http2Input.bytes.length) (hdry : c.inbuf.length ≤ len)
    (hfit : c.inbuf.length ≤ c.env.http2Input.size - c.env.http2InputLen) :
    ((c.takeIn len).extend b).takeIn (len - c.inbuf.length) = (c.extend b).takeIn len := by
  have hsize := c.env.http2Input.bytes_le
  have hall : (c.inbuf.take len).take (c.env.http2Input.size - c.env.http2InputLen) =
      c.inbuf := by
    rw [take_of_length_le hdry, take_of_length_le hfit]
  have hmore : ((c.inbuf ++ b).take len).take (c.env.http2Input.size - c.env.http2InputLen) =
      c.inbuf ++ (b.take (len - c.inbuf.length)).take
        (c.env.http2Input.size - (c.env.http2InputLen + c.inbuf.length)) := by
    rw [take_append, take_of_length_le hdry, take_append,
      take_of_length_le hfit, Nat.sub_sub]
  simp only [Conn.takeIn, Conn.extend, hall, hmore, drop_length, Nat.add_assoc]
  rw [Block.write_write hlen (by omega) _]
  simp

/-- A reading stage that does not run dry is not affected by bytes that arrive later. -/
lemma fill_extend (h : ∀ c', fill needed c ≠ .ok false c') :
    fill needed (c.extend b) = mapState (fun c => c.extend b) (fill needed c) := by
  have hroom : (c.extend b).makeRoom needed = (c.makeRoom needed).extend b := rfl
  rw [fill_apply hroom]
  rw [fill_apply rfl] at h ⊢
  generalize c.makeRoom needed = d at h ⊢
  have henv : (d.extend b).env = d.env := rfl
  have hin : (d.extend b).inbuf.length = d.inbuf.length + b.length := length_append
  rw [henv, hin]
  by_cases hsize : d.env.http2Input.size - d.env.http2InputLen <
      min (needed - d.env.http2InputLen) d.inbuf.length
  · rw [if_pos hsize, if_pos (by omega), mapState_error, takeIn_extend b (by omega)]
  · rw [if_neg hsize] at h ⊢
    have hdry : needed - d.env.http2InputLen ≤ d.inbuf.length := by
      by_contra hdry
      exact h _ (by rw [decide_eq_false hdry])
    rw [if_neg (by omega), mapState_ok, takeIn_extend b (by omega), decide_eq_true hdry,
      decide_eq_true (by omega)]

/-- A reading stage that runs dry goes on where it stopped. -/
lemma fill_extend_dry (hlen : c.env.http2InputLen ≤ c.env.http2Input.bytes.length)
    (hle : c.env.http2InputMax < needed → c.env.http2InputLen ≤ needed)
    (h : fill needed c = .ok false c') : fill needed (c'.extend b) = fill needed (c.extend b) := by
  -- the room is there from the start
  have hroom := (readMore_makeRoom hlen hle).len_le
  have hmax : needed ≤ (c.makeRoom needed).env.http2InputMax := le_makeRoom_inputMax needed c.env
  have hext : fill needed (c.extend b) = fill needed ((c.makeRoom needed).extend b) :=
    (fill_makeRoom (c.extend b) needed).symm
  rw [← fill_makeRoom] at h
  rw [hext]
  generalize c.makeRoom needed = c at h hroom hmax
  rw [fill_apply (Conn.makeRoom_eq_self hmax)] at h
  split at h
  · cases h
  · obtain ⟨hdec, rfl⟩ := EStateM.Result.ok.inj h
    have hdry : ¬ needed - c.env.http2InputLen ≤ c.inbuf.length := of_decide_eq_false hdec
    have hgo := takeIn_takeIn (needed - c.env.http2InputLen) b hroom (by omega) (by omega)
    have hread := readMore_takeIn (needed - c.env.http2InputLen) hroom
    have hlen' := hread.len
    have hinbuf := congrArg List.length hread.inbuf
    rw [length_take, length_take] at hlen'
    rw [length_append, length_take, length_take] at hinbuf
    have hmax' : needed ≤ (c.takeIn (needed - c.env.http2InputLen)).env.http2InputMax := hmax
    have hsize : (c.takeIn (needed - c.env.http2InputLen)).env.http2Input.size =
        c.env.http2Input.size := rfl
    generalize c.takeIn (needed - c.env.http2InputLen) = d at hgo hlen' hinbuf hmax' hsize ⊢
    have henv (c : Conn) : (c.extend b).env = c.env := rfl
    have hin (c : Conn) : (c.extend b).inbuf.length = c.inbuf.length + b.length := length_append
    -- all bytes have been read, and they fit
    have hneed : needed - d.env.http2InputLen =
        needed - c.env.http2InputLen - c.inbuf.length := by omega
    rw [fill_apply (c := d.extend b) (Conn.makeRoom_eq_self hmax'),
      fill_apply (c := c.extend b) (Conn.makeRoom_eq_self hmax), henv, henv, hin, hin, hneed,
      hgo]
    refine if_congr (by omega) rfl (congrArg₂ _ ?_ rfl)
    rw [decide_eq_decide]
    omega

/-- Handling a complete frame is not affected by bytes that arrive later. -/
lemma readFrame_extend (h : ∀ c', fill (9 + frameLength c.env.http2Input.bytes) c ≠ .ok false c') :
    readFrame u (c.extend b) = mapState (fun c => c.extend b) (readFrame u c) := by
  have hfill := fill_extend b h
  change (fill (9 + frameLength c.env.http2Input.bytes) >>= _ : Handler Unit) (c.extend b) =
    mapState _ ((fill (9 + frameLength c.env.http2Input.bytes) >>= _ : Handler Unit) c)
  cases hc : fill (9 + frameLength c.env.http2Input.bytes) c with
  | error why c' =>
    rw [hc] at hfill
    rw [bind_apply_error hc, bind_apply_error hfill]
    rfl
  | ok full c' =>
    rw [hc] at hfill
    rw [bind_apply_ok hc, bind_apply_ok hfill]
    cases full with
    | false => exact absurd hc (h c')
    | true => exact handleFrame_extend u c' b

/-- Bytes that arrive after a call of `Xhttp2_dns_input1` might as well have arrived before it: a
call that runs dry is continued by the next one, and any other call does not look at them. -/
lemma xHttp2DnsInput1_extend (hc : Reader c) (b : Bytes) :
    (∃ c' x, ReadMore c c' x ∧ Dry c' ∧ xHttp2DnsInput1 u c = .ok () c' ∧
      xHttp2DnsInput1 u (c.extend b) = xHttp2DnsInput1 u (c'.extend b)) ∨
    xHttp2DnsInput1 u (c.extend b) = mapState (fun c => c.extend b) (xHttp2DnsInput1 u c) := by
  have hroom : c.env.http2InputMax < 9 → c.env.http2InputLen ≤ 9 := by
    intro h
    rw [hc.fresh h]
    exact Nat.zero_le _
  obtain ⟨c₁, x, hread, ⟨herr, _⟩ | ⟨hok, hdry⟩ | ⟨hok, hheader⟩⟩ := hc.fill_nine
  · have hfill := fill_extend b (fun c' h => by cases herr.symm.trans h)
    rw [herr] at hfill
    exact .inr (by rw [xHttp2DnsInput1, bind_apply_error herr, bind_apply_error hfill]; rfl)
  · have hfill := fill_extend_dry b hc.len_le hroom hok
    exact .inl ⟨c₁, x, hread, hdry, bind_apply_ok hok _, bind_apply_congr hfill.symm _⟩
  have hfill := fill_extend b (fun c' h => by cases hok.symm.trans h)
  rw [hok] at hfill
  have hcall : xHttp2DnsInput1 u c = readFrame u c₁ := bind_apply_ok hok _
  have hcallb : xHttp2DnsInput1 u (c.extend b) = readFrame u (c₁.extend b) := bind_apply_ok hfill _
  rw [hcall, hcallb]
  obtain ⟨c₂, y, hread₂, hframe, ⟨herr, _⟩ | ⟨hok₂, hdry⟩ | ⟨hok₂, _⟩⟩ := hheader.fill_frame
  · exact .inr (readFrame_extend u b fun c' h => by cases herr.symm.trans h)
  · refine .inl ⟨c₂, x ++ y, hread.trans hread₂, hdry, bind_apply_ok hok₂ _, ?_⟩
    -- the next call finds the frame header complete
    have hnine : 9 ≤ (c₂.extend b).env.http2InputLen := by
      change 9 ≤ c₂.env.http2InputLen
      rw [hread₂.len]
      exact le_trans hheader.nine_le (Nat.le_add_right _ _)
    have hfull : fill 9 (c₂.extend b) = .ok true (c₂.extend b) := by
      rw [fill_apply (c := c₂.extend b) (Conn.makeRoom_eq_self hdry.nine_le),
        Nat.sub_eq_zero_of_le hnine, Conn.takeIn_zero, Nat.zero_min, if_neg (Nat.not_lt_zero _),
        decide_eq_true (Nat.zero_le _)]
    have hcall₂ : xHttp2DnsInput1 u (c₂.extend b) = readFrame u (c₂.extend b) :=
      bind_apply_ok hfull _
    rw [hcall₂]
    change (fill (9 + frameLength c₁.env.http2Input.bytes) >>= _ : Handler Unit) (c₁.extend b) =
      (fill (9 + frameLength c₂.env.http2Input.bytes) >>= _ : Handler Unit) (c₂.extend b)
    rw [hframe]
    exact bind_apply_congr
      (fill_extend_dry b hheader.len_le (fun _ => hheader.frame_le) hok₂).symm _
  · exact .inr (readFrame_extend u b fun c' h => by cases hok₂.symm.trans h)

/-! ### The loop and the session -/

/-- A call of the reader on its own does not end the response. -/
lemma ReadMore.done_eq {x : Bytes} (h : ReadMore c c' x) : c'.env.done = c.env.done := by
  rw [h.env]

/-- More fuel does not change the result of the loop. -/
lemma inputLoop_mono {r : Outcome × Conn} (h : inputLoop u fuel c = some r) (k : ℕ) :
    inputLoop u (fuel + k) c = some r := by
  induction fuel generalizing c with
  | zero => cases h
  | succ fuel ih =>
    rw [Nat.succ_add]
    by_cases hinbuf : c.inbuf = []
    · rw [inputLoop_nil u _ hinbuf] at h ⊢
      exact h
    · cases hcall : xHttp2DnsInput1 u c with
      | error why c' =>
        rw [inputLoop_error u _ hinbuf hcall] at h ⊢
        exact h
      | ok _ c' =>
        cases hdone : c'.env.done with
        | true =>
          rw [inputLoop_done u _ hinbuf hcall hdone] at h ⊢
          exact h
        | false =>
          rw [inputLoop_next u _ hinbuf hcall hdone] at h ⊢
          exact ih h

/-- A loop that runs dry is continued by the next one, and any other loop does not look at bytes
that arrive later. -/
lemma inputLoop_extend {b : Bytes} (hb : b ≠ []) {r : Outcome × Conn} (hc : Reader c)
    (hdone : c.env.done = false) (h : inputLoop u fuel c = some r) :
    (r.1 = .more ∧ Reader r.2 ∧ r.2.env.done = false ∧ r.2.inbuf = [] ∧
      ∀ fuel' r', inputLoop u fuel' (r.2.extend b) = some r' →
        inputLoop u (fuel + fuel') (c.extend b) = some r') ∨
    (r.1 ≠ .more ∧ inputLoop u fuel (c.extend b) = some (r.1, r.2.extend b)) := by
  induction fuel generalizing c with
  | zero => cases h
  | succ fuel ih =>
    have hextend : ∀ c : Conn, (c.extend b).inbuf ≠ [] := fun c hnil =>
      hb (append_eq_nil_iff.mp hnil).2
    by_cases hinbuf : c.inbuf = []
    · rw [inputLoop_nil u _ hinbuf] at h
      cases h
      refine .inl ⟨rfl, hc, hdone, hinbuf, ?_⟩
      intro fuel' r' hr'
      rw [Nat.add_comm]
      exact inputLoop_mono u hr' _
    rcases xHttp2DnsInput1_extend u hc b with ⟨c', x, hread, hdry, hok, hext⟩ | hext
    · -- the loop ends after this call, and the next one starts with the same call
      have hdone' : c'.env.done = false := hread.done_eq.trans hdone
      rw [inputLoop_next u _ hinbuf hok hdone'] at h
      cases fuel with
      | zero => cases h
      | succ fuel =>
        rw [inputLoop_nil u _ hdry.inbuf] at h
        cases h
        refine .inl ⟨rfl, hdry.toReader, hdone', hdry.inbuf, ?_⟩
        intro fuel' r' hr'
        cases fuel' with
        | zero => cases hr'
        | succ fuel' =>
          have hsame : inputLoop u (fuel' + 1) (c.extend b) = some r' := by
            rw [inputLoop, if_neg (hextend c')] at hr'
            rw [inputLoop, if_neg (hextend c), hext]
            exact hr'
          rw [Nat.add_comm]
          exact inputLoop_mono u hsame _
    · cases hcall : xHttp2DnsInput1 u c with
      | error why c' =>
        rw [hcall] at hext
        rw [inputLoop_error u _ hinbuf hcall] at h
        cases h
        exact .inr ⟨by simp, inputLoop_error u _ (hextend c) hext⟩
      | ok _ c' =>
        rw [hcall] at hext
        cases hdone' : c'.env.done with
        | true =>
          rw [inputLoop_done u _ hinbuf hcall hdone'] at h
          cases h
          exact .inr ⟨by simp, inputLoop_done u _ (hextend c) hext hdone'⟩
        | false =>
          rw [inputLoop_next u _ hinbuf hcall hdone'] at h
          have hnext := fun n => inputLoop_next u n (hextend c) hext hdone'
          rcases ih (xHttp2DnsInput1_reader u hc hcall) hdone' h with
            ⟨hmore, hreader, hdone'', hnil, hcont⟩ | ⟨hstop, hloop⟩
          · refine .inl ⟨hmore, hreader, hdone'', hnil, ?_⟩
            intro fuel' r' hr'
            rw [Nat.succ_add, hnext]
            exact hcont fuel' r' hr'
          · exact .inr ⟨hstop, (hnext fuel).trans hloop⟩

/-- The state of a session between two chunks. -/
structure Between (c : Conn) : Prop where
  reader : Reader c
  done : c.env.done = false
  inbuf : c.inbuf = []

/-- A new connection is between two chunks. -/
lemma between_http2Dns (status : ℕ) (hostnamePort path data : Bytes) :
    Between (http2Dns status hostnamePort path data) := by
  have henv := env_http2Dns status hostnamePort path data
  refine ⟨⟨?_, ?_, ?_⟩, ?_, rfl⟩
  · rw [henv]
    exact le_rfl
  · rw [henv]
    exact Nat.zero_le _
  · intro _
    rw [henv]
    rfl
  · rw [henv]
    rfl

/-- Two results of a session agree in everything but bytes left in the input buffer. -/
structure SameRun (s t : Outcome × Conn) : Prop where
  outcome : s.1 = t.1
  env : s.2.env = t.2.env
  outbuf : s.2.outbuf = t.2.outbuf
  log : s.2.log = t.2.log

lemma SameRun.refl (s : Outcome × Conn) : SameRun s s := ⟨rfl, rfl, rfl, rfl⟩

lemma SameRun.symm (h : SameRun s t) : SameRun t s :=
  ⟨h.outcome.symm, h.env.symm, h.outbuf.symm, h.log.symm⟩

lemma SameRun.trans {v : Outcome × Conn} (h : SameRun s t) (h' : SameRun t v) : SameRun s v :=
  ⟨h.outcome.trans h'.outcome, h.env.trans h'.env, h.outbuf.trans h'.outbuf, h.log.trans h'.log⟩

/-- A session that has ended does not look at further chunks. -/
lemma feed_of_ne_more (h : s.1 ≠ .more) (a : Bytes) : feed u s a = s := by
  unfold feed
  split
  · next hmore => exact absurd hmore h
  · rfl

/-- A session that goes on is fed by a call of `http2_dns_input`. -/
lemma feed_of_eq_more (h : s.1 = .more) (a : Bytes) :
    feed u s a = http2DnsInput u (s.2.extend a) := by
  unfold feed
  rw [h]

/-- Bytes that arrive do not touch the reader. -/
lemma Reader.extend (hc : Reader c) (a : Bytes) : Reader (c.extend a) :=
  ⟨hc.len_le, hc.frame_le, hc.fresh⟩

/-- The loop of a call on a chunk. -/
lemma Between.inputLoop (hc : Between c) (a : Bytes) (hfuel : 2 * a.length + 2 ≤ fuel) :
    inputLoop u fuel (c.extend a) = some (http2DnsInput u (c.extend a)) := by
  refine inputLoop_eq_some u (hc.reader.extend a) hc.done ?_
  change 2 * (c.inbuf ++ a).length + 2 ≤ fuel
  rw [hc.inbuf]
  exact hfuel

/-- A call that asks for more is between two chunks. -/
lemma Between.feed (hs : s.1 = .more → Between s.2) (a : Bytes) :
    (feed u s a).1 = .more → Between (feed u s a).2 := by
  intro hmore
  by_cases h : s.1 = .more
  · have hc := hs h
    rw [feed_of_eq_more u h] at hmore ⊢
    rcases inputLoop_extend u (cons_ne_nil 0 []) (hc.reader.extend a) hc.done
      (hc.inputLoop u a le_rfl) with ⟨_, hreader, hdone, hinbuf, _⟩ | ⟨hne, _⟩
    · exact ⟨hreader, hdone, hinbuf⟩
    · exact absurd hmore hne
  · rw [feed_of_ne_more u h] at hmore
    exact absurd hmore h

/-- An empty chunk changes nothing. -/
lemma feed_nil (hs : s.1 = .more → Between s.2) : feed u s [] = s := by
  by_cases h : s.1 = .more
  · have hc := hs h
    have hself : s.2.extend [] = s.2 := by
      rw [Conn.extend, append_nil]
    have hloop := hc.inputLoop u [] le_rfl
    rw [hself, inputLoop_nil u _ hc.inbuf, Option.some.injEq] at hloop
    rw [feed_of_eq_more u h, hself, ← hloop, ← h]
  · exact feed_of_ne_more u h []

/-- Feeding two chunks is feeding their concatenation. -/
lemma feed_feed (hs : s.1 = .more → Between s.2) (a b : Bytes) :
    SameRun (feed u (feed u s a) b) (feed u s (a ++ b)) := by
  by_cases h : s.1 = .more
  · by_cases hb : b = []
    · rw [hb, feed_nil u (Between.feed u hs a), append_nil]
      exact SameRun.refl _
    have hc := hs h
    have hloop := hc.inputLoop u a le_rfl
    have hab : s.2.extend (a ++ b) = (s.2.extend a).extend b := by
      rw [Conn.extend, Conn.extend, Conn.extend, append_assoc]
    have hlength : (a ++ b).length = a.length + b.length := length_append
    have hboth := fun fuel => @Between.inputLoop u _ fuel hc (a ++ b)
    rw [feed_of_eq_more u h a, feed_of_eq_more u h (a ++ b)]
    rw [hab] at hboth ⊢
    rcases inputLoop_extend u hb (hc.reader.extend a) hc.done hloop with
      ⟨hmore, hreader, hdone, hinbuf, hcont⟩ | ⟨hne, hstop⟩
    · have hbetween : Between (http2DnsInput u (s.2.extend a)).2 := ⟨hreader, hdone, hinbuf⟩
      rw [feed_of_eq_more u hmore]
      have hnext := hcont _ _ (hbetween.inputLoop u b le_rfl)
      rw [hboth _ (by omega), Option.some.injEq] at hnext
      rw [hnext]
      exact SameRun.refl _
    · rw [feed_of_ne_more u hne]
      have hmono := inputLoop_mono u hstop (2 * b.length)
      rw [hboth _ (by omega), Option.some.injEq] at hmono
      rw [hmono]
      exact ⟨rfl, rfl, rfl, rfl⟩
  · rw [feed_of_ne_more u h, feed_of_ne_more u h, feed_of_ne_more u h]
    exact SameRun.refl s

/-- A session that goes on has used up its input. -/
lemma Between.session (hc : Between c) (chunks : List Bytes) :
    (session u c chunks).1 = .more → Between (session u c chunks).2 := by
  suffices h : ∀ s : Outcome × Conn, (s.1 = .more → Between s.2) →
      (chunks.foldl (Http2.feed u) s).1 = .more → Between (chunks.foldl (Http2.feed u) s).2 from
    h (.more, c) fun _ => hc
  induction chunks with
  | nil => exact fun s hs => hs
  | cons a chunks ih => exact fun s hs => ih _ (Between.feed u hs a)

/-- A session is what happens when all its bytes arrive at once. -/
lemma session_flatten (hc : Between c) (chunks : List Bytes) :
    SameRun (session u c chunks) (feed u (.more, c) chunks.flatten) := by
  refine foldl_step_flatten
    (R := SameRun) (fun _ _ _ => SameRun.trans) ?_ (fun s a hs => Between.feed u hs a)
    (fun s a b hs => feed_feed u hs a b) chunks (Outcome.more, c) fun _ => hc
  intro s hs
  rw [feed_nil u hs]
  exact SameRun.refl s

/-- A session after `http2_dns` does not depend on how the server's bytes are cut into chunks: the
outcome, the environment, the output and the log of frames, reported headers and replies are the
same. -/
theorem session_eq_of_flatten_eq (status : ℕ) (hostnamePort path data : Bytes)
    (chunks chunks' : List Bytes) (h : chunks.flatten = chunks'.flatten) :
    SameRun (session u (http2Dns status hostnamePort path data) chunks)
      (session u (http2Dns status hostnamePort path data) chunks') := by
  have hc := between_http2Dns status hostnamePort path data
  refine (session_flatten u hc chunks).trans ?_
  rw [h]
  exact (session_flatten u hc chunks').symm

/-- A ping frame that arrives in three parts, or all at once. -/
theorem session_eq_of_flatten_eq_ping :
    SameRun
      (session .x86 plainConn [[0, 0], [8, 6, 0, 0, 0, 0, 0, 1, 2, 3], [4, 5, 6, 7, 8]])
      (session .x86 plainConn [[0, 0, 8, 6, 0, 0, 0, 0, 0, 1, 2, 3, 4, 5, 6, 7, 8]]) :=
  session_eq_of_flatten_eq .x86 0 [] [] []
    [[0, 0], [8, 6, 0, 0, 0, 0, 0, 1, 2, 3], [4, 5, 6, 7, 8]]
    [[0, 0, 8, 6, 0, 0, 0, 0, 0, 1, 2, 3, 4, 5, 6, 7, 8]] rfl

end AtlasProbe.Http2
