import AtlasProbe.Http2.Logic

/-!
# The frame reader

What a call of `Xhttp2_dns_input1` does with the input: it takes bytes from the input buffer until
the frame is complete or the input is used up, and the frame handlers leave the input alone.  The
invariant `Reader` ties the progress `http2_input_len` to the contents of `http2_input`.  Every
call on a non-empty input makes progress, which bounds the loop of `http2_dns_input`.
-/

namespace AtlasProbe.Http2

open List

/-! ### The handlers and the input -/

/-- The call of `add_dyn` stores a value that the block has room for. -/
def Event.Fits : Event → Prop
  | .addDyn idx size => idx + 16 ≤ size
  | _ => True

instance : DecidablePred Event.Fits
  | .addDyn idx size => inferInstanceAs (Decidable (idx + 16 ≤ size))
  | .received _ | .accepted _ | .report _ _ | .huffman _ | .reply _ _ => isTrue trivial

/-- What a frame handler does to the input: only the recorded capacity may change, and it stays
right if the calls of `add_dyn` fit. -/
structure SameInput (c c' : Conn) : Prop where
  inbuf : c'.inbuf = c.inbuf
  http2Input : c'.env.http2Input = c.env.http2Input
  http2InputLen : c'.env.http2InputLen = c.env.http2InputLen
  log : ∀ e ∈ c.log, e ∈ c'.log
  max_le : (∀ e ∈ c'.log, e.Fits) → c.env.http2InputMax ≤ c.env.http2Input.size →
    c'.env.http2InputMax ≤ c'.env.http2Input.size

/-- `add_dyn` keeps the capacity right if it fits. -/
lemma sameInput_addDyn (c : Conn) (key value : Bytes) : SameInput c (c.addDyn key value) := by
  refine ⟨rfl, rfl, rfl, fun e he => mem_append_left _ he, fun hfits h => ?_⟩
  have hfit : c.env.http2Dyn.length + 16 ≤ c.env.http2Input.size :=
    hfits _ (mem_append_right _ mem_cons_self)
  change (if _ then _ else _) ≤ c.env.http2Input.size
  split
  · exact hfit
  · exact h

lemma SameInput.refl (c : Conn) : SameInput c c := ⟨rfl, rfl, rfl, fun _ h => h, fun _ h => h⟩

lemma SameInput.trans {c₁ c₂ c₃ : Conn} (h : SameInput c₁ c₂) (h' : SameInput c₂ c₃) :
    SameInput c₁ c₃ where
  inbuf := h'.inbuf.trans h.inbuf
  http2Input := h'.http2Input.trans h.http2Input
  http2InputLen := h'.http2InputLen.trans h.http2InputLen
  log e he := h'.log e (h.log e he)
  max_le hfits hmax := h'.max_le hfits (h.max_le (fun e he => hfits e (h'.log e he)) hmax)

/-- The frame handlers leave the input alone, and do not write to its block. -/
lemma sameInput_stepLogic : StepLogic fun {_} m => ∀ c, Wp m c (fun _ c' => SameInput c c')
    fun why c' => why ≠ .overflow ∧ SameInput c c' where
  pure _ c := .refl c
  bind hm hf c := (hm c).bind fun a c' h => (hf a c').mono (fun _ _ h' => h.trans h')
    fun _ _ h' => ⟨h'.1, h.trans h'.2⟩
  stop _ hwhy c := ⟨hwhy, .refl c⟩
  goaway _ _ c := ⟨by decide, { SameInput.refl c with }⟩
  getEnv c := .refl c
  huffman _ _ := ⟨rfl, rfl, rfl, fun _ => mem_append_left _, fun _ h => h⟩
  addDyn key value c := sameInput_addDyn c key value
  report _ _ _ := ⟨rfl, rfl, rfl, fun _ => mem_append_left _, fun _ h => h⟩
  status _ c := { SameInput.refl c with }
  types _ _ c := { SameInput.refl c with }
  globalCredits _ c := { SameInput.refl c with }
  stream1Credits _ c := { SameInput.refl c with }
  data _ c := { SameInput.refl c with }
  window w _ c := by cases w <;> exact { SameInput.refl c with }
  done c := { SameInput.refl c with }

/-! ### The block of the input -/

variable {b : Block} {offset needed n : ℕ} {c : Conn} {data : Bytes}

@[simp] lemma Block.size_write : (b.write offset data).size = b.size := rfl

section Write

variable (hoff : offset ≤ b.bytes.length) (hfit : offset + data.length ≤ b.size)

include hoff hfit

/-- A write that fits, at an offset up to which the block has been written. -/
lemma Block.bytes_write : (b.write offset data).bytes = store b.bytes offset data := by
  refine take_of_length_le ?_
  rw [length_store hoff]
  exact max_le hfit b.bytes_le

/-- Two writes one behind the other are one write. -/
lemma Block.write_write (more : Bytes) :
    (b.write offset data).write (offset + data.length) more = b.write offset (data ++ more) := by
  have hbytes := Block.bytes_write hoff hfit
  simp only [Block.write, Block.mk.injEq, true_and] at hbytes ⊢
  rw [hbytes, store_store hoff]

/-- After a write the block has been written up to the end of the data. -/
lemma Block.le_length_write : offset + data.length ≤ (b.write offset data).bytes.length := by
  rw [Block.bytes_write hoff hfit, length_store hoff]
  exact le_max_left _ _

end Write

lemma frameLength_congr {l l' : Bytes} (h : l.take 3 = l'.take 3) :
    frameLength l = frameLength l' := by
  rw [frameLength, frameLength, h]

/-! ### The reading stages -/

/-- There is room for `n` bytes, as far as `http2_input_max` says. -/
lemma le_makeRoom_inputMax (n : ℕ) (env : Http2Env) : n ≤ (makeRoom n env).http2InputMax := by
  unfold makeRoom
  split
  · exact le_rfl
  · omega

lemma makeRoom_eq_self {env : Http2Env} (h : n ≤ env.http2InputMax) :
    makeRoom n env = env := if_neg (Nat.not_lt_of_le h)

/-- The connection after `removeInput`. -/
def Conn.takeIn (c : Conn) (len : ℕ) : Conn :=
  let fit := (c.inbuf.take len).take (c.env.http2Input.size - c.env.http2InputLen)
  { c with
    inbuf := c.inbuf.drop fit.length
    env := { c.env with
      http2Input := c.env.http2Input.write c.env.http2InputLen fit
      http2InputLen := c.env.http2InputLen + fit.length } }

/-- What `removeInput` does. -/
lemma removeInput_apply (len : ℕ) (c : Conn) :
    removeInput len c =
      if c.env.http2Input.size - c.env.http2InputLen < (c.inbuf.take len).length then
        .error .overflow (c.takeIn len)
      else .ok () (c.takeIn len) := by
  have hlt : ((c.inbuf.take len).take (c.env.http2Input.size - c.env.http2InputLen)).length <
      (c.inbuf.take len).length ↔
      c.env.http2Input.size - c.env.http2InputLen < (c.inbuf.take len).length := by
    rw [length_take]
    omega
  change (if _ then throw Stop.overflow else pure () : Handler Unit) (c.takeIn len) = _
  by_cases h : c.env.http2Input.size - c.env.http2InputLen < (c.inbuf.take len).length
  · rw [if_pos h, if_pos (hlt.mpr h)]
    rfl
  · rw [if_neg h, if_neg (fun h' => h (hlt.mp h'))]
    rfl

/-- The connection after `makeRoom`. -/
def Conn.makeRoom (c : Conn) (n : ℕ) : Conn := { c with env := Http2.makeRoom n c.env }

lemma Conn.makeRoom_eq_self (h : n ≤ c.env.http2InputMax) : c.makeRoom n = c := by
  rw [Conn.makeRoom, Http2.makeRoom_eq_self h]

/-- Taking no input changes nothing. -/
lemma Conn.takeIn_zero (c : Conn) : c.takeIn 0 = c := by
  have hwrite : c.env.http2Input.write c.env.http2InputLen [] = c.env.http2Input := by
    simp [Block.write, store, take_of_length_le c.env.http2Input.bytes_le]
  simp only [Conn.takeIn, take_zero, take_nil, length_nil, drop_zero, Nat.add_zero, hwrite]

/-- What a reading stage does when it has made room. -/
lemma fill_apply {d : Conn} (hd : c.makeRoom needed = d) :
    fill needed c =
      if d.env.http2Input.size - d.env.http2InputLen <
          min (needed - d.env.http2InputLen) d.inbuf.length then
        .error .overflow (d.takeIn (needed - d.env.http2InputLen))
      else .ok (decide (needed - d.env.http2InputLen ≤ d.inbuf.length))
        (d.takeIn (needed - d.env.http2InputLen)) := by
  change (if (c.makeRoom needed).env.http2InputLen < needed then
    removeInput (needed - (c.makeRoom needed).env.http2InputLen) >>= fun _ => getEnv >>= fun env =>
      pure (decide (needed ≤ env.http2InputLen)) else pure true : Handler Bool)
    (c.makeRoom needed) = _
  rw [hd]
  by_cases h : d.env.http2InputLen < needed
  · have hremove := removeInput_apply (needed - d.env.http2InputLen) d
    rw [length_take] at hremove
    rw [if_pos h]
    split
    · next hsize =>
      rw [if_pos hsize] at hremove
      exact bind_apply_error hremove _
    · next hsize =>
      rw [if_neg hsize] at hremove
      have hdec : needed ≤ (d.takeIn (needed - d.env.http2InputLen)).env.http2InputLen ↔
          needed - d.env.http2InputLen ≤ d.inbuf.length := by
        simp only [Conn.takeIn, length_take]
        omega
      refine (bind_apply_ok hremove _).trans ?_
      simp only [← hdec]
      rfl
  · rw [if_neg h, Nat.sub_eq_zero_of_le (Nat.not_lt.mp h), Conn.takeIn_zero, Nat.zero_min]
    rfl

/-- A reading stage starts with making room. -/
lemma fill_makeRoom (c : Conn) (needed : ℕ) : fill needed (c.makeRoom needed) = fill needed c := by
  rw [fill_apply (Conn.makeRoom_eq_self (le_makeRoom_inputMax needed c.env)), fill_apply rfl]

/-- From `c` to `c'` the bytes `x` have been moved from the input buffer to `http2_input`; nothing
else has changed but the block itself. -/
structure ReadMore (c c' : Conn) (x : Bytes) : Prop where
  inbuf : c.inbuf = x ++ c'.inbuf
  len : c'.env.http2InputLen = c.env.http2InputLen + x.length
  env : c'.env = { c.env with
    http2Input := c'.env.http2Input
    http2InputMax := c'.env.http2InputMax
    http2InputLen := c'.env.http2InputLen }
  outbuf : c'.outbuf = c.outbuf
  log : c'.log = c.log
  /-- What had been read of the frame is still there, and the new bytes are behind it. -/
  keep : ∀ k ≤ c.env.http2InputLen, c'.env.http2Input.bytes.take k = c.env.http2Input.bytes.take k
  len_le : c'.env.http2InputLen ≤ c'.env.http2Input.bytes.length
  /-- If the recorded capacity is right, it still is. -/
  fits : c.env.http2InputMax ≤ c.env.http2Input.size → c'.env.http2InputMax ≤ c'.env.http2Input.size

lemma ReadMore.trans {c₁ c₂ c₃ : Conn} {x y : Bytes} (h : ReadMore c₁ c₂ x)
    (h' : ReadMore c₂ c₃ y) : ReadMore c₁ c₃ (x ++ y) where
  inbuf := by rw [h.inbuf, h'.inbuf, append_assoc]
  len := by rw [h'.len, h.len, length_append, Nat.add_assoc]
  env := by rw [h'.env, h.env]
  outbuf := h'.outbuf.trans h.outbuf
  log := h'.log.trans h.log
  keep k hk := by
    rw [h'.keep k (by rw [h.len]; omega), h.keep k hk]
  len_le := h'.len_le
  fits := h'.fits ∘ h.fits

/-- Making room moves no byte. -/
lemma readMore_makeRoom (hlen : c.env.http2InputLen ≤ c.env.http2Input.bytes.length)
    (hle : c.env.http2InputMax < needed → c.env.http2InputLen ≤ needed) :
    ReadMore c (c.makeRoom needed) [] := by
  unfold Conn.makeRoom Http2.makeRoom
  by_cases h : c.env.http2InputMax < needed
  · rw [if_pos h]
    refine ⟨rfl, rfl, rfl, rfl, rfl, ?_, ?_, fun _ => le_rfl⟩
    · intro k hk
      simp only [Block.realloc]
      rw [take_take, Nat.min_eq_left (by omega)]
    · simp only [Block.realloc, length_take]
      omega
  · rw [if_neg h]
    exact ⟨rfl, rfl, rfl, rfl, rfl, fun _ _ => rfl, hlen, id⟩

/-- Taking input moves bytes from its front. -/
lemma readMore_takeIn (len : ℕ) (hlen : c.env.http2InputLen ≤ c.env.http2Input.bytes.length) :
    ReadMore c (c.takeIn len)
      ((c.inbuf.take len).take (c.env.http2Input.size - c.env.http2InputLen)) := by
  have hsize := c.env.http2Input.bytes_le
  have hfit : c.env.http2InputLen +
      ((c.inbuf.take len).take (c.env.http2Input.size - c.env.http2InputLen)).length ≤
      c.env.http2Input.size := by
    rw [length_take]
    omega
  refine ⟨?_, rfl, rfl, rfl, rfl, ?_, ?_, id⟩
  · simp only [Conn.takeIn, take_take, length_take]
    nth_rewrite 1 [← take_append_drop
      (min (c.env.http2Input.size - c.env.http2InputLen) len) c.inbuf]
    congr 1
    by_cases h : min (c.env.http2Input.size - c.env.http2InputLen) len ≤ c.inbuf.length
    · rw [Nat.min_eq_left h]
    · rw [drop_eq_nil_of_le (by omega), drop_eq_nil_of_le (by omega)]
  · intro k hk
    change ((c.env.http2Input.write _ _).bytes).take k = _
    rw [Block.bytes_write hlen hfit, take_store hlen hk]
  · exact Block.le_length_write hlen hfit

/-- How a reading stage ends: the block overflows, or the input runs dry, or the stage is
complete. -/
lemma fill_cases (needed : ℕ) (hlen : c.env.http2InputLen ≤ c.env.http2Input.bytes.length)
    (hle : c.env.http2InputMax < needed → c.env.http2InputLen ≤ needed) :
    ∃ c' x, ReadMore c c' x ∧ needed ≤ c'.env.http2InputMax ∧
      ((fill needed c = .error .overflow c' ∧ c'.env.http2Input.size < needed) ∨
        (fill needed c = .ok false c' ∧ c'.inbuf = [] ∧ c'.env.http2InputLen < needed) ∨
        (fill needed c = .ok true c' ∧ c'.env.http2InputLen = max needed c.env.http2InputLen)) := by
  have hroom := readMore_makeRoom hlen hle
  have hmax : needed ≤ (c.makeRoom needed).env.http2InputMax := le_makeRoom_inputMax needed c.env
  have hsame := hroom.len
  generalize hd : c.makeRoom needed = d at hroom hmax hsame
  have htake := readMore_takeIn (needed - d.env.http2InputLen) hroom.len_le
  have hnew := htake.len
  have hinbuf := congrArg List.length htake.inbuf
  rw [length_nil] at hsame
  rw [length_take, length_take] at hnew
  rw [length_append, length_take, length_take] at hinbuf
  refine ⟨d.takeIn (needed - d.env.http2InputLen), _, hroom.trans htake, hmax, ?_⟩
  rw [fill_apply hd]
  split
  · refine .inl ⟨rfl, ?_⟩
    change d.env.http2Input.size < needed
    omega
  · by_cases hdry : needed - d.env.http2InputLen ≤ d.inbuf.length
    · exact .inr (.inr ⟨by rw [decide_eq_true hdry], by omega⟩)
    · refine .inr (.inl ⟨by rw [decide_eq_false hdry], ?_, by omega⟩)
      exact eq_nil_of_length_eq_zero (by omega)

/-! ### One call of the reader -/

/-- The state of the reader between two calls. -/
structure Reader (c : Conn) : Prop where
  /-- What has been read of the frame is in the block. -/
  len_le : c.env.http2InputLen ≤ c.env.http2Input.bytes.length
  /-- No byte of the next frame has been read. -/
  frame_le : c.env.http2InputLen ≤ 9 + frameLength c.env.http2Input.bytes
  /-- Before the first call nothing has been read. -/
  fresh : c.env.http2InputMax < 9 → c.env.http2InputLen = 0

/-- The frame in `http2_input` is complete. -/
structure Complete (c : Conn) : Prop where
  len_eq : c.env.http2InputLen = 9 + frameLength c.env.http2Input.bytes
  len_le : c.env.http2InputLen ≤ c.env.http2Input.bytes.length
  le_max : c.env.http2InputLen ≤ c.env.http2InputMax

/-- The input has run dry before the frame is complete. -/
structure Dry (c : Conn) : Prop extends Reader c where
  inbuf : c.inbuf = []
  nine_le : 9 ≤ c.env.http2InputMax
  lt_frame : c.env.http2InputLen < 9 ∨
    (c.env.http2InputLen < 9 + frameLength c.env.http2Input.bytes ∧
      9 + frameLength c.env.http2Input.bytes ≤ c.env.http2InputMax)

/-- The frame header in `http2_input` is complete. -/
structure HeaderRead (c : Conn) : Prop where
  len_le : c.env.http2InputLen ≤ c.env.http2Input.bytes.length
  nine_le : 9 ≤ c.env.http2InputLen
  frame_le : c.env.http2InputLen ≤ 9 + frameLength c.env.http2Input.bytes

/-- How the first stage ends. -/
lemma Reader.fill_nine (hc : Reader c) :
    ∃ c' x, ReadMore c c' x ∧
      ((fill 9 c = .error .overflow c' ∧ c'.env.http2Input.size < c'.env.http2InputMax) ∨
        (fill 9 c = .ok false c' ∧ Dry c') ∨
        (fill 9 c = .ok true c' ∧ HeaderRead c')) := by
  obtain ⟨c', x, hread, hmax, hfill⟩ := fill_cases 9 hc.len_le
    (fun h => by rw [hc.fresh h]; exact Nat.zero_le _)
  refine ⟨c', x, hread, ?_⟩
  rcases hfill with ⟨herr, hsize⟩ | ⟨hdry, hinbuf, hlt⟩ | ⟨hok, hlen⟩
  · exact .inl ⟨herr, lt_of_lt_of_le hsize hmax⟩
  · exact .inr (.inl ⟨hdry, ⟨hread.len_le, by omega, fun h => by omega⟩, hinbuf, hmax, .inl hlt⟩)
  · refine .inr (.inr ⟨hok, hread.len_le, by omega, ?_⟩)
    by_cases h3 : 3 ≤ c.env.http2InputLen
    · rw [frameLength_congr (hread.keep 3 h3)]
      have := hc.frame_le
      omega
    · omega

/-- How the second stage ends. -/
lemma HeaderRead.fill_frame (hc : HeaderRead c) :
    ∃ c' x, ReadMore c c' x ∧
      frameLength c'.env.http2Input.bytes = frameLength c.env.http2Input.bytes ∧
      ((fill (9 + frameLength c.env.http2Input.bytes) c = .error .overflow c' ∧
          c'.env.http2Input.size < c'.env.http2InputMax) ∨
        (fill (9 + frameLength c.env.http2Input.bytes) c = .ok false c' ∧ Dry c') ∨
        (fill (9 + frameLength c.env.http2Input.bytes) c = .ok true c' ∧ Complete c')) := by
  have hnine := hc.nine_le
  have hle := hc.frame_le
  obtain ⟨c', x, hread, hmax, hfill⟩ :=
    fill_cases (9 + frameLength c.env.http2Input.bytes) hc.len_le fun _ => hle
  have hframe : frameLength c'.env.http2Input.bytes = frameLength c.env.http2Input.bytes :=
    frameLength_congr (hread.keep 3 (by omega))
  refine ⟨c', x, hread, hframe, ?_⟩
  rcases hfill with ⟨herr, hsize⟩ | ⟨hdry, hinbuf, hlt⟩ | ⟨hok, hlen⟩
  · exact .inl ⟨herr, lt_of_lt_of_le hsize hmax⟩
  · refine .inr (.inl ⟨hdry, ⟨hread.len_le, by omega, fun h => by omega⟩, hinbuf, by omega,
      .inr ?_⟩)
    rw [hframe]
    exact ⟨hlt, hmax⟩
  · exact .inr (.inr ⟨hok, by omega, hread.len_le, by omega⟩)

/-- What a call of `Xhttp2_dns_input1` can do: overflow the block, run dry, or read the frame to
its end and handle it. -/
theorem wp_xHttp2DnsInput1 (u : Platform) (hc : Reader c) {Q : Unit → Conn → Prop}
    {E : Stop → Conn → Prop}
    (hover : ∀ c' x, ReadMore c c' x → c'.env.http2Input.size < c'.env.http2InputMax →
      E .overflow c')
    (hdry : ∀ c' x, ReadMore c c' x → Dry c' → Q () c')
    (hframe : ∀ c' x, ReadMore c c' x → Complete c' → Wp (handleFrame u) c' Q E) :
    Wp (xHttp2DnsInput1 u) c Q E := by
  unfold Wp
  obtain ⟨c₁, x, hread, ⟨herr, hsize⟩ | ⟨hok, hend⟩ | ⟨hok, hheader⟩⟩ := hc.fill_nine
  · rw [xHttp2DnsInput1, bind_apply_error herr]
    exact hover c₁ x hread hsize
  · rw [xHttp2DnsInput1, bind_apply_ok hok]
    exact hdry c₁ x hread hend
  obtain ⟨c₂, y, hread₂, _, ⟨herr, hsize⟩ | ⟨hok₂, hend⟩ | ⟨hok₂, hcomplete⟩⟩ := hheader.fill_frame
  · have hcall : readFrame u c₁ = .error .overflow c₂ := bind_apply_error herr _
    rw [xHttp2DnsInput1, bind_apply_ok hok, if_pos rfl, hcall]
    exact hover c₂ _ (hread.trans hread₂) hsize
  · have hcall : readFrame u c₁ = .ok () c₂ := bind_apply_ok hok₂ _
    rw [xHttp2DnsInput1, bind_apply_ok hok, if_pos rfl, hcall]
    exact hdry c₂ _ (hread.trans hread₂) hend
  · have hcall : readFrame u c₁ = handleFrame u c₂ := bind_apply_ok hok₂ _
    rw [xHttp2DnsInput1, bind_apply_ok hok, if_pos rfl, hcall]
    exact hframe c₂ _ (hread.trans hread₂) hcomplete

/-- The connection when a frame is handed to its handler. -/
def Conn.receive (c : Conn) (f : Frame) : Conn := { c with log := c.log ++ [.received f] }

/-- The connection when the handler of a frame has returned. -/
def Conn.accept (c : Conn) (f : Frame) : Conn :=
  { c with log := c.log ++ [.accepted f], env := { c.env with http2InputLen := 0 } }

/-- Handling a frame is dispatching it. -/
lemma wp_handleFrame (u : Platform) {Q : Unit → Conn → Prop} {E : Stop → Conn → Prop} :
    Wp (handleFrame u) c Q E ↔
      Wp (dispatch u (frameOf c.env.http2Input.bytes).type (frameOf c.env.http2Input.bytes).flags
        (frameLength c.env.http2Input.bytes) (frameOf c.env.http2Input.bytes).streamId
        (c.env.http2Input.bytes.drop 9)) (c.receive (frameOf c.env.http2Input.bytes))
        (fun _ c' => Q () (c'.accept (frameOf c.env.http2Input.bytes))) E := by
  simp only [handleFrame, wp_bind]
  rfl

/-- Handling a frame resets the reader or stops. -/
lemma handleFrame_input (u : Platform) (c : Conn) :
    Wp (handleFrame u) c (fun _ c' => ∃ c₁ f, SameInput c c₁ ∧ c' = c₁.accept f)
      fun why c' => why ≠ .overflow ∧ SameInput c c' := by
  have hreceive : SameInput c (c.receive (frameOf c.env.http2Input.bytes)) :=
    ⟨rfl, rfl, rfl, fun _ => mem_append_left _, fun _ h => h⟩
  rw [wp_handleFrame]
  refine (sameInput_stepLogic.frameLogic.dispatch u _ _ _ _ _ _).mono ?_ ?_
  · exact fun _ c' h => ⟨c', _, hreceive.trans h, rfl⟩
  · exact fun why c' h => ⟨h.1, hreceive.trans h.2⟩

end AtlasProbe.Http2
