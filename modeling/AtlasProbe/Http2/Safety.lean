import AtlasProbe.Http2.InputBuffer

/-!
# Errors are answered with a GOAWAY frame

A handler should either accept its frame or send a GOAWAY frame and return an error; it should never
call `fatal`, which ends the program.  The handlers do so (`Safely`) except for

* a DATA frame on another stream than 1, for which `add_credits2` calls `fatal`;
* the PADDED flag on an empty payload, which makes them read behind it;
* a padded HEADERS frame whose first padding byte looks like an indexed field: the loop over the
  header fields runs into the padding, with a length that has wrapped around;
* an empty Huffman-coded string, which is an error without a GOAWAY frame;
* a call of `add_dyn` that breaks the capacity of the input buffer.
-/

namespace AtlasProbe.Http2

open List

variable {u : Platform} {c : Conn} {buf : Bytes} {why : Stop} {length : ℕ} (bytes : Bytes)

/-! ### Harmless frames -/

/-- The pad length of a padded frame. -/
def Frame.padLength (f : Frame) : ℕ := (f.payload.headD 0).toNat

/-- The offset of the first header field of a padded HEADERS frame. -/
def Frame.headersOffset (f : Frame) : ℕ := 1 + if priority f.flags then 5 else 0

/-- A DATA frame that does not reach the call of `fatal`. -/
def Frame.SafeData (f : Frame) : Prop :=
  if padded f.flags then f.payload ≠ [] ∧ (f.streamId = 1 ∨ f.payload.length ≤ f.padLength)
  else f.streamId = 1

/-- A HEADERS frame in which the loop over the header fields stops at the padding. -/
def Frame.SafeHeaders (f : Frame) : Prop :=
  f.streamId = 1 → padded f.flags → f.payload ≠ [] ∧
    (f.payload.length < f.headersOffset + f.padLength ∨ f.padLength ≤ 1 ∨
      (f.payload.getD (f.payload.length - f.padLength) 0).toNat &&& 0x80 = 0)

/-- A frame that is accepted or answered with a GOAWAY frame. -/
def Frame.Safe (f : Frame) : Prop :=
  (f.type = 0 → f.SafeData) ∧ (f.type = 1 → f.SafeHeaders)

/-- The frames received and the calls of `Xdecode_huffman2` and `add_dyn` are harmless. -/
def Event.Safe : Event → Prop
  | .received f => f.Safe
  | .huffman len => 0 < len
  | e => e.Fits

instance (f : Frame) : Decidable f.SafeData := by
  unfold Frame.SafeData
  infer_instance

instance (f : Frame) : Decidable f.SafeHeaders := by
  unfold Frame.SafeHeaders
  infer_instance

instance (f : Frame) : Decidable f.Safe :=
  inferInstanceAs (Decidable ((f.type = 0 → f.SafeData) ∧ (f.type = 1 → f.SafeHeaders)))

instance : DecidablePred Event.Safe
  | .received f => inferInstanceAs (Decidable f.Safe)
  | .huffman len => inferInstanceAs (Decidable (0 < len))
  | .addDyn idx size => inferInstanceAs (Decidable (Event.addDyn idx size).Fits)
  | .accepted _ | .report _ _ | .reply _ _ => isTrue trivial

lemma Event.Safe.fits {e : Event} (h : e.Safe) : e.Fits := by
  cases e with
  | addDyn idx size => exact h
  | _ => trivial

/-! ### Safe handlers -/

/-- Nothing has been sent. -/
structure Quiet (c c' : Conn) : Prop where
  log : ∀ e ∈ c.log, e ∈ c'.log
  outbuf : c'.outbuf = c.outbuf

/-- If all that has happened is harmless, a GOAWAY frame has been sent and the error is the one that
makes `http2_dns_input` return `-1`. -/
structure Refused (c : Conn) (why : Stop) (c' : Conn) : Prop where
  log : ∀ e ∈ c.log, e ∈ c'.log
  goaway : (∀ e ∈ c'.log, e.Safe) →
    why = .failed ∧ ∃ code reason, c'.outbuf = c.outbuf ++ goawayFrame code reason

/-- The handler returns a value in `Q`, or sends a GOAWAY frame and returns an error if the
assumption `A` on its arguments holds. -/
def Safely {α : Type} (A : Prop) (m : Handler α) (Q : α → Prop) : Prop :=
  Spec Quiet (fun c why c' => A → Refused c why c') m Q

lemma Quiet.refl (c : Conn) : Quiet c c := ⟨fun _ h => h, rfl⟩

lemma Quiet.trans {c₁ c₂ c₃ : Conn} (h : Quiet c₁ c₂) (h' : Quiet c₂ c₃) : Quiet c₁ c₃ :=
  ⟨fun e he => h'.log e (h.log e he), h'.outbuf.trans h.outbuf⟩

lemma Quiet.refused {c₁ c₂ c₃ : Conn} (h : Quiet c₁ c₂) (h' : Refused c₂ why c₃) :
    Refused c₁ why c₃ := by
  refine ⟨fun e he => h'.log e (h.log e he), fun hsafe => ?_⟩
  rw [← h.outbuf]
  exact h'.goaway hsafe

section Rules

variable {α β : Type} {A B c : Prop} {Q Q' : α → Prop} {m n : Handler α}

lemma safely_pure {a : α} (h : Q a) : Safely A (pure a) Q := spec_pure Quiet.refl h

lemma safely_goaway (code : ErrorCode) (reason : String) :
    Safely A (goaway code reason : Handler α) Q :=
  fun _ _ => ⟨fun _ h => h, fun _ => ⟨rfl, code, reason, rfl⟩⟩

/-- An error that the assumption excludes. -/
lemma safely_throw {why : Stop} (h : ¬ A) : Safely A (throw why : Handler α) Q :=
  spec_throw fun _ hA => absurd hA h

lemma Safely.bind {Q' : β → Prop} {f : α → Handler β} (hm : Safely A m Q)
    (hf : ∀ a, Q a → Safely A (f a) Q') : Safely A (m >>= f) Q' :=
  Spec.bind (fun _ _ _ => Quiet.trans)
    (fun _ _ _ _ h h' hA => h.refused (h' hA)) hm hf

lemma Safely.mono (h : Safely A m Q) (hA : B → A) (hQ : ∀ a, Q a → Q' a) : Safely B m Q' :=
  Spec.mono h hQ fun _ _ _ h' hB => h' (hA hB)

/-- A stronger assumption. -/
lemma Safely.imp (h : Safely A m Q) (hA : B → A) : Safely B m Q := h.mono hA fun _ h => h

lemma Safely.ite [Decidable c] (hm : c → Safely A m Q) (hn : ¬ c → Safely A n Q) :
    Safely A (if c then m else n) Q := Spec.ite hm hn

/-- A check that closes the connection. -/
lemma Safely.check [Decidable c] {code : ErrorCode} {reason : String} (hn : ¬ c → Safely A n Q) :
    Safely A (if c then goaway code reason else n) Q :=
  Safely.ite (fun _ => safely_goaway code reason) hn

/-- A change of the environment is safe. -/
lemma safely_modifyEnv {Q : Unit → Prop} (f : Http2Env → Http2Env) (h : Q ()) :
    Safely A (modifyEnv f) Q := fun _ => ⟨h, fun _ h => h, rfl⟩

lemma safely_getEnv : Safely A getEnv fun _ => True := fun c => ⟨trivial, Quiet.refl c⟩

lemma safely_note {Q : Unit → Prop} (e : Event) (h : Q ()) : Safely A (note e) Q :=
  fun _ => ⟨h, fun _ h => mem_append_left _ h, rfl⟩

end Rules

/-! ### Decoding -/

lemma safely_readByte (buf : Bytes) :
    Safely (buf ≠ []) (readByte buf) fun b => buf.head? = some b := by
  cases buf with
  | nil => exact safely_throw (by simp)
  | cons b buf => exact safely_pure rfl

lemma safely_readBytes (buf : Bytes) (n : ℕ) :
    Safely (n ≤ buf.length) (readBytes buf n) fun _ => True :=
  Safely.ite (fun _ => safely_pure trivial) fun h => safely_throw h

lemma safely_decodeIntLoop (len maxValue : ℕ) (buf : Bytes) {o : ℕ} (v : ℕ) (ho : 1 ≤ o) :
    Safely (len ≤ o + buf.length) (decodeIntLoop u len maxValue buf o v)
      fun r => 1 ≤ r.1 ∧ r.1 ≤ len := by
  induction buf generalizing o v with
  | nil =>
    refine Safely.ite (fun h => safely_throw ?_) fun _ => safely_goaway _ _
    rw [length_nil]
    omega
  | cons byte buf ih =>
    refine Safely.ite (fun hlen => ?_) fun _ => safely_goaway _ _
    cases shiftIn u (byte.toNat &&& 0x7f) ((o - 1) * 7) with
    | none => exact safely_goaway _ _
    | some newValue =>
      refine Safely.ite (fun _ => ?_) fun _ => Safely.check fun _ => ?_
      · refine (ih _ (by omega)).imp (fun h => ?_)
        rw [length_cons] at h
        omega
      · exact safely_pure ⟨by omega, hlen⟩

/-- An integer has at least one byte, and no more than there are. -/
lemma safely_xDecodeInt2 (buf : Bytes) (len prefixLen : ℕ) :
    Safely (buf ≠ [] ∧ len ≤ buf.length) (xDecodeInt2 u buf len prefixLen)
      fun r => 1 ≤ r.1 ∧ r.1 ≤ max 1 len := by
  refine ((safely_readByte buf).imp And.left).bind fun byte _ => ?_
  refine Safely.ite (fun _ => safely_pure ⟨le_rfl, le_max_left _ _⟩) fun _ => ?_
  refine (safely_decodeIntLoop len _ (buf.drop 1) 0 le_rfl).mono ?_ ?_
  · rintro ⟨_, h⟩
    rw [length_drop]
    omega
  · exact fun r hr => ⟨hr.1, le_trans hr.2 (le_max_right _ _)⟩

/-- An empty Huffman-coded string is the only one that is refused without a GOAWAY frame. -/
lemma safely_huffmanString (buf : Bytes) (len cap : ℕ) :
    Safely (len ≤ buf.length) (huffmanString u buf len cap) fun _ => True := by
  intro c
  by_cases hlen : len ≤ buf.length
  · simp only [huffmanString, wp_bind, readBytes, if_pos hlen, wp_pure]
    cases hres : xDecodeHuffman2 u.past (buf.take len) cap with
    | goaway reason =>
      exact fun _ => ⟨fun _ h => mem_append_left _ h, fun _ => ⟨rfl, _, reason, rfl⟩⟩
    | done out =>
      refine wp_ite (fun hout _ => ?_) fun _ => ⟨trivial, fun _ h => mem_append_left _ h, rfl⟩
      refine ⟨fun _ h => mem_append_left _ h, fun hsafe => ?_⟩
      have hpos : 0 < len := hsafe (.huffman len) (mem_append_right _ mem_cons_self)
      rw [hout] at hres
      have htake : buf.take len ≠ [] := by
        rw [← length_pos_iff, length_take, Nat.min_eq_left hlen]
        exact hpos
      exact absurd hres (xDecodeHuffman2_ne_done_nil u.past cap htake)
  · simp only [huffmanString, wp_bind, readBytes, if_neg hlen]
    exact fun h => absurd h hlen

/-- A string literal ends behind its start and within the header block. -/
lemma safely_decodeString (buf : Bytes) (len o cap : ℕ) (isName : Bool) :
    Safely (len ≤ buf.length) (decodeString u buf len o cap isName)
      fun r => o < r.2 ∧ r.2 ≤ len := by
  refine Safely.check fun ho => ?_
  have hdrop : len ≤ buf.length → buf.drop o ≠ [] ∧ len - o ≤ (buf.drop o).length := by
    intro h
    rw [← length_pos_iff, length_drop]
    omega
  refine ((safely_readByte _).imp (fun h => (hdrop h).1)).bind fun byte _ => ?_
  refine ((safely_xDecodeInt2 _ _ _).imp hdrop).bind ?_
  rintro ⟨tmplen, value⟩ ⟨hpos, hmax⟩
  refine Safely.check fun hvalue => ?_
  have hend : o < o + tmplen + value ∧ o + tmplen + value ≤ len := by omega
  have hread : len ≤ buf.length → value ≤ (buf.drop (o + tmplen)).length := by
    intro h
    rw [length_drop]
    omega
  refine Safely.ite (fun _ => ?_) fun _ => Safely.check fun _ => ?_
  · exact ((safely_huffmanString _ _ _).imp hread).bind fun _ _ => safely_pure hend
  · exact ((safely_readBytes _ _).imp hread).bind fun _ _ => safely_pure hend

/-! ### Header fields -/

section Fields

variable {A : Prop} (key value : Bytes)

lemma safely_addDyn : Safely A (addDyn key value) fun _ => True :=
  fun _ => ⟨trivial, fun _ h => mem_append_left _ h, rfl⟩

/-- The index of a dynamic entry is above those of the static table, so `fatal` is not called. -/
lemma safely_xGetDyn {value : ℕ} (h : 61 < value) : Safely A (xGetDyn value) fun _ => True := by
  refine Safely.ite (fun h' => absurd h' (by omega)) fun _ => safely_getEnv.bind fun env _ => ?_
  exact Safely.check fun _ => safely_pure trivial

lemma safely_xReportHeader : Safely A (xReportHeader key value) fun _ => True := by
  refine (safely_note (Q := fun _ => True) _ trivial).bind fun _ _ => ?_
  refine Safely.bind (Q := fun _ => True) ?_ fun _ _ => ?_
  · refine Safely.ite (fun _ => ?_) fun _ => safely_pure trivial
    refine Safely.bind (Q := fun _ => True) ?_ fun _ _ => safely_modifyEnv _ trivial
    refine Safely.check fun _ => ?_
    exact Safely.check fun _ => safely_pure trivial
  · exact Safely.ite (fun _ => safely_modifyEnv _ trivial) fun _ => safely_pure trivial

/-- Adding a header to the dynamic table and reporting it. -/
lemma safely_addReport {n : ℕ} {Q : ℕ → Prop} (h : Q n) :
    Safely A (do addDyn key value; xReportHeader key value; pure n) Q :=
  (safely_addDyn key value).bind fun _ _ => (safely_xReportHeader key value).bind fun _ _ =>
    safely_pure h

end Fields

lemma safely_decodeIndexed (buf : Bytes) (len : ℕ) :
    Safely (buf ≠ [] ∧ len ≤ buf.length) (decodeIndexed u buf len)
      fun n => 1 ≤ n ∧ n ≤ max 1 len := by
  refine (safely_xDecodeInt2 buf len 1).bind ?_
  rintro ⟨tmplen, value⟩ htmplen
  refine Safely.check fun _ => Safely.ite (fun hvalue => ?_) fun _ => ?_
  · refine (safely_xGetDyn hvalue).bind fun dyn _ => ?_
    exact (safely_xReportHeader _ _).bind fun _ _ => safely_pure htmplen
  · cases (staticEntry value).value with
    | none => exact safely_goaway _ _
    | some entValue => exact safely_addReport _ _ htmplen

lemma safely_decodeNewName (buf : Bytes) (len : ℕ) :
    Safely (buf ≠ [] ∧ len ≤ buf.length) (decodeNewName u buf len) fun n => 1 ≤ n ∧ n ≤ len := by
  refine ((safely_decodeString buf len 1 255 true).imp And.right).bind ?_
  rintro ⟨namebuf, o⟩ ⟨ho, _⟩
  refine ((safely_decodeString buf len o 1024 false).imp And.right).bind ?_
  rintro ⟨value, o'⟩ ⟨ho', hend⟩
  exact safely_addReport _ _ ⟨by omega, hend⟩

lemma safely_indexedName {A : Prop} (value : ℕ) :
    Safely A (indexedName value) fun _ => True :=
  Safely.ite (fun h => (safely_xGetDyn h).bind fun _ _ => safely_pure trivial)
    fun _ => safely_pure trivial

lemma safely_decodeIndexedName (prefixLen : ℕ) (indexing : Bool) (buf : Bytes) (len : ℕ) :
    Safely (buf ≠ [] ∧ len ≤ buf.length) (decodeIndexedName u prefixLen indexing buf len)
      fun n => 1 ≤ n ∧ n ≤ len := by
  refine (safely_xDecodeInt2 buf len prefixLen).bind ?_
  rintro ⟨tmplen, value⟩ ⟨hpos, _⟩
  refine Safely.check fun _ => ?_
  refine (safely_indexedName value).bind fun name _ => ?_
  refine ((safely_decodeString buf len tmplen 1024 false).imp And.right).bind ?_
  rintro ⟨str, o⟩ ⟨ho, hend⟩
  have hn : 1 ≤ o ∧ o ≤ len := ⟨by omega, hend⟩
  cases indexing with
  | false => exact (safely_xReportHeader _ _).bind fun _ _ => safely_pure hn
  | true => exact safely_addReport _ _ hn

/-- A header field has at least one byte and ends within the header block.  At the end of the block
an indexed field is taken for one of a single byte, and every other one is refused. -/
lemma safely_xDecodeHeader2 (buf : Bytes) (len : ℕ) :
    Safely (buf ≠ [] ∧ len ≤ buf.length) (xDecodeHeader2 u buf len)
      fun n => 1 ≤ n ∧ n ≤ max 1 len ∧ (len = 0 → (buf.headD 0).toNat &&& 0x80 ≠ 0) := by
  have hmax : ∀ n, 1 ≤ n ∧ n ≤ len →
      1 ≤ n ∧ n ≤ max 1 len ∧ (len = 0 → (buf.headD 0).toNat &&& 0x80 ≠ 0) :=
    fun n h => ⟨h.1, le_trans h.2 (le_max_right _ _), fun h0 => by omega⟩
  refine ((safely_readByte buf).imp And.left).bind fun byte hbyte => ?_
  refine Safely.ite (fun htop => ?_) fun _ => ?_
  · refine (safely_decodeIndexed buf len).mono id fun n hn => ⟨hn.1, hn.2, fun _ => ?_⟩
    rw [headD_eq_head?_getD, hbyte, Option.getD_some, htop]
    decide
  refine Safely.ite (fun _ => (safely_decodeNewName buf len).mono id hmax) fun _ => ?_
  refine Safely.ite (fun _ => (safely_decodeIndexedName 2 true buf len).mono id hmax) fun _ => ?_
  refine Safely.ite (fun _ => (safely_decodeIndexedName 4 false buf len).mono id hmax) fun _ => ?_
  exact safely_goaway _ _

/-! ### HEADERS frames -/

/-- The loop over the header fields, as long as it does not run on into the padding. -/
lemma safely_headersLoop {headersLen : ℕ} (hbuf : length ≤ buf.length) (hle : headersLen ≤ length)
    (hlt : length < 2 ^ 64) (fuel o : ℕ) :
    Safely ((o ≤ headersLen ∨ length ≤ o) ∧
        (length ≤ headersLen + 1 ∨ (buf.getD headersLen 0).toNat &&& 0x80 = 0))
      (headersLoop u length headersLen buf fuel o) fun _ => True := by
  induction fuel generalizing o with
  | zero => exact safely_pure trivial
  | succ fuel ih =>
    refine Safely.ite (fun ho => ?_) fun _ => safely_pure trivial
    have hlen : o ≤ headersLen → (2 ^ 64 + headersLen - o) % 2 ^ 64 = headersLen - o := by
      intro h
      rw [Nat.add_sub_assoc h, Nat.add_mod_left, Nat.mod_eq_of_lt (by omega)]
    have hdrop : (buf.drop o).length = buf.length - o := length_drop
    refine ((safely_xDecodeHeader2 _ _).imp ?_).bind ?_
    · rintro ⟨ho', _⟩
      rw [hlen (by omega), ← length_pos_iff, hdrop]
      omega
    · rintro n ⟨hpos, hmax, hpad⟩
      refine (ih (o + n)).imp ?_
      rintro ⟨ho', hpadding⟩
      refine ⟨?_, hpadding⟩
      rw [hlen (by omega)] at hmax hpad
      rcases Nat.lt_or_ge o headersLen with hin | hend
      · exact .inl (by omega)
      · -- the field is the first byte of the padding
        have heq : o = headersLen := by omega
        refine .inr ?_
        rcases hpadding with hone | hbit
        · omega
        · refine absurd ?_ (hpad (by omega))
          rw [headD_eq_head?_getD, head?_drop, heq]
          exact hbit

/-- The handler of HEADERS frames behind the fields for padding and priority. -/
lemma safely_receiveHeadersBody (hbuf : length ≤ buf.length) (hlt : length < 2 ^ 64)
    (padLength o : ℕ) :
    Safely (length < o + padLength ∨ padLength ≤ 1 ∨
        (buf.getD (length - padLength) 0).toNat &&& 0x80 = 0)
      (receiveHeadersBody u length padLength o buf) fun _ => True := by
  refine Safely.check fun hpad => ?_
  refine (safely_headersLoop hbuf (Nat.sub_le _ _) hlt _ o).imp ?_
  intro h
  refine ⟨.inl (by omega), ?_⟩
  rcases h with h | h | h
  · exact absurd h hpad
  · exact .inl (by omega)
  · exact .inr h

section Frames

variable {f : Frame} {length : ℕ} {buf : Bytes}

/-- The payload of a frame is the start of the memory that the handler gets. -/
structure Frame.InMemory (f : Frame) (length : ℕ) (buf : Bytes) : Prop where
  payload : f.payload = buf.take length
  le : length ≤ buf.length
  lt : length < 2 ^ 24

section Memory

variable (h : f.InMemory length buf)

include h

lemma Frame.InMemory.length_payload : f.payload.length = length := by
  rw [h.payload, length_take, Nat.min_eq_left h.le]

lemma Frame.InMemory.ne_nil (hne : f.payload ≠ []) : buf ≠ [] := by
  rintro rfl
  exact hne (by rw [h.payload, take_nil])

lemma Frame.InMemory.length_pos (hne : f.payload ≠ []) : 0 < length := by
  rw [← h.length_payload]
  exact length_pos_iff.mpr hne

/-- The pad length is the first byte. -/
lemma Frame.InMemory.padLength_eq (hne : f.payload ≠ []) {pad : UInt8}
    (hpad : buf.head? = some pad) : f.padLength = pad.toNat := by
  rw [Frame.padLength, headD_eq_head?_getD, h.payload, head?_take,
    if_neg (Nat.ne_of_gt (h.length_pos hne)), hpad, Option.getD_some]

lemma Frame.InMemory.getD_payload {i : ℕ} (hi : i < length) :
    f.payload.getD i 0 = buf.getD i 0 := by
  rw [h.payload, getD_eq_getElem?_getD, getD_eq_getElem?_getD, getElem?_take_of_lt hi]

/-- The handler of HEADERS frames. -/
lemma safely_xReceiveHeaders2 :
    Safely f.SafeHeaders (xReceiveHeaders2 u f.flags length f.streamId buf) fun _ => True := by
  have hlt : length < 2 ^ 64 := lt_trans h.lt (by decide)
  refine Safely.check fun _ => ?_
  refine Safely.check fun hstream => ?_
  rw [not_not] at hstream
  refine Safely.ite (fun hflag => ?_) fun _ => ?_
  · have hsafe : f.SafeHeaders → _ := fun hsafe => hsafe hstream hflag
    refine ((safely_readByte buf).imp (fun hA => h.ne_nil (hsafe hA).1)).bind ?_
    intro pad hpad
    refine (safely_receiveHeadersBody h.le hlt pad.toNat _).imp ?_
    intro hA
    obtain ⟨hne, hpadding⟩ := hsafe hA
    rw [h.padLength_eq hne hpad, h.length_payload] at hpadding
    rcases Nat.lt_or_ge 1 pad.toNat with hone | hone
    · have hpos := h.length_pos hne
      rw [h.getD_payload (by omega)] at hpadding
      exact hpadding
    · exact .inr (.inl hone)
  · exact (safely_receiveHeadersBody h.le hlt 0 _).imp fun _ => .inr (.inl (Nat.zero_le _))

end Memory

/-! ### The other frames -/

/-- The handler of DATA frames behind the padding check. -/
lemma safely_receiveDataBody (streamId padOffset padLength : ℕ)
    (hle : padOffset + (length - (padOffset + padLength)) ≤ buf.length) :
    Safely (streamId = 1) (receiveDataBody length streamId padOffset padLength buf)
      fun _ => True := by
  refine Safely.bind (Q := fun _ => True) ?_ fun _ _ => safely_getEnv.bind fun env _ => ?_
  · refine (safely_modifyEnv (Q := fun _ => True) _ trivial).bind fun _ _ => ?_
    exact Safely.ite (fun _ => safely_modifyEnv _ trivial) fun h => safely_throw h
  · refine Safely.ite (fun _ => ?_) fun _ => safely_pure trivial
    refine ((safely_readBytes _ _).imp (fun _ => ?_)).bind fun _ _ => safely_modifyEnv _ trivial
    rw [length_drop]
    omega

/-- The handler of DATA frames. -/
lemma safely_xReceiveData2 (h : f.InMemory length buf) :
    Safely f.SafeData (xReceiveData2 f.flags length f.streamId buf) fun _ => True := by
  have hle := h.le
  unfold Frame.SafeData
  refine Safely.ite (fun hflag => ?_) fun hflag => ?_
  · rw [if_pos hflag]
    refine ((safely_readByte buf).imp (fun hA => h.ne_nil hA.1)).bind ?_
    intro pad hpad
    refine Safely.check fun hlen => ?_
    refine (safely_receiveDataBody f.streamId 1 pad.toNat (by omega)).imp ?_
    rintro ⟨hne, hstream | hstream⟩
    · exact hstream
    · rw [h.padLength_eq hne hpad, h.length_payload] at hstream
      exact absurd hstream hlen
  · rw [if_neg hflag]
    exact safely_receiveDataBody f.streamId 0 0 (by omega)

lemma safely_growWindow {A : Prop} (w : Window) (value : ℕ) :
    Safely A (growWindow w value) fun _ => True := by
  refine safely_getEnv.bind fun env _ => ?_
  refine (safely_modifyEnv (Q := fun _ => True) _ trivial).bind fun _ _ => ?_
  exact Safely.check fun _ => safely_pure trivial

lemma safely_xReceiveWindowUpdate2 {A : Prop} (hbuf : length ≤ buf.length) (streamId : ℕ) :
    Safely A (xReceiveWindowUpdate2 length streamId buf) fun _ => True := by
  refine Safely.check fun hlen => ?_
  refine ((safely_readBytes buf 4).imp (fun _ => by omega)).bind fun bytes _ => ?_
  refine Safely.check fun _ => ?_
  refine Safely.ite (fun _ => safely_growWindow _ _) fun _ => ?_
  exact Safely.ite (fun _ => safely_growWindow _ _) fun _ => safely_goaway _ _

/-- Every handler accepts its frame or answers it with a GOAWAY frame, if the frame is harmless. -/
theorem safely_dispatch (h : f.InMemory length buf) :
    Safely f.Safe (dispatch u f.type f.flags length f.streamId buf) fun _ => True := by
  refine Safely.ite (fun htype => ?_) fun _ => ?_
  · refine ((safely_xReceiveData2 h).imp (fun hA => hA.1 htype)).bind fun _ _ => ?_
    exact Safely.ite (fun _ => safely_modifyEnv _ trivial) fun _ => safely_pure trivial
  refine Safely.ite (fun htype => ?_) fun _ => ?_
  · exact (safely_xReceiveHeaders2 h).imp (fun hA => hA.2 htype)
  refine Safely.ite (fun _ => ?_) fun _ => ?_
  · exact Safely.check fun _ => Safely.check fun _ => safely_pure trivial
  refine Safely.ite (fun _ => ?_) fun _ => ?_
  · exact Safely.check fun _ => Safely.check fun _ => Safely.check fun _ => safely_pure trivial
  refine Safely.ite (fun _ => ?_) fun _ => ?_
  · exact Safely.check fun _ => Safely.check fun _ => safely_pure trivial
  refine Safely.ite (fun _ => ?_) fun _ => ?_
  · exact Safely.check fun _ => Safely.check fun _ => safely_pure trivial
  exact Safely.ite (fun _ => safely_xReceiveWindowUpdate2 h.le _) fun _ => safely_goaway _ _

end Frames

/-! ### Runs -/

lemma beNat_lt : beNat bytes < 256 ^ bytes.length := by
  suffices h : ∀ n, bytes.foldl (fun n b => 256 * n + b.toNat) n < (n + 1) * 256 ^ bytes.length by
    have hzero := h 0
    rw [Nat.one_mul] at hzero
    exact hzero
  induction bytes with
  | nil => exact fun n => by simp
  | cons b bytes ih =>
    intro n
    have hb : b.toNat < 256 := b.toNat_lt
    calc (b :: bytes).foldl (fun n b => 256 * n + b.toNat) n
        < (256 * n + b.toNat + 1) * 256 ^ bytes.length := ih _
      _ ≤ ((n + 1) * 256) * 256 ^ bytes.length := Nat.mul_le_mul_right _ (by omega)
      _ = (n + 1) * 256 ^ (b :: bytes).length := by
        rw [length_cons, Nat.pow_succ', Nat.mul_assoc]

lemma frameLength_lt : frameLength bytes < 2 ^ 24 := by
  have hlen : (bytes.take 3).length ≤ 3 := length_take_le 3 bytes
  calc frameLength bytes < 256 ^ (bytes.take 3).length := beNat_lt _
    _ ≤ 256 ^ 3 := Nat.pow_le_pow_right (by decide) hlen
    _ = 2 ^ 24 := by decide

/-- The payload of a complete frame is in memory. -/
lemma Complete.inMemory (h : Complete c) :
    (frameOf c.env.http2Input.bytes).InMemory (frameLength c.env.http2Input.bytes)
      (c.env.http2Input.bytes.drop 9) := by
  refine ⟨rfl, ?_, frameLength_lt _⟩
  have hlen := h.len_le
  rw [h.len_eq] at hlen
  rw [length_drop]
  omega

/-- Handling a frame is quiet, or it is refused with a GOAWAY frame. -/
lemma handleFrame_safe (hc : Complete c) :
    Wp (handleFrame u) c (fun _ c' => Quiet c c') fun why c' => Refused c why c' := by
  rw [wp_handleFrame]
  have hreceive : Quiet c (c.receive (frameOf c.env.http2Input.bytes)) :=
    ⟨fun _ h => mem_append_left _ h, rfl⟩
  refine ((safely_dispatch hc.inMemory _).and
    (sameInput_stepLogic.frameLogic.dispatch u _ _ _ _ _ _)).mono ?_ ?_
  · rintro _ c' ⟨⟨_, hquiet⟩, _⟩
    exact hreceive.trans (hquiet.trans ⟨fun _ h => mem_append_left _ h, rfl⟩)
  · rintro why c' ⟨hrefused, hsame⟩
    have hlog := hsame.2.log
    -- the frame is in the log, so that it is harmless if the whole log is
    refine ⟨fun e he => hlog e (hreceive.log e he), fun hsafe => ?_⟩
    have hframe : (frameOf c.env.http2Input.bytes).Safe :=
      hsafe (.received _) (hlog _ (mem_append_right _ mem_cons_self))
    exact (hrefused hframe).goaway hsafe

/-- A call of `Xhttp2_dns_input1` is quiet, overflows the input block, or sends a GOAWAY frame. -/
lemma xHttp2DnsInput1_safe (hc : Reader c) :
    Wp (xHttp2DnsInput1 u) c (fun _ c' => Quiet c c')
      fun why c' => why = .overflow ∨ Refused c why c' := by
  have hquiet {c₁ : Conn} {x : Bytes} (hread : ReadMore c c₁ x) : Quiet c c₁ :=
    ⟨fun _ h => hread.log ▸ h, hread.outbuf⟩
  refine wp_xHttp2DnsInput1 u hc (fun _ _ _ _ => .inl rfl) (fun _ _ hread _ => hquiet hread) ?_
  exact fun c₁ x hread hcomplete => (handleFrame_safe hcomplete).mono
    (fun _ _ h => (hquiet hread).trans h) fun _ _ h => .inr ((hquiet hread).refused h)

/-- A run is quiet until it is stopped. -/
lemma Reached.quiet {c₀ : Conn} (h₀ : Reader c₀) {o : Outcome} (h : Reached u c₀ o c) :
    (∀ why, o ≠ .stopped why) → Quiet c₀ c := by
  induction h with
  | start => exact fun _ => Quiet.refl c₀
  | arrive chunk _ _ ih => exact fun h => (ih h).trans ⟨fun _ h => h, rfl⟩
  | call hc _ _ hcall ih =>
    exact fun h => (ih h).trans ((xHttp2DnsInput1_safe (hc.reader h₀ rfl)).of_ok hcall)
  | stop => exact fun h => absurd rfl (h _)
  | reply _ _ ih =>
    exact fun _ => (ih nofun).trans ⟨fun _ h => mem_append_left _ h, rfl⟩

/-- A run that is stopped has sent a GOAWAY frame if everything that happened is harmless. -/
lemma Reached.refused {c₀ : Conn} (h₀ : Reader c₀)
    (hmax : c₀.env.http2InputMax ≤ c₀.env.http2Input.size) (h : Reached u c₀ (.stopped why) c)
    (hsafe : ∀ e ∈ c.log, e.Safe) :
    why = .failed ∧ ∃ code reason, c.outbuf = c₀.outbuf ++ goawayFrame code reason := by
  have hwithin := h.within h₀ hmax fun e he => (hsafe e he).fits
  cases h with
  | stop hc _ _ hcall =>
    have hquiet := hc.quiet h₀ nofun
    rcases (xHttp2DnsInput1_safe (hc.reader h₀ rfl)).of_error hcall with hover | hrefused
    · exact absurd (congrArg Outcome.stopped hover) hwithin.2
    · exact (hquiet.refused hrefused).goaway hsafe

/-- The results of a session that leave the program running: all input has been consumed, or the
response has been passed on, both without sending anything, or `http2_dns_input` has returned `-1`
after sending a GOAWAY frame. -/
inductive Answered (c₀ : Conn) : Outcome → Conn → Prop where
  | more {c : Conn} : c.inbuf = [] → c.outbuf = c₀.outbuf → Answered c₀ .more c
  | replied {c : Conn} : c.outbuf = c₀.outbuf → Answered c₀ .replied c
  | refused {c : Conn} (code : ErrorCode) (reason : String) :
    c.outbuf = c₀.outbuf ++ goawayFrame code reason → Answered c₀ (.stopped .failed) c

/-- In every session after `http2_dns` in which the frames received and the calls of
`Xdecode_huffman2` and `add_dyn` are harmless, the input is consumed or answered with a GOAWAY
frame, and `fatal` is not called. -/
theorem session_answered (status : ℕ) (hostnamePort path data : Bytes)
    (chunks : List Bytes)
    (hsafe : ∀ e ∈ (session u (http2Dns status hostnamePort path data) chunks).2.log, e.Safe) :
    Answered (http2Dns status hostnamePort path data)
      (session u (http2Dns status hostnamePort path data) chunks).1
      (session u (http2Dns status hostnamePort path data) chunks).2 := by
  have h₀ := between_http2Dns status hostnamePort path data
  have hmax := inputMax_http2Dns status hostnamePort path data
  generalize http2Dns status hostnamePort path data = c₀ at *
  have hrun := session_reached (u := u) h₀.reader h₀.done chunks
  have hmore := h₀.session u chunks
  generalize session u c₀ chunks = r at *
  obtain ⟨o, c⟩ := r
  cases o with
  | more => exact .more (hmore rfl).inbuf (hrun.quiet h₀.reader nofun).outbuf
  | replied => exact .replied (hrun.quiet h₀.reader nofun).outbuf
  | stopped why =>
    obtain ⟨rfl, code, reason, hout⟩ := hrun.refused h₀.reader hmax hsafe
    exact .refused code reason hout

/-- The settings of the server, and a frame of an unknown type. -/
def settingsUnknown : List Bytes :=
  [[0, 0, 6, 4, 0, 0, 0, 0, 0, 0, 3, 0], [0, 0, 100, 0, 0, 0, 9, 0, 0, 0, 0, 0]]

/-- The unknown frame is answered with a GOAWAY frame. -/
theorem session_answered_unknown :
    (∀ e ∈ (session .x86 plainConn settingsUnknown).2.log, e.Safe) ∧
    Answered plainConn (session .x86 plainConn settingsUnknown).1
      (session .x86 plainConn settingsUnknown).2 := by
  have hsafe : ∀ e ∈ (session .x86 plainConn settingsUnknown).2.log, e.Safe := by
    decide +kernel
  exact ⟨hsafe, session_answered 0 [] [] [] _ hsafe⟩

/-- An empty DATA frame on stream 0, nine zero bytes, makes the program exit. -/
theorem session_fatal :
    (session .x86 plainConn [[0, 0, 0, 0, 0, 0, 0, 0, 0]]).1 = .stopped .fatal := by
  decide +kernel

end AtlasProbe.Http2
