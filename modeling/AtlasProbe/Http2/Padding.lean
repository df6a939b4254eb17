import AtlasProbe.Http2.DynamicTable

/-!
# The padding of HEADERS frames

A decoder that is told the length of a header block does not look at the bytes behind it, so the
same block is decoded in the same way wherever it stands in memory (`xDecodeHeader2_append`).  The
loop of `Xreceive_headers2`, however, goes on to the end of the frame instead of the end of the
block: without padding the two are the same (`xReceiveHeaders2_unpadded`), and with padding another
header field is decoded behind the block (`xReceiveHeaders2_padded`).
-/

namespace AtlasProbe.Http2

open List

variable (u : Platform)

/-! ### What stands behind the block -/

variable {a block tail prio buf : Bytes} {n k o : ℕ} {flags : UInt8}

/-- A string that lies within `a`. -/
lemma readBytes_append (h : n ≤ a.length - k) (r : Bytes) :
    readBytes ((a ++ r).drop k) n = readBytes (a.drop k) n := by
  have hlong : n ≤ ((a ++ r).drop k).length := by
    rw [length_drop, length_append]
    omega
  have hshort : n ≤ (a.drop k).length := by rwa [length_drop]
  unfold readBytes
  rw [if_pos hlong, if_pos hshort]
  by_cases hk : k ≤ a.length
  · rw [drop_append_of_le_length hk, take_append_of_le_length hshort]
  · obtain rfl : n = 0 := by omega
    rw [take_zero, take_zero]

lemma decodeIntLoop_append (maxValue : ℕ) (a r : Bytes) :
    ∀ o v, decodeIntLoop u (o + a.length) maxValue (a ++ r) o v =
      decodeIntLoop u (o + a.length) maxValue a o v := by
  induction a with
  | nil =>
    intro o v
    cases r with
    | nil => rfl
    | cons b r =>
      have hend : ¬ o < o + ([] : Bytes).length := by simp
      rw [nil_append, decodeIntLoop, decodeIntLoop, if_neg hend, if_neg hend]
  | cons b a ih =>
    intro o v
    have hlen : o + (b :: a).length = o + 1 + a.length := by
      rw [length_cons]
      omega
    rw [cons_append, hlen, decodeIntLoop, decodeIntLoop]
    simp only [ih]

lemma xDecodeInt2_append (ha : a ≠ []) (r : Bytes) (prefixLen : ℕ) :
    xDecodeInt2 u (a ++ r) a.length prefixLen = xDecodeInt2 u a a.length prefixLen := by
  cases a with
  | nil => exact absurd rfl ha
  | cons b a =>
    have hloop := decodeIntLoop_append u (2 ^ (8 - prefixLen) - 1) a r 1 0
    rw [Nat.add_comm] at hloop
    unfold xDecodeInt2
    simp only [cons_append, readByte, drop_succ_cons, drop_zero, length_cons, hloop]

lemma huffmanString_append (h : n ≤ a.length - k) (r : Bytes) (cap : ℕ) :
    huffmanString u ((a ++ r).drop k) n cap = huffmanString u (a.drop k) n cap := by
  unfold huffmanString
  rw [readBytes_append h]

lemma decodeString_append (a r : Bytes) (o cap : ℕ) (isName : Bool) :
    decodeString u (a ++ r) a.length o cap isName = decodeString u a a.length o cap isName := by
  unfold decodeString
  by_cases ho : a.length ≤ o
  · rw [if_pos ho, if_pos ho]
  · rw [if_neg ho, if_neg ho]
    have hle : o ≤ a.length := by omega
    have hne : a.drop o ≠ [] := by
      rw [← length_pos_iff, length_drop]
      omega
    have hlen : a.length - o = (a.drop o).length := length_drop.symm
    have hbyte : readByte (a.drop o ++ r) = readByte (a.drop o) := by
      obtain ⟨b, l, hcons⟩ := exists_cons_of_ne_nil hne
      rw [hcons]
      rfl
    rw [drop_append_of_le_length hle, hbyte, hlen, xDecodeInt2_append u hne]
    congr 1
    funext byte
    congr 1
    funext ⟨tmplen, value⟩
    dsimp only
    by_cases hvalue : a.length - (o + tmplen) < value
    · rw [if_pos hvalue, if_pos hvalue]
    · have hfit : value ≤ a.length - (o + tmplen) := not_lt.mp hvalue
      rw [if_neg hvalue, if_neg hvalue, huffmanString_append u hfit, readBytes_append hfit]

/-- A header field is decoded from the bytes of the block only. -/
theorem xDecodeHeader2_append (ha : a ≠ []) (r : Bytes) :
    xDecodeHeader2 u (a ++ r) a.length = xDecodeHeader2 u a a.length := by
  have hbyte : readByte (a ++ r) = readByte a := by
    obtain ⟨b, l, rfl⟩ := exists_cons_of_ne_nil ha
    rfl
  unfold xDecodeHeader2 decodeIndexed decodeNewName decodeIndexedName
  simp only [hbyte, xDecodeInt2_append u ha, decodeString_append]

/-! ### The loop over the header fields -/

/-- Decode the header fields of a block, cut off after `fuel` rounds. -/
def decodeBlock : ℕ → Bytes → Handler Unit
  | 0, _ => pure ()
  | fuel + 1, block =>
    if block = [] then pure ()
    else do
      let n ← xDecodeHeader2 u block block.length
      decodeBlock fuel (block.drop n)

/-- The remaining length that the loop passes on while it is within the block. -/
lemma remaining_eq (h : o + n < 2 ^ 64) : (2 ^ 64 + (o + n) - o) % 2 ^ 64 = n := by
  rw [show 2 ^ 64 + (o + n) - o = n + 2 ^ 64 by omega, Nat.add_mod_right,
    Nat.mod_eq_of_lt (by omega)]

/-- An accepted field takes at least one byte and no more than there are. -/
lemma xDecodeHeader2_le (hne : block ≠ []) {c c' : Conn}
    (h : xDecodeHeader2 u block block.length c = .ok n c') : 1 ≤ n ∧ n ≤ block.length := by
  have hpos := length_pos_iff.mpr hne
  obtain ⟨⟨hone, hmax, -⟩, -⟩ := (safely_xDecodeHeader2 block block.length c).of_ok h
  omega

/-- The loop decodes the fields of the block, and then goes on behind it. -/
lemma headersLoop_eq (length : ℕ) (fuel more : ℕ) :
    ∀ {o : ℕ} {block : Bytes} (c : Conn), buf.drop o = block ++ tail →
      o + block.length ≤ length → o + block.length < 2 ^ 64 → block.length ≤ fuel →
      ∃ fuel', more ≤ fuel' ∧ headersLoop u length (o + block.length) buf (fuel + more) o c =
        (decodeBlock u fuel block >>= fun _ =>
          headersLoop u length (o + block.length) buf fuel' (o + block.length)) c := by
  induction fuel with
  | zero =>
    intro o block c hbuf hle hlt hfuel
    obtain rfl : block = [] := length_eq_zero_iff.mp (by omega)
    exact ⟨0 + more, by omega, rfl⟩
  | succ fuel ih =>
    intro o block c hbuf hle hlt hfuel
    rw [decodeBlock]
    by_cases hne : block = []
    · subst hne
      exact ⟨fuel + 1 + more, by omega, rfl⟩
    · have hpos := length_pos_iff.mpr hne
      rw [if_neg hne, Nat.add_right_comm, headersLoop, if_pos (by omega), hbuf, remaining_eq hlt,
        xDecodeHeader2_append u hne]
      cases hfield : xDecodeHeader2 u block block.length c with
      | error why c₁ =>
        refine ⟨more, le_rfl, ?_⟩
        rw [bind_assoc, bind_apply_error hfield, bind_apply_error hfield]
      | ok n c₁ =>
        obtain ⟨hone, hmax⟩ := xDecodeHeader2_le u hne hfield
        have hdrop : buf.drop (o + n) = block.drop n ++ tail := by
          rw [← drop_drop, hbuf, drop_append_of_le_length hmax]
        have hlength := length_drop (i := n) (l := block)
        have hend : o + n + (block.drop n).length = o + block.length := by omega
        obtain ⟨fuel', hmore, hloop⟩ := ih c₁ hdrop (by omega) (by omega) (by omega)
        rw [hend] at hloop
        refine ⟨fuel', hmore, ?_⟩
        rw [bind_assoc, bind_apply_ok hfield, bind_apply_ok hfield, hloop]

/-- Without padding the loop ends behind the block. -/
lemma headersLoop_eq_decodeBlock (more : ℕ) (hbuf : buf.drop o = block ++ tail)
    (hlt : o + block.length < 2 ^ 64) :
    headersLoop u (o + block.length) (o + block.length) buf (block.length + more) o =
      decodeBlock u block.length block := by
  funext c
  obtain ⟨fuel, -, hloop⟩ :=
    headersLoop_eq u (o + block.length) block.length more c hbuf le_rfl hlt le_rfl
  have hend : headersLoop u (o + block.length) (o + block.length) buf fuel (o + block.length) =
      pure () := by
    cases fuel with
    | zero => rfl
    | succ fuel => exact if_neg (lt_irrefl _)
  rw [hloop, hend, bind_pure_unit]

/-- The loop never takes back a report. -/
lemma wp_headersLoop (length headersLen : ℕ) (buf : Bytes) (fuel : ℕ) : ∀ o c,
    Wp (headersLoop u length headersLen buf fuel o) c
      (fun _ c' => (reports c.log).length ≤ (reports c'.log).length) fun _ _ => True := by
  induction fuel with
  | zero => exact fun o c => le_refl _
  | succ fuel ih =>
    intro o c
    refine wp_ite (fun _ => ?_) fun _ => le_refl _
    cases hbuf : buf.drop o with
    | nil => trivial
    | cons byte rest =>
      refine (wp_xDecodeHeader2 u byte rest _ c).bind fun n c₁ hgrows => ?_
      obtain ⟨key, value, hreports, -⟩ := hgrows
      refine (ih (o + n) c₁).mono (fun _ c' hle => ?_) fun _ _ _ => trivial
      rw [hreports, length_append] at hle
      omega

/-- Behind the block the loop decodes another field, or refuses the frame. -/
lemma headersLoop_of_lt {length headersLen : ℕ} (hlt : headersLen < length) (buf : Bytes)
    {fuel : ℕ} (hfuel : 0 < fuel) (c : Conn) :
    Wp (headersLoop u length headersLen buf fuel headersLen) c
      (fun _ c' => (reports c.log).length < (reports c'.log).length) fun _ _ => True := by
  obtain ⟨fuel, rfl⟩ := Nat.exists_eq_add_of_le' hfuel
  rw [headersLoop, if_pos hlt]
  cases hbuf : buf.drop headersLen with
  | nil => trivial
  | cons byte rest =>
    refine (wp_xDecodeHeader2 u byte rest _ c).bind fun n c₁ hgrows => ?_
    obtain ⟨key, value, hreports, -⟩ := hgrows
    refine (wp_headersLoop u _ _ _ fuel _ c₁).mono (fun _ c' hle => ?_) fun _ _ _ => trivial
    rw [hreports, length_append, length_singleton] at hle
    omega

/-! ### Frames with and without padding -/

/-- The bytes in front of the header block that a flag asks for. -/
def prioLength (flags : UInt8) : ℕ := if priority flags then 5 else 0

/-- The payload of a HEADERS frame with padding. -/
def paddedPayload (prio block padding : Bytes) : Bytes :=
  UInt8.ofNat padding.length :: (prio ++ block ++ padding)

/-- Without padding the handler decodes the block, whatever stands in memory behind it. -/
lemma xReceiveHeaders2_unpadded (hflags : padded flags = false)
    (hprio : prio.length = prioLength flags) (hlt : (prio ++ block).length < 2 ^ 24)
    (rest : Bytes) :
    xReceiveHeaders2 u flags (prio ++ block).length 1 (prio ++ block ++ rest) =
      decodeBlock u block.length block := by
  have hdrop : (prio ++ block ++ rest).drop prio.length = block ++ rest := by
    rw [append_assoc, drop_left]
  rw [length_append] at hlt
  unfold xReceiveHeaders2 receiveHeadersBody
  rw [hflags]
  change (if _ < prioLength flags + 0 then _ else headersLoop u _ _ _ _ (prioLength flags)) = _
  have hloop := headersLoop_eq_decodeBlock u prio.length hdrop (by omega)
  rw [Nat.add_comm block.length] at hloop
  rw [← hprio, length_append, if_neg (by omega)]
  exact hloop

/-- With padding the loop runs on behind the block. -/
lemma xReceiveHeaders2_padded (hflags : padded flags = true) {padding : Bytes}
    (hprio : prio.length = prioLength flags) (hpad : padding.length < 256) (rest : Bytes) :
    xReceiveHeaders2 u flags (paddedPayload prio block padding).length 1
        (paddedPayload prio block padding ++ rest) =
      headersLoop u (1 + prio.length + block.length + padding.length)
        (1 + prio.length + block.length) (paddedPayload prio block padding ++ rest)
        (block.length + (1 + prio.length + padding.length)) (1 + prio.length) := by
  have hlen : (paddedPayload prio block padding).length =
      1 + prio.length + block.length + padding.length := by
    rw [paddedPayload, length_cons, length_append, length_append]
    omega
  have hbyte : (UInt8.ofNat padding.length).toNat = padding.length := UInt8.toNat_ofNat_of_lt' hpad
  unfold xReceiveHeaders2 receiveHeadersBody
  rw [hflags, hlen]
  change (if _ < 1 + prioLength flags + (UInt8.ofNat padding.length).toNat then _ else
    headersLoop u _ (_ - (UInt8.ofNat padding.length).toNat) _ _ (1 + prioLength flags)) = _
  rw [← hprio, hbyte, if_neg (by omega), Nat.add_sub_cancel]
  congr 1
  omega

/-- The memory behind the fields in front of a padded block. -/
lemma drop_paddedPayload (prio block padding rest : Bytes) :
    (paddedPayload prio block padding ++ rest).drop (1 + prio.length) =
      block ++ (padding ++ rest) := by
  rw [paddedPayload, cons_append, Nat.add_comm, drop_succ_cons, append_assoc, append_assoc,
    drop_left]

/-- With the flag for padding and no padding the handler decodes the block as well. -/
lemma xReceiveHeaders2_noPadding (hflags : padded flags = true)
    (hprio : prio.length = prioLength flags) (hlt : (paddedPayload prio block []).length < 2 ^ 24)
    (rest : Bytes) :
    xReceiveHeaders2 u flags (paddedPayload prio block []).length 1
      (paddedPayload prio block [] ++ rest) = decodeBlock u block.length block := by
  rw [xReceiveHeaders2_padded u hflags hprio (by decide), length_nil, Nat.add_zero]
  refine headersLoop_eq_decodeBlock u _ (drop_paddedPayload prio block [] rest) ?_
  rw [paddedPayload, length_cons, append_nil, length_append] at hlt
  omega

/-- The padded frame is accepted as well and has the same effect: the same headers are reported, and
status, content type and dynamic table are the same. -/
def IgnoresPadding (flags : UInt8) (prio block padding rest : Bytes) (c c₁ : Conn) : Prop :=
  ∃ c₂, xReceiveHeaders2 u flags (paddedPayload prio block padding).length 1
      (paddedPayload prio block padding ++ rest) c = .ok () c₂ ∧
    reports c₂.log = reports c₁.log ∧ c₂.env.status = c₁.env.status ∧
    c₂.env.typeHtml = c₁.env.typeHtml ∧ c₂.env.typeDns = c₁.env.typeDns ∧
    c₂.env.http2Dyn = c₁.env.http2Dyn

/-- A block that is accepted without padding is accepted in the same way with padding if and only if
there are no bytes of padding. -/
theorem ignoresPadding_iff (c c₁ : Conn) (flags flags' : UInt8)
    (prio prio' block padding rest rest' : Bytes) (hflags : padded flags = false)
    (hflags' : padded flags' = true) (hprio : prio.length = prioLength flags)
    (hprio' : prio'.length = prioLength flags') (hpad : padding.length < 256)
    (hlt : (prio ++ block).length < 2 ^ 24)
    (hlt' : (paddedPayload prio' block padding).length < 2 ^ 24)
    (haccepted : xReceiveHeaders2 u flags (prio ++ block).length 1 (prio ++ block ++ rest) c =
      .ok () c₁) :
    IgnoresPadding u flags' prio' block padding rest' c c₁ ↔ padding = [] := by
  rw [xReceiveHeaders2_unpadded u hflags hprio hlt] at haccepted
  have hdrop := drop_paddedPayload prio' block padding rest'
  have hsum : 1 + prio'.length + block.length + padding.length < 2 ^ 24 := by
    rw [paddedPayload, length_cons, length_append, length_append] at hlt'
    omega
  constructor
  · rintro ⟨c₂, hpadded, hreports, -⟩
    by_contra hne
    have hpos := length_pos_iff.mpr hne
    obtain ⟨fuel, hfuel, hloop⟩ := headersLoop_eq u
      (1 + prio'.length + block.length + padding.length) block.length
      (1 + prio'.length + padding.length) c hdrop (by omega) (by omega) le_rfl
    rw [xReceiveHeaders2_padded u hflags' hprio' hpad, hloop, bind_apply_ok haccepted] at hpadded
    have hmore := (headersLoop_of_lt u (by omega) _ (by omega) c₁).of_ok hpadded
    rw [hreports] at hmore
    exact lt_irrefl _ hmore
  · rintro rfl
    refine ⟨c₁, ?_, rfl, rfl, rfl, rfl, rfl⟩
    rw [xReceiveHeaders2_noPadding u hflags' hprio' hlt']
    exact haccepted

/-- A frame with the flag for padding and no padding. -/
theorem ignoresPadding_empty :
    ∃ c₁, IgnoresPadding .x86 0x08 [] [0x88] [] [] plainConn c₁ :=
  ⟨_, (ignoresPadding_iff .x86 plainConn _ 0x00 0x08 [] [] [0x88] [] [] []
    (by decide) (by decide) (by decide) (by decide) (by decide) (by decide) (by decide) rfl).mpr
    rfl⟩

/-- The block `:status 200` is accepted in a frame of its own.  With a byte of padding that is zero
the frame is refused, and the padding byte `0x82` is decoded as the header `:method GET`. -/
theorem padding_decoded :
    ∃ c₁, xReceiveHeaders2 .x86 0x00 1 1 [0x88] plainConn = .ok () c₁ ∧
      ¬ IgnoresPadding .x86 0x08 [] [0x88] [0x00] [] plainConn c₁ ∧
      ∃ c₂, xReceiveHeaders2 .x86 0x08 3 1 [0x01, 0x88, 0x82] plainConn = .ok () c₂ ∧
        reports c₂.log = [(ascii ":status", ascii "200"), (ascii ":method", ascii "GET")] := by
  refine ⟨_, rfl, ?_, ⟨_, rfl, by decide +kernel⟩⟩
  rintro ⟨c₂, hpadded, -⟩
  cases hpadded

end AtlasProbe.Http2
