import AtlasProbe.Http2.HuffmanRound

/-!
# What the Huffman decoder decodes

`enc` is the encoding the decoder has to invert: the code words of a string, padded with fewer than
eight one-bits to whole bytes.  The loop of `Xdecode_huffman2` terminates on every input, whatever
lies behind its tables (`huffmanLoop_terminates`), and inverts `enc` on every input on which it does
not read behind `huffman_decode_fffffe` (`huffmanLoop_exact`).
-/

namespace AtlasProbe.Http2

open List
open BitBuf (start rem_start)

/-! ### The encoding -/

/-- The Huffman encoding of a string, padded with one-bits to whole bytes. -/
def enc (s : Bytes) : Bytes :=
  let n := (huffmanCode.encode s).length
  packBits ((n + 7) / 8) (huffmanCode.encode s ++ List.replicate ((8 - n % 8) % 8) true)

/-- A byte string is the encoding of `s` if its bits are those of the code words followed by fewer
than eight ones. -/
lemma eq_enc_iff (b s : Bytes) :
    b = enc s ↔ ∃ k < 8, byteBits b = huffmanCode.encode s ++ List.replicate k true := by
  have hpack : byteBits (enc s) = huffmanCode.encode s ++
      List.replicate ((8 - (huffmanCode.encode s).length % 8) % 8) true := by
    refine byteBits_packBits _ _ ?_
    rw [length_append, length_replicate]
    omega
  constructor
  · rintro rfl
    exact ⟨_, Nat.mod_lt _ (by decide), hpack⟩
  · rintro ⟨k, hk, hb⟩
    have hlen := congrArg List.length hb
    rw [length_byteBits, length_append, length_replicate] at hlen
    have hpad : k = (8 - (huffmanCode.encode s).length % 8) % 8 := by omega
    refine byteBits_injective ?_
    rw [hb, hpack, hpad]

/-! ### Termination -/

section Loop

variable {T : HuffmanTables} (hT : T.Ok) (past : ℕ → HuffmanDecode) (cap : ℕ) {u : List Bool}
  {s : Bytes} (out : Bytes) {r : BitBuf} {fuel : ℕ}

include hT

/-- A round that recognises a symbol consumes bits. -/
lemma huffmanRound_emit {rest : BitBuf} {value : ℕ} (hr : r.bitslen ≤ 15)
    (h : huffmanRound T past r = .emit value rest) :
    rest.rem.length < r.rem.length ∧ rest.bitslen ≤ 15 := by
  have hround := huffmanRound_ok hT past hr
  rw [h] at hround
  rcases hround with ⟨c, _, hrem, hrest⟩ | ⟨t, n, rest', ht, hrem, _, hdrop, hrest, hstep⟩
  · refine ⟨?_, hrest⟩
    have hcode := bits_mem_range _ (encodeRow_mem c)
    rw [hrem, length_append, length_code]
    omega
  · split at hstep
    · obtain ⟨_, rfl⟩ := HuffmanStep.emit.inj hstep
      refine ⟨?_, hrest⟩
      rw [hrem, hdrop, length_append, length_drop, length_natBits]
      omega
    · exact absurd hstep (by simp)

/-- The loop terminates: enough fuel gives a result that more fuel does not change. -/
theorem huffmanLoop_terminates (hr : r.bitslen ≤ 15) (hlen : r.rem.length < fuel) :
    ∃ res, ∀ k, huffmanLoop T past cap (fuel + k) r out = some res := by
  induction fuel generalizing r out with
  | zero => omega
  | succ fuel ih =>
    simp only [Nat.succ_add, huffmanLoop]
    cases hround : huffmanRound T past r with
    | finish => exact ⟨_, fun _ => rfl⟩
    | goaway reason => exact ⟨_, fun _ => rfl⟩
    | emit value rest =>
      by_cases hcap : cap ≤ out.length
      · exact ⟨_, fun _ => if_pos hcap⟩
      · obtain ⟨hlt, hrest⟩ := huffmanRound_emit hT past hr hround
        obtain ⟨res, hres⟩ := ih (out ++ [UInt8.ofNat value]) hrest (by omega)
        exact ⟨res, fun k => by rw [← hres k]; exact if_neg hcap⟩

/-! ### Exactness -/

omit hT in
/-- The decoder gets to read the table `huffman_decode_fffffe` with fewer than four bits, with room
for the symbol that it finds. -/
def ReadsPast (cap : ℕ) (u : List Bool) : Prop :=
  ∃ (s : Bytes) (t : List Bool), s.length < cap ∧ t.length < 4 ∧
    u = huffmanCode.encode s ++ (natBits 24 0xfffffe ++ t)

omit hT in
/-- The bits `u` are the code words of `s`, for which there is room, and a padding. -/
def Decodes (cap : ℕ) (u : List Bool) (s : Bytes) : Prop :=
  s.length ≤ cap ∧ ∃ k < 8, u = huffmanCode.encode s ++ List.replicate k true

omit hT in
/-- Without room for a symbol only a padding can be decoded. -/
lemma Decodes.nil_of_zero (h : Decodes 0 u s) : ∃ k < 8, u = List.replicate k true := by
  obtain ⟨hs, k, hk, hu⟩ := h
  rw [eq_nil_of_length_eq_zero (Nat.le_zero.mp hs)] at hu
  exact ⟨k, hk, hu⟩

omit hT in
/-- Behind a code word the rest is decoded with less room. -/
lemma decodes_code_append {cap : ℕ} {c : UInt8} :
    Decodes cap (huffmanCode.code c ++ u) s ↔
      ∃ s', s = c :: s' ∧ 0 < cap ∧ Decodes (cap - 1) u s' := by
  constructor
  · rintro ⟨hs, k, hk, hu⟩
    obtain ⟨s', rfl, hu'⟩ := PrefixCode.encode_eq_code_append (stuck_ones k) hu
    rw [length_cons] at hs
    exact ⟨s', rfl, by omega, by omega, k, hk, hu'⟩
  · rintro ⟨s', rfl, hcap, hs, k, hk, hu⟩
    refine ⟨by rw [length_cons]; omega, k, hk, ?_⟩
    rw [hu, PrefixCode.encode_cons, append_assoc]

omit hT in
/-- Stuck bits that are no padding are not decoded. -/
lemma not_decodes_of_stuck {cap : ℕ} (hu : huffmanCode.Stuck u)
    (hpad : ∀ k < 8, u ≠ List.replicate k true) : ¬ Decodes cap u s := by
  rintro ⟨_, k, hk, h⟩
  exact hpad k hk (hu.eq_of_encode_append h).2

/-- The loop finds what the unread bits encode, unless it reads behind a table. -/
theorem huffmanLoop_exact (hr : r.bitslen ≤ 15) (hlen : r.rem.length < fuel)
    (hpast : ¬ ReadsPast (cap - out.length) r.rem) (o : Bytes) :
    huffmanLoop T past cap fuel r out = some (.done o) ↔
      ∃ s, o = out ++ s ∧ Decodes (cap - out.length) r.rem s := by
  induction fuel generalizing r out with
  | zero => omega
  | succ fuel ih =>
    -- a read behind the table has no room for its symbol, so it cannot do harm
    have hfull : ∀ t : List Bool, t.length < 4 → r.rem = natBits 24 0xfffffe ++ t →
        cap ≤ out.length ∧ ∀ s, ¬ Decodes (cap - out.length) r.rem s := by
      intro t ht hrem
      have hcap : cap ≤ out.length := by
        by_contra hlt
        exact hpast ⟨[], t, by simp only [length_nil]; omega, ht, hrem⟩
      refine ⟨hcap, ?_⟩
      intro s hs
      rw [Nat.sub_eq_zero_of_le hcap] at hs
      obtain ⟨k, hk, hones⟩ := hs.nil_of_zero
      refine ne_padding ?_ k hk hones
      rw [hrem, length_append, length_natBits]
      omega
    have hround := huffmanRound_ok hT past hr
    rw [huffmanLoop]
    cases hstep : huffmanRound T past r with
    | finish =>
      rw [hstep] at hround
      rcases hround with ⟨k, hk, hrem⟩ | ⟨t, n, rest, _, _, _, _, _, h⟩
      · simp only [Option.some.injEq, HuffmanResult.done.injEq]
        constructor
        · rintro rfl
          exact ⟨[], by simp, by simp, k, hk, hrem⟩
        · rintro ⟨s, rfl, _, j, _, hs⟩
          have hstuck : huffmanCode.Stuck r.rem := hrem ▸ stuck_ones k
          simp [(hstuck.eq_of_encode_append hs).1]
      · split at h <;> simp at h
    | goaway reason =>
      rw [hstep] at hround
      simp only [Option.some.injEq, reduceCtorEq, false_iff]
      rintro ⟨s, _, hs⟩
      rcases hround with ⟨hstuck, hpad⟩ | ⟨t, n, rest, ht, hrem, _, _, _, _⟩
      · exact not_decodes_of_stuck hstuck hpad hs
      · exact (hfull t ht hrem).2 s hs
    | emit value rest =>
      rw [hstep] at hround
      rcases hround with ⟨c, rfl, hrem, hrest⟩ | ⟨t, n, rest', ht, hrem, _, _, _, _⟩
      · simp only [UInt8.ofNat_toNat]
        rw [hrem]
        by_cases hcap : cap ≤ out.length
        · rw [if_pos hcap, Nat.sub_eq_zero_of_le hcap]
          simp only [decodes_code_append, Option.some.injEq, reduceCtorEq, false_iff]
          rintro ⟨s, _, s', _, hpos, _⟩
          exact absurd hpos (lt_irrefl 0)
        · rw [if_neg hcap]
          have hout : cap - (out ++ [c]).length = cap - out.length - 1 := by
            rw [length_append, length_singleton]
            omega
          have hlt := (huffmanRound_emit hT past hr hstep).1
          have hpast' : ¬ ReadsPast (cap - (out ++ [c]).length) rest.rem := by
            rintro ⟨s, t, hs, ht, hu⟩
            refine hpast ⟨c :: s, t, by rw [length_cons]; omega, ht, ?_⟩
            rw [hrem, hu, PrefixCode.encode_cons, append_assoc]
          rw [ih (out ++ [c]) hrest (by omega) hpast', hout]
          simp only [decodes_code_append]
          constructor
          · rintro ⟨s, rfl, hs⟩
            exact ⟨c :: s, by simp, s, rfl, by omega, hs⟩
          · rintro ⟨s, rfl, s', rfl, _, hs⟩
            exact ⟨s', by simp, hs⟩
      · obtain ⟨hcap, hnone⟩ := hfull t ht hrem
        simp only [if_pos hcap, Option.some.injEq, reduceCtorEq, false_iff]
        rintro ⟨s, _, hs⟩
        exact hnone s hs

/-- When the decoder reads behind the table and finds the number of bits that are left there, it
takes them for one more symbol; with another number of bits it may refuse the string. -/
lemma huffmanLoop_past {t : List Bool} (ht : t.length < 4) (hr : r.bitslen ≤ 15)
    (hlen : r.rem.length < fuel) (hcap : out.length + s.length < cap)
    (hrem : r.rem = huffmanCode.encode s ++ (natBits 24 0xfffffe ++ t)) :
    ∃ n, huffmanLoop T past cap fuel r out =
        some (.done (out ++ s ++ [UInt8.ofNat (past n).value])) ∨
      (past n).bits ≠ t.length ∧
        ∃ reason, huffmanLoop T past cap fuel r out = some (.goaway reason) := by
  induction s generalizing fuel r out with
  | nil =>
    rw [PrefixCode.encode_nil, nil_append] at hrem
    obtain ⟨t', n, rest, _, hrem', _, hdrop, hrest, hstep⟩ := huffmanRound_past T past hr ht hrem
    rw [hrem, append_cancel_left_eq] at hrem'
    subst hrem'
    rw [hrem, length_append, length_natBits] at hlen
    obtain ⟨fuel, rfl⟩ : ∃ k, fuel = k + 2 := ⟨fuel - 2, by omega⟩
    rw [length_nil, Nat.add_zero] at hcap
    refine ⟨n, ?_⟩
    rw [huffmanLoop, hstep]
    by_cases hbits : (past n).bits ≤ t.length
    · -- too few bits are left for another symbol
      have hshort : rest.rem.length < 4 := by
        rw [hdrop, length_drop]
        omega
      have hround : StepOk rest.rem (huffmanRound T past rest) := by
        refine (huffmanRound_ok hT past hrest).resolve_right ?_
        rintro ⟨t', _, _, _, h, _⟩
        rw [h, length_append, length_natBits] at hshort
        omega
      simp only [if_pos hbits, if_neg (Nat.not_le_of_lt hcap), append_nil]
      rw [huffmanLoop]
      cases hlast : huffmanRound T past rest with
      | finish => exact .inl rfl
      | goaway reason =>
        refine .inr ⟨?_, reason, rfl⟩
        intro hall
        rw [hlast, hdrop, hall, drop_length] at hround
        exact hround.2 0 (by decide) rfl
      | emit value rest' =>
        rw [hlast] at hround
        obtain ⟨c, _, h, _⟩ := hround
        have hcode := bits_mem_range _ (encodeRow_mem c)
        rw [h, length_append, length_code] at hshort
        omega
    · rw [if_neg hbits]
      exact .inr ⟨fun hall => hbits hall.le, _, rfl⟩
  | cons c s ih =>
    rw [PrefixCode.encode_cons, append_assoc] at hrem
    have hstart : huffmanCode.code c <+: r.rem := ⟨_, hrem.symm⟩
    obtain ⟨fuel, rfl⟩ : ∃ k, fuel = k + 1 := ⟨fuel - 1, by omega⟩
    rw [length_cons] at hcap
    -- the code word and `fffffe` together are too long to be read behind the table already
    have hround : StepOk r.rem (huffmanRound T past r) := by
      refine (huffmanRound_ok hT _ hr).resolve_right ?_
      rintro ⟨t', _, _, ht', h, _⟩
      have hlen' := congrArg List.length (hrem.symm.trans h)
      have hcode := bits_mem_range _ (encodeRow_mem c)
      simp only [length_append, length_code] at hlen'
      omega
    rw [huffmanLoop]
    cases hstep : huffmanRound T past r with
    | finish =>
      rw [hstep] at hround
      obtain ⟨k, _, hones⟩ := hround
      exact absurd (hones ▸ hstart) (stuck_ones k c)
    | goaway reason =>
      rw [hstep] at hround
      exact absurd hstart (hround.1 c)
    | emit value rest =>
      have hlt := (huffmanRound_emit hT _ hr hstep).1
      rw [hstep] at hround
      obtain ⟨c', rfl, hrem', hrest⟩ := hround
      obtain ⟨rfl, hu⟩ := PrefixCode.code_append_inj (hrem.symm.trans hrem')
      simp only [UInt8.ofNat_toNat]
      rw [append_cons out c s, if_neg (by omega)]
      exact ih (out ++ [c]) hrest (by omega : _ < fuel)
        (by rw [length_append, length_singleton]; omega) hu.symm

end Loop

/-! ### `Xdecode_huffman2` -/

variable (past : ℕ → HuffmanDecode)

lemma length_rem_start_lt (buf : Bytes) : (start buf).rem.length < 8 * buf.length + 1 := by
  rw [rem_start, length_byteBits]
  omega

/-- Enough rounds for every input. -/
lemma huffmanLoop_isSome (buf : Bytes) (cap : ℕ) :
    (huffmanLoop huffmanTables past cap (8 * buf.length + 1) (start buf) []).isSome := by
  obtain ⟨res, hres⟩ := huffmanLoop_terminates huffmanTables_ok past cap [] (Nat.zero_le _)
    (length_rem_start_lt buf)
  rw [hres 0]
  rfl

/-- `Xdecode_huffman2` on the tables of `init_huffman`, with an output buffer of `cap` bytes. -/
def xDecodeHuffman2 (past : ℕ → HuffmanDecode) (buf : Bytes) (cap : ℕ) : HuffmanResult :=
  (huffmanLoop huffmanTables past cap (8 * buf.length + 1) (start buf) []).get
    (huffmanLoop_isSome past buf cap)

/-- The loop gives the result of `xDecodeHuffman2` after at most one round a bit. -/
lemma huffmanLoop_eq_some (buf : Bytes) (cap : ℕ) {fuel : ℕ} (h : 8 * buf.length < fuel) :
    huffmanLoop huffmanTables past cap fuel (start buf) [] =
      some (xDecodeHuffman2 past buf cap) := by
  obtain ⟨res, hres⟩ := huffmanLoop_terminates huffmanTables_ok past cap [] (Nat.zero_le _)
    (length_rem_start_lt buf)
  obtain ⟨k, rfl⟩ : ∃ k, fuel = 8 * buf.length + 1 + k := ⟨fuel - (8 * buf.length + 1), by omega⟩
  rw [hres k, xDecodeHuffman2, Option.some_get, ← hres 0]

variable {buf : Bytes} {cap : ℕ}

/-- Without a read behind the table, the decoder returns the string that the input encodes. -/
lemma xDecodeHuffman2_eq_done_iff (h : ¬ ReadsPast cap (byteBits buf)) (s : Bytes) :
    xDecodeHuffman2 past buf cap = .done s ↔ s.length ≤ cap ∧ buf = enc s := by
  have hexact := huffmanLoop_exact huffmanTables_ok past cap [] (Nat.zero_le _)
    (length_rem_start_lt buf) h s
  rw [huffmanLoop_eq_some past buf cap (Nat.lt_succ_self _), Option.some.injEq] at hexact
  rw [hexact, eq_enc_iff]
  exact ⟨fun ⟨_, h, h'⟩ => h ▸ h', fun h => ⟨s, rfl, h⟩⟩

/-- The loop only appends to its output. -/
lemma huffmanLoop_length_le {T : HuffmanTables} {fuel : ℕ} {r : BitBuf} {out s : Bytes}
    (h : huffmanLoop T past cap fuel r out = some (.done s)) : out.length ≤ s.length := by
  induction fuel generalizing r out with
  | zero => cases h
  | succ fuel ih =>
    rw [huffmanLoop] at h
    split at h
    · split at h
      · cases h
      · have hle := ih h
        rw [length_append] at hle
        exact le_trans (Nat.le_add_right _ _) hle
    · cases h
      exact le_rfl
    · cases h

/-- Only the empty input is decoded to the empty string. -/
lemma xDecodeHuffman2_ne_done_nil (cap : ℕ) (hbuf : buf ≠ []) :
    xDecodeHuffman2 past buf cap ≠ .done [] := by
  intro h
  have hpos : 0 < buf.length := length_pos_iff.mpr hbuf
  have hloop := huffmanLoop_eq_some past buf cap (Nat.lt_succ_self _)
  rw [h, huffmanLoop] at hloop
  cases hround : huffmanRound huffmanTables past (start buf) with
  | finish =>
    -- there are too many bits for a padding
    have hok := huffmanRound_ok huffmanTables_ok past (r := start buf) (Nat.zero_le _)
    rw [hround, rem_start] at hok
    rcases hok with ⟨k, hk, hones⟩ | ⟨t, n, rest, _, _, _, _, _, hstep⟩
    · exact ne_padding (by rw [length_byteBits]; omega) k hk hones
    · split at hstep <;> cases hstep
  | goaway reason =>
    rw [hround] at hloop
    cases hloop
  | emit value rest =>
    rw [hround] at hloop
    dsimp only at hloop
    split at hloop
    · cases hloop
    · exact absurd (huffmanLoop_length_le _ hloop) (by simp)

/-- The decoder is exact on the input `buf`: it terminates, and whatever lies behind its tables it
returns a non-empty string exactly when the string fits the output buffer and `buf` encodes it. -/
def DecodesExactly (buf : Bytes) (cap : ℕ) : Prop :=
  ∀ past : ℕ → HuffmanDecode,
    (∀ fuel, 8 * buf.length < fuel → huffmanLoop huffmanTables past cap fuel (start buf) [] =
      some (xDecodeHuffman2 past buf cap)) ∧
    ∀ s, s ≠ [] → (xDecodeHuffman2 past buf cap = .done s ↔ s.length ≤ cap ∧ buf = enc s)

/-- A read behind the table makes the decoder return a string that the input does not encode. -/
lemma not_decodesExactly (h : ReadsPast cap (byteBits buf)) : ¬ DecodesExactly buf cap := by
  obtain ⟨s, t, hs, ht, hbits⟩ := h
  intro hexact
  obtain ⟨n, hloop | ⟨hne, -⟩⟩ := huffmanLoop_past huffmanTables_ok (fun _ => ⟨t.length, 0⟩) cap []
    ht (Nat.zero_le _) (length_rem_start_lt buf) (by rw [length_nil, Nat.zero_add]; exact hs) hbits
  swap
  · exact absurd rfl hne
  obtain ⟨hterm, hdone⟩ := hexact fun _ => ⟨t.length, 0⟩
  rw [hterm _ (Nat.lt_succ_self _), Option.some.injEq] at hloop
  obtain ⟨_, henc⟩ := (hdone _ (by simp)).mp hloop
  -- the symbol that was made up has the code word `1ff8`, which does not start `fffffe`
  obtain ⟨k, _, hk⟩ := (eq_enc_iff _ _).mp henc
  rw [hbits, nil_append, PrefixCode.encode_append, append_assoc, append_cancel_left_eq] at hk
  change _ = huffmanCode.encode [0] ++ _ at hk
  have hcode : huffmanCode.encode [0] = natBits 13 0x1ff8 := by decide +kernel
  rw [hcode] at hk
  have htake := congrArg (List.take 13) hk
  rw [take_append_of_le_length (by simp), take_append_of_le_length (by simp)] at htake
  exact absurd htake (by decide)

/-- Huffman decoding is exact on an input if and only if the decoder does not read behind
`huffman_decode_fffffe` with room for another symbol. -/
theorem decodesExactly_iff (buf : Bytes) (cap : ℕ) :
    DecodesExactly buf cap ↔ ¬ ∃ (s : Bytes) (t : List Bool), s.length < cap ∧ t.length < 4 ∧
      byteBits buf = huffmanCode.encode s ++ (natBits 24 0xfffffe ++ t) := by
  refine ⟨fun h hpast => not_decodesExactly hpast h, ?_⟩
  intro h past
  exact ⟨fun fuel hfuel => huffmanLoop_eq_some past buf cap hfuel,
    fun s _ => xDecodeHuffman2_eq_done_iff past h s⟩

/-- The encoding of the two bytes `30 fe` is not decoded exactly. -/
theorem decodesExactly_fails :
    enc [0x30, 0xfe] = [0x07, 0xff, 0xff, 0xf0] ∧
      ¬ DecodesExactly [0x07, 0xff, 0xff, 0xf0] 255 := by
  refine ⟨by decide +kernel, not_decodesExactly ⟨[0x30], [false, false, false], ?_⟩⟩
  decide +kernel

end AtlasProbe.Http2
