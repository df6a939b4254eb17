import AtlasProbe.Http2.RoundTrip
import Mathlib.Data.FinEnum

/-!
# The dynamic table

The entries of the dynamic table are numbered from the newest one on: in HPACK, index 62 is the
entry that was added last.  `Xget_dyn` subtracts the size of the static table, 61, from an index
and counts from zero, so that it returns the entry next to the one that was asked for.

A header field is added to the table if its representation says so.  `Xdecode_header2` also adds
static entries that are referred to and literals with a new name that are not to be indexed.
-/

namespace AtlasProbe.Http2

open List

/-! ### Looking up an entry -/

/-- Successive calls of `add_dyn`. -/
def addDyns : List Dyn → Handler Unit
  | [] => pure ()
  | d :: entries => do
    addDyn d.key d.value
    addDyns entries

/-- The `k`-th most recent one of `entries`, which are in the order in which they were added; the
newest one has the number 1. -/
def mostRecent (entries : List Dyn) (k : ℕ) : Option Dyn := entries.reverse[k - 1]?

/-- After the calls of `add_dyn` for `entries`, the index `61 + k` stands for the `k`-th most recent
entry, and is refused with a compression error if there is no such entry. -/
def FollowsHpack (c : Conn) (entries : List Dyn) (k : ℕ) : Prop :=
  ∃ c', addDyns entries c = .ok () c' ∧
    match mostRecent entries k with
    | some d => xGetDyn (61 + k) c' = .ok d c'
    | none => ∃ reason, xGetDyn (61 + k) c' = goaway .compressionError reason c'

variable (key value : Bytes) (u : Platform) (byte : UInt8) (buf : Bytes) (c : Conn)
  (len : ℕ)

lemma getEnv_apply : getEnv c = .ok c.env c := rfl

lemma addDyn_apply : addDyn key value c = .ok () (c.addDyn key value) := rfl

/-- The calls of `add_dyn` append their entries to the table. -/
lemma addDyns_ok (entries : List Dyn) : ∀ c : Conn,
    ∃ c', addDyns entries c = .ok () c' ∧ c'.env.http2Dyn = c.env.http2Dyn ++ entries := by
  induction entries with
  | nil => exact fun c => ⟨c, rfl, (append_nil _).symm⟩
  | cons d entries ih =>
    intro c
    obtain ⟨c', hrun, hdyn⟩ := ih (c.addDyn d.key d.value)
    refine ⟨c', ?_, ?_⟩
    · rw [addDyns, bind_apply_ok (addDyn_apply _ _ c), hrun]
    · rw [hdyn, Conn.addDyn, append_assoc, singleton_append]

/-- The index `61 + k` selects the `k`-th entry from the end, counted from zero. -/
lemma xGetDyn_some {c : Conn} {k : ℕ} {d : Dyn} (h : c.env.http2Dyn.reverse[k]? = some d) :
    xGetDyn (61 + k) c = .ok d c := by
  obtain ⟨hk, hd⟩ := List.getElem?_eq_some_iff.mp h
  rw [List.length_reverse] at hk
  rw [List.getElem_reverse] at hd
  have hget : c.env.http2Dyn.getD (c.env.http2Dyn.length - 1 - (61 + k - 61)) ⟨[], []⟩ = d := by
    rw [Nat.add_sub_cancel_left, getD_eq_getElem _ _ (by omega), hd]
  unfold xGetDyn
  rw [if_neg (by omega), bind_apply_ok (getEnv_apply c), if_neg (by omega), hget]
  rfl

lemma xGetDyn_none {c : Conn} {k : ℕ} (h : c.env.http2Dyn.reverse[k]? = none) :
    xGetDyn (61 + k) c = goaway .compressionError "bad dynamic index" c := by
  rw [getElem?_eq_none_iff, length_reverse] at h
  unfold xGetDyn
  rw [if_neg (by omega), bind_apply_ok (getEnv_apply c), if_pos (by omega)]

/-- An index is resolved as HPACK has it if and only if it is too large, or the entry it stands for
is the same as the one added before it. -/
theorem followsHpack_iff (c : Conn) (hempty : c.env.http2Dyn = []) (entries : List Dyn) (k : ℕ)
    (hk : 1 ≤ k) :
    FollowsHpack c entries k ↔ entries.length < k ∨
      (k < entries.length ∧ mostRecent entries k = mostRecent entries (k + 1)) := by
  obtain ⟨c₁, hadd, hdyn⟩ := addDyns_ok entries c
  rw [hempty, nil_append] at hdyn
  have hnext : mostRecent entries (k + 1) = entries.reverse[k]? := rfl
  have hlen : (mostRecent entries k = none ↔ entries.length < k) ∧
      (mostRecent entries (k + 1) = none ↔ entries.length ≤ k) := by
    constructor
    · rw [mostRecent, getElem?_eq_none_iff, length_reverse]
      omega
    · rw [hnext, getElem?_eq_none_iff, length_reverse]
  constructor
  · rintro ⟨c', hadd', hget⟩
    rw [hadd] at hadd'
    obtain ⟨rfl⟩ : c₁ = c' := by injection hadd'
    cases hrecent : mostRecent entries k with
    | none => exact .inl (hlen.1.mp hrecent)
    | some d =>
      right
      rw [hrecent] at hget
      cases hfound : entries.reverse[k]? with
      | none =>
        rw [xGetDyn_none (by rw [hdyn]; exact hfound)] at hget
        cases hget
      | some e =>
        rw [xGetDyn_some (by rw [hdyn]; exact hfound)] at hget
        obtain ⟨rfl⟩ : e = d := by injection hget
        refine ⟨?_, by rw [hnext, hfound]⟩
        obtain ⟨hlt, -⟩ := List.getElem?_eq_some_iff.mp hfound
        rwa [List.length_reverse] at hlt
  · intro hcond
    refine ⟨c₁, hadd, ?_⟩
    cases hrecent : mostRecent entries k with
    | none =>
      have hlong := hlen.1.mp hrecent
      exact ⟨_, xGetDyn_none (by rw [hdyn]; exact hlen.2.mpr hlong.le)⟩
    | some d =>
      rcases hcond with hlong | ⟨-, hsame⟩
      · rw [hlen.1.mpr hlong] at hrecent
        cases hrecent
      · refine xGetDyn_some ?_
        rw [hdyn, ← hnext, ← hsame, hrecent]

/-- Two equal entries and a third one: index 63 stands for the second most recent entry. -/
theorem followsHpack_repeated :
    FollowsHpack plainConn [⟨[97], [49]⟩, ⟨[97], [49]⟩, ⟨[98], [50]⟩] 2 :=
  (followsHpack_iff plainConn (by rw [env_http2Dns]; rfl)
    [⟨[97], [49]⟩, ⟨[97], [49]⟩, ⟨[98], [50]⟩] 2 (by decide)).mpr
    (.inr ⟨by decide, by decide⟩)

/-- With two different entries, index 62 stands for the older one. -/
theorem newest_entry_not_found :
    ¬ FollowsHpack plainConn [⟨[97], [49]⟩, ⟨[98], [50]⟩] 1 := by
  rintro ⟨c', hadd, hget⟩
  obtain ⟨c₁, hadd₁, hdyn⟩ := addDyns_ok [⟨[97], [49]⟩, ⟨[98], [50]⟩] plainConn
  rw [hadd] at hadd₁
  obtain ⟨rfl⟩ : c' = c₁ := by injection hadd₁
  have hsecond : xGetDyn (61 + 1) c' = .ok ⟨[97], [49]⟩ c' := by
    refine xGetDyn_some ?_
    rw [hdyn, env_http2Dns]
    rfl
  rw [hsecond] at hget
  injection hget with hdyn
  revert hdyn
  decide

/-! ### Adding an entry -/

/-- Neither the table nor the reported headers have changed. -/
structure Silent (c c' : Conn) : Prop where
  dyn : c'.env.http2Dyn = c.env.http2Dyn
  reports : reports c'.log = reports c.log

lemma Silent.refl : Silent c c := ⟨rfl, rfl⟩

lemma Silent.trans {c₁ c₂ c₃ : Conn} (h : Silent c₁ c₂) (h' : Silent c₂ c₃) : Silent c₁ c₃ :=
  ⟨h'.dyn.trans h.dyn, h'.reports.trans h.reports⟩

/-- Reading a header field changes neither the table nor the reported headers. -/
lemma silent_readLogic : ReadLogic fun {_} m => Keeps Silent m where
  pure := keeps_pure Silent.refl
  bind hm hf := Keeps.bind (fun _ _ _ h h' => h.trans h') hm hf
  stop why _ := keeps_throw Silent.refl why
  goaway _ _ _ := ⟨rfl, rfl⟩
  getEnv := Silent.refl
  huffman len c := by
    refine ⟨rfl, ?_⟩
    rw [reports_append, reports, reports, filterMap_cons_none rfl, filterMap_nil, append_nil]

/-- A header has been reported, and added to the table if `added` is set. -/
def Grows (added : Bool) (c c' : Conn) : Prop :=
  ∃ key value, reports c'.log = reports c.log ++ [(key, value)] ∧
    c'.env.http2Dyn = c.env.http2Dyn ++ if added then [⟨key, value⟩] else []

lemma Silent.grows {added : Bool} {c₁ c₂ c₃ : Conn} (h : Silent c₁ c₂) (h' : Grows added c₂ c₃) :
    Grows added c₁ c₃ := by
  obtain ⟨key, value, hreports, hdyn⟩ := h'
  rw [h.reports] at hreports
  rw [h.dyn] at hdyn
  exact ⟨key, value, hreports, hdyn⟩

/-- `Xreport_header` reports its header. -/
lemma reports_report :
    reports (c.report key value).log = reports c.log ++ [(key, value)] := reports_append _ _

/-- Adding to the table reports nothing. -/
lemma reports_addDyn (key value : Bytes) :
    reports (c.addDyn key value).log = reports c.log := by
  rw [Conn.addDyn, reports_append, reports, reports, filterMap_cons_none rfl,
    filterMap_nil, append_nil]

/-- The end of the decoder of a field that is not indexed. -/
lemma wp_report (n : ℕ) (c : Conn) :
    Wp (do xReportHeader key value; pure n) c (fun _ c' => Grows false c c') fun _ _ => True := by
  refine (wp_xReportHeader key value c).seq (fun _ _ _ => trivial) ?_
  rintro _ _ ⟨-, rfl⟩
  exact ⟨key, value, reports_report key value c, (append_nil _).symm⟩

/-- The end of the decoder of a field that is indexed. -/
lemma wp_addReport (n : ℕ) (c : Conn) :
    Wp (do addDyn key value; xReportHeader key value; pure n) c (fun _ c' => Grows true c c')
      fun _ _ => True := by
  change Wp (do xReportHeader key value; pure n) (c.addDyn key value) _ _
  refine (wp_xReportHeader key value _).seq (fun _ _ _ => trivial) ?_
  rintro _ _ ⟨-, rfl⟩
  refine ⟨key, value, ?_, rfl⟩
  rw [reports_report, reports_addDyn]

/-- A value of more than one byte is not smaller than the largest one of the first byte. -/
lemma wp_decodeIntLoop (len maxValue : ℕ) (buf : Bytes) :
    ∀ o v c, Wp (decodeIntLoop u len maxValue buf o v) c (fun r _ => maxValue ≤ r.2)
      fun _ _ => True := by
  induction buf with
  | nil => exact fun o v c => wp_ite (fun _ => trivial) fun _ => trivial
  | cons byte buf ih =>
    intro o v c
    refine wp_ite (fun _ => ?_) fun _ => trivial
    split
    · trivial
    · refine wp_ite (fun _ => ih _ _ _) fun _ => wp_ite (fun _ => trivial) fun hover => ?_
      exact not_lt.mp hover

/-- The value of an integer as far as the first byte tells it. -/
lemma wp_xDecodeInt2 (len prefixLen : ℕ) (c : Conn) :
    Wp (xDecodeInt2 u (byte :: buf) len prefixLen) c
      (fun r c' => Silent c c' ∧ min r.2 (2 ^ (8 - prefixLen) - 1) =
        byte.toNat &&& (2 ^ (8 - prefixLen) - 1)) fun _ _ => True := by
  have hle : byte.toNat &&& (2 ^ (8 - prefixLen) - 1) ≤ 2 ^ (8 - prefixLen) - 1 := Nat.and_le_right
  have hvalue : Wp (xDecodeInt2 u (byte :: buf) len prefixLen) c
      (fun r _ => min r.2 (2 ^ (8 - prefixLen) - 1) = byte.toNat &&& (2 ^ (8 - prefixLen) - 1))
      fun _ _ => True := by
    refine wp_ite (fun hlt => Nat.min_eq_left hlt.le) fun hmax => ?_
    refine (wp_decodeIntLoop u len _ buf 1 0 c).mono (fun r _ hr => ?_) fun _ _ _ => trivial
    rw [Nat.min_eq_right hr]
    exact le_antisymm (not_lt.mp hmax) hle
  exact (((silent_readLogic.xDecodeInt2 u (byte :: buf) len prefixLen).ok c).and hvalue).mono
    (fun _ _ h => h) fun _ _ _ => trivial

/-- An indexed field is added to the table if its index is one of the static table. -/
lemma wp_decodeIndexed (c : Conn) :
    Wp (decodeIndexed u (byte :: buf) len) c
      (fun _ c' => Grows (decide (byte.toNat &&& 0x7f ≤ 61)) c c') fun _ _ => True := by
  refine (wp_xDecodeInt2 u byte buf len 1 c).bind ?_
  rintro ⟨tmplen, value⟩ c₁ ⟨hsilent, hvalue⟩
  change min value 0x7f = byte.toNat &&& 0x7f at hvalue
  refine wp_ite (fun _ => trivial) fun _ => wp_ite (fun hdyn => ?_) fun hstatic => ?_
  · have hadded : decide (byte.toNat &&& 0x7f ≤ 61) = false := decide_eq_false (by omega)
    refine ((silent_readLogic.xGetDyn value).ok c₁).bind fun dyn c₂ hsilent' => ?_
    rw [hadded]
    exact (wp_report dyn.key dyn.value tmplen c₂).mono
      (fun _ _ h => (hsilent.trans hsilent').grows h) fun _ _ h => h
  · have hadded : decide (byte.toNat &&& 0x7f ≤ 61) = true := decide_eq_true (by omega)
    rw [hadded]
    split
    · trivial
    · exact (wp_addReport _ _ tmplen c₁).mono (fun _ _ h => hsilent.grows h) fun _ _ h => h

/-- A literal with a new name is always added to the table. -/
lemma wp_decodeNewName (c : Conn) :
    Wp (decodeNewName u buf len) c (fun _ c' => Grows true c c') fun _ _ => True := by
  refine ((silent_readLogic.decodeString u buf len 1 255 true).ok c).bind ?_
  rintro ⟨namebuf, o⟩ c₁ hname
  refine ((silent_readLogic.decodeString u buf len o 1024 false).ok c₁).bind ?_
  rintro ⟨value, o'⟩ c₂ hvalue
  exact (wp_addReport (cString namebuf) value o' c₂).mono
    (fun _ _ h => (hname.trans hvalue).grows h) fun _ _ h => h

/-- A literal with an indexed name is added to the table if it is to be indexed. -/
lemma wp_decodeIndexedName (prefixLen : ℕ) (indexing : Bool) (buf : Bytes) (len : ℕ)
    (c : Conn) :
    Wp (decodeIndexedName u prefixLen indexing buf len) c (fun _ c' => Grows indexing c c')
      fun _ _ => True := by
  refine ((silent_readLogic.xDecodeInt2 u buf len prefixLen).ok c).bind ?_
  rintro ⟨tmplen, value⟩ c₁ hint
  refine wp_ite (fun _ => trivial) fun _ => ?_
  refine ((silent_readLogic.indexedName value).ok c₁).bind fun name c₂ hname => ?_
  refine ((silent_readLogic.decodeString u buf len tmplen 1024 false).ok c₂).bind ?_
  rintro ⟨str, o⟩ c₃ hstr
  have hsilent := (hint.trans hname).trans hstr
  cases indexing with
  | true =>
    exact (wp_addReport name str o c₃).mono (fun _ _ h => hsilent.grows h) fun _ _ h => h
  | false => exact (wp_report name str o c₃).mono (fun _ _ h => hsilent.grows h) fun _ _ h => h

/-- The first bytes of the fields that `Xdecode_header2` adds to the table. -/
def addsEntry (byte : UInt8) : Bool :=
  if byte.toNat &&& 0x80 = 0x80 then byte.toNat &&& 0x7f ≤ 61
  else byte = 0x00 ∨ byte.toNat &&& 0xC0 = 0x40

/-- What an accepted field does to the table. -/
lemma wp_xDecodeHeader2 (c : Conn) :
    Wp (xDecodeHeader2 u (byte :: buf) len) c (fun _ c' => Grows (addsEntry byte) c c')
      fun _ _ => True := by
  unfold addsEntry
  refine wp_ite (fun htop => ?_) fun htop => ?_
  · rw [if_pos htop]
    exact wp_decodeIndexed u byte buf len c
  rw [if_neg htop]
  refine wp_ite (fun hnew => ?_) fun hnew => ?_
  · have hadded : (byte = 0x00 ∨ byte.toNat &&& 0xC0 = 0x40) := by
      rcases hnew with rfl | rfl
      · exact .inr (by decide)
      · exact .inl rfl
    rw [decide_eq_true hadded]
    exact wp_decodeNewName u (byte :: buf) len c
  refine wp_ite (fun hindexing => ?_) fun hindexing => ?_
  · rw [decide_eq_true (.inr hindexing)]
    exact wp_decodeIndexedName u 2 true (byte :: buf) len c
  · have hadded : ¬ (byte = 0x00 ∨ byte.toNat &&& 0xC0 = 0x40) :=
      fun h => h.elim (fun hzero => hnew (.inr hzero)) hindexing
    rw [decide_eq_false hadded]
    exact wp_ite (fun _ => wp_decodeIndexedName u 4 false (byte :: buf) len c) fun _ => trivial

/-- The table grows by the decoded header if the first byte of the field asks for incremental
indexing, and stays as it is otherwise. -/
def OnlyIndexingGrows (byte : UInt8) (c c' : Conn) : Prop :=
  if byte.toNat &&& 0xC0 = 0x40 then
    ∃ key value, reports c'.log = reports c.log ++ [(key, value)] ∧
      c'.env.http2Dyn = c.env.http2Dyn ++ [⟨key, value⟩]
  else c'.env.http2Dyn = c.env.http2Dyn

/-- The fields that are added without being asked for are the indexed ones with a static index and
the literals with a new name and without indexing. -/
lemma addsEntry_eq_iff :
    addsEntry byte = decide (byte.toNat &&& 0xC0 = 0x40) ↔
      byte ≠ 0x00 ∧ ¬ (0x80 ≤ byte ∧ byte ≤ 0xBD) := by
  revert byte
  decide +kernel

/-- An accepted field changes the table as it should if and only if its first byte is neither zero
nor a static index. -/
theorem onlyIndexingGrows_iff (u : Platform) (byte : UInt8) (buf : Bytes) (len n : ℕ)
    (c c' : Conn) (haccepted : xDecodeHeader2 u (byte :: buf) len c = .ok n c') :
    OnlyIndexingGrows byte c c' ↔ byte ≠ 0x00 ∧ ¬ (0x80 ≤ byte ∧ byte ≤ 0xBD) := by
  obtain ⟨key, value, hreports, hdyn⟩ := (wp_xDecodeHeader2 u byte buf len c).of_ok haccepted
  rw [← addsEntry_eq_iff]
  unfold OnlyIndexingGrows
  by_cases hasked : byte.toNat &&& 0xC0 = 0x40
  · rw [if_pos hasked, decide_eq_true hasked]
    constructor
    · rintro ⟨key', value', -, hdyn'⟩
      by_contra hadded
      rw [Bool.not_eq_true] at hadded
      rw [hadded, hdyn'] at hdyn
      simp at hdyn
    · intro hadded
      rw [hadded] at hdyn
      exact ⟨key, value, hreports, hdyn⟩
  · rw [if_neg hasked, decide_eq_false hasked, hdyn]
    cases addsEntry byte <;> simp

/-- A literal with incremental indexing and the name of the static entry 4 is added. -/
theorem onlyIndexingGrows_path :
    ∃ c', xDecodeHeader2 .x86 (0x44 :: [1, 97]) 3 plainConn = .ok 3 c' ∧
      OnlyIndexingGrows 0x44 plainConn c' :=
  ⟨_, rfl, (onlyIndexingGrows_iff .x86 0x44 [1, 97] 3 3 plainConn _ rfl).mpr
    (by decide)⟩

/-- The static entry 2 and a literal that is not to be indexed are added as well. -/
theorem unasked_entries :
    (∃ c', xDecodeHeader2 .x86 [0x82] 1 plainConn = .ok 1 c' ∧
      ¬ OnlyIndexingGrows 0x82 plainConn c') ∧
    ∃ c', xDecodeHeader2 .x86 [0x00, 1, 97, 1, 98] 5 plainConn = .ok 5 c' ∧
      ¬ OnlyIndexingGrows 0x00 plainConn c' := by
  refine ⟨⟨_, rfl, ?_⟩, ⟨_, rfl, ?_⟩⟩
  · intro h
    have hlength := congrArg List.length (h : _ = plainConn.env.http2Dyn)
    revert hlength
    decide +kernel
  · intro h
    have hlength := congrArg List.length (h : _ = plainConn.env.http2Dyn)
    revert hlength
    decide +kernel

end AtlasProbe.Http2
