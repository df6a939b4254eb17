import AtlasProbe.Evtdig.Name

/-!
# The format of names

`ChangetoDnsNameFormat` encodes the name that is looked up: each label is written with its length in
front of it, and a length of `0` comes last.  `ReadName` gets the name back.
-/

namespace AtlasProbe.Evtdig

open List

/-! ### `ChangetoDnsNameFormat` -/

/-- The loop of `ChangetoDnsNameFormat`, cut off after `fuel` rounds; `dst` is what is written. -/
def formatLoop (maxlen : ℕ) : ℕ → Bytes → Bytes → Option Bytes
  | 0, _, _ => none
  | fuel + 1, src, dst =>
    if src = [] ∨ maxlen ≤ dst.length then some (dst ++ [0])
    else
      -- `strchr` finds no dot if this is the length of `src`.
      let labellen := src.idxOf 46
      if src.length ≤ labellen then none
      else if 63 < labellen then none
      else if labellen = 0 then none
      else
        formatLoop maxlen fuel (src.drop (labellen + 1))
          (dst ++ UInt8.ofNat labellen :: src.take labellen)

/-- `ChangetoDnsNameFormat`: the bytes that are written, or `none` where the source has `-1`. -/
def changetoDnsNameFormat (maxlen : ℕ) (qry : Bytes) : Option Bytes :=
  if maxlen < qry.length + 1 then none
  else if qry = ascii "." then some [0]
  else formatLoop maxlen (qry.length + 1) qry []

/-- A label that can be encoded. -/
structure IsLabel (label : Bytes) : Prop where
  pos : 0 < label.length
  le : label.length ≤ 63
  dot : 46 ∉ label

/-- Labels with a dot behind each of them. -/
def dotted (labels : List Bytes) : Bytes := labels.flatMap (· ++ [46])

/-- Labels in the format of a message. -/
def wire (labels : List Bytes) : Bytes :=
  labels.flatMap (fun label => UInt8.ofNat label.length :: label) ++ [0]

section Format

variable {labels : List Bytes} {label src dst out : Bytes} {maxlen fuel : ℕ}

@[simp] lemma dotted_nil : dotted [] = [] := rfl

@[simp] lemma dotted_cons : dotted (label :: labels) = label ++ 46 :: dotted labels := by
  simp [dotted]

@[simp] lemma wire_nil : wire [] = [0] := rfl

@[simp] lemma wire_cons :
    wire (label :: labels) = UInt8.ofNat label.length :: (label ++ wire labels) := by
  simp [wire]

lemma length_wire (labels : List Bytes) :
    (wire labels).length = (dotted labels).length + 1 := by
  induction labels with
  | nil => rfl
  | cons label labels ih =>
    simp only [wire_cons, dotted_cons, length_cons, length_append, ih]

/-- A round of the loop encodes a label. -/
lemma formatLoop_label (hlabel : IsLabel label) (hroom : dst.length < maxlen) :
    formatLoop maxlen (fuel + 1) (label ++ 46 :: src) dst =
      formatLoop maxlen fuel src (dst ++ UInt8.ofNat label.length :: label) := by
  have hlen : (label ++ 46 :: src).idxOf 46 = label.length := by
    rw [idxOf_append, if_neg hlabel.dot, idxOf_cons_self, Nat.zero_add]
  have hpos := hlabel.pos
  have hle := hlabel.le
  rw [formatLoop, if_neg (by simp; omega), hlen]
  rw [if_neg (by simp), if_neg (by omega), if_neg (by omega)]
  simp

/-- A round of the loop that does not end it finds a label. -/
lemma isLabel_of_formatLoop (hsrc : src ≠ []) (hroom : dst.length < maxlen)
    (h : formatLoop maxlen (fuel + 1) src dst = some out) :
    ∃ label rest, IsLabel label ∧ src = label ++ 46 :: rest := by
  by_cases hdot : 46 ∈ src
  · obtain ⟨label, rest, rfl, hlabel⟩ := eq_append_cons_of_mem hdot
    refine ⟨label, rest, ?_, rfl⟩
    rw [formatLoop, if_neg (by simp; omega), idxOf_append, idxOf_cons_self] at h
    dsimp only at h
    split_ifs at h
    exact ⟨by omega, by omega, hlabel⟩
  · rw [formatLoop, if_neg (by simp [hsrc]; omega), idxOf_eq_length hdot] at h
    simp at h

/-- The loop encodes the rest of the name, if this consists of labels with dots. -/
lemma formatLoop_eq_some_iff (hfuel : src.length < fuel)
    (hroom : dst.length + src.length < maxlen) :
    formatLoop maxlen fuel src dst = some out ↔
      ∃ labels, (∀ label ∈ labels, IsLabel label) ∧ src = dotted labels ∧
        out = dst ++ wire labels := by
  induction fuel generalizing src dst with
  | zero => omega
  | succ fuel ih =>
    by_cases hsrc : src = []
    · subst hsrc
      constructor
      · intro h
        exact ⟨[], by simp, rfl, (Option.some.inj h).symm⟩
      · rintro ⟨_ | ⟨label, labels⟩, -, h, rfl⟩
        · rfl
        · simp at h
    · constructor
      · intro h
        obtain ⟨label, rest, hlabel, rfl⟩ := isLabel_of_formatLoop hsrc (by omega) h
        simp only [length_append, length_cons] at hfuel hroom
        rw [formatLoop_label hlabel (by omega), ih (by omega) (by simp; omega)] at h
        obtain ⟨labels, hlabels, rfl, rfl⟩ := h
        exact ⟨label :: labels, forall_mem_cons.mpr ⟨hlabel, hlabels⟩, by simp, by simp⟩
      · rintro ⟨_ | ⟨label, labels⟩, hlabels, rfl, rfl⟩
        · exact absurd rfl hsrc
        · obtain ⟨hlabel, hlabels⟩ := forall_mem_cons.mp hlabels
          simp only [dotted_cons, length_append, length_cons] at hfuel hroom
          rw [dotted_cons, formatLoop_label hlabel (by omega), ih (by omega) (by simp; omega)]
          exact ⟨labels, hlabels, rfl, by simp⟩

/-- A name is encoded if it fits the buffer and consists of labels with dots, or is the root. -/
lemma changetoDnsNameFormat_eq_some_iff {qry : Bytes} :
    changetoDnsNameFormat maxlen qry = some out ↔ qry.length + 1 ≤ maxlen ∧
      ∃ labels, (∀ label ∈ labels, IsLabel label) ∧ out = wire labels ∧
        (qry = dotted labels ∨ qry = [46] ∧ labels = []) := by
  unfold changetoDnsNameFormat
  by_cases hfits : qry.length + 1 ≤ maxlen
  · rw [if_neg (by omega)]
    by_cases hroot : qry = ascii "."
    · rw [if_pos hroot]
      constructor
      · rintro ⟨⟩
        exact ⟨hfits, [], by simp, rfl, .inr ⟨hroot, rfl⟩⟩
      · rintro ⟨-, labels, hlabels, rfl, rfl | ⟨-, rfl⟩⟩
        · cases labels with
          | nil => rfl
          | cons label labels =>
            have hpos := (hlabels label mem_cons_self).pos
            have hlen := congrArg List.length hroot
            simp only [dotted_cons, length_append, length_cons] at hlen
            change label.length + _ = 1 at hlen
            omega
        · rfl
    · rw [if_neg hroot, formatLoop_eq_some_iff (by omega) (by simp; omega)]
      constructor
      · rintro ⟨labels, hlabels, hqry, hout⟩
        exact ⟨hfits, labels, hlabels, hout, .inl hqry⟩
      · rintro ⟨-, labels, hlabels, hout, hqry | ⟨hqry, -⟩⟩
        · exact ⟨labels, hlabels, hqry, hout⟩
        · exact absurd hqry hroot
  · rw [if_pos (by omega)]
    simp [hfits]

end Format

section Read

variable {behind : UInt8} {labels : List Bytes}

/-- The length of a label is not taken for a pointer, nor for the end. -/
lemma labelLength : ∀ n ≤ 63, 0 < n →
    UInt8.ofNat n ≠ 0 ∧ UInt8.ofNat n &&& 0xc0 = 0 ∧ (UInt8.ofNat n).toNat = n := by
  decide

/-- `ReadName` copies the labels that are encoded. -/
lemma readNameLoop_wire (rest pre name : Bytes) (count fuel : ℕ)
    (hlabels : ∀ label ∈ labels, IsLabel label) (hfuel : labels.length < fuel)
    (hroom : name.length + (dotted labels).length ≤ 255) :
    readNameLoop behind (pre ++ (wire labels ++ rest)) fuel ⟨pre.length, name, false, 0, count⟩ =
      some ((name ++ dotted labels).dropLast.takeWhile (· ≠ 0), count + (wire labels).length) := by
  induction labels generalizing pre name count fuel with
  | nil =>
    obtain ⟨fuel, rfl⟩ := Nat.exists_eq_add_of_lt hfuel
    simp [readNameLoop, nameStep]
  | cons label labels ih =>
    obtain ⟨fuel, rfl⟩ := Nat.exists_eq_succ_of_ne_zero (Nat.ne_zero_of_lt hfuel)
    obtain ⟨hlabel, hlabels⟩ := forall_mem_cons.mp hlabels
    obtain ⟨hzero, hbits, hnat⟩ := labelLength label.length hlabel.le hlabel.pos
    simp only [dotted_cons, length_append, length_cons] at hfuel hroom
    have hstep : nameStep behind (pre ++ (wire (label :: labels) ++ rest))
        ⟨pre.length, name, false, 0, count⟩ =
          .next ⟨(pre ++ UInt8.ofNat label.length :: label).length, name ++ label ++ [46], false, 0,
            count + label.length + 1⟩ := by
      have hget : (pre ++ (wire (label :: labels) ++ rest)).getD pre.length 0 =
          UInt8.ofNat label.length := by
        simp
      simp only [nameStep, hget, hzero, hbits, hnat]
      rw [if_neg (by simp), if_neg (by simp), if_neg ?_, if_neg (by omega)]
      · simp [NameState.label, Nat.add_assoc, ascii]
      · simp only [wire_cons, length_append, length_cons]
        omega
    rw [readNameLoop, hstep]
    have hih := ih (pre ++ UInt8.ofNat label.length :: label) (name ++ label ++ [46])
      (count + label.length + 1) fuel hlabels (by omega) (by simp; omega)
    simpa [Nat.add_assoc, Nat.add_comm, Nat.add_left_comm] using hih

/-- `ReadName` gets an encoded name back, and counts the bytes that have been written. -/
lemma readName_wire (hlabels : ∀ label ∈ labels, IsLabel label)
    (hlen : (dotted labels).length ≤ 254) (hzero : 0 ∉ dotted labels) (rest : Bytes) :
    readName behind (wire labels ++ rest) 0 =
      some ((dotted labels).dropLast, (wire labels).length) := by
  have hcount : labels.length ≤ (dotted labels).length := by
    clear hlabels hlen hzero
    induction labels with
    | nil => rfl
    | cons label labels ih =>
      simp only [dotted_cons, length_cons, length_append]
      omega
  have hread := @readNameLoop_wire behind labels rest [] [] 0 513 hlabels (by omega)
    (by simp; omega)
  have htake : 0 ∉ (dotted labels).dropLast := fun hin => hzero ((dropLast_sublist _).mem hin)
  rw [nil_append, nil_append, (takeWhile_ne htake).1, Nat.zero_add] at hread
  exact hread

end Read

/-- Exactly the names of labels with dots that fit the buffer are encoded, apart from the root, and
`ReadName` gets back each of them without the last dot, whatever comes behind. -/
theorem readName_changetoDnsNameFormat {qry : Bytes} (hqry : 0 ∉ qry) :
    ((∃ dns, changetoDnsNameFormat 255 qry = some dns) ↔ qry.length + 1 ≤ 255 ∧
      (qry = [] ∨ qry = ascii "." ∨
        ∃ labels, (∀ label ∈ labels, IsLabel label) ∧ qry = dotted labels)) ∧
    ∀ dns, changetoDnsNameFormat 255 qry = some dns → dns.length ≤ 255 ∧
      ∀ behind rest, readName behind (dns ++ rest) 0 = some (qry.dropLast, dns.length) := by
  constructor
  · constructor
    · rintro ⟨dns, h⟩
      obtain ⟨hlen, labels, hlabels, -, rfl | ⟨hroot, -⟩⟩ := changetoDnsNameFormat_eq_some_iff.mp h
      · exact ⟨hlen, .inr (.inr ⟨labels, hlabels, rfl⟩)⟩
      · exact ⟨hlen, .inr (.inl hroot)⟩
    · rintro ⟨hlen, rfl | hroot | ⟨labels, hlabels, rfl⟩⟩
      · exact ⟨[0], by decide⟩
      · exact ⟨wire [], changetoDnsNameFormat_eq_some_iff.mpr
          ⟨hlen, [], by simp, rfl, .inr ⟨hroot, rfl⟩⟩⟩
      · exact ⟨wire labels, changetoDnsNameFormat_eq_some_iff.mpr
          ⟨hlen, labels, hlabels, rfl, .inl rfl⟩⟩
  · intro dns h
    obtain ⟨hlen, labels, hlabels, rfl, rfl | ⟨rfl, rfl⟩⟩ := changetoDnsNameFormat_eq_some_iff.mp h
    · rw [length_wire]
      refine ⟨hlen, fun behind rest => ?_⟩
      rw [readName_wire hlabels (by omega) hqry, length_wire]
    · exact ⟨by decide, fun behind rest => readName_wire hlabels (by decide) (by decide) rest⟩

theorem readName_changetoDnsNameFormat_two :
    0 ∉ ascii "ns.ab." ∧ changetoDnsNameFormat 255 (ascii "ns.ab.") =
        some [2, 110, 115, 2, 97, 98, 0] ∧
      readName 0 ([2, 110, 115, 2, 97, 98, 0] ++ [7]) 0 = some (ascii "ns.ab", 7) :=
  ⟨by decide +kernel, by decide +kernel,
    ((@readName_changetoDnsNameFormat (ascii "ns.ab.") (by decide +kernel)).2 _
      (by decide +kernel)).2 0 [7]⟩

end AtlasProbe.Evtdig
