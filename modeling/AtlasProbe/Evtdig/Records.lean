import AtlasProbe.Evtdig.PrintReply

/-!
# Where the answers begin

The loop over the answers of a message reads one record behind the other (`answerOffsets`).  A
record ends behind its owner name, ten bytes for the other fields, and the data, whose length is in
the last of these fields (`recordEnd`).  For the data of an SOA record, the loop goes by the names
in it instead (`SoaFits`).
-/

namespace AtlasProbe.Evtdig

/-- The offsets at which the loop over the answers begins to read one. -/
def answerOffsets (behind : UInt8) (result : Bytes) : ℕ → ℕ → List ℕ
  | 0, _ => []
  | n + 1, offset =>
    offset ::
      match readAnswer behind result offset with
      | none => []
      | some (_, offset) => answerOffsets behind result n offset

/-- The offset behind the question. -/
def Reply.answersStart (r : Reply) : Option ℕ :=
  if r.bytes.length < 12 then none
  else
    match dnsNamelen r.bytes 12 with
    | none => none
    | some len => if r.bytes.length < 12 + len + 4 then none else some (12 + len + 4)

/-- The offsets at which `printReply` begins to read an answer. -/
def Reply.answerOffsets (r : Reply) : List ℕ :=
  match r.answersStart with
  | none => []
  | some offset => Evtdig.answerOffsets r.behind r.bytes (min 2 (uint16 (r.bytes.drop 6))) offset

section Records

variable {behind : UInt8} {base : Bytes} {n offset stop : ℕ} {name : Bytes}

/-- A record at `offset` whose owner name has `stop` bytes: the type, and the length of the data. -/
def recordType (base : Bytes) (offset stop : ℕ) : ℕ := uint16 (base.drop (offset + stop))

/-- `data_len` of the record. -/
def dataLen (base : Bytes) (offset stop : ℕ) : ℕ := uint16 (base.drop (offset + stop + 8))

/-- The end of the record. -/
def recordEnd (base : Bytes) (offset stop : ℕ) : ℕ :=
  offset + stop + 10 + dataLen base offset stop

/-- The record is in the message with all of its data. -/
structure Whole (behind : UInt8) (base : Bytes) (offset stop : ℕ) : Prop where
  owner : ∃ name, readName behind base offset = some (name, stop)
  fits : recordEnd base offset stop ≤ base.length

/-- The two names in the data of an SOA record and the five numbers behind them are all of it. -/
def SoaFits (behind : UInt8) (base : Bytes) (offset stop : ℕ) : Prop :=
  ∃ mname stop₁ rname stop₂, readName behind base (offset + stop + 10) = some (mname, stop₁) ∧
    readName behind base (offset + stop + 10 + stop₁) = some (rname, stop₂) ∧
      stop₁ + stop₂ + 20 = dataLen base offset stop

/-- A complete record is read to its end, unless the data of an SOA record have another length. -/
lemma readAnswer_end_iff (h : Whole behind base offset stop) :
    (∃ a, readAnswer behind base offset = some (a, recordEnd base offset stop)) ↔
      (recordType base offset stop = 6 → SoaFits behind base offset stop) := by
  obtain ⟨⟨name, hname⟩, hfits⟩ := h
  have hshort : ¬ base.length < offset + stop + 10 := by
    unfold recordEnd at hfits
    omega
  have hread : readAnswer behind base offset = readRdata behind base name
      (recordType base offset stop) (get32b ((base.drop (offset + stop)).drop 4))
      (dataLen base offset stop) (offset + stop + 10) := by
    simp only [readAnswer, hname, Option.bind_eq_bind, Option.bind_some, if_neg hshort,
      recordType, dataLen, List.drop_drop]
  rw [hread]
  unfold readRdata
  unfold recordEnd at hfits ⊢
  by_cases hsoa : recordType base offset stop = 6
  · rw [if_neg (by omega), if_pos hsoa]
    constructor
    · rintro ⟨a, h⟩ -
      obtain ⟨⟨mname, stop₁⟩, hmname, h⟩ := Option.bind_eq_some_iff.mp h
      obtain ⟨⟨rname, stop₂⟩, hrname, h⟩ := Option.bind_eq_some_iff.mp h
      dsimp only at h
      split_ifs at h
      obtain ⟨-, hend⟩ := Prod.ext_iff.mp (Option.some.inj h)
      exact ⟨mname, stop₁, rname, stop₂, hmname, hrname, by omega⟩
    · intro h
      obtain ⟨mname, stop₁, rname, stop₂, hmname, hrname, hlen⟩ := h hsoa
      simp only [hmname, hrname, Option.bind_eq_bind, Option.bind_some]
      rw [if_neg (by omega)]
      exact ⟨_, congrArg _ (congrArg _ (by omega))⟩
  · refine iff_of_true ?_ fun h => absurd h hsoa
    by_cases htxt : recordType base offset stop = 16
    · rw [if_pos htxt, if_neg (Nat.not_lt.mpr hfits)]
      exact ⟨_, rfl⟩
    · rw [if_neg htxt, if_neg hsoa, if_neg (Nat.not_lt.mpr hfits)]
      exact ⟨_, rfl⟩

end Records

/-- If the first two answers are complete, `printReply` begins to read the second one at the end of
the first one exactly if this is not an SOA record with other data than its names and numbers. -/
theorem second_answer_at_recordEnd_iff {r : Reply} {offset stop stop' : ℕ}
    (hstart : r.answersStart = some offset) (hcount : 2 ≤ uint16 (r.bytes.drop 6))
    (hfirst : Whole r.behind r.bytes offset stop)
    (_ : Whole r.behind r.bytes (recordEnd r.bytes offset stop) stop') :
    r.answerOffsets = [offset, recordEnd r.bytes offset stop] ↔
      (recordType r.bytes offset stop = 6 → SoaFits r.behind r.bytes offset stop) := by
  rw [← readAnswer_end_iff hfirst]
  unfold Reply.answerOffsets
  rw [hstart, Nat.min_eq_left hcount]
  have hrest (next : ℕ) : Evtdig.answerOffsets r.behind r.bytes 1 next = [next] := by
    simp only [answerOffsets]
    cases readAnswer r.behind r.bytes next <;> rfl
  change Evtdig.answerOffsets r.behind r.bytes (1 + 1) offset = _ ↔ _
  rw [Evtdig.answerOffsets]
  cases readAnswer r.behind r.bytes offset with
  | none => simp
  | some x => simp [hrest, Prod.ext_iff]

/-- A message with an SOA record, whose data have `extra` bytes behind the names and the numbers,
and a text record. -/
def soaReply (extra : Fin 8) : Reply where
  bytes := [0, 0, 0x80, 0, 0, 1, 0, 2, 0, 0, 0, 0] ++ [0, 0, 6, 0, 1] ++
    [0, 0, 6, 0, 1, 0, 0, 0, 0, 0, .ofNat (22 + extra)] ++ List.replicate (22 + extra) 0 ++
      [0, 0, 16, 0, 1, 0, 0, 0, 0, 0, 0]
  behind := 0
  length_lt := by
    simp
    omega

theorem second_answer_at_recordEnd_soaReply :
    (soaReply 0).answerOffsets = [17, 50] ∧
      (recordType (soaReply 0).bytes 17 1 = 6 →
        SoaFits (soaReply 0).behind (soaReply 0).bytes 17 1) := by
  have hoffsets : (soaReply 0).answerOffsets = [17, 50] := by decide +kernel
  refine ⟨hoffsets, (@second_answer_at_recordEnd_iff (soaReply 0) 17 1 1 (by decide +kernel)
    (by decide +kernel) ⟨⟨[], ?_⟩, ?_⟩ ⟨⟨[], ?_⟩, ?_⟩).mp hoffsets⟩
  all_goals decide +kernel

/-- With a byte more in the data of the first record, the second one is read a byte too early. -/
theorem second_answer_before_recordEnd :
    (soaReply 1).answersStart = some 17 ∧ 2 ≤ uint16 ((soaReply 1).bytes.drop 6) ∧
      Whole (soaReply 1).behind (soaReply 1).bytes 17 1 ∧
      Whole (soaReply 1).behind (soaReply 1).bytes (recordEnd (soaReply 1).bytes 17 1) 1 ∧
      recordEnd (soaReply 1).bytes 17 1 = 51 ∧ (soaReply 1).answerOffsets = [17, 50] :=
  ⟨by decide +kernel, by decide +kernel, ⟨⟨[], by decide +kernel⟩, by decide +kernel⟩,
    ⟨⟨[], by decide +kernel⟩, by decide +kernel⟩, by decide +kernel, by decide +kernel⟩

end AtlasProbe.Evtdig
