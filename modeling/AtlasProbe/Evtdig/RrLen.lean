import AtlasProbe.Evtdig.Name
import Mathlib.Data.FinEnum

/-!
# The length of names

A name in a message is walked by `ReadName`, by `dns_namelen`, and by `get_rr_len`.  The last two
skip it, `dns_namelen` in `printReply` and `get_rr_len` in `get_edns_opt`.  They do not agree on the
length of a name that ends with a pointer.
-/

namespace AtlasProbe.Evtdig

/-- The loop of `get_rr_len`, cut off after `fuel` rounds: the end of the name. -/
def rrNameLoop (packet : Bytes) : ℕ → ℕ → Option ℕ
  | 0, _ => none
  | fuel + 1, offset =>
    let labelLen := (packet.getD offset 0).toNat
    if packet.length ≤ offset then none
    else if 63 < labelLen then if labelLen < 192 then none else some (offset + 2)
    else if labelLen = 0 then some (offset + 1)
    else rrNameLoop packet fuel (offset + labelLen + 1)

/-- `*namelenp` of `get_rr_len`. -/
def rrNameLen (packet : Bytes) (offset : ℕ) : Option ℕ :=
  (rrNameLoop packet (packet.length + 1) offset).map (· - offset)

/-- `get_rr_len`. -/
def getRrLen (packet : Bytes) (offset : ℕ) (question : Bool) : Option ℕ := do
  let nameLen ← rrNameLen packet offset
  if question then some (nameLen + 2 + 2)
  else
    let rrLen := nameLen + 2 + 2 + 4
    if packet.length < offset + rrLen + 2 then none
    else some (rrLen + 2 + uint16 (packet.drop (offset + rrLen)))

/-- A name at `offset` that ends in the message in front of `stop`, with a pointer or with a length
of `0`. -/
inductive NameAt (base : Bytes) : ℕ → Bool → ℕ → Prop where
  | zero {offset : ℕ} (hlt : offset < base.length) (hlen : (base.getD offset 0).toNat = 0) :
    NameAt base offset false (offset + 1)
  | pointer {offset : ℕ} (hlt : offset + 1 < base.length)
    (hlen : 192 ≤ (base.getD offset 0).toNat) : NameAt base offset true (offset + 2)
  | label {offset stop : ℕ} {pointer : Bool} (hlt : offset < base.length)
    (hpos : 0 < (base.getD offset 0).toNat) (hlen : (base.getD offset 0).toNat < 64)
    (hrest : NameAt base (offset + (base.getD offset 0).toNat + 1) pointer stop) :
    NameAt base offset pointer stop

/-- The conditions on a length. -/
lemma lengthBits (b : UInt8) : (b = 0 ↔ b.toNat = 0) ∧ (b &&& 0xc0 = 0 ↔ b.toNat < 64) ∧
    (b &&& 0xc0 = 0xc0 ↔ 192 ≤ b.toNat) := by
  revert b
  decide +kernel

section Walkers

variable {behind : UInt8} {base name : Bytes} {offset stop fuel count : ℕ} {pointer : Bool}

lemma NameAt.lt (h : NameAt base offset pointer stop) : offset < stop ∧ stop ≤ base.length := by
  induction h <;> omega

/-- `get_rr_len` finds the end of the name. -/
lemma NameAt.rrNameLoop_eq (h : NameAt base offset pointer stop)
    (hfuel : base.length ≤ offset + fuel) : rrNameLoop base (fuel + 1) offset = some stop := by
  induction h generalizing fuel with
  | zero hlt hlen => rw [rrNameLoop, if_neg (by omega), if_neg (by omega), if_pos hlen]
  | pointer hlt hlen =>
    rw [rrNameLoop, if_neg (by omega), if_pos (by omega), if_neg (by omega)]
  | label hlt hpos hlen hrest ih =>
    obtain ⟨fuel, rfl⟩ := Nat.exists_eq_succ_of_ne_zero (by omega : fuel ≠ 0)
    rw [rrNameLoop, if_neg (by omega), if_neg (by omega), if_neg (by omega), ih (by omega)]

/-- `dns_namelen` counts a byte less for a pointer. -/
lemma NameAt.dnsNamelenLoop_eq (h : NameAt base offset pointer stop)
    (hfuel : base.length ≤ offset + fuel) :
    dnsNamelenLoop base (fuel + 1) offset = some (stop - if pointer then 1 else 0) := by
  induction h generalizing fuel with
  | @zero offset hlt hlen =>
    obtain ⟨hzero, hlabel, -⟩ := lengthBits (base.getD offset 0)
    rw [dnsNamelenLoop, if_neg (by omega), if_neg (not_not.mpr (hlabel.mpr (by omega))),
      if_neg (by omega), if_pos (hzero.mpr hlen)]
    rfl
  | @pointer offset hlt hlen =>
    obtain ⟨-, hlabel, hpointer⟩ := lengthBits (base.getD offset 0)
    rw [dnsNamelenLoop, if_neg (by omega), if_pos (by rw [Ne, hlabel]; omega),
      if_neg (not_not.mpr (hpointer.mpr hlen))]
    rfl
  | @label offset stop pointer hlt hpos hlen hrest ih =>
    obtain ⟨hzero, hlabel, -⟩ := lengthBits (base.getD offset 0)
    have hin := hrest.lt
    obtain ⟨fuel, rfl⟩ := Nat.exists_eq_succ_of_ne_zero (by omega : fuel ≠ 0)
    rw [dnsNamelenLoop, if_neg (by omega), if_neg (not_not.mpr (hlabel.mpr hlen)),
      if_neg (by omega), if_neg (by rw [hzero]; omega), ih (by omega)]

/-- Behind the first pointer, `ReadName` does not count. -/
lemma readNameLoop_jumped {s : NameState} (hjumped : s.jumped = true)
    (h : readNameLoop behind base fuel s = some (name, count)) : count = s.count := by
  induction fuel generalizing s with
  | zero => cases h
  | succ fuel ih =>
    rw [readNameLoop] at h
    cases hstep : nameStep behind base s with
    | stop => simp_all
    | error => simp_all
    | next t =>
      rw [hstep] at h
      have hnext : t.jumped = true ∧ t.count = s.count := by
        simp only [nameStep] at hstep
        split_ifs at hstep <;> cases hstep <;> simp [NameState.jump, NameState.label, hjumped]
      rw [ih hnext.1 h, hnext.2]

/-- `ReadName` counts the bytes up to the end of the name. -/
lemma NameAt.readNameLoop_count (h : NameAt base offset pointer stop) {name' : Bytes}
    {jumpCount count' : ℕ}
    (hread : readNameLoop behind base (fuel + 1) ⟨offset, name, false, jumpCount, count⟩ =
      some (name', count')) :
    count' + offset = count + stop := by
  induction h generalizing fuel name count with
  | @zero offset hlt hlen =>
    have hzero := (lengthBits (base.getD offset 0)).1.mpr hlen
    simp only [readNameLoop, nameStep, hzero, or_true] at hread
    obtain ⟨-, rfl⟩ := Prod.ext_iff.mp (Option.some.inj hread)
    simp
    omega
  | @pointer offset hlt hlen =>
    obtain ⟨hzero, hlabel, -⟩ := lengthBits (base.getD offset 0)
    have hjump : nameStep behind base ⟨offset, name, false, jumpCount, count⟩ = .error ∨
        ∃ noffset, nameStep behind base ⟨offset, name, false, jumpCount, count⟩ =
          .next (NameState.jump ⟨offset, name, false, jumpCount, count⟩ noffset) := by
      rw [nameStep]
      dsimp only
      rw [if_neg (by rw [hzero]; omega), if_pos (by rw [Ne, hlabel]; omega)]
      split_ifs <;> simp
    rw [readNameLoop] at hread
    obtain hstep | ⟨noffset, hstep⟩ := hjump
    · rw [hstep] at hread
      cases hread
    · rw [hstep] at hread
      have hcount := readNameLoop_jumped rfl hread
      simp only [NameState.jump, Bool.false_eq_true, if_false] at hcount
      omega
  | @label offset stop pointer hlt hpos hlen hrest ih =>
    obtain ⟨hzero, hlabel, -⟩ := lengthBits (base.getD offset 0)
    have hin := hrest.lt
    rw [readNameLoop, nameStep] at hread
    dsimp only at hread
    rw [if_neg (by rw [hzero]; omega), if_neg (not_not.mpr (hlabel.mpr hlen)),
      if_neg (by omega)] at hread
    by_cases hroom : 255 < name.length + (base.getD offset 0).toNat + 1
    · rw [if_pos hroom] at hread
      cases hread
    · have hlength : ((base.drop (offset + 1)).take (base.getD offset 0).toNat).length =
          (base.getD offset 0).toNat := by
        rw [List.length_take, List.length_drop]
        omega
      rw [if_neg hroom] at hread
      simp only [NameState.label, hlength, Bool.false_eq_true, if_false] at hread
      cases fuel with
      | zero => cases hread
      | succ fuel =>
        have hcount := ih hread
        omega

/-- The lengths of a name that ends in the message. -/
lemma NameAt.lengths (h : NameAt base offset pointer stop)
    (hread : readName behind base offset = some (name, count)) :
    count = stop - offset ∧ rrNameLen base offset = some count ∧
      dnsNamelen base offset = some (count - if pointer then 1 else 0) := by
  have hcount := h.readNameLoop_count hread
  refine ⟨by omega, ?_, ?_⟩
  · rw [rrNameLen, h.rrNameLoop_eq (by omega), Option.map_some]
    congr 1
    omega
  · rw [dnsNamelen, h.dnsNamelenLoop_eq (by omega), Option.map_some]
    congr 1
    omega

end Walkers

/-- The three functions find the same length of a name that `ReadName` can read, and the question is
skipped as far by `printReply` as by `get_edns_opt`, exactly if the name does not end with a
pointer. -/
theorem nameLengths_agree_iff {behind : UInt8} {base name : Bytes} {offset count stop : ℕ}
    {pointer : Bool} (hname : NameAt base offset pointer stop)
    (hread : readName behind base offset = some (name, count)) :
    (dnsNamelen base offset = some count ∧ rrNameLen base offset = some count ∧
      (dnsNamelen base offset).map (· + 4) = getRrLen base offset true) ↔ pointer = false := by
  obtain ⟨hcount, hrr, hdns⟩ := hname.lengths hread
  have hlt := hname.lt
  rw [hdns, hrr, getRrLen, hrr]
  cases pointer with
  | false => simp
  | true =>
    simp
    omega

/-- The name `ab.c` behind another byte, and the byte behind it. -/
theorem nameLengths_agree_labels :
    dnsNamelen [9, 2, 97, 98, 1, 99, 0, 9] 1 = some 6 ∧
      rrNameLen [9, 2, 97, 98, 1, 99, 0, 9] 1 = some 6 ∧
      (dnsNamelen [9, 2, 97, 98, 1, 99, 0, 9] 1).map (· + 4) =
        getRrLen [9, 2, 97, 98, 1, 99, 0, 9] 1 true := by
  have hname : NameAt [9, 2, 97, 98, 1, 99, 0, 9] 1 false 7 := by
    refine .label (by decide) (by decide) (by decide) ?_
    exact .label (by decide) (by decide) (by decide) (.zero (by decide) (by decide))
  exact (@nameLengths_agree_iff 0 _ (ascii "ab.c") 1 6 7 false hname (by decide +kernel)).mpr rfl

/-- For a pointer to the header, `dns_namelen` finds a byte less than the other two. -/
theorem nameLengths_pointer :
    NameAt [0, 0xc0, 0] 1 true 3 ∧ readName 0 [0, 0xc0, 0] 1 = some ([], 2) ∧
      rrNameLen [0, 0xc0, 0] 1 = some 2 ∧ dnsNamelen [0, 0xc0, 0] 1 = some 1 :=
  ⟨.pointer (by decide) (by decide), by decide +kernel, by decide +kernel, by decide +kernel⟩

end AtlasProbe.Evtdig
