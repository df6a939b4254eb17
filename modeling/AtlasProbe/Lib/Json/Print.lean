import AtlasProbe.Lib.Json.Accepts
import Mathlib.Data.FinEnum

/-!
# Printing JSON

The machine on the pieces of a text that a program prints: strings (`IsContent`), parts of strings
(`Tame`), and decimal numbers (`IsNumber`).  `ReadsIf` says when a piece is read and that the
machine stops otherwise.
-/

namespace AtlasProbe.Json

open List

/-! ### Pieces -/

section Pieces

variable {s : State} {st st' : List Ctx} {m m' : Mode} {t u r : Bytes} {b : UInt8}

lemma run_append (s : State) (t u : Bytes) :
    run s (t ++ u) = (run s t).bind fun s => run s u := by
  induction t generalizing s with
  | nil => rfl
  | cons b t ih =>
    change (step s b).bind _ = ((step s b).bind _).bind _
    cases step s b with
    | none => rfl
    | some s' => exact ih s'

lemma run_append_of_some {s' : State} (h : run s t = some s') (u : Bytes) :
    run s (t ++ u) = run s' u := by
  rw [run_append, h]
  rfl

lemma run_append_of_none (h : run s t = none) (u : Bytes) : run s (t ++ u) = none := by
  rw [run_append, h]
  rfl

/-- The machine has the result `r` on `t` if `P` holds, and stops otherwise. -/
structure ReadsIf (P : Prop) (s : State) (t : Bytes) (r : Option State) : Prop where
  reads : P → run s t = r
  stops : ¬ P → run s t = none

section ReadsIf

variable {P Q : Prop} {s s' : State} {t u : Bytes} {r : Option State}

lemma ReadsIf.congr (h : ReadsIf P s t r) (hPQ : P ↔ Q) : ReadsIf Q s t r :=
  ⟨fun hQ => h.reads (hPQ.2 hQ), fun hQ => h.stops fun hP => hQ (hPQ.1 hP)⟩

lemma ReadsIf.of_run (h : run s t = r) : ReadsIf True s t r :=
  ⟨fun _ => h, fun h => absurd trivial h⟩

/-- A piece in front that is read in any case. -/
lemma ReadsIf.prepend (h : run s t = some s') (h' : ReadsIf P s' u r) : ReadsIf P s (t ++ u) r :=
  ⟨fun hP => (run_append_of_some h u).trans (h'.reads hP),
    fun hP => (run_append_of_some h u).trans (h'.stops hP)⟩

/-- What is left after a piece that is read under a condition. -/
lemma ReadsIf.and (h : ReadsIf P s t (run s' u)) (h' : ReadsIf Q s' u r) :
    ReadsIf (P ∧ Q) s t r := by
  refine ⟨fun hPQ => (h.reads hPQ.1).trans (h'.reads hPQ.2), fun hPQ => ?_⟩
  by_cases hP : P
  · exact (h.reads hP).trans (h'.stops fun hQ => hPQ ⟨hP, hQ⟩)
  · exact h.stops hP

/-- Two pieces that are both read under a condition. -/
lemma ReadsIf.append (h : ReadsIf P s t (some s')) (h' : ReadsIf Q s' u r) :
    ReadsIf (P ∧ Q) s (t ++ u) r :=
  ReadsIf.and ⟨fun hP => run_append_of_some (h.reads hP) u,
    fun hP => run_append_of_none (h.stops hP) u⟩ h'

/-- A piece behind that is read in any case. -/
lemma ReadsIf.append_run (h : ReadsIf P s t (some s')) (h' : run s' u = r) :
    ReadsIf P s (t ++ u) r := (h.append (.of_run h')).congr (iff_of_eq (and_true P))

end ReadsIf

end Pieces

/-! ### Strings -/

/-- Bytes that stand for themselves in a string. -/
def Plain (t : Bytes) : Prop := ∀ b ∈ t, isPlain b = true

instance (t : Bytes) : Decidable (Plain t) :=
  List.decidableBAll (fun b => isPlain b = true) t

lemma isPlain_of_isdigit {b : UInt8} : isdigit b = true → isPlain b = true := by
  revert b
  decide +kernel

/-- What may stand between the quotes of a string. -/
def IsContent (t : Bytes) : Prop := Chars (t ++ [34]) []

section Strings

variable {st : List Ctx} {t u : Bytes} {isKey : Bool} {r : Bytes} {m : Mode}

lemma Plain.content (h : Plain t) : IsContent t := by
  induction t with
  | nil => exact .close []
  | cons b t ih =>
    obtain ⟨hb, ht⟩ := forall_mem_cons.1 h
    exact .plain hb (ih ht)

lemma Chars.ne_nil (h : Chars u r) : u ≠ [] := by
  rintro rfl
  cases h

/-- The last byte of a list is in its last part. -/
lemma append_eq_append_last {a u t : Bytes} {b : UInt8} (hu : u ≠ [])
    (h : a ++ u = t ++ [b]) : ∃ t', t = a ++ t' ∧ u = t' ++ [b] := by
  have hlast := dropLast_concat_getLast hu
  rw [← hlast, ← append_assoc] at h
  obtain ⟨ht, hb⟩ := append_inj' h rfl
  exact ⟨u.dropLast, ht.symm, by rw [← hb, hlast]⟩

/-- A string that is closed by its last byte is not closed before. -/
lemma Chars.run_content (h : Chars u r) (hr : r = []) (hu : u = t ++ [34]) :
    run ⟨.str isKey, st⟩ t = some ⟨.str isKey, st⟩ := by
  induction h generalizing t with
  | close r =>
    subst hr
    obtain rfl : t = [] := by simpa using hu.symm
    rfl
  | @plain b u r hb hchars ih =>
    obtain ⟨t, rfl, ht⟩ := append_eq_append_last (a := [b]) hchars.ne_nil hu
    exact (run_cons (step_plain hb) t).trans (ih hr ht)
  | @escape b u r hb hchars ih =>
    obtain ⟨t, rfl, ht⟩ := append_eq_append_last (a := [92, b]) hchars.ne_nil hu
    exact (run_cons rfl _).trans ((run_cons (step_escape hb) t).trans (ih hr ht))
  | @unicode a b c d u r ha hb hc hd hchars ih =>
    obtain ⟨t, rfl, ht⟩ := append_eq_append_last (a := [92, 117, a, b, c, d]) hchars.ne_nil hu
    exact (run_unicode ha hb hc hd t).trans (ih hr ht)

lemma IsContent.run (h : IsContent t) : run ⟨.str isKey, st⟩ t = some ⟨.str isKey, st⟩ :=
  Chars.run_content h rfl rfl

lemma Chars.suffix (h : Chars u r) : r <:+ u := by
  induction h with
  | close r => exact suffix_cons 34 r
  | plain _ _ ih => exact ih.trans (suffix_cons _ _)
  | escape _ _ ih => exact ih.trans (suffix_append [92, _] _)
  | unicode _ _ _ _ _ ih => exact ih.trans (suffix_append [92, 117, _, _, _, _] _)

lemma Many.forall {p : UInt8 → Bool} (h : Many p t []) : ∀ b ∈ t, p b = true := by
  generalize hr : ([] : Bytes) = r at h
  induction h with
  | nil t =>
    subst hr
    nofun
  | cons hb _ ih => exact forall_mem_cons.2 ⟨hb, ih hr⟩

/-- A text that keeps the machine in a string is what may stand between quotes. -/
lemma isContent_of_run (h : Json.run ⟨.str false, []⟩ t = some ⟨.str false, []⟩) : IsContent t := by
  have haccepts : accepts ⟨.str false, []⟩ (t ++ [34]) = true := by
    unfold accepts
    rw [run_append_of_some h]
    rfl
  obtain ⟨r, hchars, hrest⟩ := means_of_accepts haccepts
  -- What follows the quote is white space, but the last byte of the text is a quote.
  obtain rfl | ⟨r', rfl, -⟩ := suffix_concat_iff.mp hchars.suffix
  · exact hchars
  · have hquote := Many.forall hrest 34 (mem_append_right _ mem_cons_self)
    cases hquote

/-! ### Inside a string -/

/-- The machine is in a string that is a value. -/
def Mode.inString : Mode → Bool
  | .str false | .esc false | .hex false _ => true
  | _ => false

/-- A byte in a string: it is refused, or the string goes on, or it is the quote at the end. -/
lemma step_inString (hm : m.inString = true) (b : UInt8) :
    (∃ x : Option Mode, (∀ m' ∈ x, m'.inString = true) ∧
      ∀ st, step ⟨m, st⟩ b = x.map fun m' => ⟨m', st⟩) ∨ m = .str false ∧ b = 34 := by
  cases m with
  | str isKey =>
    cases isKey with
    | true => cases hm
    | false =>
      by_cases hquote : b = 34
      · exact .inr ⟨rfl, hquote⟩
      by_cases hbackslash : b = 92
      · exact .inl ⟨some (.esc false), by rintro _ ⟨⟩; rfl,
          fun st => (if_neg hquote).trans (if_pos hbackslash)⟩
      by_cases hplain : isPlain b = true
      · exact .inl ⟨some (.str false), by rintro _ ⟨⟩; rfl, fun st => step_plain hplain⟩
      · exact .inl ⟨none, nofun,
          fun st => (if_neg hquote).trans ((if_neg hbackslash).trans (if_neg hplain))⟩
  | esc isKey =>
    cases isKey with
    | true => cases hm
    | false =>
      by_cases hescape : isEscape b = true
      · exact .inl ⟨some (.str false), by rintro _ ⟨⟩; rfl, fun st => step_escape hescape⟩
      by_cases hu : b = 117
      · exact .inl ⟨some (.hex false 3), by rintro _ ⟨⟩; rfl,
          fun st => (if_neg hescape).trans (if_pos hu)⟩
      · exact .inl ⟨none, nofun, fun st => (if_neg hescape).trans (if_neg hu)⟩
  | hex isKey n =>
    cases isKey with
    | true => cases hm
    | false =>
      by_cases hhex : isHex b = true
      · refine .inl ⟨some (.afterHex false n), ?_, fun st => step_hex hhex⟩
        rintro _ ⟨⟩
        cases n <;> rfl
      · exact .inl ⟨none, nofun, fun st => if_neg hhex⟩
  | _ => cases hm

/-- Behind a value that is the whole text there is only white space. -/
lemma run_after_nil {s : State} (h : Json.run ⟨.after, []⟩ t = some s) : s = ⟨.after, []⟩ := by
  induction t with
  | nil => exact (Option.some.inj h).symm
  | cons b t ih =>
    by_cases hb : isWs b = true
    · have hstep : step ⟨.after, []⟩ b = some ⟨.after, []⟩ := if_pos hb
      rw [run_cons hstep] at h
      exact ih h
    · have hstep : step ⟨.after, []⟩ b = none := if_neg hb
      change (step ⟨.after, []⟩ b).bind _ = _ at h
      rw [hstep] at h
      cases h

/-- The machine stays in a string, whatever else is open, or it leaves it at a quote. -/
lemma run_inString (hm : m.inString = true) (t : Bytes) :
    (∃ x : Option Mode, (∀ m' ∈ x, m'.inString = true) ∧
      ∀ st, Json.run ⟨m, st⟩ t = x.map fun m' => ⟨m', st⟩) ∨
      34 ∈ t ∧ ∀ s, Json.run ⟨m, []⟩ t = some s → s = ⟨.after, []⟩ := by
  induction t generalizing m with
  | nil => exact .inl ⟨some m, by rintro _ ⟨⟩; exact hm, fun st => rfl⟩
  | cons b t ih =>
    obtain ⟨x, hx, hstep⟩ | ⟨rfl, rfl⟩ := step_inString hm b
    · cases x with
      | none =>
        refine .inl ⟨none, nofun, fun st => ?_⟩
        change (step ⟨m, st⟩ b).bind _ = _
        rw [hstep st]
        rfl
      | some m' =>
        obtain ⟨y, hy, hrun⟩ | ⟨hquote, hleft⟩ := ih (hx m' rfl)
        · exact .inl ⟨y, hy, fun st => (run_cons (hstep st) t).trans (hrun st)⟩
        · exact .inr ⟨mem_cons_of_mem b hquote,
            fun s hs => hleft s ((run_cons (hstep []) t).symm.trans hs)⟩
    · exact .inr ⟨mem_cons_self, fun s => run_after_nil⟩

/-- A part of what may stand between quotes leaves the machine in the string. -/
lemma IsContent.inString (h : IsContent (t ++ u)) :
    ∃ m : Mode, m.inString = true ∧ Json.run ⟨m, []⟩ u = some ⟨.str false, []⟩ ∧
      ∀ st, Json.run ⟨.str false, st⟩ t = some ⟨m, st⟩ := by
  have hrun : Json.run ⟨.str false, []⟩ (t ++ u) = some ⟨.str false, []⟩ := h.run
  rw [run_append] at hrun
  obtain ⟨s, ht, hu⟩ := Option.bind_eq_some_iff.1 hrun
  obtain ⟨x, hx, hin⟩ | ⟨-, hleft⟩ := run_inString (m := .str false) rfl t
  · obtain ⟨m, rfl, rfl⟩ := Option.map_eq_some_iff.1 ((hin []).symm.trans ht)
    exact ⟨m, hx m rfl, hu, hin⟩
  · obtain rfl := hleft s ht
    cases run_after_nil hu

/-- The quotes in the text, if there are any, do not end a string. -/
def Tame (t : Bytes) : Prop := 34 ∈ t → IsContent t

lemma IsContent.tame (h : IsContent t) : Tame t := fun _ => h

lemma Tame.run_take (h : Tame t) (st : List Ctx) (n : ℕ) :
    Json.run ⟨.str false, st⟩ (t.take n) = none ∨
      ∃ m : Mode, m.inString = true ∧ Json.run ⟨.str false, st⟩ (t.take n) = some ⟨m, st⟩ := by
  obtain ⟨x, hx, hrun⟩ | ⟨hquote, -⟩ := run_inString (m := .str false) rfl (t.take n)
  · rw [hrun st]
    cases x with
    | none => exact .inl rfl
    | some m => exact .inr ⟨m, hx m rfl, rfl⟩
  · have hcontent := h (mem_of_mem_take hquote)
    rw [← take_append_drop n t] at hcontent
    obtain ⟨m, hm, -, hrun⟩ := hcontent.inString
    exact .inr ⟨m, hm, hrun st⟩

lemma Tame.content (h : Tame t) (hrun : Json.run ⟨.str false, st⟩ t = some ⟨.str false, st⟩) :
    IsContent t := by
  obtain ⟨x, -, hx⟩ | ⟨hquote, -⟩ := run_inString (m := .str false) rfl t
  · rw [hx st] at hrun
    obtain ⟨m, rfl, hm⟩ := Option.map_eq_some_iff.1 hrun
    obtain rfl : m = .str false := congrArg State.mode hm
    exact isContent_of_run (hx [])
  · exact h hquote

/-- A dot may not follow a backslash, nor stand in the number of a character. -/
lemma isContent_dot : IsContent (t ++ [46]) ↔ IsContent t := by
  constructor
  · intro h
    obtain ⟨m, hm, hdot, ht⟩ := h.inString
    rcases m with _ | _ | _ | _ | _ | _ | ⟨_ | _⟩ | ⟨_ | _⟩ | ⟨_ | _, n⟩ | n | _
    case str.false => exact isContent_of_run (ht [])
    case esc.false => cases hdot
    case hex.false => cases hdot
    all_goals cases hm
  · intro h
    refine isContent_of_run ?_
    rw [run_append_of_some h.run]
    rfl

lemma Tame.dot (h : Tame t) : Tame (t ++ [46]) := by
  intro hmem
  obtain hmem | hmem := mem_append.1 hmem
  · exact isContent_dot.2 (h hmem)
  · cases mem_singleton.1 hmem

/-- A key with its quotes and its colon where no key is expected. -/
lemma run_stray_key (hm : m.inString = true ∨ m = .after) {b : UInt8}
    (hb : ∀ st, stepAfter (.object :: st) b = none) (hplain : Plain (b :: t)) (st : List Ctx)
    (u : Bytes) :
    Json.run ⟨m, .object :: st⟩ (34 :: b :: (t ++ 34 :: 32 :: 58 :: u)) = none := by
  have hafter : ∀ u, Json.run ⟨.after, .object :: st⟩ (b :: u) = none := by
    intro u
    change (stepAfter (.object :: st) b).bind _ = none
    rw [hb st]
    rfl
  obtain hm | rfl := hm
  · cases m with
    | str isKey =>
      cases isKey with
      | true => cases hm
      | false => exact (run_cons rfl _).trans (hafter _)
    | esc isKey =>
      cases isKey with
      | true => cases hm
      | false =>
        -- The quote is escaped, the key is a part of the string, and the colon is refused.
        have hkey := @IsContent.run (.object :: st) _ false hplain.content
        exact (run_cons rfl _).trans ((run_append_of_some hkey _).trans rfl)
    | hex isKey n =>
      cases isKey with
      | true => cases hm
      | false => rfl
    | _ => cases hm
  · rfl

end Strings

/-! ### Numbers -/

/-- A text that is a number. -/
def IsNumber (t : Bytes) : Prop := Number t []

section Numbers

variable {st : List Ctx} {t : Bytes} {b : UInt8}

lemma IsNumber.run (h : IsNumber t) :
    ∃ n, n.ends = true ∧ run ⟨.value, st⟩ t = some ⟨.num n, st⟩ := run_number h

lemma many_of_forall {p : UInt8 → Bool} (h : ∀ b ∈ t, p b = true) (r : Bytes) :
    Many p (t ++ r) r := by
  induction t with
  | nil => exact .nil r
  | cons b t ih =>
    obtain ⟨hb, ht⟩ := forall_mem_cons.1 h
    exact .cons hb (ih ht)

/-- Decimal numbers are JSON numbers. -/
lemma unsigned_natText (n : ℕ) {t r : Bytes} (h : Fraction t r) :
    Unsigned (natText n ++ t) r := by
  obtain ⟨b, ds, heq, hb, hds, hzero⟩ := natTextLoop_eq (Nat.lt_succ_self n) []
  unfold natText
  rw [heq, append_nil]
  by_cases hb0 : b = 48
  · obtain ⟨-, rfl⟩ := hzero hb0
    rw [hb0]
    exact .zero h
  · exact .digits hb hb0 (many_of_forall hds t) h

lemma isNumber_natText (n : ℕ) : IsNumber (natText n) := by
  have h := unsigned_natText n (.none (.none []))
  rw [append_nil] at h
  exact .pos h

lemma isNumber_intText (n : ℤ) : IsNumber (intText n) := by
  cases n with
  | ofNat n => exact isNumber_natText n
  | negSucc n =>
    have h := unsigned_natText (n + 1) (.none (.none []))
    rw [append_nil] at h
    exact .neg h

/-- A number with a fixed number of digits behind the point. -/
lemma isNumber_fixedText (k : ℕ) (negative : Bool) (n : ℕ) :
    IsNumber (fixedText (k + 1) negative n) := by
  have hmany : Many isdigit (digitsText k n) [] := by
    have hmany := many_of_forall (isdigit_of_mem_digitsText (k := k) (n := n)) []
    rwa [append_nil] at hmany
  have hunsigned : Unsigned (natText (n / 10 ^ (k + 1)) ++ 46 :: digitsText (k + 1) n) [] :=
    unsigned_natText _ (.some (.intro (isdigit_ofNat _ (Nat.mod_lt _ (by decide))) hmany)
      (.none []))
  cases negative with
  | true => exact .neg hunsigned
  | false => exact .pos hunsigned

lemma stepAfter_digit (hb : isdigit b = true) (st : List Ctx) : stepAfter st b = none := by
  cases hs : stepAfter st b with
  | none => rfl
  | some s =>
    obtain hws | rfl | rfl | rfl := stepAfter_cases hs
    · obtain ((rfl | rfl) | rfl) | rfl : ((b = 32 ∨ b = 9) ∨ b = 10) ∨ b = 13 := by
        simpa [isWs] using hws
      all_goals cases hb
    all_goals cases hb

/-- Digits that are not a number: there are none, or there is a `0` in front. -/
lemma run_digits_stuck (ht : ∀ d ∈ t, isdigit d = true) (hnumber : ¬ IsNumber t) (u : Bytes) :
    run ⟨.value, .object :: st⟩ (t ++ 32 :: 44 :: u) = none := by
  cases t with
  | nil => rfl
  | cons b t =>
    obtain ⟨hb, hdigits⟩ := forall_mem_cons.1 ht
    by_cases hzero : b = 48
    · subst hzero
      cases t with
      | nil => exact absurd (.pos (.zero (.none (.none [])))) hnumber
      | cons d t =>
        have hd := hdigits d mem_cons_self
        have hdot : d ≠ 46 := by
          rintro rfl
          cases hd
        have hexp : ¬ isExp d = true := by
          intro hexp
          obtain rfl | rfl := exp_cases hexp
          all_goals cases hd
        have hstep : step ⟨.num .zero, .object :: st⟩ d = none :=
          (if_neg hdot).trans ((if_neg hexp).trans (stepAfter_digit hd _))
        refine (run_cons rfl _).trans ?_
        change (step ⟨.num .zero, .object :: st⟩ d).bind _ = none
        rw [hstep]
        rfl
    · have hmany := many_of_forall hdigits []
      rw [append_nil] at hmany
      exact absurd (.pos (.digits hb hzero hmany (.none (.none [])))) hnumber

end Numbers

/-- A text that is a member of an object. -/
def IsMember (t : Bytes) : Prop := Gram .member t []

end AtlasProbe.Json
