import AtlasProbe.Lib.Json.Machine

/-!
# The machine accepts the JSON texts

For each state, `Means` says in terms of the grammar what the rest of the text must be.  A step of
the machine is a step back of its meaning, so that what is accepted has its meaning (`back_step`,
`means_of_accepts`); the other direction is an induction on the grammar (`Gram.run`).  `accepts_iff`
has both.
-/

namespace AtlasProbe.Json

/-! ### What is left to read -/

/-- The rest of the text behind a value, when the arrays and objects of a stack are open. -/
def Rest : List Ctx → Bytes → Prop
  | [], t => Ws t []
  | .array :: st, t =>
    ∃ r, (Ws t (93 :: r) ∨ ∃ c, Ws t (44 :: c) ∧ Gram .elements c (93 :: r)) ∧ Rest st r
  | .object :: st, t =>
    ∃ r, (Ws t (125 :: r) ∨ ∃ c, Ws t (44 :: c) ∧ Gram .members c (125 :: r)) ∧ Rest st r

/-- A value and the rest of the text. -/
def RestValue (st : List Ctx) (t : Bytes) : Prop :=
  ∃ a b, Ws t a ∧ Gram .value a b ∧ Rest st b

/-- A colon, a value and the rest of the text. -/
def RestColon (st : List Ctx) (t : Bytes) : Prop := ∃ c, Ws t (58 :: c) ∧ RestValue st c

/-- A key and the rest of the text. -/
def RestKey (st : List Ctx) (t : Bytes) : Prop :=
  ∃ a b, Ws t (34 :: a) ∧ Chars a b ∧ RestColon st b

/-- The rest of the text behind a string. -/
def RestString (isKey : Bool) (st : List Ctx) (t : Bytes) : Prop :=
  if isKey then RestColon st t else Rest st t

/-- The rest of a number. -/
def RestNum : NumMode → Bytes → Bytes → Prop
  | .minus, t, r => Unsigned t r
  | .zero, t, r => Fraction t r
  | .int, t, r => ∃ s, Many isdigit t s ∧ Fraction s r
  | .dot, t, r => ∃ s, Digits t s ∧ Exponent s r
  | .frac, t, r => ∃ s, Many isdigit t s ∧ Exponent s r
  | .exp, t, r => Digits t r ∨ ∃ b s, t = b :: s ∧ isSign b = true ∧ Digits s r
  | .expSign, t, r => Digits t r
  | .expDigits, t, r => Many isdigit t r

/-- The last `n` hexadecimal digits of a character, and the rest of the string. -/
def RestHex : Nat → Bytes → Bytes → Prop
  | 0, t, r => Chars t r
  | n + 1, t, r => ∃ b s, t = b :: s ∧ isHex b = true ∧ RestHex n s r

/-- What the rest of the text must be for the machine to accept it. -/
def Means (st : List Ctx) (t : Bytes) : Mode → Prop
  | .value => RestValue st t
  | .first => (∃ r, Ws t (93 :: r) ∧ st ≠ [] ∧ Rest st.tail r) ∨ RestValue st t
  | .key => RestKey st t
  | .firstKey => (∃ r, Ws t (125 :: r) ∧ st ≠ [] ∧ Rest st.tail r) ∨ RestKey st t
  | .colon => RestColon st t
  | .after => Rest st t
  | .str isKey => ∃ r, Chars t r ∧ RestString isKey st r
  | .esc isKey => ∃ r, Chars (92 :: t) r ∧ RestString isKey st r
  | .hex isKey n => ∃ r, RestHex (n + 1) t r ∧ RestString isKey st r
  | .num n => ∃ r, RestNum n t r ∧ Rest st r
  | .lit b rest => ∃ r, t = b :: rest ++ r ∧ Rest st r

section Steps

variable {st : List Ctx} {b : UInt8} {t : Bytes} {s : State} {r : Bytes}
  {x : Option State} {n : NumMode} {P : Prop}

lemma Rest.ws (hb : isWs b = true) (h : Rest st t) : Rest st (b :: t) := by
  cases st with
  | nil => exact .cons hb h
  | cons ctx st =>
    cases ctx with
    | array | object =>
      obtain ⟨r, hclose | ⟨c, hcomma, hothers⟩, hrest⟩ := h
      · exact ⟨r, .inl (.cons hb hclose), hrest⟩
      · exact ⟨r, .inr ⟨c, .cons hb hcomma, hothers⟩, hrest⟩

/-- Behind a value in an array there are the other elements and the bracket. -/
lemma RestValue.elements (h : RestValue (.array :: st) t) :
    ∃ r, Gram .elements t (93 :: r) ∧ Rest st r := by
  obtain ⟨a, b, hws, hvalue, r, hclose | ⟨c, hcomma, helements⟩, hrest⟩ := h
  · exact ⟨r, .lastElement (.element hws hvalue hclose), hrest⟩
  · exact ⟨r, .elements (.element hws hvalue hcomma) helements, hrest⟩

/-- Behind a key in an object there are the other members and the bracket. -/
lemma RestKey.members (h : RestKey (.object :: st) t) :
    ∃ r, Gram .members t (125 :: r) ∧ Rest st r := by
  obtain ⟨a, b, hkey, hchars, c, hcolon, d, e, hws, hvalue, r, hclose | ⟨f, hcomma, hmembers⟩,
    hrest⟩ := h
  · exact ⟨r, .lastMember (.member hkey hchars hcolon (.element hws hvalue hclose)), hrest⟩
  · exact ⟨r, .members (.member hkey hchars hcolon (.element hws hvalue hcomma)) hmembers, hrest⟩

/-- Whatever state the machine gets to, its meaning gives `P`. -/
def Back (t : Bytes) (P : Prop) (x : Option State) : Prop :=
  ∀ s ∈ x, Means s.stack t s.mode → P

lemma back_none : Back t P none := nofun

/-- A test on the way to the state has succeeded, or it has failed and the rest gives the state. -/
lemma back_ite {c : Prop} [Decidable c] (hs : c → Means s.stack t s.mode → P)
    (hx : ¬ c → Back t P x) : Back t P (if c then some s else x) := by
  by_cases hc : c
  · rw [if_pos hc]
    rintro _ ⟨⟩
    exact hs hc
  · rw [if_neg hc]
    exact hx hc

/-- The last test. -/
lemma back_last {c : Prop} [Decidable c] (hs : c → Means s.stack t s.mode → P) :
    Back t P (if c then some s else none) := back_ite hs fun _ => back_none

lemma back_stepAfter : Back t (Rest st (b :: t)) (stepAfter st b) := by
  refine back_ite (fun hb h => Rest.ws hb h) fun _ => ?_
  cases st with
  | nil => exact back_none
  | cons ctx st =>
    cases ctx with
    | array =>
      refine back_ite ?_ fun _ => back_last ?_
      · rintro rfl h
        obtain ⟨r, helements, hrest⟩ := RestValue.elements h
        exact ⟨r, .inr ⟨t, .nil _, helements⟩, hrest⟩
      · rintro rfl h
        exact ⟨t, .inl (.nil _), h⟩
    | object =>
      refine back_ite ?_ fun _ => back_last ?_
      · rintro rfl h
        obtain ⟨r, hmembers, hrest⟩ := RestKey.members h
        exact ⟨r, .inr ⟨t, .nil _, hmembers⟩, hrest⟩
      · rintro rfl h
        exact ⟨t, .inl (.nil _), h⟩

lemma RestValue.ws (hb : isWs b = true) (h : RestValue st t) : RestValue st (b :: t) := by
  obtain ⟨a, c, hws, hvalue, hrest⟩ := h
  exact ⟨a, c, .cons hb hws, hvalue, hrest⟩

lemma RestKey.ws (hb : isWs b = true) (h : RestKey st t) : RestKey st (b :: t) := by
  obtain ⟨a, c, hws, hkey⟩ := h
  exact ⟨a, c, .cons hb hws, hkey⟩

/-- A value that begins here. -/
lemma RestValue.of_value (h : Gram .value t r) (hrest : Rest st r) :
    RestValue st t := ⟨t, r, .nil t, h, hrest⟩

lemma back_stepValue : Back t (RestValue st (b :: t)) (stepValue st b) := by
  -- the first letter of a literal
  have hliteral {c : UInt8} {w : Bytes} (hw : c :: w ∈ literals) {r : Bytes}
      (ht : t = w ++ r) (hrest : Rest st r) : RestValue st (c :: t) :=
    .of_value (ht ▸ .literal r hw) hrest
  refine back_ite (fun hb h => RestValue.ws hb h) fun _ => back_ite ?_ fun _ => back_ite ?_ fun _ =>
    back_ite ?_ fun _ => back_ite ?_ fun _ => back_ite ?_ fun hzero => back_ite ?_ fun _ =>
      back_ite ?_ fun _ => back_ite ?_ fun _ => back_last ?_
  · rintro rfl ⟨r, hchars, hrest⟩
    exact .of_value (.string hchars) hrest
  · rintro rfl (⟨r, hclose, -, hrest⟩ | hvalue)
    · exact .of_value (.emptyArray hclose) hrest
    · obtain ⟨r, helements, hrest⟩ := hvalue.elements
      exact .of_value (.array helements) hrest
  · rintro rfl (⟨r, hclose, -, hrest⟩ | hkey)
    · exact .of_value (.emptyObject hclose) hrest
    · obtain ⟨r, hmembers, hrest⟩ := hkey.members
      exact .of_value (.object hmembers) hrest
  · rintro rfl ⟨r, hnum, hrest⟩
    exact .of_value (.number (.neg hnum)) hrest
  · rintro rfl ⟨r, hnum, hrest⟩
    exact .of_value (.number (.pos (.zero hnum))) hrest
  · rintro hb ⟨r, ⟨c, hdigits, hfraction⟩, hrest⟩
    exact .of_value (.number (.pos (.digits hb hzero hdigits hfraction))) hrest
  all_goals
    rintro rfl ⟨r, ht, hrest⟩
    exact hliteral (by decide) ht hrest

lemma back_stepKey : Back t (RestKey st (b :: t)) (stepKey st b) := by
  refine back_ite (fun hb h => RestKey.ws hb h) fun _ => back_last ?_
  rintro rfl ⟨r, hchars, hcolon⟩
  exact ⟨t, r, .nil _, hchars, hcolon⟩

/-- Where a number may end, nothing is left of it. -/
lemma restNum_ends (h : n.ends = true) (t : Bytes) : RestNum n t t := by
  cases n with
  | zero => exact .none (.none t)
  | int => exact ⟨t, .nil t, .none (.none t)⟩
  | frac => exact ⟨t, .nil t, .none t⟩
  | expDigits => exact .nil t
  | minus | dot | exp | expSign => cases h

lemma RestNum.exponent (hb : isExp b = true) (h : RestNum .exp t r) : Exponent (b :: t) r := by
  obtain hdigits | ⟨c, s, rfl, hc, hdigits⟩ := h
  · exact .unsigned hb hdigits
  · exact .signed hb hc hdigits

lemma back_stepNum : Back t (∃ r, RestNum n (b :: t) r ∧ Rest st r) (stepNum st b n) := by
  -- the number ends in front of `b`
  have hends (hn : n.ends = true) :
      Back t (∃ r, RestNum n (b :: t) r ∧ Rest st r) (stepAfter st b) :=
    fun s hs h => ⟨b :: t, restNum_ends hn _, back_stepAfter s hs h⟩
  cases n with
  | minus =>
    refine back_ite ?_ fun hzero => back_last ?_
    · rintro rfl ⟨r, hnum, hrest⟩
      exact ⟨r, .zero hnum, hrest⟩
    · rintro hb ⟨r, ⟨c, hdigits, hfraction⟩, hrest⟩
      exact ⟨r, .digits hb hzero hdigits hfraction, hrest⟩
  | zero =>
    refine back_ite ?_ fun _ => back_ite ?_ fun _ => hends rfl
    · rintro rfl ⟨r, ⟨c, hdigits, hexponent⟩, hrest⟩
      exact ⟨r, .some hdigits hexponent, hrest⟩
    · rintro hb ⟨r, hnum, hrest⟩
      exact ⟨r, .none (RestNum.exponent hb hnum), hrest⟩
  | int =>
    refine back_ite ?_ fun _ => back_ite ?_ fun _ => back_ite ?_ fun _ => hends rfl
    · rintro hb ⟨r, ⟨c, hdigits, hfraction⟩, hrest⟩
      exact ⟨r, ⟨c, .cons hb hdigits, hfraction⟩, hrest⟩
    · rintro rfl ⟨r, ⟨c, hdigits, hexponent⟩, hrest⟩
      exact ⟨r, ⟨_, .nil _, .some hdigits hexponent⟩, hrest⟩
    · rintro hb ⟨r, hnum, hrest⟩
      exact ⟨r, ⟨b :: t, .nil _, .none (RestNum.exponent hb hnum)⟩, hrest⟩
  | dot =>
    refine back_last ?_
    rintro hb ⟨r, ⟨c, hdigits, hexponent⟩, hrest⟩
    exact ⟨r, ⟨c, .intro hb hdigits, hexponent⟩, hrest⟩
  | frac =>
    refine back_ite ?_ fun _ => back_ite ?_ fun _ => hends rfl
    · rintro hb ⟨r, ⟨c, hdigits, hexponent⟩, hrest⟩
      exact ⟨r, ⟨c, .cons hb hdigits, hexponent⟩, hrest⟩
    · rintro hb ⟨r, hnum, hrest⟩
      exact ⟨r, ⟨b :: t, .nil _, RestNum.exponent hb hnum⟩, hrest⟩
  | exp =>
    refine back_ite ?_ fun _ => back_last ?_
    · rintro hb ⟨r, hdigits, hrest⟩
      exact ⟨r, .inr ⟨b, t, rfl, hb, hdigits⟩, hrest⟩
    · rintro hb ⟨r, hdigits, hrest⟩
      exact ⟨r, .inl (.intro hb hdigits), hrest⟩
  | expSign =>
    refine back_last ?_
    rintro hb ⟨r, hdigits, hrest⟩
    exact ⟨r, .intro hb hdigits, hrest⟩
  | expDigits =>
    refine back_ite ?_ fun _ => hends rfl
    rintro hb ⟨r, hdigits, hrest⟩
    exact ⟨r, .cons hb hdigits, hrest⟩

/-- The brackets that close an empty array or object. -/
lemma back_close {c : Prop} [Decidable c] (hclose : c → st ≠ [] → Rest st.tail t → P)
    (hx : Back t P x) : Back t P (if c then st.head?.map fun _ => ⟨.after, st.tail⟩ else x) := by
  by_cases hc : c
  · rw [if_pos hc]
    cases st with
    | nil => exact back_none
    | cons ctx st =>
      rintro _ ⟨⟩
      exact hclose hc nofun
  · rwa [if_neg hc]

/-- A step of the machine is a step back of the meaning. -/
lemma back_step {m : Mode} : Back t (Means st (b :: t) m) (step ⟨m, st⟩ b) := by
  cases m with
  | value => exact back_stepValue
  | key => exact back_stepKey
  | after => exact back_stepAfter
  | num n => exact back_stepNum
  | first =>
    refine back_ite ?_ fun _ => back_close ?_ fun s hs h => .inr (back_stepValue s hs h)
    · rintro hb (⟨r, hclose, hst, hrest⟩ | hvalue)
      · exact .inl ⟨r, .cons hb hclose, hst, hrest⟩
      · exact .inr (hvalue.ws hb)
    · rintro rfl hst hrest
      exact .inl ⟨t, .nil _, hst, hrest⟩
  | firstKey =>
    refine back_ite ?_ fun _ => back_close ?_ fun s hs h => .inr (back_stepKey s hs h)
    · rintro hb (⟨r, hclose, hst, hrest⟩ | hkey)
      · exact .inl ⟨r, .cons hb hclose, hst, hrest⟩
      · exact .inr (hkey.ws hb)
    · rintro rfl hst hrest
      exact .inl ⟨t, .nil _, hst, hrest⟩
  | colon =>
    refine back_ite ?_ fun _ => back_last ?_
    · rintro hb ⟨c, hcolon, hvalue⟩
      exact ⟨c, .cons hb hcolon, hvalue⟩
    · rintro rfl h
      exact ⟨t, .nil _, h⟩
  | str isKey =>
    refine back_ite ?_ fun _ => back_ite ?_ fun _ => back_last ?_
    · rintro rfl h
      refine ⟨t, .close t, ?_⟩
      cases isKey <;> exact h
    · rintro rfl h
      exact h
    · rintro hb ⟨r, hchars, hrest⟩
      exact ⟨r, .plain hb hchars, hrest⟩
  | esc isKey =>
    refine back_ite ?_ fun _ => back_last ?_
    · rintro hb ⟨r, hchars, hrest⟩
      exact ⟨r, .escape hb hchars, hrest⟩
    · rintro rfl ⟨r, ⟨c₁, _, rfl, h₁, c₂, _, rfl, h₂, c₃, _, rfl, h₃, c₄, s, rfl, h₄, hchars⟩,
        hrest⟩
      exact ⟨r, .unicode h₁ h₂ h₃ h₄ hchars, hrest⟩
  | hex isKey n =>
    cases n with
    | zero | succ n =>
      refine back_last ?_
      rintro hb ⟨r, hchars, hrest⟩
      exact ⟨r, ⟨b, t, rfl, hb, hchars⟩, hrest⟩
  | lit c rest =>
    cases rest with
    | nil =>
      refine back_last ?_
      rintro rfl h
      exact ⟨t, rfl, h⟩
    | cons d rest =>
      refine back_last ?_
      rintro rfl ⟨r, rfl, hrest⟩
      exact ⟨r, rfl, hrest⟩

/-- What the machine accepts has its meaning. -/
lemma means_of_accepts (h : accepts s t = true) : Means s.stack t s.mode := by
  induction t generalizing s with
  | nil =>
    obtain ⟨m, st⟩ := s
    obtain ⟨hmode, hstack⟩ : m.ends = true ∧ st.isEmpty = true := by
      simpa [accepts, run, State.final] using h
    obtain rfl := List.isEmpty_iff.1 hstack
    cases m with
    | after => exact .nil []
    | num n => exact ⟨[], restNum_ends hmode [], .nil []⟩
    | _ => cases hmode
  | cons b t ih =>
    unfold accepts run at h
    cases hs : step s b with
    | none => simp [hs] at h
    | some s' =>
      rw [hs] at h
      exact back_step s' hs (ih h)

end Steps

/-! ### Running the machine on what the grammar derives -/

section Runs

variable {st : List Ctx} {t r : Bytes} {s s' : State} {b : UInt8} {m m' : Mode} {isKey : Bool}
  {n : NumMode}

lemma run_cons (h : step s b = some s') (t : Bytes) : run s (b :: t) = run s' t := by
  change (step s b).bind _ = _
  rw [h]
  rfl

/-- Bytes that do not change the state. -/
lemma run_many {p : UInt8 → Bool} (hstep : ∀ b, p b = true → step s b = some s)
    (h : Many p t r) : run s t = run s r := by
  induction h with
  | nil => rfl
  | cons hb _ ih => rw [run_cons (hstep _ hb), ih]

/-- The modes in which white space is skipped. -/
def Mode.skips : Mode → Bool
  | .str _ | .esc _ | .hex _ _ | .num _ | .lit _ _ => false
  | _ => true

lemma run_ws (hm : m.skips = true) (h : Ws t r) : run ⟨m, st⟩ t = run ⟨m, st⟩ r := by
  refine run_many (fun b hb => ?_) h
  cases m with
  | value | first | key | firstKey | colon | after => exact if_pos hb
  | _ => cases hm

lemma step_plain (hb : isPlain b = true) : step ⟨.str isKey, st⟩ b = some ⟨.str isKey, st⟩ := by
  obtain ⟨⟨-, hquote⟩, hbackslash⟩ : (32 ≤ b ∧ b ≠ 34) ∧ b ≠ 92 := by simpa [isPlain] using hb
  dsimp only [step]
  rw [if_neg hquote, if_neg hbackslash, if_pos hb]

lemma step_escape (hb : isEscape b = true) :
    step ⟨.esc isKey, st⟩ b = some ⟨.str isKey, st⟩ := if_pos hb

/-- The mode behind a hexadecimal digit. -/
def Mode.afterHex (isKey : Bool) : Nat → Mode
  | 0 => .str isKey
  | n + 1 => .hex isKey n

lemma step_hex {n : Nat} (hb : isHex b = true) :
    step ⟨.hex isKey n, st⟩ b = some ⟨.afterHex isKey n, st⟩ := by
  dsimp only [step]
  rw [if_pos hb]
  cases n <;> rfl

/-- A character that is given by its number. -/
lemma run_unicode {a b c d : UInt8} (ha : isHex a = true) (hb : isHex b = true)
    (hc : isHex c = true) (hd : isHex d = true) (t : Bytes) :
    run ⟨.str isKey, st⟩ (92 :: 117 :: a :: b :: c :: d :: t) = run ⟨.str isKey, st⟩ t := by
  exact (run_cons (step_hex ha) _).trans ((run_cons (step_hex hb) _).trans
    ((run_cons (step_hex hc) _).trans (run_cons (step_hex hd) t)))

/-- A string is read to its end. -/
lemma run_chars (h : Chars t r) : run ⟨.str isKey, st⟩ t = run ⟨.closed isKey, st⟩ r := by
  induction h with
  | close r => exact run_cons rfl r
  | plain hb _ ih => rw [run_cons (step_plain hb), ih]
  | escape hb _ ih => rw [run_cons rfl, run_cons (step_escape hb), ih]
  | unicode ha hb hc hd _ ih =>
    rw [run_unicode ha hb hc hd, ih]

lemma run_digits (hn : n = .int ∨ n = .frac ∨ n = .expDigits) (h : Many isdigit t r) :
    run ⟨.num n, st⟩ t = run ⟨.num n, st⟩ r := by
  refine run_many (fun b hb => ?_) h
  obtain rfl | rfl | rfl := hn <;> exact if_pos hb

/-- At least one digit. -/
lemma run_digits_intro (hn : n = .int ∨ n = .frac ∨ n = .expDigits)
    (hfirst : ∀ b, isdigit b = true → step ⟨m, st⟩ b = some ⟨.num n, st⟩) (h : Digits t r) :
    run ⟨m, st⟩ t = run ⟨.num n, st⟩ r := by
  cases h with
  | intro hb hmany => rw [run_cons (hfirst _ hb), run_digits hn hmany]

lemma exp_cases (hb : isExp b = true) : b = 69 ∨ b = 101 := by simpa [isExp] using hb

lemma sign_cases (hb : isSign b = true) : b = 43 ∨ b = 45 := by simpa [isSign] using hb

/-- A digit is not a sign. -/
lemma not_sign_of_digit (hb : isdigit b = true) : ¬ isSign b = true := by
  intro hsign
  obtain rfl | rfl := sign_cases hsign <;> cases hb

/-- The exponent of a number is read to its end. -/
lemma run_exponent (hn : n = .zero ∨ n = .int ∨ n = .frac) (h : Exponent t r) :
    ∃ n', n'.ends = true ∧ run ⟨.num n, st⟩ t = run ⟨.num n', st⟩ r := by
  have hexp {e : UInt8} (he : isExp e = true) (t : Bytes) :
      run ⟨.num n, st⟩ (e :: t) = run ⟨.num .exp, st⟩ t := by
    refine run_cons ?_ t
    obtain rfl | rfl := exp_cases he <;> obtain rfl | rfl | rfl := hn <;> rfl
  cases h with
  | none =>
    refine ⟨n, ?_, rfl⟩
    obtain rfl | rfl | rfl := hn <;> rfl
  | unsigned he hdigits =>
    refine ⟨.expDigits, rfl, ?_⟩
    rw [hexp he]
    exact run_digits_intro (.inr (.inr rfl))
      (fun b hb => (if_neg (not_sign_of_digit hb)).trans (if_pos hb)) hdigits
  | @signed e s _ _ he hsign hdigits =>
    refine ⟨.expDigits, rfl, ?_⟩
    have hs : step ⟨.num .exp, st⟩ s = some ⟨.num .expSign, st⟩ := if_pos hsign
    rw [hexp he, run_cons hs]
    exact run_digits_intro (.inr (.inr rfl)) (fun b hb => if_pos hb) hdigits

/-- A number is read to its end from its point on. -/
lemma run_fraction (hn : n = .zero ∨ n = .int) (h : Fraction t r) :
    ∃ n', n'.ends = true ∧ run ⟨.num n, st⟩ t = run ⟨.num n', st⟩ r := by
  cases h with
  | none hexponent => exact run_exponent (hn.imp_right .inl) hexponent
  | some hdigits hexponent =>
    obtain ⟨n', hends, hrun⟩ := @run_exponent st _ _ .frac (.inr (.inr rfl)) hexponent
    refine ⟨n', hends, ?_⟩
    have hdot : step ⟨.num n, st⟩ 46 = some ⟨.num .dot, st⟩ := by
      obtain rfl | rfl := hn <;> rfl
    rw [run_cons hdot, ← hrun]
    exact run_digits_intro (.inr (.inl rfl)) (fun b hb => if_pos hb) hdigits

/-- A digit where a value is expected. -/
lemma stepValue_digit (hb : isdigit b = true) (hzero : b ≠ 48) :
    stepValue st b = some ⟨.num .int, st⟩ := by
  have hne {c : UInt8} (hc : isdigit c = false) : b ≠ c := by
    rintro rfl
    rw [hb] at hc
    cases hc
  have hws : ¬ isWs b = true := by
    simp [isWs, hne (c := 32) rfl, hne (c := 9) rfl, hne (c := 10) rfl, hne (c := 13) rfl]
  unfold stepValue
  rw [if_neg hws, if_neg (hne rfl), if_neg (hne rfl), if_neg (hne rfl), if_neg (hne rfl),
    if_neg hzero, if_pos hb]

/-- A number is read to its end. -/
lemma run_unsigned (hm : m = .value ∨ m = .num .minus) (h : Unsigned t r) :
    ∃ n, n.ends = true ∧ run ⟨m, st⟩ t = run ⟨.num n, st⟩ r := by
  cases h with
  | zero hfraction =>
    obtain ⟨n, hends, hrun⟩ := @run_fraction st _ _ .zero (.inl rfl) hfraction
    have hfirst : step ⟨m, st⟩ 48 = some ⟨.num .zero, st⟩ := by
      obtain rfl | rfl := hm <;> rfl
    exact ⟨n, hends, by rw [run_cons hfirst, hrun]⟩
  | @digits b t s _ hb hzero hmany hfraction =>
    obtain ⟨n, hends, hrun⟩ := @run_fraction st _ _ .int (.inr rfl) hfraction
    have hfirst : step ⟨m, st⟩ b = some ⟨.num .int, st⟩ := by
      obtain rfl | rfl := hm
      · exact stepValue_digit hb hzero
      · exact (if_neg hzero).trans (if_pos hb)
    exact ⟨n, hends, by rw [run_cons hfirst, run_digits (.inl rfl) hmany, hrun]⟩

lemma run_number (h : Number t r) :
    ∃ n, n.ends = true ∧ run ⟨.value, st⟩ t = run ⟨.num n, st⟩ r := by
  cases h with
  | pos hunsigned => exact run_unsigned (.inl rfl) hunsigned
  | neg hunsigned =>
    obtain ⟨n, hends, hrun⟩ := @run_unsigned st _ _ (.num .minus) (.inr rfl) hunsigned
    exact ⟨n, hends, by rw [run_cons rfl]; exact hrun⟩

/-- The bytes that may follow a value. -/
lemma stepAfter_cases (h : stepAfter st b = some s) :
    isWs b = true ∨ b = 44 ∨ b = 93 ∨ b = 125 := by
  unfold stepAfter at h
  split at h
  · rename_i hb
    exact .inl hb
  split at h
  · cases h
  all_goals
    split at h
    · rename_i hb
      exact .inr (.inl hb)
    split at h
    · rename_i hb
      simp [hb]
    · cases h

/-- What may follow a value may follow a number. -/
lemma stepNum_of_stepAfter (hn : n.ends = true) (h : stepAfter st b = some s) :
    stepNum st b n = some s := by
  have hb : isdigit b = false ∧ b ≠ 46 ∧ isExp b = false := by
    obtain hws | rfl | rfl | rfl := stepAfter_cases h
    · obtain ((rfl | rfl) | rfl) | rfl : ((b = 32 ∨ b = 9) ∨ b = 10) ∨ b = 13 := by
        simpa [isWs] using hws
      all_goals decide
    all_goals decide
  obtain ⟨hdigit, hdot, hexp⟩ := hb
  cases n with
  | minus | dot | exp | expSign => cases hn
  | _ => simpa [stepNum, hdigit, hdot, hexp] using h

/-- What follows a value. -/
lemma run_ends (hm : m.ends = true) (h : stepAfter st b = some s) (t : Bytes) :
    run ⟨m, st⟩ (b :: t) = run s t := by
  refine run_cons ?_ t
  cases m with
  | after => exact h
  | num n => exact stepNum_of_stepAfter hm h
  | _ => cases hm

/-- White space behind a value. -/
lemma run_ends_ws (hm : m.ends = true) (h : Ws t r) :
    ∃ m' : Mode, m'.ends = true ∧ run ⟨m, st⟩ t = run ⟨m', st⟩ r := by
  cases h with
  | nil => exact ⟨m, hm, rfl⟩
  | cons hb hws => exact ⟨.after, rfl, (run_ends hm (if_pos hb) _).trans (run_ws rfl hws)⟩

lemma run_literal {w : Bytes} (h : w ∈ literals) (r : Bytes) :
    run ⟨.value, st⟩ (w ++ r) = run ⟨.after, st⟩ r := by
  simp only [literals, List.mem_cons, List.not_mem_nil, or_false] at h
  obtain rfl | rfl | rfl := h <;> rfl

/-- Two modes that pass over blanks, and of which the second also takes a closing bracket. -/
lemma run_same {close : UInt8} (hm : ∀ b, isWs b = true → step ⟨m, st⟩ b = some ⟨m, st⟩)
    (hm' : ∀ b, isWs b = true → step ⟨m', st⟩ b = some ⟨m', st⟩)
    (hclose : step ⟨m, st⟩ close = none)
    (hsame : ∀ b, isWs b ≠ true → b ≠ close → step ⟨m', st⟩ b = step ⟨m, st⟩ b)
    (h : run ⟨m, st⟩ t = some s) (hs : s.mode ≠ m) : run ⟨m', st⟩ t = some s := by
  induction t with
  | nil =>
    obtain rfl := Option.some.inj h
    exact absurd rfl hs
  | cons b t ih =>
    by_cases hws : isWs b = true
    · rw [run_cons (hm b hws)] at h
      rw [run_cons (hm' b hws)]
      exact ih h
    · obtain ⟨u, hu, hrun⟩ := Option.bind_eq_some_iff.mp h
      have hne : b ≠ close := by
        rintro rfl
        cases hclose.symm.trans hu
      rw [run_cons ((hsame b hws hne).trans hu)]
      exact hrun

/-- Where an array begins, a value is read as anywhere. -/
lemma run_first (h : run ⟨.value, st⟩ t = some s) (hs : s.mode ≠ .value) :
    run ⟨.first, st⟩ t = some s :=
  run_same (m := .value) (fun _ hb => if_pos hb) (fun _ hb => if_pos hb) rfl
    (fun _ hb hclose => (if_neg hb).trans (if_neg hclose)) h hs

/-- Where an object begins, a key is read as anywhere. -/
lemma run_firstKey (h : run ⟨.key, st⟩ t = some s) (hs : s.mode ≠ .key) :
    run ⟨.firstKey, st⟩ t = some s :=
  run_same (m := .key) (fun _ hb => if_pos hb) (fun _ hb => if_pos hb) rfl
    (fun _ hb hclose => (if_neg hb).trans (if_neg hclose)) h hs

lemma Mode.ne_of_ends (hm : m.ends = true) (hm' : m'.ends = false) : m ≠ m' := by
  rintro rfl
  exact Bool.false_ne_true (hm'.symm.trans hm)

end Runs

/-! ### The theorem -/

/-- What the machine expects in front of a nonterminal. -/
def Kind.mode : Kind → Mode
  | .value | .element | .elements => .value
  | .member | .members => .key

/-- What is open around a nonterminal. -/
def Kind.stack (st : List Ctx) : Kind → List Ctx
  | .value | .element => st
  | .elements => .array :: st
  | .member | .members => .object :: st

/-- The machine reads what the grammar derives: behind it, it goes on as behind a value. -/
lemma Gram.run {k : Kind} {t r : Bytes} (h : Gram k t r) (st : List Ctx) :
    ∃ m : Mode, m.ends = true ∧ ∀ s : State, s.mode.ends = true →
      Json.run ⟨m, k.stack st⟩ r = some s → Json.run ⟨k.mode, k.stack st⟩ t = some s := by
  induction h generalizing st with
  | string hchars =>
    refine ⟨.after, rfl, fun s _ hr => Eq.trans ?_ hr⟩
    exact (run_cons rfl _).trans (run_chars hchars)
  | number hnumber =>
    obtain ⟨n, hn, hrun⟩ := @run_number st _ _ hnumber
    exact ⟨.num n, hn, fun s _ hr => hrun.trans hr⟩
  | literal r hw => exact ⟨.after, rfl, fun s _ hr => (run_literal hw r).trans hr⟩
  | emptyArray hws | emptyObject hws =>
    refine ⟨.after, rfl, fun s _ hr => Eq.trans ?_ hr⟩
    exact (run_cons rfl _).trans ((run_ws rfl hws).trans (run_cons rfl _))
  | array _ ih =>
    obtain ⟨m, hm, hrun⟩ := ih st
    refine ⟨.after, rfl, fun s hs hr => (run_cons rfl _).trans ?_⟩
    exact run_first (hrun s hs ((run_ends hm rfl _).trans hr)) (Mode.ne_of_ends hs rfl)
  | object _ ih =>
    obtain ⟨m, hm, hrun⟩ := ih st
    refine ⟨.after, rfl, fun s hs hr => (run_cons rfl _).trans ?_⟩
    exact run_firstKey (hrun s hs ((run_ends hm rfl _).trans hr)) (Mode.ne_of_ends hs rfl)
  | element hws _ hws' ih =>
    obtain ⟨m, hm, hrun⟩ := ih st
    obtain ⟨m', hm', hrun'⟩ := @run_ends_ws st _ _ _ hm hws'
    exact ⟨m', hm', fun s hs hr => (run_ws rfl hws).trans (hrun s hs (hrun'.trans hr))⟩
  | lastElement _ ih => exact ih (.array :: st)
  | elements _ _ ih ih' =>
    obtain ⟨m, hm, hrun⟩ := ih (.array :: st)
    obtain ⟨m', hm', hrun'⟩ := ih' st
    exact ⟨m', hm', fun s hs hr => hrun s hs ((run_ends hm rfl _).trans (hrun' s hs hr))⟩
  | member hws hchars hcolon _ ih =>
    obtain ⟨m, hm, hrun⟩ := ih (.object :: st)
    refine ⟨m, hm, fun s hs hr => Eq.trans ?_ (hrun s hs hr)⟩
    exact (run_ws rfl hws).trans ((run_cons rfl _).trans ((run_chars hchars).trans
      ((run_ws rfl hcolon).trans (run_cons rfl _))))
  | lastMember _ ih => exact ih st
  | members _ _ ih ih' =>
    obtain ⟨m, hm, hrun⟩ := ih st
    obtain ⟨m', hm', hrun'⟩ := ih' st
    exact ⟨m', hm', fun s hs hr => hrun s hs ((run_ends hm rfl _).trans (hrun' s hs hr))⟩

/-- The machine accepts the JSON texts. -/
theorem accepts_iff (t : Bytes) : accepts start t = true ↔ IsJson t := by
  constructor
  · intro h
    obtain ⟨a, b, hws, hvalue, hrest⟩ := means_of_accepts h
    exact .element hws hvalue hrest
  · intro h
    obtain ⟨m, hm, hrun⟩ := h.run []
    have hend : run start t = some ⟨m, []⟩ := hrun ⟨m, []⟩ hm rfl
    rw [accepts, hend]
    simpa [State.final] using hm

end AtlasProbe.Json
