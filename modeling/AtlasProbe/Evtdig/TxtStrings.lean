import AtlasProbe.Evtdig.JsonLines

/-!
# Text records can be read back

What `print_txt_json` prints is an array with one string for each character-string of the record
(`readStrings_txtArray`).  The bytes that are given by their numbers have one backslash in front
when the string has been unescaped (`shown`).
-/

namespace AtlasProbe.Evtdig

open List Json

/-! ### Reading an array of strings -/

/-- What is expected in an array of strings: the array, a string, more of a string, the character
behind a backslash, a comma, or the end. -/
inductive Expected where
  | array
  | string
  | text
  | escaped
  | comma
  | nothing

/-- The byte that an escape of two characters stands for. -/
def unescaped (b : UInt8) : Option UInt8 :=
  lookup b [(34, 34), (47, 47), (92, 92), (98, 8), (102, 12), (110, 10), (114, 13), (116, 9)]

/-- Read an array of strings, of which `now` has been read in part, and unescape them.  Characters
that are escaped by their numbers are left out. -/
def readStrings : Expected → Bytes → Bytes → Option (List Bytes)
  | .nothing, _, [] => some []
  | _, _, [] => none
  | .array, now, b :: t =>
    if b = 91 then readStrings .string now t
    else if isWs b then readStrings .array now t else none
  | .string, now, b :: t =>
    if b = 34 then readStrings .text [] t
    else if isWs b then readStrings .string now t else none
  | .text, now, b :: t =>
    if b = 34 then (readStrings .comma [] t).map (now :: ·)
    else if b = 92 then readStrings .escaped now t
    else if isPlain b then readStrings .text (now ++ [b]) t else none
  | .escaped, now, b :: t => (unescaped b).bind fun c => readStrings .text (now ++ [c]) t
  | .comma, now, b :: t =>
    if b = 44 then readStrings .string now t
    else if b = 93 then readStrings .nothing now t
    else if isWs b then readStrings .comma now t else none
  | .nothing, now, b :: t => if isWs b then readStrings .nothing now t else none

/-- The number of three decimal digits. -/
def threeDigits (a b c : UInt8) : ℕ :=
  100 * (a.toNat - 48) + 10 * (b.toNat - 48) + (c.toNat - 48)

/-- Replace every backslash with three digits by the byte with that number. -/
def unnumbered : Bytes → Bytes
  | 92 :: a :: b :: c :: t =>
    if isdigit a && isdigit b && isdigit c && threeDigits a b c < 256 then
      .ofNat (threeDigits a b c) :: unnumbered t
    else 92 :: unnumbered (a :: b :: c :: t)
  | b :: t => b :: unnumbered t
  | [] => []

/-- The data of a text record: every character-string has its length in front. -/
def txtRdata (strings : List Bytes) : Bytes :=
  strings.flatMap fun s => .ofNat s.length :: s

/-! ### One byte -/

/-- A byte of a text record when its string has been unescaped. -/
def shown (b : UInt8) : Bytes :=
  if b ≠ 34 ∧ b ≠ 92 ∧ 32 ≤ b ∧ b ≤ 126 then [b]
  else 92 :: (natText (b.toNat / 100) ++ natText (b.toNat / 10 % 10) ++ natText (b.toNat % 10))

lemma exists_threeDigits (b : UInt8) : ∃ x y z,
    natText (b.toNat / 100) ++ natText (b.toNat / 10 % 10) ++ natText (b.toNat % 10) = [x, y, z] ∧
      isdigit x = true ∧ isdigit y = true ∧ isdigit z = true ∧ threeDigits x y z = b.toNat := by
  have hdigit : ∀ n < 10, natText n = [.ofNat (48 + n)] ∧ isdigit (.ofNat (48 + n)) = true ∧
      (UInt8.ofNat (48 + n)).toNat - 48 = n := by decide +kernel
  have hlt := b.toNat_lt
  obtain ⟨hx, hx', hvx⟩ := hdigit (b.toNat / 100) (by omega)
  obtain ⟨hy, hy', hvy⟩ := hdigit (b.toNat / 10 % 10) (by omega)
  obtain ⟨hz, hz', hvz⟩ := hdigit (b.toNat % 10) (by omega)
  refine ⟨_, _, _, by rw [hx, hy, hz]; rfl, hx', hy', hz', ?_⟩
  rw [threeDigits, hvx, hvy, hvz]
  omega

lemma readStrings_plain {b : UInt8} (hb : isPlain b = true) (now t : Bytes) :
    readStrings .text now (b :: t) = readStrings .text (now ++ [b]) t := by
  have hne : b ≠ 34 ∧ b ≠ 92 := by
    constructor <;> rintro rfl <;> exact absurd hb (by decide)
  rw [readStrings, if_neg hne.1, if_neg hne.2, if_pos hb]

lemma readStrings_txtByte (b : UInt8) (now t : Bytes) :
    readStrings .text now (txtByte b ++ t) = readStrings .text (now ++ shown b) t := by
  unfold txtByte shown
  split
  · next hplain =>
    obtain ⟨hquote, hbackslash, hcontrol, -⟩ := hplain
    exact readStrings_plain (by simp [isPlain, hquote, hbackslash, hcontrol]) now t
  · obtain ⟨x, y, z, hdigits, hx, hy, hz, -⟩ := exists_threeDigits b
    rw [append_assoc (ascii _), append_assoc (ascii _), hdigits]
    change readStrings .text (now ++ [92]) (x :: y :: z :: t) = _
    rw [readStrings_plain (isPlain_of_isdigit hx), readStrings_plain (isPlain_of_isdigit hy),
      readStrings_plain (isPlain_of_isdigit hz)]
    simp only [append_assoc, cons_append, nil_append]

lemma unnumbered_shown (b : UInt8) (t : Bytes) :
    unnumbered (shown b ++ t) = b :: unnumbered t := by
  unfold shown
  split
  · next hplain =>
    rw [singleton_append, unnumbered]
    exact fun _ _ _ _ hb _ => hplain.2.1 hb
  · obtain ⟨x, y, z, hdigits, hx, hy, hz, hvalue⟩ := exists_threeDigits b
    have hlt : threeDigits x y z < 256 := hvalue ▸ b.toNat_lt
    rw [hdigits, cons_append, cons_append, cons_append, cons_append, nil_append, unnumbered, hx, hy,
      hz, decide_eq_true hlt, hvalue, UInt8.ofNat_toNat]
    rfl

/-! ### The strings of a record -/

lemma readStrings_txt (s now t : Bytes) :
    readStrings .text now (s.flatMap txtByte ++ t) =
      readStrings .text (now ++ s.flatMap shown) t := by
  induction s generalizing now with
  | nil => rw [flatMap_nil, flatMap_nil, nil_append, append_nil]
  | cons b s ih =>
    rw [flatMap_cons, flatMap_cons, append_assoc, readStrings_txtByte, ih, append_assoc]

lemma unnumbered_flatMap (s : Bytes) : unnumbered (s.flatMap shown) = s := by
  induction s with
  | nil => rfl
  | cons b s ih => rw [flatMap_cons, unnumbered_shown, ih]

lemma txtLoop_string (s rdata : Bytes) :
    txtLoop (some s.length) (s ++ rdata) = s.flatMap txtByte ++ txtLoop (some 0) rdata := by
  induction s with
  | nil => rfl
  | cons b s ih => rw [cons_append, length_cons, txtLoop, ih, flatMap_cons, append_assoc]

lemma toNat_ofNat_length {s : Bytes} (hs : s.length ≤ 255) :
    (UInt8.ofNat s.length).toNat = s.length := by
  rw [UInt8.toNat_ofNat', Nat.mod_eq_of_lt (by omega)]

/-- The loop prints one string for each character-string. -/
lemma readStrings_txtLoop {ss : List Bytes} (hss : ∀ s ∈ ss, s.length ≤ 255)
    (s : Bytes) :
    readStrings .text [] (txtLoop (some s.length) (s ++ txtRdata ss) ++ ascii "\" ] ") =
      some ((s :: ss).map (·.flatMap shown)) := by
  induction ss generalizing s with
  | nil =>
    rw [txtLoop_string, append_assoc, readStrings_txt]
    rfl
  | cons s' ss ih =>
    obtain ⟨hs', hss⟩ := forall_mem_cons.1 hss
    rw [txtLoop_string, append_assoc, readStrings_txt, txtRdata, flatMap_cons, cons_append, txtLoop,
      toNat_ofNat_length hs', append_assoc]
    change (readStrings .text [] (txtLoop _ (s' ++ txtRdata ss) ++ _)).map _ = _
    rw [ih hss]
    rfl

/-- The array that `print_txt_json` prints. -/
def txtArray (rdata : Bytes) : Bytes :=
  ascii "[ \"" ++ txtLoop none rdata ++ ascii "\" ] "

lemma printTxtJson_eq (rdata : Bytes) :
    printTxtJson rdata = ascii "\"RDATA\" : " ++ txtArray rdata := by
  have hopen : ascii "\"RDATA\" : [ \"" = ascii "\"RDATA\" : " ++ ascii "[ \"" := rfl
  unfold printTxtJson txtArray
  rw [hopen, append_assoc, append_assoc, append_assoc]

lemma isJson_txtArray (rdata : Bytes) : IsJson (txtArray rdata) := by
  have hopen : run start (ascii "[ \"") = some ⟨.str false, [.array]⟩ := rfl
  refine (accepts_iff _).1 ?_
  unfold accepts txtArray
  rw [append_assoc, run_append_of_some hopen, run_append_of_some (run_txtLoop none rdata)]
  rfl

lemma readStrings_txtArray {strings : List Bytes} (hne : strings ≠ [])
    (hlength : ∀ s ∈ strings, s.length ≤ 255) :
    (readStrings .array [] (txtArray (txtRdata strings))).map (·.map unnumbered) =
      some strings := by
  obtain ⟨s, ss, rfl⟩ := exists_cons_of_ne_nil hne
  obtain ⟨hs, hss⟩ := forall_mem_cons.1 hlength
  have hread := readStrings_txtLoop hss s
  have hstart : readStrings .array [] (txtArray (txtRdata (s :: ss))) =
      readStrings .text [] (txtLoop (some (UInt8.ofNat s.length).toNat) (s ++ txtRdata ss) ++
        ascii "\" ] ") := rfl
  rw [hstart, toNat_ofNat_length hs, hread, Option.map_some, map_map]
  exact congrArg some (map_id'' unnumbered_flatMap _)

/-- The array for a text record is JSON.  Its strings, when they are unescaped and the bytes that
are given by their numbers are put back, are the character-strings of the record; so records that
are different are printed differently. -/
theorem printTxtJson_faithful {strings : List Bytes} (hne : strings ≠ [])
    (hlength : ∀ s ∈ strings, s.length ≤ 255) :
    (∃ array, printTxtJson (txtRdata strings) = ascii "\"RDATA\" : " ++ array ∧ IsJson array ∧
      (readStrings .array [] array).map (·.map unnumbered) = some strings) ∧
    ∀ strings', strings' ≠ [] → (∀ s ∈ strings', s.length ≤ 255) →
      printTxtJson (txtRdata strings') = printTxtJson (txtRdata strings) → strings' = strings := by
  have hread := readStrings_txtArray hne hlength
  refine ⟨⟨_, printTxtJson_eq _, isJson_txtArray _, hread⟩, fun strings' hne' hlength' h => ?_⟩
  have hread' := readStrings_txtArray hne' hlength'
  rw [printTxtJson_eq, printTxtJson_eq] at h
  rw [append_cancel_left h, hread] at hread'
  exact (Option.some.inj hread').symm

/-- An empty string, and one with a quote and a text that looks like a number. -/
theorem printTxtJson_faithful_quote :
    ∃ array, printTxtJson (txtRdata [[], [34, 92, 48, 48, 49]]) = ascii "\"RDATA\" : " ++ array ∧
      IsJson array ∧ (readStrings .array [] array).map (·.map unnumbered) =
        some [[], [34, 92, 48, 48, 49]] :=
  (printTxtJson_faithful (by decide) (by decide)).1

end AtlasProbe.Evtdig
