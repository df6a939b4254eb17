import AtlasProbe.Measurement.Host
import AtlasProbe.Lib.Json.Members

/-!
# Results as JSON

The parts of a result that the measurements have in common are JSON.  A piece of text is a value,
a member or leads from one place of a text to another, and it is not too long for its line
(`Within`, `Within.line`); `within_key` and `Within.key` put members together.

If the texts of the host may be printed (`Host.Tidy`), then the identifiers stand in front of other
members (`startsMembers_identText`), and what `report` writes is the word `RESULT` and JSON as soon
as the list of the results is the elements of an array (`isResult_resultText`).
-/

namespace AtlasProbe.Measurement

open List Json

/-! ### Members -/

/-- A text that may stand in quotes, of limited length. -/
def Short (n : ℕ) (t : Bytes) : Prop := Plain t ∧ t.length ≤ n

instance decidableShort (n : ℕ) (t : Bytes) : Decidable (Short n t) := instDecidableAnd

section Members

variable {t u : Bytes} {n k : ℕ} {P Q R : Bytes → Prop} (name : String)

lemma Short.append (ht : Short n t) (hu : Short k u) :
    Short (n + k) (t ++ u) := by
  refine ⟨fun b hb => (mem_append.mp hb).elim (ht.1 b) (hu.1 b), ?_⟩
  rw [length_append]
  exact Nat.add_le_add ht.2 hu.2

lemma short_natText (h : n < 10 ^ (k + 1)) : Short (k + 1) (natText n) := by
  exact ⟨fun d hd => isPlain_of_isdigit (isdigit_of_mem_natText n d hd), length_natText_le h⟩

lemma key_append (t : Bytes) : key name ++ t = 34 :: (ascii name ++ 34 :: 58 :: t) := by
  unfold key
  rw [append_assoc]
  rfl

lemma length_key : (key name).length = (ascii name).length + 3 := by
  unfold key
  rw [length_append, length_append, Nat.add_comm _ (ascii name).length]
  rfl

lemma length_quoted (t : Bytes) : (quoted t).length = t.length + 2 := by
  unfold quoted
  rw [length_append, length_append, Nat.add_comm _ t.length]
  rfl

lemma length_comma : (ascii ", ").length = 2 := rfl

lemma line_of_lt (h : t.length < 80) : line t = t := snprintf_of_lt h

lemma isValue_quoted (h : Plain t) : IsValue (quoted t) := by
  unfold quoted
  exact h.content.isValue

lemma isValue_natText (n : ℕ) : IsValue (natText n) := (isNumber_natText n).isValue

lemma isValue_intText (n : ℤ) : IsValue (intText n) := (isNumber_intText n).isValue

/-- A key with its value. -/
lemma startsMembers_key (h : IsValue t) (hname : decide (Plain (ascii name))) :
    StartsMembers (key name ++ t) := by
  rw [key_append]
  exact startsMembers_member (of_decide_eq_true hname) h

/-- Members behind others. -/
lemma addsMembers_comma (h : StartsMembers t) : AddsMembers (ascii ", " ++ t) := h.blank.comma

lemma startsMembers_next (hu : StartsMembers u) (h : StartsMembers t) :
    StartsMembers (u ++ ascii ", " ++ t) := by
  rw [append_assoc]
  exact hu.append (addsMembers_comma h)

/-- A further key with its value. -/
lemma addsMembers_key (h : IsValue t) (hname : decide (Plain (ascii name))) :
    AddsMembers (ascii ", " ++ key name ++ t) := addsMembers_comma (startsMembers_key name h hname)

/-- A further key with its value, behind other members. -/
lemma behind_key (hP : ∀ {u t}, P u → AddsMembers t → P (u ++ t)) (hu : P u) (name : String)
    (h : IsValue t) (hname : decide (Plain (ascii name))) :
    P (u ++ ascii ", " ++ key name ++ t) := by
  have hall := hP hu (addsMembers_key name h hname)
  simpa only [append_assoc] using hall

/-! ### Lines -/

/-- A text with a property, of limited length. -/
def Within (n : ℕ) (P : Bytes → Prop) (t : Bytes) : Prop := P t ∧ t.length ≤ n

lemma within_self (h : P t) : Within t.length P t := ⟨h, le_rfl⟩

lemma Within.append (hR : ∀ {t u}, P t → Q u → R (t ++ u)) (ht : Within n P t)
    (hu : Within k Q u) : Within (n + k) R (t ++ u) := by
  refine ⟨hR ht.1 hu.1, ?_⟩
  rw [length_append]
  exact Nat.add_le_add ht.2 hu.2

lemma within_quoted (h : Short n t) : Within (n + 2) IsValue (quoted t) :=
  ⟨isValue_quoted h.1, (length_quoted t).trans_le (Nat.add_le_add_right h.2 2)⟩

lemma within_natText (h : n < 10 ^ (k + 1)) : Within (k + 1) IsValue (natText n) :=
  ⟨isValue_natText n, length_natText_le h⟩

lemma within_intText {n : ℤ} (h : n.natAbs < 10 ^ (k + 1)) : Within (k + 2) IsValue (intText n) :=
  ⟨isValue_intText n, length_intText_le h⟩

lemma within_key (h : Within n IsValue t) (hname : decide (Plain (ascii name))) :
    Within ((ascii name).length + 3 + n) StartsMembers (key name ++ t) := by
  refine ⟨startsMembers_key name h.1 hname, ?_⟩
  rw [length_append, length_key]
  exact Nat.add_le_add_left h.2 _

lemma within_comma (h : Within n StartsMembers t) : Within (n + 2) AddsMembers (ascii ", " ++ t) :=
  ⟨addsMembers_comma h.1, Nat.add_le_add_right h.2 2⟩

lemma Within.key (hP : ∀ {u t}, P u → AddsMembers t → P (u ++ t)) (hu : Within k P u)
    (name : String) (h : Within n IsValue t) (hname : decide (Plain (ascii name))) :
    Within (k + ((ascii name).length + 3 + n + 2)) P (u ++ ascii ", " ++ key name ++ t) := by
  rw [append_assoc, append_assoc]
  exact hu.append hP (within_comma (within_key name h hname))

/-- The line is long enough. -/
lemma Within.line (h : Within n P t) (hn : n < 80) : P (line t) := by
  rw [line_of_lt (h.2.trans_lt hn)]
  exact h.1

/-- A text with an error instead of a list of results. -/
lemma isElements_error (h : Short n t) {size : ℕ} (hsize : n + 15 ≤ size) :
    IsElements (snprintf size (ascii "\x7b " ++ Measurement.key "error" ++ quoted t ++
      ascii " \x7d")) := by
  have hmember := startsMembers_key "error" (isValue_quoted h.1) rfl
  have hobject := hmember.object.elements addsElements_nil
  have hlength := h.2
  rw [append_nil] at hobject
  rw [snprintf_of_lt]
  · exact hobject
  · have hparts : (ascii "\x7b ").length = 2 ∧ (ascii "error").length = 5 ∧
        (ascii " \x7d").length = 2 := ⟨rfl, rfl, rfl⟩
    simp only [length_append, length_quoted, length_key]
    omega

end Members

/-! ### Identifiers -/

/-- The texts of the host may stand in quotes, and are not too long for their lines. -/
structure Host.Tidy (host : Host) : Prop where
  strerror : ∀ e, Short 42 (host.strerror e)
  inetNtop : ∀ addr, Short 45 (host.inetNtop addr)
  getnameinfo : ∀ addr, Plain (host.getnameinfo addr)
  msmVersion : Short 51 host.msmVersion

lemma tidy_plainHost : plainHost.Tidy := by
  have herror : Short 42 (ascii "error") := by decide
  have haddr : Short 45 (ascii "::1") := by decide
  have hname : Plain (ascii "127.0.0.1") := by decide
  exact ⟨fun _ => herror, fun _ => haddr, fun _ => hname, by decide⟩

section Ident

variable {host : Host} {atlas bundle : Option CString} {times rest : Bytes}

/-- An identifier that has passed the check may stand in quotes. -/
lemma plain_of_validateAtlasId (h : ¬(!atlas.all (validateAtlasId ·.bytes)) = true) :
    ∀ id ∈ atlas, Plain id.bytes := by
  rintro id rfl b hb
  have hvalid : validateAtlasId id.bytes = true := by simpa using h
  exact isPlain_of_isdigit (all_eq_true.mp hvalid b hb)

lemma startsMembers_versionText {fwVersion : Int32} {msmVersion : Bytes} (h : Plain msmVersion)
    (hfits : (intText fwVersion.toInt).length + msmVersion.length + 17 < 80) :
    StartsMembers (versionText fwVersion msmVersion) := by
  have hfw := within_key "fw" (within_self (isValue_intText fwVersion.toInt)) rfl
  have hblank : Within (msmVersion.length + 3) IsValue (ascii " " ++ quoted msmVersion) :=
    ⟨(isValue_quoted h).blank, Nat.succ_le_succ (length_quoted msmVersion).le⟩
  have hmver := hfw.key StartsMembers.append "mver" hblank rfl
  rw [← append_assoc] at hmver
  refine hmver.line ?_
  have hnames : (ascii "fw").length = 2 ∧ (ascii "mver").length = 4 := ⟨rfl, rfl⟩
  omega

lemma Host.Tidy.startsMembers_versionText (h : host.Tidy) :
    StartsMembers (versionText host.fwVersion host.msmVersion) := by
  have hlow := host.fwVersion.le_toInt
  have hhigh := host.fwVersion.toInt_lt
  have hfw := length_intText_le (k := 9) (n := host.fwVersion.toInt) (by omega)
  have hmver := h.msmVersion.2
  exact Measurement.startsMembers_versionText h.msmVersion.1 (by omega)

/-- The members for the identifiers and the times stand in front of others.  The bundle is printed
without quotes. -/
lemma startsMembers_identText (hhost : host.Tidy) (hatlas : ∀ id ∈ atlas, Plain id.bytes)
    (hbundle : ∀ id ∈ atlas, ∀ id ∈ bundle, IsNumber id.bytes) (timesync : Int32)
    (htimes : StartsMembers times) (hrest : StartsMembers rest) :
    StartsMembers (identText host atlas bundle timesync times ++ rest) := by
  unfold identText
  cases atlas with
  | none => exact hrest
  | some id =>
    have hid := startsMembers_next (startsMembers_key "id" (isValue_quoted (hatlas id rfl)) rfl)
      (hhost.startsMembers_versionText)
    have hlts := behind_key StartsMembers.append hid "lts" (isValue_intText timesync.toInt) rfl
    rw [append_assoc]
    refine startsMembers_next (startsMembers_next hlts htimes) ?_
    cases bundle with
    | none => exact hrest
    | some bundle =>
      exact startsMembers_next (startsMembers_key _ (hbundle id rfl bundle rfl).isValue rfl) hrest

end Ident

/-! ### Results -/

/-- The word `RESULT` and JSON. -/
def IsResult (text : Bytes) : Prop := ∃ body, text = ascii "RESULT " ++ body ∧ IsJson body

/-- With the elements of an array as its list, a result is JSON. -/
lemma isResult_resultText {ident members result : Bytes} {hostname : CString}
    (hident : ∀ {rest}, StartsMembers rest → StartsMembers (ident ++ rest))
    (hname : Plain hostname.bytes) (hmembers : AddsMembers members) (hresult : IsElements result) :
    IsResult (resultText ident hostname members result) := by
  have hlist := addsMembers_key "result" hresult.blank.isValue.blank rfl
  have hdst := startsMembers_key "dst_name" (isValue_quoted hname) rfl
  refine ⟨_, ?_, (hident ((hdst.append hmembers).append hlist)).object.isJson⟩
  have hopen : ascii "RESULT \x7b " = ascii "RESULT " ++ [123, 32] := rfl
  have hbracket : ascii " [ " = [32, 91, 32] := rfl
  have hend : ascii " ] \x7d\n" = [32, 93, 32, 125, 10] := rfl
  unfold resultText
  rw [hopen, hbracket, hend]
  simp only [append_assoc, cons_append, nil_append]

/-- The message of a name resolution that has failed is not too long, and one that has not failed
has given an address. -/
def DnsResult.Tidy : DnsResult → Prop
  | .failed message => Short 121 message
  | .resolved _ _ => True
  | .noAddr => False

/-- A text that the machine rejects is not JSON. -/
lemma exists_not_isJson {texts : List Bytes}
    (h : texts.all (fun text => accepts start (text.drop 7)) = false) :
    ∃ text ∈ texts, ∀ body, text = ascii "RESULT " ++ body → ¬IsJson body := by
  obtain ⟨text, htext, hrejects⟩ := all_eq_false.mp h
  refine ⟨text, htext, ?_⟩
  rintro body rfl hjson
  exact hrejects ((accepts_iff _).2 hjson)

end AtlasProbe.Measurement
