import AtlasProbe.Evtdig.JsonLines
import AtlasProbe.Lib.Json.Members

/-!
# The description of a reply is read by the JSON machine

The names in the answers come from the reply and are printed as they are; they may be cut off with
the line they are in (`Answer.Fits`, `Answer.Tame`).  The list of the answers is not closed when the
message turns out to be truncated behind an answer that has been printed (`Reply.Safe`).  All else
is read as it is meant to be (`readsIf_replyText`).
-/

namespace AtlasProbe.Evtdig

open List Json

/-! ### Answers -/

section Answers

variable {st : List Ctx} {s : State} {flagAnswer k : ℕ} {a : Answer} {as : List Answer}
  {key : String}

/-- The names in an answer may be printed: they may stand between quotes, and the comma behind them
is in the line. -/
def Answer.Fits : Answer → Prop
  | .txt name _ => IsContent name ∧ name.length ≤ 242
  | .soa name _ mname rname _ =>
    (IsContent name ∧ name.length ≤ 241) ∧ (IsContent mname ∧ mname.length ≤ 240) ∧
      (IsContent rname ∧ rname.length ≤ 240)
  | .other => True

/-- The names in an answer do not end the strings they are printed in. -/
def Answer.Tame : Answer → Prop
  | .txt name _ => Json.Tame name
  | .soa name _ mname rname _ => Json.Tame name ∧ Json.Tame mname ∧ Json.Tame rname
  | .other => True

/-- The state of the machine when `flagAnswer` answers have been counted: the list of the answers is
open, or there is none. -/
def Between (st : List Ctx) (flagAnswer : ℕ) (s : State) : Prop :=
  if flagAnswer = 0 then s.mode.ends = true ∧ s.stack = .object :: st
  else s = ⟨.after, .array :: .object :: st⟩

lemma between_zero {m : Mode} (hm : m.ends = true) : Between st 0 ⟨m, .object :: st⟩ := ⟨hm, rfl⟩

lemma between_pos (h : 0 < flagAnswer) (hs : Between st flagAnswer s) :
    s = ⟨.after, .array :: .object :: st⟩ := by
  unfold Between at hs
  rwa [if_neg (by omega)] at hs

lemma between_open (h : 0 < flagAnswer) :
    Between st flagAnswer ⟨.after, .array :: .object :: st⟩ := by
  unfold Between
  rw [if_neg (by omega)]

/-- The bracket in front of an answer; `first` and `next` are the two texts for it. -/
lemma run_answer_open {first next : Bytes} (hs : Between st flagAnswer s)
    (hcomma : ∃ t, first = 44 :: t)
    (hfirst : run ⟨.after, .object :: st⟩ first =
      some ⟨.firstKey, .object :: .array :: .object :: st⟩)
    (hnext : run ⟨.after, .array :: .object :: st⟩ next =
      some ⟨.firstKey, .object :: .array :: .object :: st⟩) :
    run s (if flagAnswer = 0 then first else next) =
      some ⟨.firstKey, .object :: .array :: .object :: st⟩ := by
  by_cases hflag : flagAnswer = 0
  · obtain ⟨m, st'⟩ := s
    obtain ⟨hm, rfl⟩ : m.ends = true ∧ st' = .object :: st := by
      simpa only [Between, if_pos hflag] using hs
    obtain ⟨t, rfl⟩ := hcomma
    rw [if_pos hflag, run_ends hm rfl]
    exact hfirst
  · rw [between_pos (Nat.pos_of_ne_zero hflag) hs, if_neg hflag]
    exact hnext

/-- A name in front of another key; `k` bytes of it fit the line. -/
lemma readsIf_js {name u : Bytes} (htame : Json.Tame name) (hu : StartsKey u)
    (hk : (keyText key).length + k + 5 = lineLength) (hkey : Plain (ascii key)) :
    ReadsIf (IsContent name ∧ name.length ≤ k) ⟨.key, .object :: st⟩ (js key name ++ u)
      (run ⟨.key, .object :: st⟩ u) := by
  have hline : lineLength = 256 := rfl
  constructor
  · rintro ⟨hname, hle⟩
    exact run_append_of_some (run_js hname (by omega) (.inl rfl) hkey) u
  · intro hbad
    exact run_js_stuck hkey (by omega) htame (fun h => hbad ⟨h.1, by omega⟩) hu

lemma readsIf_jsdot {name u : Bytes} (htame : Json.Tame name) (hu : StartsKey u)
    (hk : (keyText key).length + k + 6 = lineLength) (hkey : Plain (ascii key)) :
    ReadsIf (IsContent name ∧ name.length ≤ k) ⟨.key, .object :: st⟩ (jsdot key name ++ u)
      (run ⟨.key, .object :: st⟩ u) := by
  have hdot : (name ++ ascii ".").length = name.length + 1 := length_append
  have hcontent : IsContent (name ++ ascii ".") ↔ IsContent name := isContent_dot
  have htame : Json.Tame (name ++ ascii ".") := htame.dot
  rw [jsdot_eq]
  refine (readsIf_js (k := k + 1) htame hu (by omega) hkey).congr ?_
  rw [hcontent, hdot, Nat.add_le_add_iff_right]

/-- A text record. -/
lemma readsIf_txt {name rdata : Bytes} (hs : Between st flagAnswer s)
    (htame : (Answer.txt name rdata).Tame) :
    ReadsIf (Answer.txt name rdata).Fits s (answerText flagAnswer (.txt name rdata))
      (some ⟨.after, .array :: .object :: st⟩) := by
  have htype : run ⟨.firstKey, .object :: .array :: .object :: st⟩ (js "TYPE" (ascii "TXT")) =
      some ⟨.key, .object :: .array :: .object :: st⟩ := rfl
  have hrdata : StartsKey (printTxtJson rdata ++ ascii "\x7d") :=
    ⟨82, [68, 65, 84, 65], _, rfl, fun _ => rfl, by decide⟩
  unfold answerText
  simp only [append_assoc]
  refine .prepend (run_answer_open hs ⟨_, rfl⟩ rfl rfl) (.prepend htype ?_)
  refine ((readsIf_js htame hrdata rfl (by decide)).and (.of_run ?_)).congr (iff_of_eq (and_true _))
  rw [run_append_of_some (run_printTxtJson rdata)]
  rfl

/-- A record with three names. -/
lemma readsIf_soa {name mname rname : Bytes} {ttl serial : UInt32}
    (hs : Between st flagAnswer s) (htame : (Answer.soa name ttl mname rname serial).Tame) :
    ReadsIf (Answer.soa name ttl mname rname serial).Fits s
      (answerText flagAnswer (.soa name ttl mname rname serial))
      (some ⟨.after, .array :: .object :: st⟩) := by
  obtain ⟨hname, hmname, hrname⟩ := htame
  have hline : lineLength = 256 := rfl
  have httl := length_uint32Text_le ttl
  have hserial := length_uint32Text_le serial
  have hkeyTtl : (keyText "TTL").length = 8 := rfl
  have hkeySerial : (keyText "SERIAL").length = 11 := rfl
  have htype : run ⟨.firstKey, .object :: .array :: .object :: st⟩ (js "TYPE" (ascii "SOA")) =
      some ⟨.key, .object :: .array :: .object :: st⟩ := rfl
  unfold answerText
  simp only [append_assoc]
  refine .prepend (run_answer_open hs ⟨_, rfl⟩ rfl rfl) (.prepend htype ?_)
  -- Each name is followed by the key of the next line.
  refine (readsIf_jsdot hname ?_ rfl (by decide)).and ?_
  · rw [js1, append_assoc]
    exact startsKey_line _ _ rfl (by decide) (fun _ => rfl) (by decide)
  refine .prepend (run_js1 (isNumber_natText _).isValue (by omega) (.inl rfl) (by decide)) ?_
  refine (readsIf_jsdot hmname ?_ rfl (by decide)).and ?_
  · rw [jsdot, append_assoc, append_assoc]
    exact startsKey_line _ _ rfl (by decide) (fun _ => rfl) (by decide)
  refine ((readsIf_jsdot hrname ?_ rfl (by decide)).and (.of_run ?_)).congr (iff_of_eq (and_true _))
  · exact startsKey_line _ _ rfl (by decide) (fun _ => rfl) (by decide)
  obtain ⟨m, hends, hrun⟩ := @run_juNc (.array :: .object :: st) "SERIAL" _
    (isNumber_natText serial.toNat).isValue (by omega) (by decide)
  rw [run_append_of_some hrun]
  exact run_ends (b := 32) hends rfl _

lemma flagAfter_pos : 0 < flagAfter flagAnswer a ↔ 0 < flagAnswer ∨ a ≠ .other := by
  cases a with
  | txt name rdata =>
    have hpos : 0 < flagAfter flagAnswer (.txt name rdata) := by
      dsimp only [flagAfter]
      split <;> omega
    exact ⟨fun _ => .inr nofun, fun _ => hpos⟩
  | soa name ttl mname rname serial => exact ⟨fun _ => .inr nofun, fun _ => Nat.succ_pos _⟩
  | other => exact ⟨.inl, fun h => h.resolve_right fun h => h rfl⟩

/-- An answer that is printed opens the list of the answers. -/
lemma readsIf_answerText (hs : Between st flagAnswer s) (htame : a.Tame) :
    ∃ s', Between st (flagAfter flagAnswer a) s' ∧
      ReadsIf a.Fits s (answerText flagAnswer a) (some s') := by
  cases a with
  | txt name rdata =>
    exact ⟨_, between_open (flagAfter_pos.2 (.inr nofun)), readsIf_txt hs htame⟩
  | soa name ttl mname rname serial =>
    exact ⟨_, between_open (flagAfter_pos.2 (.inr nofun)), readsIf_soa hs htame⟩
  | other => exact ⟨s, hs, .of_run rfl⟩

/-- The answers, by induction on the list of them. -/
lemma readsIf_answersText (hs : Between st flagAnswer s) (htame : ∀ a ∈ as, a.Tame) :
    ∃ s', Between st (answersText flagAnswer as).2 s' ∧
      ReadsIf (∀ a ∈ as, a.Fits) s (answersText flagAnswer as).1 (some s') := by
  induction as generalizing flagAnswer s with
  | nil => exact ⟨s, hs, (ReadsIf.of_run rfl).congr ⟨fun _ => nofun, fun _ => trivial⟩⟩
  | cons a as ih =>
    obtain ⟨ha, has⟩ := forall_mem_cons.1 htame
    obtain ⟨s₁, hs₁, hfirst⟩ := readsIf_answerText hs ha
    obtain ⟨s₂, hs₂, hrest⟩ := ih hs₁ has
    exact ⟨s₂, hs₂, (hfirst.append hrest).congr forall_mem_cons.symm⟩

/-- `flagAnswer` counts the answers that are printed. -/
lemma answersText_pos :
    0 < (answersText flagAnswer as).2 ↔ 0 < flagAnswer ∨ ∃ a ∈ as, a ≠ .other := by
  induction as generalizing flagAnswer with
  | nil => simp [answersText]
  | cons a as ih =>
    refine ih.trans ?_
    rw [flagAfter_pos, or_assoc]
    simp

end Answers

/-! ### Messages -/

section Messages

variable {st : List Ctx} {m : Mode} {r : Reply}

/-- The answers of a message may be printed, and none is printed before the message turns out to be
truncated. -/
def Reply.Safe (r : Reply) : Prop :=
  (∀ a ∈ r.read.1, a.Fits) ∧ (r.read.2 = true → ∀ a ∈ r.read.1, a = .other)

/-- The names in the answers of a message do not end the strings they are printed in. -/
def Reply.Tame (r : Reply) : Prop := ∀ a ∈ r.read.1, a.Tame

lemma readsIf_replyAnswers (hm : m.ends = true) (htame : r.Tame) :
    ReadsIf r.Safe ⟨m, .object :: st⟩ (r.answersText ++ ascii " \x7d") (some ⟨.after, st⟩) := by
  obtain ⟨⟨m', st'⟩, hs, hanswers⟩ := readsIf_answersText (between_zero hm) htame
  have hpos : 0 < (answersText 0 r.read.1).2 ↔ ∃ a ∈ r.read.1, a ≠ .other := by
    rw [answersText_pos]
    simp
  unfold Reply.answersText
  rw [append_assoc]
  refine (hanswers.append ?_)
  by_cases hflag : 0 < (answersText 0 r.read.1).2
  · obtain ⟨rfl, rfl⟩ : m' = .after ∧ st' = .array :: .object :: st := by
      have hstate := between_pos hflag hs
      exact ⟨congrArg State.mode hstate, congrArg State.stack hstate⟩
    obtain ⟨a, ha, hother⟩ := hpos.1 hflag
    cases htruncated : r.read.2 with
    | false =>
      rw [if_pos ⟨rfl, hflag⟩]
      exact ⟨fun _ => rfl, fun h => absurd (fun h => by cases h) h⟩
    | true =>
      exact ⟨fun h => absurd (h rfl a ha) hother, fun _ => rfl⟩
  · have hzero : (answersText 0 r.read.1).2 = 0 := by omega
    obtain ⟨hm', rfl⟩ : m'.ends = true ∧ st' = .object :: st := by
      simpa only [Between, if_pos hzero] using hs
    rw [if_neg fun h => hflag h.2]
    refine ⟨fun _ => ?_, fun h => absurd (fun _ a ha => ?_) h⟩
    · exact run_ends (b := 32) hm' rfl _
    · by_contra hother
      exact hflag (hpos.2 ⟨a, ha, hother⟩)

/-- The lines for the header of a message. -/
lemma run_replyHeader (r : Reply) :
    ∃ m : Mode, m.ends = true ∧
      run ⟨.after, .object :: st⟩ r.headerText = some ⟨m, .object :: st⟩ := by
  unfold Reply.headerText
  by_cases hshort : r.bytes.length < 12
  · rw [if_pos hshort]
    exact ⟨.after, rfl, rfl⟩
  rw [if_neg hshort]
  have hline : lineLength = 256 := rfl
  have hkey : ∀ key ∈ ["ID", "ANCOUNT", "QDCOUNT", "NSCOUNT", "ARCOUNT"],
      Plain (ascii key) ∧ (keyText key).length ≤ 12 := by decide
  -- The lines of the counts are all alike.
  have hcount : ∀ key ∈ ["ID", "ANCOUNT", "QDCOUNT", "NSCOUNT", "ARCOUNT"], ∀ b : Bytes,
      run ⟨.key, .object :: st⟩ (js1 key (natText (uint16 b))) = some ⟨.key, .object :: st⟩ := by
    intro key hmem b
    obtain ⟨hplain, hle⟩ := hkey key hmem
    have hlength := length_uint16Text_le b
    exact run_js1 (isNumber_natText _).isValue (by omega) (.inl rfl) hplain
  have hcomma : run ⟨.after, .object :: st⟩ (ascii ",") = some ⟨.key, .object :: st⟩ := rfl
  obtain ⟨hplain, hle⟩ := hkey "ARCOUNT" (by decide)
  have hlength := length_uint16Text_le (r.bytes.drop 10)
  obtain ⟨m, hends, hrun⟩ := @run_juNc st "ARCOUNT" _
    (isNumber_natText (uint16 (r.bytes.drop 10))).isValue (by omega) hplain
  refine ⟨m, hends, ?_⟩
  simp only [append_assoc]
  rw [run_append_of_some hcomma, run_append_of_some (hcount "ID" (by decide) _),
    run_append_of_some (hcount "ANCOUNT" (by decide) _),
    run_append_of_some (hcount "QDCOUNT" (by decide) _),
    run_append_of_some (hcount "NSCOUNT" (by decide) _), hrun]

/-- A time in a line. -/
lemma run_line_milli {s : State} {text : Bytes} (h : run s text = some ⟨.value, .object :: st⟩)
    (hlength : text.length ≤ 100) (t : UInt64) :
    run s (line (text ++ fixedText 3 false t.toNat ++ ascii ",")) = some ⟨.key, .object :: st⟩ := by
  have hlt := t.toNat_lt
  have hseconds : t.toNat / 10 ^ 3 < 10 ^ 17 := by omega
  have hmilli := length_fixedText_le (k := 3) (m := 16) false hseconds
  have hcomma : (ascii ",").length = 1 := rfl
  have hline : lineLength = 256 := rfl
  obtain ⟨n, hn, hrun⟩ := @IsNumber.run (.object :: st) _ (isNumber_fixedText 2 false t.toNat)
  rw [line_of_lt, append_assoc, run_append_of_some h, run_append_of_some hrun]
  · exact run_ends (m := .num n) hn rfl []
  · simp only [length_append]
    omega

/-- The description of a reply. -/
lemma readsIf_replyText (o : PrintOptions) (c : Call) (htame : r.Tame) :
    ReadsIf r.Safe ⟨.after, .object :: st⟩ (replyText o c r) (some ⟨.after, .object :: st⟩) := by
  have hline : lineLength = 256 := rfl
  have hrt : run ⟨.after, .object :: st⟩ (ascii ",\"result\" : \x7b \"rt\" : ") =
      some ⟨.value, .object :: .object :: st⟩ := rfl
  have hqt : run ⟨.key, .object :: .object :: st⟩ (if o.tcp then
      line (ascii "\"qt\" : " ++ fixedText 3 false c.querytime.toNat ++ ascii ",") else []) =
      some ⟨.key, .object :: .object :: st⟩ := by
    split
    · exact run_line_milli rfl (by decide) _
    · rfl
  have hsize : run ⟨.key, .object :: .object :: st⟩ (jdNc "size" (natText r.bytes.length)) =
      some ⟨.after, .object :: .object :: st⟩ := by
    have hkey : (keyText "size").length = 9 := rfl
    have hlength := length_natText_le (k := 9) (lt_trans r.length_lt (by decide))
    exact run_jdNc (isNumber_natText _).isValue (by omega) (by decide)
  have habuf : run ⟨.after, .object :: .object :: st⟩ (if o.optAbuf then
      ascii ", \"abuf\" : \"" ++ b64Text r.bytes ++ ascii "\"" else []) =
      some ⟨.after, .object :: .object :: st⟩ := by
    split
    · have hopen : run ⟨.after, .object :: .object :: st⟩ (ascii ", \"abuf\" : \"") =
          some ⟨.str false, .object :: .object :: st⟩ := rfl
      rw [append_assoc, run_append_of_some hopen,
        run_append_of_some (plain_b64Text r.bytes).content.run]
      rfl
    · rfl
  have hcookie : run ⟨.after, .object :: .object :: st⟩ (if c.clientCookieMismatch then
      ascii ", \"client-cookie-mismatch\" : true" else []) =
      some ⟨.after, .object :: .object :: st⟩ := by
    split <;> rfl
  obtain ⟨m, hm, hheader⟩ := @run_replyHeader (.object :: st) r
  unfold replyText
  simp only [append_assoc]
  refine .prepend ?_ (.prepend hqt (.prepend hsize (.prepend ?_ (.prepend hcookie
    (.prepend hheader (readsIf_replyAnswers hm htame))))))
  · exact run_line_milli hrt (by decide) _
  · exact habuf

end Messages

end AtlasProbe.Evtdig
