import AtlasProbe.Evtdig.JsonReply
import AtlasProbe.Measurement.Json
import Mathlib.Data.List.DropRight

/-!
# The output is JSON

The JSON machine runs over what `printReply` prints: the lines of a query, the description of the
reply, and the errors.  A result without `--resolv` is written at once; a result set is written when
the last resolver has been asked, so its text is that of several calls.
-/

namespace AtlasProbe.Evtdig

open List Json

/-! ### Local strings and errors -/

/-- A string without quotes, backslashes and control characters that is short enough for its line.
-/
def FitsLine (key : String) (val : Bytes) : Prop :=
  Plain val ∧ (keyText key).length + val.length + 5 < lineLength

/-- What `err` is when texts that are members of an object, and short enough for their lines, have
been added to it. -/
inductive Errors : Buf → Prop
  | init : Errors bufInit
  | add {err : Buf} {text : Bytes} : Errors err → IsMember text →
      text.length + 2 < lineLength → Errors (addErr err text)

lemma Errors.members {err : Buf} (h : Errors err) :
    err.offset = 0 ∧ (err.size ≠ 0 → StartsMembers err.bytes) := by
  induction h with
  | init => exact ⟨rfl, absurd rfl⟩
  | @add err text _ htext hlength ih =>
    obtain ⟨hoffset, hbytes⟩ := ih
    refine ⟨offset_bufAdd hoffset _, fun _ => ?_⟩
    unfold addErr
    rw [bytes_bufAdd hoffset]
    by_cases hsize : err.size = 0
    · rw [length_eq_zero_iff.1 hsize, if_neg (by simp [hsize]), nil_append, nil_append,
        snprintf_of_lt (by omega)]
      exact htext.startsMembers
    · rw [if_pos hsize, snprintf_of_lt]
      · exact (hbytes hsize).append htext.startsMembers.blank.comma
      · rw [length_append]
        have hcomma : (ascii ", ").length = 2 := rfl
        omega

/-- The options are free of quotes, backslashes and control characters, and fit their lines. -/
structure PrintOptions.Local (o : PrintOptions) : Prop where
  strAtlas : ∀ id ∈ o.strAtlas, FitsLine "id" id
  strBundle : ∀ bundle ∈ o.strBundle, FitsLine "bundle" bundle
  portAsChar : FitsLine "dst_port" o.portAsChar
  msmVersion : Plain o.msmVersion
  version_fits : (intText o.fwVersion.toInt).length + o.msmVersion.length + 17 < 80

/-- The strings of a query are free of quotes, backslashes and control characters and fit their
lines, and so are the errors. -/
structure Call.Local (c : Call) : Prop where
  sslVersion : ∀ version ∈ c.sslVersion, FitsLine "sslvers" version
  ressent : ∀ a ∈ c.ressent, FitsLine "dst_addr" a.addr
  dst : ∀ a ∈ c.dst, FitsLine "dst_addr" a.addr
  serverName : ∀ name ∈ c.serverName, FitsLine "dst_name" name
  src : FitsLine "src_addr" c.src
  err : Errors c.err

/-- The names in the reply do not end the strings they are printed in. -/
def Call.Tame (c : Call) : Prop := ∀ r ∈ c.result, r.Tame

/-- The reply may be printed. -/
def Call.Safe (c : Call) : Prop := ∀ r ∈ c.result, r.Safe

/-- The bundle is printed without quotes, so it must be a number. -/
def PrintOptions.Safe (o : PrintOptions) : Prop :=
  ∀ id ∈ o.strAtlas, ∀ bundle ∈ o.strBundle, IsNumber bundle

/-! ### Elements -/

section Elements

variable {st : List Ctx} {m : Mode} {o : PrintOptions} {c : Call} {key : String} {val : Bytes}

/-- Members that leave the machine where it is in an object. -/
def Stays (m : Mode) (t : Bytes) : Prop :=
  ∀ st, run ⟨m, .object :: st⟩ t = some ⟨m, .object :: st⟩

lemma stays_nil : Stays m [] := fun _ => rfl

lemma Stays.append {t u : Bytes} (h : Stays m t) (h' : Stays m u) : Stays m (t ++ u) :=
  fun st => (run_append_of_some (h st) u).trans (h' st)

lemma Stays.ite {p : Prop} [Decidable p] {t u : Bytes} (h : Stays m t) (h' : Stays m u) :
    Stays m (if p then t else u) := by
  split
  · exact h
  · exact h'

lemma FitsLine.run_js (h : FitsLine key val) (hm : AtKey m) (hkey : Plain (ascii key)) :
    run ⟨m, .object :: st⟩ (js key val) = some ⟨.key, .object :: st⟩ := by
  obtain ⟨hplain, hlength⟩ := h
  exact Evtdig.run_js hplain.content (by omega) hm hkey

/-- A line for a number that is not too long for it. -/
lemma run_js1_short (hval : IsNumber val) (hlength : val.length ≤ 20) (hm : AtKey m)
    (hkey : Plain (ascii key)) (hkeyLength : (keyText key).length ≤ 100) :
    run ⟨m, .object :: st⟩ (js1 key val) = some ⟨.key, .object :: st⟩ := by
  have hline : lineLength = 256 := rfl
  exact run_js1 hval.isValue (by omega) hm hkey

lemma stays_js1_int32 (n : Int32) (hkey : Plain (ascii key))
    (hkeyLength : (keyText key).length ≤ 100) :
    Stays .key (js1 key (intText n.toInt)) := fun _ =>
  run_js1_short (isNumber_intText _) ((length_int32Text_le n).trans (by decide)) (.inl rfl) hkey
    hkeyLength

lemma run_timeText (hm : AtKey m) :
    run ⟨m, .object :: st⟩ (timeText c) = some ⟨.key, .object :: st⟩ := by
  unfold timeText
  rw [run_append_of_some (run_js1_short (isNumber_natText _) (length_uint64Text_le _) hm
    (by decide) (by decide))]
  exact stays_js1_int32 _ (by decide) (by decide) st

lemma stays_sslText (hc : c.Local) : Stays .key (sslText o c) := by
  unfold sslText
  cases hssl : c.sslVersion with
  | none => exact stays_nil
  | some version =>
    exact .ite (fun _ => (hc.sslVersion version hssl).run_js (.inl rfl) (by decide)) stays_nil

lemma stays_subText : Stays .key (subText o c) := by
  have hlow := c.resolvI.le_toInt
  have hhigh := c.resolvI.toInt_lt
  have hlength : (intText (c.resolvI.toInt + 1)).length ≤ 11 :=
    length_intText_le (by omega)
  refine .ite (.append (fun _ => ?_) (stays_js1_int32 _ (by decide) (by decide))) stays_nil
  exact run_js1_short (isNumber_intText _) (hlength.trans (by decide)) (.inl rfl) (by decide)
    (by decide)

lemma stays_addrText (ho : o.Local) {a : AddrText} {name : Bytes}
    (ha : FitsLine "dst_addr" a.addr) (hname : FitsLine key name)
    (hkey : Plain (ascii key)) : Stays .key (addrText o key a name) := by
  have haf : Stays .key (js1 "af" (natText (if a.inet6 then 6 else 4))) := by
    intro st
    split <;> rfl
  refine Stays.append (.append (.append (.ite stays_nil fun _ => ?_) ?_) ?_) haf
  · exact hname.run_js (.inl rfl) hkey
  · exact fun _ => ha.run_js (.inl rfl) (by decide)
  · exact fun _ => ho.portAsChar.run_js (.inl rfl) (by decide)

lemma stays_dstText (ho : o.Local) (hc : c.Local) : Stays .key (dstText o c) := by
  unfold dstText
  cases hserver : c.serverName with
  | none => exact stays_nil
  | some name =>
    have hname := hc.serverName name hserver
    cases hressent : c.ressent with
    | some a =>
      have hkey : (keyText "name").length ≤ (keyText "dst_name").length := by decide
      have hshort : FitsLine "name" name := by
        refine ⟨hname.1, lt_of_le_of_lt ?_ hname.2⟩
        omega
      exact stays_addrText ho (hc.ressent a hressent) hshort (by decide)
    | none =>
      cases hdst : c.dst with
      | some a => exact stays_addrText ho (hc.dst a hdst) hname (by decide)
      | none => exact fun _ => hname.run_js (.inl rfl) (by decide)

lemma run_connectionText (ho : o.Local) (hc : c.Local) (hm : AtKey m) :
    run ⟨m, .object :: st⟩ (connectionText o c) = some ⟨.key, .object :: st⟩ := by
  unfold connectionText
  simp only [append_assoc]
  rw [run_append_of_some (run_timeText hm)]
  refine (stays_sslText hc).append (stays_subText.append ((stays_dstText ho hc).append ?_)) st
  refine Stays.append (.ite stays_nil fun _ => ?_) (.append (.ite stays_nil ?_) ?_)
  · exact hc.src.run_js (.inl rfl) (by decide)
  · exact stays_js1_int32 _ (by decide) (by decide)
  · exact .ite (stays_js1_int32 _ (by decide) (by decide)) stays_nil

lemma stays_qbufText : Stays .after (qbufText o c) := by
  refine .ite (fun st => ?_) stays_nil
  have hopen : run ⟨.after, .object :: st⟩ (ascii ",\"qbuf\" : \"") =
      some ⟨.str false, .object :: st⟩ := rfl
  rw [append_assoc, run_append_of_some hopen, run_append_of_some (plain_b64Text c.qbuf).content.run]
  rfl

lemma readsIf_resultText (htame : c.Tame) :
    ReadsIf c.Safe ⟨.after, .object :: st⟩ (resultText o c) (some ⟨.after, .object :: st⟩) := by
  unfold resultText Call.Safe
  cases hresult : c.result with
  | none => exact (ReadsIf.of_run rfl).congr ⟨fun _ => nofun, fun _ => trivial⟩
  | some r =>
    refine (readsIf_replyText o c (htame r hresult)).congr ⟨fun h => ?_, fun h => h r rfl⟩
    rintro _ ⟨⟩
    exact h

lemma run_errorText (hc : c.Local) :
    run ⟨.after, .object :: st⟩ (errorText c) = some ⟨.after, .object :: st⟩ := by
  unfold errorText
  by_cases hsize : c.err.size = 0
  · rw [if_pos hsize]
    rfl
  · rw [if_neg hsize]
    obtain ⟨m, hm, hrun⟩ := (hc.err.members.2 hsize).run (.inr rfl) (.object :: st)
    have hopen : run ⟨.after, .object :: st⟩ (ascii ", \"error\" : \x7b") =
        some ⟨.firstKey, .object :: .object :: st⟩ := rfl
    rw [append_assoc, run_append_of_some hopen, run_append_of_some hrun]
    exact run_ends hm rfl []

/-- An element of a result set, or the members of a result. -/
lemma readsIf_elementText (ho : o.Local) (hc : c.Local) (htame : c.Tame) (hm : AtKey m) :
    ReadsIf c.Safe ⟨m, .object :: st⟩ (elementText o c) (some ⟨.after, .object :: st⟩) := by
  have hproto : run ⟨.key, .object :: st⟩ (jsNc "proto" (ascii (if o.tcp then "TCP" else "UDP"))) =
      some ⟨.after, .object :: st⟩ := by
    split <;> rfl
  unfold elementText
  simp only [append_assoc]
  exact .prepend (run_connectionText ho hc hm) (.prepend hproto (.prepend (stays_qbufText st)
    ((readsIf_resultText htame).append_run (run_errorText hc))))

end Elements

/-! ### Results -/

section Results

variable {o : PrintOptions} {c : Call}

/-- The bundle, which is a text of digits, must be a number. -/
lemma readsIf_bundle (ho : o.Local) {bundle : Bytes} (hbundle : bundle ∈ o.strBundle) :
    ReadsIf (IsNumber bundle) ⟨.key, [.object]⟩ (js1 "bundle" bundle) (some ⟨.key, [.object]⟩) := by
  obtain ⟨-, hlength⟩ := ho.strBundle bundle hbundle
  refine ⟨fun hnumber => run_js1 hnumber.isValue (by omega) (.inl rfl) (by decide), ?_⟩
  intro hnumber
  have hdigits : ∀ b ∈ bundle, isdigit b = true := all_eq_true.1 (o.strBundle_valid _ hbundle)
  have hend : (ascii " , ").length = 3 := rfl
  unfold js1
  rw [line_of_lt (by simp only [length_append]; omega), append_assoc]
  exact run_digits_stuck hdigits hnumber [32]

lemma readsIf_idText (ho : o.Local) :
    ∃ m, AtKey m ∧ ReadsIf o.Safe ⟨.firstKey, [.object]⟩ (idText o) (some ⟨m, [.object]⟩) := by
  unfold idText PrintOptions.Safe
  cases hid : o.strAtlas with
  | none =>
    exact ⟨.firstKey, .inr rfl, (ReadsIf.of_run rfl).congr ⟨fun _ => nofun, fun _ => trivial⟩⟩
  | some id =>
    have hfirst : run ⟨.firstKey, [.object]⟩ (js "id" id) = some ⟨.key, [.object]⟩ :=
      (ho.strAtlas id hid).run_js (.inr rfl) (by decide)
    refine ⟨.key, .inl rfl, .prepend hfirst ?_⟩
    cases hbundle : o.strBundle with
    | none => exact (ReadsIf.of_run rfl).congr ⟨fun _ _ _ => nofun, fun _ => trivial⟩
    | some bundle =>
      refine (readsIf_bundle ho hbundle).congr ⟨fun h => ?_, fun h => h id rfl bundle rfl⟩
      rintro _ - _ ⟨⟩
      exact h

/-- The state of the machine where the members of an element begin. -/
def elementState (o : PrintOptions) : State :=
  if o.resolvConf then ⟨.firstKey, [.object, .array, .object]⟩ else ⟨.key, [.object]⟩

/-- What `printReply` adds to an empty buffer first. -/
lemma readsIf_headerText (ho : o.Local) (c : Call) :
    ∃ t, headerText o c = ascii "RESULT" ++ (32 :: 123 :: t) ∧
      ReadsIf o.Safe start (32 :: 123 :: t) (some (elementState o)) := by
  obtain ⟨m, hm, hid⟩ := readsIf_idText ho
  have hbracket : run start (ascii " \x7b ") = some ⟨.firstKey, [.object]⟩ := rfl
  obtain ⟨m', hm', hversion⟩ :=
    (Measurement.startsMembers_versionText ho.msmVersion ho.version_fits).run hm []
  have hcomma : run ⟨m', [.object]⟩ (ascii ", ") = some ⟨.key, [.object]⟩ :=
    (run_ends hm' rfl [32]).trans rfl
  have hset : run ⟨.key, [.object]⟩ (if o.resolvConf then
      timeText c ++ ascii "\"resultset\" : [ \x7b" else []) = some (elementState o) := by
    unfold elementState
    split
    · rw [run_append_of_some (run_timeText (.inl rfl))]
      rfl
    · rfl
  refine ⟨32 :: (idText o ++ (Measurement.versionText o.fwVersion o.msmVersion ++ (ascii ", " ++
    if o.resolvConf then timeText c ++ ascii "\"resultset\" : [ \x7b" else []))), ?_, ?_⟩
  · unfold headerText
    simp only [append_assoc]
    rfl
  · refine .prepend hbracket (hid.append_run ?_)
    rw [run_append_of_some hversion, run_append_of_some hcomma, hset]

/-- The state of the machine behind an element. -/
def behindElement (o : PrintOptions) : State :=
  if o.resolvConf then ⟨.after, [.array, .object]⟩ else ⟨.after, [.object]⟩

/-- The element itself, with the bracket of a result set behind it. -/
lemma readsIf_element (ho : o.Local) (hc : c.Local) (htame : c.Tame) :
    ReadsIf c.Safe (elementState o)
      (elementText o c ++ if o.resolvConf then ascii "\x7d" else []) (some (behindElement o)) := by
  unfold elementState behindElement
  cases o.resolvConf with
  | true => exact (readsIf_elementText ho hc htame (.inr rfl)).append_run rfl
  | false => exact (readsIf_elementText ho hc htame (.inl rfl)).append_run rfl

/-- The buffer is empty, or it has a result set that is read to its last element if `P` holds. -/
def Holds (o : PrintOptions) (p : Printer) (P : Prop) : Prop :=
  p.result = [] ∧ P ∨ o.resolvConf = true ∧ (P → o.Safe) ∧
    ∃ t, p.result = ascii "RESULT" ++ (32 :: 123 :: t) ∧
      ReadsIf P start (32 :: 123 :: t) (some (behindElement o))

/-- A call adds an element to what the buffer has. -/
lemma Holds.add {p : Printer} {P : Prop} (h : Holds o p P) (ho : o.Local) (hc : c.Local)
    (htame : c.Tame) :
    ∃ t, p.add o c = ascii "RESULT" ++ (32 :: 123 :: t) ∧
      ReadsIf (P ∧ o.Safe ∧ c.Safe) start (32 :: 123 :: t) (some (behindElement o)) := by
  have helement := readsIf_element ho hc htame
  unfold Printer.add
  obtain ⟨hnil, hP⟩ | ⟨hset, hsafe, t, ht, hread⟩ := h
  · obtain ⟨t, ht, hread⟩ := readsIf_headerText ho c
    refine ⟨t ++ (elementText o c ++ if o.resolvConf then ascii "\x7d" else []), ?_, ?_⟩
    · rw [if_pos hnil, hnil, nil_append, ht]
      simp only [append_assoc, cons_append]
    · exact (hread.append helement).congr ⟨fun h => ⟨hP, h⟩, And.right⟩
  · have hnonempty : p.result ≠ [] := by
      rw [ht]
      exact cons_ne_nil _ _
    have hcomma : run (behindElement o) (ascii ",\x7b") = some (elementState o) := by
      unfold behindElement elementState
      rw [if_pos hset, if_pos hset]
      rfl
    refine ⟨t ++ (ascii ",\x7b" ++ (elementText o c ++
      if o.resolvConf then ascii "\x7d" else [])), ?_, ?_⟩
    · rw [if_neg hnonempty, if_pos hset, ht]
      simp only [append_assoc, cons_append]
    · exact (hread.append (.prepend hcomma helement)).congr
        ⟨fun h => ⟨h.1, hsafe h.1, h.2⟩, fun h => ⟨h.1, h.2.2⟩⟩

/-- A line of output with a JSON object between `RESULT` and the end of the line. -/
def IsLine (l : Bytes) : Prop :=
  ∃ t, l = ascii "RESULT" ++ t ++ ascii "\n" ∧ IsObject t

/-- A result that is complete is an object if all of it may be printed. -/
lemma isLine_iff {t : Bytes} {P : Prop}
    (h : ReadsIf P start (32 :: 123 :: t) (some (behindElement o))) :
    IsLine (ascii "RESULT" ++ (32 :: 123 :: t) ++ (if o.resolvConf then ascii "]" else []) ++
      ascii " \x7d\n") ↔ P := by
  have hclose : ReadsIf P start (32 :: 123 :: t ++ ((if o.resolvConf then ascii "]" else []) ++
      ascii " \x7d")) (some ⟨.after, []⟩) := by
    refine h.append_run ?_
    unfold behindElement
    split <;> rfl
  have htext : ascii "RESULT" ++ (32 :: 123 :: t) ++ (if o.resolvConf then ascii "]" else []) ++
      ascii " \x7d\n" = ascii "RESULT" ++ (32 :: 123 :: t ++
        ((if o.resolvConf then ascii "]" else []) ++ ascii " \x7d")) ++ ascii "\n" := by
    have hend : ascii " \x7d\n" = ascii " \x7d" ++ ascii "\n" := rfl
    rw [hend]
    simp only [append_assoc]
  rw [htext]
  constructor
  · rintro ⟨u, hu, hjson, -⟩
    obtain rfl := append_cancel_left (append_cancel_right hu)
    by_contra hP
    have haccepts := (accepts_iff _).2 hjson
    rw [accepts, hclose.stops hP] at haccepts
    cases haccepts
  · intro hP
    refine ⟨_, rfl, (accepts_iff _).1 ?_, _, .cons rfl (.nil _)⟩
    rw [accepts, hclose.reads hP]
    rfl

/-- What the buffer has and what has been written, by induction on the calls from the last one. -/
lemma printReplies_spec (ho : o.Local) {cs : List Call} (hcs : ∀ c ∈ cs, c.Local ∧ c.Tame) :
    Holds o (printReplies o cs) (∀ c ∈ cs.rtakeWhile (fun c => !c.writes o), o.Safe ∧ c.Safe) ∧
      ((∀ l ∈ (printReplies o cs).written, IsLine l) ↔
        ∀ c ∈ cs.rdropWhile (fun c => !c.writes o), o.Safe ∧ c.Safe) := by
  induction cs using reverseRecOn with
  | nil =>
    refine ⟨.inl ⟨rfl, ?_⟩, ?_⟩
    · exact forall_mem_nil _
    · exact ⟨fun _ => forall_mem_nil _, fun _ => forall_mem_nil _⟩
  | append_singleton cs c ih =>
    obtain ⟨hcs, hc⟩ := forall_mem_append.1 hcs
    obtain ⟨hc, htame⟩ := hc c (mem_singleton_self c)
    obtain ⟨hholds, hwritten⟩ := ih hcs
    obtain ⟨t, ht, hread⟩ := hholds.add ho hc htame
    have hlast : printReplies o (cs ++ [c]) = (printReplies o cs).printReply o c := foldl_append
    rw [hlast, Printer.printReply]
    by_cases hwrites : c.writes o = true
    · rw [if_pos hwrites, rtakeWhile_concat_neg _ _ _ (by simp [hwrites]),
        rdropWhile_concat_neg _ _ _ (by simp [hwrites])]
      refine ⟨.inl ⟨rfl, forall_mem_nil _⟩, ?_⟩
      rw [forall_mem_append, forall_mem_singleton, hwritten, ht, isLine_iff hread,
        forall_mem_append, forall_mem_singleton, ← and_assoc,
        ← forall_mem_append, rdropWhile_append_rtakeWhile]
    · have hset : o.resolvConf = true := by
        by_contra hset
        exact hwrites (by simp [Call.writes, hset])
      rw [if_neg hwrites, rtakeWhile_concat_pos _ _ _ (by simp [hwrites]),
        rdropWhile_concat_pos _ _ _ (by simp [hwrites])]
      refine ⟨.inr ⟨hset, fun h => ?_, t, ht, hread.congr ?_⟩, hwritten⟩
      · exact (h c (mem_append_right _ (mem_singleton_self c))).1
      · rw [forall_mem_append, forall_mem_singleton]

/-- The calls behind the last one that writes do not matter for what has been written. -/
lemma written_rdropWhile (o : PrintOptions) (cs : List Call) :
    (printReplies o cs).written =
      (printReplies o (cs.rdropWhile (fun c => !c.writes o))).written := by
  induction cs using reverseRecOn with
  | nil => rw [rdropWhile_nil]
  | append_singleton cs c ih =>
    by_cases hwrites : c.writes o = true
    · rw [rdropWhile_concat_neg _ _ _ (by simp [hwrites])]
    · have hlast : printReplies o (cs ++ [c]) = (printReplies o cs).printReply o c :=
        foldl_append
      rw [rdropWhile_concat_pos _ _ _ (by simp [hwrites]), ← ih, hlast, Printer.printReply,
        if_neg hwrites]

lemma Answer.Fits.tame {a : Answer} (h : a.Fits) : a.Tame := by
  cases a with
  | txt name rdata => exact h.1.tame
  | soa name ttl mname rname serial => exact ⟨h.1.1.tame, h.2.1.1.tame, h.2.2.1.tame⟩
  | other => trivial

lemma Call.Safe.tame {c : Call} (h : c.Safe) : c.Tame :=
  fun r hr a ha => ((h r hr).1 a ha).tame

/-- The lines that are written are JSON objects if the bundle is a number and, for each reply in
them, the names may stand between quotes and fit their lines, and no answer is printed before the
message turns out to be truncated.  If the names do not end the strings they are printed in, this is
also necessary. -/
theorem printReplies_written_json (o : PrintOptions) (cs : List Call) (ho : o.Local)
    (hcs : ∀ c ∈ cs, c.Local) :
    ((∀ c ∈ cs.rdropWhile (fun c => !c.writes o), o.Safe ∧ c.Safe) →
        ∀ l ∈ (printReplies o cs).written, IsLine l) ∧
      ((∀ c ∈ cs.rdropWhile (fun c => !c.writes o), c.Tame) →
        ((∀ l ∈ (printReplies o cs).written, IsLine l) ↔
          ∀ c ∈ cs.rdropWhile (fun c => !c.writes o), o.Safe ∧ c.Safe)) := by
  have hlocal : ∀ c ∈ cs.rdropWhile (fun c => !c.writes o), c.Local :=
    fun c hc => hcs c ((List.rdropWhile_prefix _ _).subset hc)
  have htame : (∀ c ∈ cs.rdropWhile (fun c => !c.writes o), c.Tame) →
      ((∀ l ∈ (printReplies o cs).written, IsLine l) ↔
        ∀ c ∈ cs.rdropWhile (fun c => !c.writes o), o.Safe ∧ c.Safe) := by
    intro htame
    have hspec := (printReplies_spec ho fun c hc => ⟨hlocal c hc, htame c hc⟩).2
    rwa [rdropWhile_idempotent, ← written_rdropWhile] at hspec
  exact ⟨fun hsafe => (htame fun c hc => (hsafe c hc).2.tame).2 hsafe, htame⟩

/-- A query with a bundle, over UDP and without `--resolv`. -/
def bundleOptions : PrintOptions where
  strAtlas := some (ascii "1000")
  strBundle := some (ascii "70")
  fwVersion := 5080
  msmVersion := ascii "2.6.4"
  resolvConf := false
  tcp := false
  tls := false
  optQbuf := false
  optAbuf := true
  portAsChar := ascii "53"
  strAtlas_valid := by
    rintro _ ⟨⟩
    decide
  strBundle_valid := by
    rintro _ ⟨⟩
    decide

/-- A message of type TXT with the given count of answers, one of which is there, and the name of
that one. -/
def txtReply (ancount : UInt8) (label : Bytes) (h : label.length < 64) : Reply where
  bytes := [0, 1, 132, 0, 0, 1, 0, ancount, 0, 0, 0, 0, 0, 0, 16, 0, 1] ++
    UInt8.ofNat label.length :: label ++ [0, 0, 16, 0, 1, 0, 0, 0, 60, 0, 3, 2, 104, 105]
  behind := 0
  length_lt := by
    simp only [List.length_append, List.length_cons, List.length_nil]
    omega

/-- The call of `printReply` for a reply over UDP. -/
def udpCall (r : Reply) : Call where
  xmitTime := 1700000000
  lts := 12
  sslVersion := none
  resolvI := 0
  resolvMax := 0
  ressent := none
  dst := some ⟨ascii "192.0.2.1", false⟩
  serverName := some (ascii "ns.example.net")
  src := ascii "192.0.2.9"
  retry := 0
  rcvdttl := -1
  qbuf := []
  triptime := 12345
  querytime := 0
  clientCookieMismatch := false
  err := bufInit
  result := some r

lemma bundleOptions_local : bundleOptions.Local where
  strAtlas := by
    rintro _ ⟨⟩
    exact ⟨by decide, by decide⟩
  strBundle := by
    rintro _ ⟨⟩
    exact ⟨by decide, by decide⟩
  portAsChar := ⟨by decide, by decide⟩
  msmVersion := by decide
  version_fits := by decide

lemma udpCall_local (r : Reply) : (udpCall r).Local where
  sslVersion := nofun
  ressent := nofun
  dst := by
    rintro _ ⟨⟩
    exact ⟨by decide, by decide⟩
  serverName := by
    rintro _ ⟨⟩
    exact ⟨by decide, by decide⟩
  src := show FitsLine "src_addr" (ascii "192.0.2.9") from ⟨by decide, by decide⟩
  err := .init

lemma txtReply_read :
    (txtReply 1 (ascii "version") (by decide)).read =
      ([.txt (ascii "version") [2, 104, 105]], false) := by
  decide +kernel

/-- A reply with one text record, after which the line is a JSON object. -/
theorem printReplies_written_json_txt :
    bundleOptions.Local ∧ (udpCall (txtReply 1 (ascii "version") (by decide))).Local ∧
      ∀ l ∈ (printReplies bundleOptions
        [udpCall (txtReply 1 (ascii "version") (by decide))]).written, IsLine l := by
  have hname : IsContent (ascii "version") := Plain.content (by decide)
  have hbundle : IsNumber (ascii "70") := isNumber_natText 70
  refine ⟨bundleOptions_local, udpCall_local _,
    (printReplies_written_json bundleOptions _ bundleOptions_local ?_).1 ?_⟩
  · intro c hc
    obtain rfl := mem_singleton.1 hc
    exact udpCall_local _
  · intro c hc
    obtain rfl : c = udpCall (txtReply 1 (ascii "version") (by decide)) := mem_singleton.1 hc
    refine ⟨?_, ?_⟩
    · rintro _ - _ ⟨⟩
      exact hbundle
    · rintro _ ⟨⟩
      refine ⟨fun a ha => ?_, fun h => ?_⟩
      · rw [txtReply_read, mem_singleton] at ha
        rw [ha]
        exact ⟨hname, by decide⟩
      · rw [txtReply_read] at h
        cases h

/-- The text of a line is between its first six bytes and the last one. -/
lemma not_isLine {l : Bytes} (h : accepts start ((l.drop 6).dropLast) = false) :
    ¬ IsLine l := by
  rintro ⟨t, rfl, hjson, -⟩
  have htext : ((ascii "RESULT" ++ t ++ ascii "\n").drop 6).dropLast = t := by
    exact dropLast_concat
  rw [htext, (accepts_iff t).2 hjson] at h
  cases h

/-- Two replies after which the line is not JSON: the message is truncated behind an answer that has
been printed, and the name of the answer has a quote in it. -/
theorem printReplies_written_not_json :
    (∃ l ∈ (printReplies bundleOptions
        [udpCall (txtReply 2 (ascii "version") (by decide))]).written, ¬ IsLine l) ∧
      ∃ l ∈ (printReplies bundleOptions
        [udpCall (txtReply 1 (ascii "ver\"sion") (by decide))]).written, ¬ IsLine l := by
  have hrejected : (∃ l ∈ (printReplies bundleOptions
        [udpCall (txtReply 2 (ascii "version") (by decide))]).written,
          accepts start ((l.drop 6).dropLast) = false) ∧
      ∃ l ∈ (printReplies bundleOptions
        [udpCall (txtReply 1 (ascii "ver\"sion") (by decide))]).written,
          accepts start ((l.drop 6).dropLast) = false := by
    decide +kernel
  obtain ⟨⟨l, hl, hfalse⟩, ⟨l', hl', hfalse'⟩⟩ := hrejected
  exact ⟨⟨l, hl, not_isLine hfalse⟩, ⟨l', hl', not_isLine hfalse'⟩⟩

end Results

end AtlasProbe.Evtdig
