import AtlasProbe.Evtdig.PrintReply
import AtlasProbe.Lib.Json.Members

/-!
# The lines of the output are read by the JSON machine

Each line that `printReply` prints is read as it is meant to be if its value is what it should be
and fits the line (`run_js`, `run_jdNc`, `run_printTxtJson`).  A string that may not stand between
quotes, or that is cut off with its line, stops the machine at the next key (`run_js_stuck`).
-/

namespace AtlasProbe.Evtdig

open List Json

/-! ### Lines -/

section Lines

variable {m : Mode} {st : List Ctx} {key : String} {val u text : Bytes}

lemma line_of_lt (h : text.length < lineLength) : line text = text :=
  snprintf_of_lt h

/-- A line of which only the blank at its end may be missing. -/
lemma run_line_blank {s s' : State} (h : run s text = some s') (hlength : text.length < lineLength)
    (hblank : step s' 32 = some s') : run s (line (text ++ [32])) = some s' := by
  by_cases hfull : text.length + 1 < lineLength
  · rw [line_of_lt (by rw [length_append]; exact hfull), run_append_of_some h]
    exact run_cons hblank []
  · have hcut : line (text ++ [32]) = text := by
      refine take_left' ?_
      omega
    rw [hcut, h]

/-- The machine expects a key. -/
def AtKey (m : Mode) : Prop := m = .key ∨ m = .firstKey

lemma run_keyText (hm : AtKey m) (hkey : Plain (ascii key)) :
    run ⟨m, st⟩ (keyText key) = some ⟨.value, st⟩ := by
  have hopen : run ⟨m, st⟩ (ascii "\"") = some ⟨.str true, st⟩ := by
    obtain rfl | rfl := hm <;> rfl
  unfold keyText
  rw [append_assoc, run_append_of_some hopen, run_append_of_some hkey.content.run]
  rfl

lemma run_quote : run ⟨.value, st⟩ (ascii "\"") = some ⟨.str false, st⟩ := rfl

/-- A key and its value. -/
lemma run_member (hval : IsValue val) (hm : AtKey m) (hkey : Plain (ascii key)) :
    ∃ m' : Mode, m'.ends = true ∧
      run ⟨m, .object :: st⟩ (keyText key ++ val) = some ⟨m', .object :: st⟩ := by
  obtain ⟨m', hends, hrun⟩ := hval (.object :: st)
  exact ⟨m', hends, (run_append_of_some (run_keyText hm hkey) val).trans hrun⟩

/-- A value in a line. -/
lemma run_js1 (hval : IsValue val) (hlength : (keyText key).length + val.length + 2 < lineLength)
    (hm : AtKey m) (hkey : Plain (ascii key)) :
    run ⟨m, .object :: st⟩ (js1 key val) = some ⟨.key, .object :: st⟩ := by
  have htext : js1 key val = line ((keyText key ++ val ++ ascii " ,") ++ [32]) := by
    rw [append_assoc]
    rfl
  obtain ⟨m', hends, hrun⟩ := run_member hval hm hkey
  rw [htext]
  refine run_line_blank ?_ ?_ rfl
  · rw [run_append_of_some hrun]
    exact run_ends (b := 32) hends rfl [44]
  · rw [length_append, length_append]
    exact hlength

/-- A string in a line. -/
lemma run_js (hval : IsContent val) (hlength : (keyText key).length + val.length + 4 < lineLength)
    (hm : AtKey m) (hkey : Plain (ascii key)) :
    run ⟨m, .object :: st⟩ (js key val) = some ⟨.key, .object :: st⟩ := by
  have htext : js key val = js1 key (34 :: (val ++ [34])) := by
    simp only [js, js1, append_assoc, cons_append]
    rfl
  rw [htext]
  refine run_js1 hval.isValue ?_ hm hkey
  rw [length_cons, length_append, length_singleton]
  omega

/-- A value in a line with no comma. -/
lemma run_jdNc (hval : IsValue val) (hlength : (keyText key).length + val.length + 1 < lineLength)
    (hkey : Plain (ascii key)) :
    run ⟨.key, .object :: st⟩ (jdNc key val) = some ⟨.after, .object :: st⟩ := by
  obtain ⟨m', hends, hrun⟩ := run_member hval (.inl rfl) hkey
  unfold jdNc
  rw [line_of_lt, run_append_of_some hrun]
  · exact run_ends hends rfl []
  · rw [length_append, length_append]
    exact hlength

/-- A value at the end of a line. -/
lemma run_juNc (hval : IsValue val) (hlength : (keyText key).length + val.length < lineLength)
    (hkey : Plain (ascii key)) :
    ∃ m : Mode, m.ends = true ∧
      run ⟨.key, .object :: st⟩ (juNc key val) = some ⟨m, .object :: st⟩ := by
  unfold juNc
  rw [line_of_lt]
  · exact run_member hval (.inl rfl) hkey
  · rw [length_append]
    exact hlength

/-- `JSDOT` is `JS` with a dot behind the string. -/
lemma jsdot_eq (key : String) (val : Bytes) : jsdot key val = js key (val ++ ascii ".") := by
  unfold jsdot js
  rw [← append_assoc, append_assoc _ (ascii ".")]
  rfl

/-- A key of capital letters, with its quotes and its colon. -/
def StartsKey (u : Bytes) : Prop :=
  ∃ b w u', u = 34 :: b :: (w ++ 34 :: 32 :: 58 :: u') ∧
    (∀ st, stepAfter (.object :: st) b = none) ∧ Plain (b :: w)

/-- The key of a line is not cut off. -/
lemma line_keyText (hkey : (keyText key).length < lineLength) :
    line (keyText key ++ val) = keyText key ++ val.take (255 - (keyText key).length) := by
  have hwhole : (keyText key).take (lineLength - 1) = keyText key :=
    take_of_length_le (Nat.le_of_lt_succ hkey)
  refine take_append.trans ?_
  rw [hwhole]
  rfl

lemma startsKey_line {b : UInt8} {w : Bytes} (val u : Bytes)
    (hkey : ascii key = b :: w) (hlength : (keyText key).length < lineLength)
    (hb : ∀ st, stepAfter (.object :: st) b = none) (hplain : Plain (b :: w)) :
    StartsKey (line (keyText key ++ val) ++ u) := by
  refine ⟨b, w, 32 :: (val.take (255 - (keyText key).length) ++ u), ?_, hb, hplain⟩
  rw [line_keyText hlength, keyText, hkey]
  simp [ascii]

/-- Behind a quote, or behind a part of what closes a string. -/
lemma run_tail_take {m : Mode} (hm : m.inString = true) {k : ℕ} (hk : m = .str false → k ≤ 2) :
    run ⟨m, .object :: st⟩ ((ascii "\" , ").take k) = none ∨
      ∃ m' : Mode, (m'.inString = true ∨ m' = .after) ∧
        run ⟨m, .object :: st⟩ ((ascii "\" , ").take k) = some ⟨m', .object :: st⟩ := by
  rcases m with _ | _ | _ | _ | _ | _ | ⟨_ | _⟩ | ⟨_ | _⟩ | ⟨_ | _, n⟩ | n | _
  case str.false =>
    have hle := hk rfl
    rcases k with _ | _ | _ | k
    · exact .inr ⟨.str false, .inl rfl, rfl⟩
    · exact .inr ⟨.after, .inr rfl, rfl⟩
    · exact .inr ⟨.after, .inr rfl, rfl⟩
    · omega
  case esc.false =>
    rcases k with _ | _ | _ | _ | k
    · exact .inr ⟨.esc false, .inl rfl, rfl⟩
    · exact .inr ⟨.str false, .inl rfl, rfl⟩
    · exact .inr ⟨.str false, .inl rfl, rfl⟩
    · exact .inr ⟨.str false, .inl rfl, rfl⟩
    · rw [take_of_length_le (Nat.le_add_left 4 k)]
      exact .inr ⟨.str false, .inl rfl, rfl⟩
  case hex.false =>
    rcases k with _ | k
    · exact .inr ⟨.hex false n, .inl rfl, rfl⟩
    · exact .inl rfl
  all_goals cases hm

/-- A string that may not stand between quotes, or that is too long for its line, when another key
follows. -/
lemma run_js_stuck (hkey : Plain (ascii key)) (hlength : (keyText key).length < 255)
    (htame : Tame val)
    (hbad : ¬ (IsContent val ∧ (keyText key).length + val.length + 4 < lineLength))
    (hu : StartsKey u) : run ⟨.key, .object :: st⟩ (js key val ++ u) = none := by
  obtain ⟨b, w, u', rfl, hb, hplain⟩ := hu
  have hline : lineLength = 256 := rfl
  have hstray := fun m' hm' => @run_stray_key w m' hm' b hb hplain st u'
  -- The key and the quote are in the line; `n` bytes are left for the rest.
  obtain ⟨n, hn⟩ : ∃ n, 255 - (keyText key).length = n + 1 := ⟨254 - (keyText key).length, by omega⟩
  have htext : js key val = keyText key ++ (ascii "\"" ++
      (val.take n ++ (ascii "\" , ").take (n - val.length))) := by
    unfold js
    rw [append_assoc, append_assoc, line_keyText (by omega), hn, ← take_append]
    rfl
  rw [htext, append_assoc, run_append_of_some (run_keyText (.inl rfl) hkey), append_assoc,
    run_append_of_some run_quote, append_assoc]
  obtain hnone | ⟨m', hm', hrun⟩ := htame.run_take (.object :: st) n
  · exact run_append_of_none hnone _
  rw [run_append_of_some hrun]
  have hk : m' = .str false → n - val.length ≤ 2 := by
    rintro rfl
    by_contra hlong
    have hwhole : val.take n = val := take_of_length_le (by omega)
    rw [hwhole] at hrun
    exact hbad ⟨htame.content hrun, by omega⟩
  obtain hnone | ⟨m'', hm'', hrun'⟩ := @run_tail_take st m' hm' _ hk
  · exact run_append_of_none hnone _
  · rw [run_append_of_some hrun']
    exact hstray m'' hm''

end Lines

/-! ### Digits, numbers and encoded bytes -/

section Values

variable {st : List Ctx}

lemma length_uint64Text_le (n : UInt64) : (natText n.toNat).length ≤ 20 :=
  length_natText_le (lt_trans n.toNat_lt (by decide))

lemma length_int32Text_le (n : Int32) : (intText n.toInt).length ≤ 11 := by
  have hlow := n.le_toInt
  have hhigh := n.toInt_lt
  refine length_intText_le ?_
  omega

lemma uint16_lt (b : Bytes) : uint16 b < 65536 := by
  have hhigh := (b.getD 0 0).toNat_lt
  have hlow := (b.getD 1 0).toNat_lt
  unfold uint16
  omega

lemma length_uint16Text_le (b : Bytes) : (natText (uint16 b)).length ≤ 5 :=
  length_natText_le (lt_trans (uint16_lt b) (by decide))

lemma length_uint32Text_le (n : UInt32) : (natText n.toNat).length ≤ 10 :=
  length_natText_le (lt_trans n.toNat_lt (by decide))

lemma isPlain_b64Char (v : ℕ) : isPlain (b64Char v) = true := by
  have hall : ∀ i < 64, isPlain (b64.getD i 0) = true := by decide +kernel
  exact hall (v % 64) (Nat.mod_lt v (by decide))

lemma plain_b64Text (data : Bytes) : Plain (b64Text data) := by
  have hpad : Plain (ascii "==") := by decide +kernel
  induction data using b64Text.induct with
  | case1 a b c data ih =>
    unfold b64Text
    intro d hd
    simp only [mem_cons] at hd
    obtain rfl | rfl | rfl | rfl | hd := hd
    · exact isPlain_b64Char _
    · exact isPlain_b64Char _
    · exact isPlain_b64Char _
    · exact isPlain_b64Char _
    · exact ih d hd
  | case2 a b =>
    intro d hd
    simp only [b64Text, mem_append, mem_cons, not_mem_nil, or_false] at hd
    obtain (rfl | rfl | rfl) | hd := hd
    · exact isPlain_b64Char _
    · exact isPlain_b64Char _
    · exact isPlain_b64Char _
    · exact hpad d (mem_cons_of_mem _ hd)
  | case3 a =>
    intro d hd
    simp only [b64Text, mem_append, mem_cons, not_mem_nil, or_false] at hd
    obtain (rfl | rfl) | hd := hd
    · exact isPlain_b64Char _
    · exact isPlain_b64Char _
    · exact hpad d hd
  | case4 => nofun

/-- A byte of a text record may stand between quotes. -/
lemma isContent_txtByte (b : UInt8) : IsContent (txtByte b) := by
  unfold txtByte
  by_cases hplain : b ≠ 34 ∧ b ≠ 92 ∧ 32 ≤ b ∧ b ≤ 126
  · rw [if_pos hplain]
    obtain ⟨hquote, hbackslash, hcontrol, -⟩ := hplain
    refine Plain.content fun d hd => ?_
    rw [mem_singleton.1 hd]
    simp [isPlain, hquote, hbackslash, hcontrol]
  · rw [if_neg hplain]
    have hdigits : Plain (natText (b.toNat / 100) ++ natText (b.toNat / 10 % 10) ++
        natText (b.toNat % 10)) := by
      intro d hd
      refine isPlain_of_isdigit ?_
      simp only [mem_append] at hd
      obtain (hd | hd) | hd := hd
      · exact isdigit_of_mem_natText _ d hd
      · exact isdigit_of_mem_natText _ d hd
      · exact isdigit_of_mem_natText _ d hd
    have hchars : Chars (92 :: 92 :: (natText (b.toNat / 100) ++ natText (b.toNat / 10 % 10) ++
        natText (b.toNat % 10) ++ [34])) [] := .escape rfl hdigits.content
    exact hchars

/-- The strings of a text record. -/
lemma run_txtLoop (len : Option ℕ) (rdata : Bytes) :
    run ⟨.str false, .array :: st⟩ (txtLoop len rdata) = some ⟨.str false, .array :: st⟩ := by
  induction len, rdata using txtLoop.induct with
  | case1 => rfl
  | case2 b rdata ih => exact ih
  | case3 b rdata ih =>
    have hnext : run ⟨.str false, .array :: st⟩ (ascii "\", \"") =
        some ⟨.str false, .array :: st⟩ := rfl
    unfold txtLoop
    rw [run_append_of_some hnext, ih]
  | case4 len b rdata ih =>
    unfold txtLoop
    rw [run_append_of_some (isContent_txtByte b).run, ih]

lemma run_printTxtJson (rdata : Bytes) :
    run ⟨.key, .object :: st⟩ (printTxtJson rdata) = some ⟨.after, .object :: st⟩ := by
  have hopen : run ⟨.key, .object :: st⟩ (ascii "\"RDATA\" : [ \"") =
      some ⟨.str false, .array :: .object :: st⟩ := rfl
  unfold printTxtJson
  rw [append_assoc, run_append_of_some hopen, run_append_of_some (run_txtLoop none rdata)]
  rfl

end Values

end AtlasProbe.Evtdig
