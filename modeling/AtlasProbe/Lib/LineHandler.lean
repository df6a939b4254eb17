import AtlasProbe.Lib.LineProg

/-!
# Handling lines in a buffer

A line is judged by its own bytes (`Judged`) if no other byte is looked at, if what is left in the
buffer does not matter, and if the line is rejected when a field is missing.  This is so if and only
if the line is complete (`judged_iff`).
-/

namespace AtlasProbe

open List

variable {ε σ : Type}

/-- What is done with a line: a scanner for its first word, and a program for the rest. -/
structure Handler (ε σ : Type) where
  start : Scanner
  body : Bytes → LineProg ε σ

namespace Handler

/-- The buffer with a line in it.  The byte behind the line was its newline. -/
def load (mem text : Bytes) : Bytes := text ++ 0 :: 0 :: mem.drop (text.length + 2)

/-- The first word of a line. -/
def firstWord (text : Bytes) : Bytes := text.takeWhile (· ≠ 32)

/-- What stands behind the first word. -/
def afterFirst (text : Bytes) : Bytes := text.dropWhile (· ≠ 32)

section

variable (h : Handler ε σ) (text mem : Bytes) (vars : σ) (log : List ε)

/-- Handle a line.  It has been looked at as far as the zero behind it, for its length. -/
def run : Verdict × Machine ε σ :=
  let m : Machine ε σ := ⟨load mem text, text.length, 0, text.length + 1, vars, log⟩
  match h.start.scan m.mem 0 with
  | .outside => (.outside, m)
  | .bad mem seen => (.rejected, { m.look seen with mem := mem })
  | .found mem seen stop =>
    (h.body (mem.take stop)).run { m.look seen with mem := mem, ecp := stop }

/-- Judge a line by its own bytes. -/
def exec : LineProg.Judgement ε σ :=
  if h.start.accepts (firstWord text) then
    (h.body (firstWord text)).exec (afterFirst text) vars log
  else .rejected vars log

/-- The line has a word for each field up to the first that is rejected. -/
def complete : Bool :=
  !h.start.accepts (firstWord text) || (h.body (firstWord text)).complete (afterFirst text) vars

/-- A field is missing behind those that are accepted. -/
def missing : Bool :=
  h.start.accepts (firstWord text) && (h.body (firstWord text)).missing (afterFirst text) vars

end

/-- What a line leads to: the verdict, the variables and the events. -/
def outcome (result : Verdict × Machine ε σ) : Verdict × σ × List ε :=
  (result.1, result.2.vars, result.2.log)

variable {h : Handler ε σ} {text mem : Bytes} {vars : σ} {log : List ε}

/-- A line is judged by its own bytes: no other byte is looked at, the outcome is the same whatever
was left in the buffer, and the line is rejected if a field is missing. -/
structure Judged (h : Handler ε σ) (text mem : Bytes) (vars : σ) (log : List ε) : Prop where
  own : (h.run text mem vars log).1 ≠ .outside ∧ (h.run text mem vars log).2.seen ≤ text.length + 1
  stale : ∀ mem', mem'.length = mem.length →
    outcome (h.run text mem' vars log) = outcome (h.run text mem vars log)
  rejects : h.missing text vars = true → (h.run text mem vars log).1 = .rejected

lemma firstWord_append_afterFirst (text : Bytes) : firstWord text ++ afterFirst text = text :=
  takeWhile_append_dropWhile

lemma wordAt_load (mem : Bytes) (hplain : 0 ∉ text) : Scanner.WordAt (load mem text) 0
    (firstWord text) := by
  refine ⟨⟨fun hin => hplain ((takeWhile_sublist _).mem hin), ?_⟩, ?_⟩
  · exact LineProg.blank_not_mem_takeWhile text
  · rw [load]
    nth_rewrite 1 [← firstWord_append_afterFirst text]
    rw [append_assoc]
    rcases LineProg.dropWhile_cases text with hnil | ⟨rest, hrest⟩
    · rw [afterFirst, hnil]
      exact ⟨0, _, rfl, .inl rfl⟩
    · rw [afterFirst, hrest]
      exact ⟨32, _, rfl, .inr rfl⟩

/-- Behind its first word the machine stands at what is left of the line. -/
lemma at_afterFirst (hplain : 0 ∉ text) (seen : ℕ) :
    LineProg.At (⟨Scanner.closed (load mem text) 0 (firstWord text), text.length,
      (firstWord text).length, seen, vars, log⟩ : Machine ε σ) (afterFirst text) := by
  have hlength := congrArg List.length (firstWord_append_afterFirst text)
  rw [length_append] at hlength
  refine ⟨hlength, ?_, fun hin => hplain ((dropWhile_sublist _).mem hin), fun hne => ?_⟩
  · dsimp only
    rw [Scanner.closed, length_set, load, length_append, length_cons]
    omega
  · have hpos := length_pos_iff.mpr hne
    refine ⟨0 :: mem.drop (text.length + 2), ?_⟩
    dsimp only
    rw [Scanner.closed, drop_set_of_lt (by omega), load]
    nth_rewrite 2 [← firstWord_append_afterFirst text]
    rw [append_assoc, ← drop_drop, drop_left, drop_append_of_le_length hpos]

/-- Handling a line agrees with the judgement of the line by its own bytes. -/
lemma run_agrees (h : Handler ε σ) (mem : Bytes) (vars : σ) (log : List ε)
    (hplain : 0 ∉ text) :
    LineProg.Agrees text.length (h.run text mem vars log) (h.exec text vars log) := by
  have hword := wordAt_load mem hplain
  have hlength := congrArg List.length (firstWord_append_afterFirst text)
  rw [length_append] at hlength
  obtain ⟨n, hn, hscan⟩ := hword.scan h.start
  have hlook : max (text.length + 1) n ≤ text.length + 1 := max_le le_rfl (by omega)
  unfold run exec
  dsimp only
  rw [hscan]
  by_cases haccept : h.start.accepts (firstWord text) = true
  · obtain ⟨rest, hclosed⟩ := hword.drop_closed
    rw [drop_zero] at hclosed
    rw [if_pos haccept, if_pos haccept]
    dsimp only
    rw [Nat.zero_add]
    nth_rewrite 1 [hclosed]
    rw [take_left]
    exact LineProg.run_agrees _ (at_afterFirst hplain _) hlook
  · rw [if_neg haccept, if_neg haccept]
    exact ⟨rfl, rfl, rfl, hlook⟩

lemma complete_iff (log : List ε) :
    h.complete text vars = true ↔ h.exec text vars log ≠ .lacking := by
  unfold complete exec
  split_ifs with haccept
  · rw [haccept, Bool.not_true]
    exact LineProg.complete_iff _ log
  · exact iff_of_true (by simp [haccept]) nofun

lemma missing_of_lacking (hlacking : h.exec text vars log = .lacking) :
    h.missing text vars = true := by
  unfold exec at hlacking
  unfold missing
  split_ifs at hlacking with haccept
  rw [haccept]
  exact LineProg.missing_of_lacking _ hlacking

lemma exec_of_missing (hmissing : h.missing text vars = true) (vars' : σ) (log' : List ε) :
    h.exec text vars log ≠ .accepted vars' log' := by
  obtain ⟨haccept, hbody⟩ := Bool.and_eq_true_iff.mp hmissing
  unfold exec
  rw [if_pos haccept]
  exact LineProg.exec_of_missing _ hbody vars' log'

/-- If a line is complete, then all runs end alike, and they look at no other byte. -/
lemma exists_outcome (log : List ε) (hplain : 0 ∉ text)
    (hcomplete : h.complete text vars = true) :
    ∃ verdict vars' log', verdict ≠ .outside ∧
      (h.missing text vars = true → verdict = .rejected) ∧
      ∀ mem, outcome (h.run text mem vars log) = (verdict, vars', log') ∧
        (h.run text mem vars log).2.seen ≤ text.length + 1 := by
  have hagrees := fun mem => run_agrees h mem vars log hplain
  have hjudged := (complete_iff log).mp hcomplete
  cases hexec : h.exec text vars log with
  | accepted vars' log' =>
    refine ⟨.accepted, vars', log', nofun, fun hmissing => ?_, fun mem => ?_⟩
    · exact absurd hexec (exec_of_missing hmissing vars' log')
    · obtain ⟨hverdict, hvars, hlog, hseen⟩ := hexec ▸ hagrees mem
      rw [outcome, hverdict, hvars, hlog]
      exact ⟨rfl, hseen⟩
  | rejected vars' log' =>
    refine ⟨.rejected, vars', log', nofun, fun _ => rfl, fun mem => ?_⟩
    obtain ⟨hverdict, hvars, hlog, hseen⟩ := hexec ▸ hagrees mem
    rw [outcome, hverdict, hvars, hlog]
    exact ⟨rfl, hseen⟩
  | lacking => exact absurd hexec hjudged

/-- A line is judged by its own bytes if and only if it is complete. -/
theorem judged_iff (hplain : 0 ∉ text) :
    Judged h text mem vars log ↔ h.complete text vars = true := by
  constructor
  · intro hjudged
    refine (complete_iff log).mpr fun hlacking => ?_
    have hrejected := hjudged.rejects (missing_of_lacking hlacking)
    have hagrees := run_agrees h mem vars log hplain
    rw [hlacking] at hagrees
    rcases hagrees with haccepted | hseen
    · rw [hrejected] at haccepted
      cases haccepted
    · exact absurd hjudged.own.2 (by omega)
  · intro hcomplete
    obtain ⟨verdict, vars', log', hinside, hmissing, hall⟩ :=
      exists_outcome log hplain hcomplete
    have hverdict : (h.run text mem vars log).1 = verdict := congrArg Prod.fst (hall mem).1
    refine ⟨⟨hverdict ▸ hinside, (hall mem).2⟩, fun mem' _ => ?_, fun h => ?_⟩
    · rw [(hall mem').1, (hall mem).1]
    · rw [hverdict, hmissing h]

/-! ### Events -/

section Events

variable {P : UInt8 → Prop} {Q : ε → Prop} {size : ℕ}

/-- The events of a handler have a property, whatever the line is. -/
def Emits (P : UInt8 → Prop) (Q : ε → Prop) (h : Handler ε σ) : Prop :=
  ∀ tag, h.start.accepts tag = true → (h.body tag).Emits P Q

lemma length_load (hsize : text.length + 2 ≤ mem.length) : (load mem text).length = mem.length := by
  rw [load, length_append, length_cons, length_cons, length_drop]
  omega

lemma clean_load (hclean : LineProg.Clean P Q size mem log) (hzero : P 0)
    (hsize : text.length + 2 ≤ size) (htext : ∀ b ∈ text, P b) :
    LineProg.Clean P Q size (load mem text) log := by
  refine ⟨?_, fun b hb => ?_, hclean.events⟩
  · rw [length_load (hclean.size ▸ hsize), hclean.size]
  · rw [load, mem_append, mem_cons, mem_cons] at hb
    rcases hb with hb | rfl | rfl | hb
    · exact htext b hb
    · exact hzero
    · exact hzero
    · exact hclean.bytes b (mem_of_mem_drop hb)

/-- Handling a line has only the events that the handler can have. -/
theorem clean_run (hh : h.Emits P Q) (hclean : LineProg.Clean P Q size mem log) (hzero : P 0)
    (hsize : text.length + 2 ≤ size) (htext : ∀ b ∈ text, P b) :
    LineProg.Clean P Q size (h.run text mem vars log).2.mem (h.run text mem vars log).2.log := by
  have hload := clean_load hclean hzero hsize htext
  unfold run
  dsimp only
  cases hscan : h.start.scan (load mem text) 0 with
  | outside => exact hload
  | bad mem' seen => exact hload.cut hzero (h.start.scan_bad hscan)
  | found mem' seen stop =>
    obtain ⟨-, -, hcut, haccept⟩ := h.start.scan_found hscan
    exact LineProg.Clean.run (hh _ haccept) hzero (hload.cut hzero hcut)

end Events

end Handler

end AtlasProbe
