import Mathlib.Order.MinMax
import AtlasProbe.Lib.Scanner
import AtlasProbe.Lib.Text

/-!
# Programs that read a line field by field

A program asks for the fields of a line, one behind the other, and acts on what it gets
(`LineProg`).  The line stands in a buffer that is used again and again, with a zero behind it;
behind the zero there is what longer lines have left.  A program that asks for a field behind the
last one goes there.

A run in the buffer (`run`) agrees with a judgement of the line alone (`exec`, `run_agrees`), unless
there is no such judgement because a field is missing.  `Emits` bounds the events of a program, and
`Clean` what a run leaves.
-/

namespace AtlasProbe

open List

/-- What is done when a field is rejected, before the line is rejected: some events, or one event
that shows the text from the start of the field on. -/
inductive OnBad (ε : Type*)
  | emits (events : List ε)
  | shows (event : Bytes → ε)

/-- A program with events in `ε` and variables in `σ`. -/
inductive LineProg (ε σ : Type)
  | done
  /-- Take the next field, check its text, and go on with it. -/
  | field (sc : Scanner) (valid : Bytes → Bool) (bad : OnBad ε)
      (next : Bytes → LineProg ε σ)
  | emit (event : ε) (next : LineProg ε σ)
  | get (next : σ → LineProg ε σ)
  | modify (f : σ → σ) (next : LineProg ε σ)
  /-- Ask whether there is another field. -/
  | more (next : Bool → LineProg ε σ)
  /-- Reject the line if there is another field. -/
  | endOfLine (next : LineProg ε σ)

/-- How a line ends: it is accepted or rejected, or the program has left the buffer. -/
inductive Verdict
  | accepted
  | rejected
  | outside
  deriving DecidableEq

/-- The buffer, the length of the line, the end of the last field, a bound for the bytes that have
been looked at, the variables, and the events in their order. -/
structure Machine (ε σ : Type) where
  mem : Bytes
  len : ℕ
  ecp : ℕ
  seen : ℕ
  vars : σ
  log : List ε

variable {ε σ : Type}

/-- Look at the first `n` bytes. -/
def Machine.look (m : Machine ε σ) (n : ℕ) : Machine ε σ := { m with seen := max m.seen n }

namespace LineProg

/-! ### In the buffer -/

/-- The index of the first byte that is not a blank. -/
def skipSpaces (mem : Bytes) (start : ℕ) : ℕ :=
  start + ((mem.drop start).takeWhile (· = 32)).length

/-- The end of a run in which a field is rejected. -/
def reject (bad : OnBad ε) (cp : ℕ) (m : Machine ε σ) : Verdict × Machine ε σ :=
  match bad with
  | .emits events => (.rejected, { m with log := m.log ++ events })
  | .shows event =>
    let text := (m.mem.drop cp).takeWhile (· ≠ 0)
    let m := m.look (cp + text.length + 1)
    if cp + text.length < m.mem.length then (.rejected, { m with log := m.log ++ [event text] })
    else (.outside, m)

/-- Run a program. -/
def run : LineProg ε σ → Machine ε σ → Verdict × Machine ε σ
  | done, m => (.accepted, m)
  | field sc valid bad next, m =>
    let cp := skipSpaces m.mem (m.ecp + 1)
    let m := m.look (cp + 1)
    if cp < m.mem.length then
      match sc.scan m.mem cp with
      | .outside => (.outside, m)
      | .bad mem seen => reject bad cp { m.look seen with mem := mem }
      | .found mem seen stop =>
        let text := (mem.drop cp).take (stop - cp)
        let m := { m.look seen with mem := mem, ecp := stop }
        if valid text then (next text).run m else (.rejected, m)
    else (.outside, m)
  | emit event next, m => next.run { m with log := m.log ++ [event] }
  | get next, m => (next m.vars).run m
  | modify f next, m => next.run { m with vars := f m.vars }
  | more next, m =>
    if m.ecp + 1 < m.len then
      let cp := skipSpaces m.mem (m.ecp + 1)
      let m := m.look (cp + 1)
      match m.mem[cp]? with
      | none => (.outside, m)
      | some c => (next (c ≠ 0)).run m
    else (next false).run m
  | endOfLine next, m =>
    if m.ecp + 1 < m.len then
      let cp := skipSpaces m.mem (m.ecp + 1)
      let m := m.look (cp + 1)
      if cp < m.mem.length then if cp = m.len then next.run m else (.rejected, m)
      else (.outside, m)
    else next.run m

/-! ### On the line alone -/

/-- The text behind the blanks, when the field in front of it ends with the first byte. -/
def ahead (tail : Bytes) : Bytes := (tail.drop 1).dropWhile (· = 32)

/-- The next word. -/
def nextWord (tail : Bytes) : Bytes := (ahead tail).takeWhile (· ≠ 32)

/-- What stands behind the next word. -/
def behind (tail : Bytes) : Bytes := (ahead tail).dropWhile (· ≠ 32)

/-- How a line is judged by its own bytes; there is no judgement if a field is missing. -/
inductive Judgement (ε σ : Type)
  | accepted (vars : σ) (log : List ε)
  | rejected (vars : σ) (log : List ε)
  | lacking

/-- The events when a field is rejected. -/
def badEvents (sc : Scanner) (bad : OnBad ε) (tail : Bytes) : List ε :=
  match bad with
  | .emits events => events
  | .shows event => [event (if sc.cuts (nextWord tail) then nextWord tail else ahead tail)]

/-- Judge what stands behind the last field. -/
def exec : LineProg ε σ → Bytes → σ → List ε → Judgement ε σ
  | done, _, vars, log => .accepted vars log
  | field sc valid bad next, tail, vars, log =>
    if tail = [] then .lacking
    else if sc.accepts (nextWord tail) then
      if valid (nextWord tail) then
        if nextWord tail = [] then .lacking
        else (next (nextWord tail)).exec (behind tail) vars log
      else .rejected vars log
    else .rejected vars (log ++ badEvents sc bad tail)
  | emit event next, tail, vars, log => next.exec tail vars (log ++ [event])
  | get next, tail, vars, log => (next vars).exec tail vars log
  | modify f next, tail, vars, log => next.exec tail (f vars) log
  | more next, tail, vars, log => (next (ahead tail ≠ [])).exec tail vars log
  | endOfLine next, tail, vars, log =>
    if ahead tail ≠ [] then .rejected vars log else next.exec tail vars log

/-- The line has a word for each field up to the first that is rejected.  If only blanks are left of
the line, then the missing field may also be one that must not be empty. -/
def complete : LineProg ε σ → Bytes → σ → Bool
  | done, _, _ => true
  | field sc valid _ next, tail, vars =>
    tail ≠ [] && (!(sc.accepts (nextWord tail) && valid (nextWord tail)) ||
      (nextWord tail ≠ [] && (next (nextWord tail)).complete (behind tail) vars))
  | emit _ next, tail, vars => next.complete tail vars
  | get next, tail, vars => (next vars).complete tail vars
  | modify f next, tail, vars => next.complete tail (f vars)
  | more next, tail, vars => (next (ahead tail ≠ [])).complete tail vars
  | endOfLine next, tail, vars => ahead tail ≠ [] || next.complete tail vars

/-- A field is missing behind those that are accepted. -/
def missing : LineProg ε σ → Bytes → σ → Bool
  | done, _, _ => false
  | field sc valid _ next, tail, vars =>
    nextWord tail = [] || (sc.accepts (nextWord tail) && valid (nextWord tail) &&
      (next (nextWord tail)).missing (behind tail) vars)
  | emit _ next, tail, vars => next.missing tail vars
  | get next, tail, vars => (next vars).missing tail vars
  | modify f next, tail, vars => next.missing tail (f vars)
  | more next, tail, vars => (next (ahead tail ≠ [])).missing tail vars
  | endOfLine next, tail, vars => ahead tail = [] && next.missing tail vars

/-! ### Behind the line -/

section Behind

variable {m : Machine ε σ} (p : LineProg ε σ)

lemma seen_le_look (m : Machine ε σ) (n : ℕ) : m.seen ≤ (m.look n).seen := le_max_left _ _

lemma seen_le_reject (bad : OnBad ε) (cp : ℕ) (m : Machine ε σ) :
    m.seen ≤ (reject bad cp m).2.seen := by
  cases bad with
  | emits events => exact le_rfl
  | shows event =>
    unfold reject
    dsimp only
    split_ifs
    · exact seen_le_look m _
    · exact seen_le_look m _

/-- A program that asks for a field looks at the blanks in front of it, and what has been looked at
does not become less. -/
lemma seen_field {next : Bytes → LineProg ε σ} (sc : Scanner) (valid : Bytes → Bool)
    (bad : OnBad ε) (hnext : ∀ text m, m.seen ≤ ((next text).run m).2.seen) (m : Machine ε σ) :
    (m.look (skipSpaces m.mem (m.ecp + 1) + 1)).seen ≤
      ((field sc valid bad next).run m).2.seen := by
  unfold run
  dsimp only
  split_ifs
  · cases sc.scan (m.look (skipSpaces m.mem (m.ecp + 1) + 1)).mem
        (skipSpaces m.mem (m.ecp + 1)) with
    | outside => exact le_rfl
    | bad mem seen =>
      refine le_trans ?_ (seen_le_reject _ _ _)
      exact seen_le_look _ seen
    | found mem seen stop =>
      dsimp only
      split_ifs
      · refine le_trans ?_ (hnext _ _)
        exact seen_le_look _ seen
      · exact seen_le_look _ seen
  · exact le_rfl

lemma seen_le_run (m : Machine ε σ) : m.seen ≤ (p.run m).2.seen := by
  induction p generalizing m with
  | done => exact le_rfl
  | field sc valid bad next ih => exact le_trans (seen_le_look m _) (seen_field sc valid bad ih m)
  | emit event next ih => exact ih { m with log := m.log ++ [event] }
  | get next ih => exact ih m.vars m
  | modify f next ih => exact ih { m with vars := f m.vars }
  | more next ih =>
    have hskip := seen_le_look m (skipSpaces m.mem (m.ecp + 1) + 1)
    unfold run
    dsimp only
    split_ifs
    · cases (m.look (skipSpaces m.mem (m.ecp + 1) + 1)).mem[skipSpaces m.mem (m.ecp + 1)]? with
      | none => exact hskip
      | some c => exact le_trans hskip (ih _ _)
    · exact ih _ m
  | endOfLine next ih =>
    have hskip := seen_le_look m (skipSpaces m.mem (m.ecp + 1) + 1)
    unfold run
    dsimp only
    split_ifs
    · exact le_trans hskip (ih _)
    · exact hskip
    · exact hskip
    · exact ih m

/-- At the end of a line a program accepts it, or looks behind it. -/
lemma run_of_ecp_eq_len (h : m.ecp = m.len) :
    (p.run m).1 = .accepted ∨ m.len + 1 < (p.run m).2.seen := by
  induction p generalizing m with
  | done => exact .inl rfl
  | field sc valid bad next ih =>
    refine .inr (lt_of_lt_of_le ?_ (seen_field sc valid bad (fun _ => seen_le_run _) m))
    refine lt_of_lt_of_le ?_ (le_max_right _ _)
    rw [skipSpaces]
    omega
  | emit event next ih => exact ih h
  | get next ih => exact ih _ h
  | modify f next ih => exact ih h
  | more next ih =>
    unfold run
    rw [if_neg (by omega)]
    exact ih _ h
  | endOfLine next ih =>
    unfold run
    rw [if_neg (by omega)]
    exact ih h

end Behind

/-! ### At a field of the line -/

section Words

variable {tail : Bytes} (text : Bytes)

lemma nextWord_append_behind (tail : Bytes) : nextWord tail ++ behind tail = ahead tail :=
  takeWhile_append_dropWhile

lemma ahead_subset (tail : Bytes) : ∀ b ∈ ahead tail, b ∈ tail := fun _ hb =>
  mem_of_mem_drop ((dropWhile_sublist _).mem hb)

lemma behind_subset (tail : Bytes) : ∀ b ∈ behind tail, b ∈ tail := fun b hb =>
  ahead_subset tail b ((dropWhile_sublist _).mem hb)

lemma blank_not_mem_takeWhile : 32 ∉ text.takeWhile (· ≠ 32) := by
  intro hin
  have hne := mem_takeWhile_imp hin
  exact of_decide_eq_true hne rfl

lemma dropWhile_cases :
    text.dropWhile (· ≠ 32) = [] ∨ ∃ rest, text.dropWhile (· ≠ 32) = 32 :: rest := by
  induction text with
  | nil => exact .inl rfl
  | cons b text ih =>
    by_cases hb : b = 32
    · subst hb
      exact .inr ⟨text, rfl⟩
    · rw [dropWhile_cons, if_pos (by simpa using hb)]
      exact ih

lemma dropWhile_blank_eq_nil (h : (text.dropWhile (· = 32)).takeWhile (· ≠ 32) = []) :
    text.dropWhile (· = 32) = [] := by
  induction text with
  | nil => rfl
  | cons b text ih =>
    by_cases hb : b = 32
    · rw [dropWhile_cons, if_pos (by simpa using hb)] at h ⊢
      exact ih h
    · rw [dropWhile_cons, if_neg (by simpa using hb), takeWhile_cons,
        if_pos (by simpa using hb)] at h
      cases h

lemma ahead_eq_nil_of_nextWord (h : nextWord tail = []) : ahead tail = [] :=
  dropWhile_blank_eq_nil _ h

lemma ahead_eq_nil_of_length_le (h : tail.length ≤ 1) : ahead tail = [] := by
  rw [ahead, drop_eq_nil_of_le h]
  rfl

/-- The blanks in front of a text that ends with a zero. -/
lemma takeWhile_blank {text beyond : Bytes} :
    (text ++ 0 :: beyond).takeWhile (· = 32) = text.takeWhile (· = 32) := by
  induction text with
  | nil => rfl
  | cons b text ih => rw [cons_append, takeWhile_cons, takeWhile_cons, ih]

end Words

/-- The machine stands behind a field, with `tail` as what is left of the line from the end of the
field on. -/
structure At (m : Machine ε σ) (tail : Bytes) : Prop where
  len : m.ecp + tail.length = m.len
  size : m.len < m.mem.length
  plain : 0 ∉ tail
  text : tail ≠ [] → ∃ beyond, m.mem.drop (m.ecp + 1) = tail.drop 1 ++ 0 :: beyond

namespace At

variable {m : Machine ε σ} {tail : Bytes}

section Tail

variable (h : At m tail)

include h

lemma zero_not_mem_ahead : 0 ∉ ahead tail := fun hin => h.plain (ahead_subset tail 0 hin)

lemma look (n : ℕ) : At (m.look n) tail := ⟨h.len, h.size, h.plain, h.text⟩

lemma ne_nil_of_lt (hlt : m.ecp + 1 < m.len) : tail ≠ [] := by
  rintro rfl
  have hlen := h.len
  rw [length_nil] at hlen
  omega

lemma ahead_eq_nil_of_le (hle : m.len ≤ m.ecp + 1) : ahead tail = [] := by
  have hlen := h.len
  exact ahead_eq_nil_of_length_le (by omega)

variable (hne : tail ≠ [])

include hne

/-- Behind the blanks the rest of the line follows, with the zero at its end. -/
lemma skip :
    skipSpaces m.mem (m.ecp + 1) + (ahead tail).length = m.len ∧
      ∃ beyond, m.mem.drop (skipSpaces m.mem (m.ecp + 1)) = ahead tail ++ 0 :: beyond := by
  obtain ⟨beyond, hdrop⟩ := h.text hne
  have hlen := h.len
  have hpos := length_pos_iff.mpr hne
  have hsplit := takeWhile_append_dropWhile (p := (· = (32 : UInt8))) (l := tail.drop 1)
  have hlength := congrArg List.length hsplit
  rw [length_append, length_drop] at hlength
  unfold skipSpaces
  rw [hdrop, takeWhile_blank]
  refine ⟨?_, beyond, ?_⟩
  · unfold ahead
    omega
  · rw [← drop_drop, hdrop, ahead]
    nth_rewrite 2 [← hsplit]
    rw [append_assoc, drop_left]

/-- The next word of the line stands behind the blanks. -/
lemma wordAt :
    Scanner.WordAt m.mem (skipSpaces m.mem (m.ecp + 1)) (nextWord tail) := by
  obtain ⟨-, beyond, hdrop⟩ := h.skip hne
  refine ⟨⟨fun hin => h.zero_not_mem_ahead ?_, blank_not_mem_takeWhile _⟩, ?_⟩
  · rw [← nextWord_append_behind]
    exact mem_append_left _ hin
  · rw [← nextWord_append_behind, append_assoc] at hdrop
    rcases dropWhile_cases (ahead tail) with hnil | ⟨rest, hrest⟩
    · rw [behind, hnil] at hdrop
      exact ⟨0, beyond, hdrop, .inl rfl⟩
    · rw [behind, hrest] at hdrop
      exact ⟨32, rest ++ 0 :: beyond, hdrop, .inr rfl⟩

/-- Behind the next word the machine stands at what is left then. -/
lemma behind (seen : ℕ) (vars : σ) (log : List ε) :
    At ⟨Scanner.closed m.mem (skipSpaces m.mem (m.ecp + 1)) (nextWord tail), m.len,
      skipSpaces m.mem (m.ecp + 1) + (nextWord tail).length, seen, vars, log⟩ (behind tail) := by
  obtain ⟨hlen, beyond, hdrop⟩ := h.skip hne
  rw [← nextWord_append_behind] at hlen hdrop
  rw [length_append] at hlen
  refine ⟨?_, ?_, fun hin => h.plain (behind_subset tail 0 hin), fun hbehind => ⟨beyond, ?_⟩⟩
  · dsimp only
    omega
  · rw [Scanner.closed, length_set]
    exact h.size
  · have hpos := length_pos_iff.mpr hbehind
    dsimp only
    rw [Scanner.closed, drop_set_of_lt (by omega), Nat.add_assoc, ← drop_drop, hdrop,
      append_assoc, ← drop_drop, drop_left, drop_append_of_le_length hpos]

lemma skip_le : skipSpaces m.mem (m.ecp + 1) ≤ m.len :=
  (h.skip hne).1 ▸ Nat.le_add_right _ _

lemma skip_eq_len_iff : skipSpaces m.mem (m.ecp + 1) = m.len ↔ ahead tail = [] := by
  have hskip := (h.skip hne).1
  rw [← length_eq_zero_iff]
  omega

/-- The byte behind the blanks is zero at the end of the line only. -/
lemma getElem?_skip :
    ∃ c, m.mem[skipSpaces m.mem (m.ecp + 1)]? = some c ∧ (c ≠ 0 ↔ ahead tail ≠ []) := by
  obtain ⟨-, beyond, hdrop⟩ := h.skip hne
  have hzero := h.zero_not_mem_ahead
  have hget : m.mem[skipSpaces m.mem (m.ecp + 1)]? = (ahead tail ++ 0 :: beyond)[0]? := by
    rw [← hdrop, getElem?_drop]
    rfl
  rw [hget]
  cases hahead : ahead tail with
  | nil => exact ⟨0, rfl, iff_of_false (fun h => h rfl) (fun h => h rfl)⟩
  | cons b rest =>
    refine ⟨b, rfl, iff_of_true ?_ (cons_ne_nil _ _)⟩
    rintro rfl
    exact hzero (hahead ▸ mem_cons_self)

end Tail

end At

/-! ### A run on a line -/

/-- The end of a run agrees with the judgement of the line, and looks at no other byte.  If there is
no judgement, then the line has been accepted, or other bytes have been looked at. -/
def Agrees (len : ℕ) (result : Verdict × Machine ε σ) : Judgement ε σ → Prop
  | .accepted vars log =>
    result.1 = .accepted ∧ result.2.vars = vars ∧ result.2.log = log ∧ result.2.seen ≤ len + 1
  | .rejected vars log =>
    result.1 = .rejected ∧ result.2.vars = vars ∧ result.2.log = log ∧ result.2.seen ≤ len + 1
  | .lacking => result.1 = .accepted ∨ len + 1 < result.2.seen

section Run

variable {m : Machine ε σ} {tail : Bytes}

/-- A field that is rejected is shown up to the zero behind it. -/
lemma agrees_reject (bad : OnBad ε) {cp len : ℕ} {text beyond : Bytes}
    (hdrop : m.mem.drop cp = text ++ 0 :: beyond) (hplain : 0 ∉ text) (hseen : m.seen ≤ len + 1)
    (hlen : cp + text.length ≤ len) :
    Agrees len (reject bad cp m) (.rejected m.vars (m.log ++
      match bad with
      | .emits events => events
      | .shows event => [event text])) := by
  cases bad with
  | emits events => exact ⟨rfl, rfl, rfl, hseen⟩
  | shows event =>
    have hlength := congrArg List.length hdrop
    rw [length_drop, length_append, length_cons] at hlength
    have hlt : cp + text.length < (m.look (cp + text.length + 1)).mem.length := by
      change _ < m.mem.length
      omega
    unfold reject
    rw [hdrop, (takeWhile_ne hplain).2]
    dsimp only
    rw [if_pos hlt]
    exact ⟨rfl, rfl, rfl, max_le hseen (Nat.succ_le_succ hlen)⟩

/-- The field that comes next is judged by the next word. -/
lemma agrees_field {sc : Scanner} {valid : Bytes → Bool} {bad : OnBad ε}
    {next : Bytes → LineProg ε σ}
    (hnext : ∀ text (m : Machine ε σ) tail, At m tail → m.seen ≤ m.len + 1 →
      Agrees m.len ((next text).run m) ((next text).exec tail m.vars m.log))
    (h : At m tail) (hseen : m.seen ≤ m.len + 1) :
    Agrees m.len ((field sc valid bad next).run m)
      ((field sc valid bad next).exec tail m.vars m.log) := by
  by_cases hne : tail = []
  · have hend : m.ecp = m.len := by
      have hlen := h.len
      rwa [hne, length_nil] at hlen
    rw [exec, if_pos hne]
    exact run_of_ecp_eq_len _ hend
  have hword := h.wordAt hne
  obtain ⟨hskip, beyond, hdrop⟩ := h.skip hne
  have hlt := hword.length_lt
  obtain ⟨n, hn, hscan⟩ := hword.scan sc
  have hsplit := congrArg List.length (nextWord_append_behind tail)
  rw [length_append] at hsplit
  have hlook : max (max m.seen (skipSpaces m.mem (m.ecp + 1) + 1)) n ≤ m.len + 1 := by
    refine max_le (max_le hseen ?_) ?_
    · omega
    · omega
  have hcp : skipSpaces m.mem (m.ecp + 1) < m.mem.length := by omega
  rw [run, exec, if_neg hne]
  simp only [Machine.look, hcp, hscan]
  by_cases haccept : sc.accepts (nextWord tail) = true
  · have htext : ((Scanner.closed m.mem (skipSpaces m.mem (m.ecp + 1)) (nextWord tail)).drop
        (skipSpaces m.mem (m.ecp + 1))).take (nextWord tail).length = nextWord tail := by
      obtain ⟨rest, hclosed⟩ := hword.drop_closed
      rw [hclosed, take_left]
    rw [if_pos haccept, if_pos haccept]
    dsimp only
    rw [Nat.add_sub_cancel_left, htext]
    by_cases hvalid : valid (nextWord tail) = true
    · rw [if_pos hvalid, if_pos hvalid]
      by_cases hempty : nextWord tail = []
      · rw [if_pos hempty]
        refine run_of_ecp_eq_len _ ?_
        rw [ahead_eq_nil_of_nextWord hempty] at hskip
        rw [hempty]
        exact hskip
      · rw [if_neg hempty]
        exact hnext _ _ _ (h.behind hne _ _ _) hlook
    · rw [if_neg hvalid, if_neg hvalid]
      exact ⟨rfl, rfl, rfl, hlook⟩
  · rw [if_neg haccept, if_neg haccept]
    unfold badEvents
    by_cases hcuts : sc.cuts (nextWord tail) = true
    · obtain ⟨rest, hclosed⟩ := hword.drop_closed
      rw [if_pos hcuts, if_pos hcuts]
      exact agrees_reject bad hclosed hword.plain.1 hlook (by omega)
    · rw [if_neg hcuts, if_neg hcuts]
      exact agrees_reject bad hdrop h.zero_not_mem_ahead hlook (by omega)

/-- A run on a line agrees with the judgement of the line by its own bytes. -/
theorem run_agrees (p : LineProg ε σ) (h : At m tail) (hseen : m.seen ≤ m.len + 1) :
    Agrees m.len (p.run m) (p.exec tail m.vars m.log) := by
  induction p generalizing m tail with
  | done => exact ⟨rfl, rfl, rfl, hseen⟩
  | field sc valid bad next ih =>
    exact agrees_field (fun text _ _ h hseen => ih text h hseen) h hseen
  | emit event next ih =>
    exact ih (m := { m with log := m.log ++ [event] }) ⟨h.len, h.size, h.plain, h.text⟩ hseen
  | get next ih => exact ih m.vars h hseen
  | modify f next ih =>
    exact ih (m := { m with vars := f m.vars }) ⟨h.len, h.size, h.plain, h.text⟩ hseen
  | more next ih =>
    rw [run, exec]
    split_ifs with hlt
    · have hne := h.ne_nil_of_lt hlt
      obtain ⟨c, hget, hc⟩ := h.getElem?_skip hne
      have hlook := max_le hseen (Nat.succ_le_succ (h.skip_le hne))
      have hbool : decide (c ≠ 0) = decide (ahead tail ≠ []) := decide_eq_decide.mpr hc
      dsimp only
      rw [show (m.look _).mem = m.mem from rfl, hget, ← hbool]
      exact ih _ (h.look _) hlook
    · rw [h.ahead_eq_nil_of_le (by omega)]
      exact ih false h hseen
  | endOfLine next ih =>
    rw [run, exec]
    by_cases hlt : m.ecp + 1 < m.len
    · have hne := h.ne_nil_of_lt hlt
      have hlook := max_le hseen (Nat.succ_le_succ (h.skip_le hne))
      have hcp := lt_of_le_of_lt (h.skip_le hne) h.size
      simp only [hlt, Machine.look, hcp, h.skip_eq_len_iff hne]
      by_cases hahead : ahead tail = []
      · rw [if_pos hahead, if_neg (not_not_intro hahead)]
        exact ih (h.look _) hlook
      · rw [if_neg hahead, if_pos hahead]
        exact ⟨rfl, rfl, rfl, hlook⟩
    · rw [if_neg hlt, if_neg (not_not_intro (h.ahead_eq_nil_of_le (by omega)))]
      exact ih h hseen

end Run

/-! ### Complete lines -/

section Complete

variable {tail : Bytes} {vars : σ} {log : List ε} (p : LineProg ε σ)

/-- The complete lines are those that can be judged. -/
lemma complete_iff (log : List ε) :
    p.complete tail vars = true ↔ p.exec tail vars log ≠ .lacking := by
  induction p generalizing tail vars log with
  | done => exact iff_of_true rfl nofun
  | field sc valid bad next ih =>
    rw [complete, exec]
    split_ifs with hnil haccept hvalid hempty
    · simp [hnil]
    · rw [haccept, hvalid]
      simp [hempty]
    · simp [hnil, haccept, hvalid, hempty, ih _ log]
    · simp [hnil, hvalid]
    · simp [hnil, haccept]
  | emit event next ih => exact ih _
  | get next ih => exact ih vars log
  | modify f next ih => exact ih log
  | more next ih => exact ih _ log
  | endOfLine next ih =>
    rw [complete, exec]
    split_ifs with hahead
    · simp [hahead]
    · simp [not_not.mp hahead, ih log]

/-- If there is no judgement, then a field is missing. -/
lemma missing_of_lacking (h : p.exec tail vars log = .lacking) : p.missing tail vars = true := by
  induction p generalizing tail vars log with
  | done => cases h
  | field sc valid bad next ih =>
    rw [exec] at h
    rw [missing]
    split_ifs at h with hnil haccept hvalid hempty
    · simp [hnil, nextWord, ahead]
    · simp [hempty]
    · simp [haccept, hvalid, ih _ h]
  | emit event next ih => exact ih h
  | get next ih => exact ih vars h
  | modify f next ih => exact ih h
  | more next ih => exact ih _ h
  | endOfLine next ih =>
    rw [exec] at h
    rw [missing]
    split_ifs at h with hahead
    simp [not_not.mp hahead, ih h]

/-- If a field is missing, then the line is not accepted by its own bytes. -/
lemma exec_of_missing (h : p.missing tail vars = true) :
    ∀ vars' log', p.exec tail vars log ≠ .accepted vars' log' := by
  intro vars' log'
  induction p generalizing tail vars log with
  | done => cases h
  | field sc valid bad next ih =>
    rw [missing] at h
    rw [exec]
    split_ifs with hnil haccept hvalid hempty
    · nofun
    · nofun
    · simp only [hempty, haccept, hvalid] at h
      exact ih _ (by simpa using h)
    · nofun
    · nofun
  | emit event next ih => exact ih h
  | get next ih => exact ih vars h
  | modify f next ih => exact ih h
  | more next ih => exact ih _ h
  | endOfLine next ih =>
    rw [missing, Bool.and_eq_true] at h
    rw [exec]
    split_ifs with hahead
    · nofun
    · exact ih h.2

end Complete

/-! ### Events -/

section Events

/-- The events when a field is rejected have a property, if the bytes in the buffer have one. -/
def OnBad.Emits (P : UInt8 → Prop) (Q : ε → Prop) : OnBad ε → Prop
  | .emits events => ∀ e ∈ events, Q e
  | .shows event => ∀ text, (∀ b ∈ text, P b) → Q (event text)

/-- The events of a program have a property, whatever values its fields have. -/
def Emits (P : UInt8 → Prop) (Q : ε → Prop) : LineProg ε σ → Prop
  | done => True
  | field sc valid bad next =>
    OnBad.Emits P Q bad ∧ ∀ text, sc.accepts text = true → valid text = true → (next text).Emits P Q
  | emit event next => Q event ∧ next.Emits P Q
  | get next => ∀ vars, (next vars).Emits P Q
  | modify _ next => next.Emits P Q
  | more next => ∀ b, (next b).Emits P Q
  | endOfLine next => next.Emits P Q

variable {P : UInt8 → Prop} {Q : ε → Prop} {size : ℕ} {mem mem' : Bytes} {log : List ε}
  {m : Machine ε σ}

/-- The bytes in the buffer and the events have their properties, and the buffer has its size. -/
structure Clean (P : UInt8 → Prop) (Q : ε → Prop) (size : ℕ) (mem : Bytes) (log : List ε) :
    Prop where
  size : mem.length = size
  bytes : ∀ b ∈ mem, P b
  events : ∀ e ∈ log, Q e

lemma Clean.cut (h : Clean P Q size mem log) (hzero : P 0) (hcut : Scanner.Cut mem mem') :
    Clean P Q size mem' log := by
  refine ⟨hcut.length.trans h.size, fun b hb => ?_, h.events⟩
  rcases hcut.bytes b hb with hb | rfl
  · exact h.bytes b hb
  · exact hzero

lemma Clean.append (h : Clean P Q size mem log) {events : List ε} (hevents : ∀ e ∈ events, Q e) :
    Clean P Q size mem (log ++ events) := by
  refine ⟨h.size, h.bytes, fun e he => ?_⟩
  rcases mem_append.mp he with he | he
  · exact h.events e he
  · exact hevents e he

lemma Clean.concat (h : Clean P Q size mem log) {event : ε} (hevent : Q event) :
    Clean P Q size mem (log ++ [event]) :=
  h.append fun _ he => mem_singleton.mp he ▸ hevent

lemma Clean.reject (h : Clean P Q size m.mem m.log) {bad : OnBad ε} (hbad : OnBad.Emits P Q bad)
    (cp : ℕ) : Clean P Q size (reject bad cp m).2.mem (reject bad cp m).2.log := by
  cases bad with
  | emits events => exact h.append hbad
  | shows event =>
    unfold LineProg.reject
    dsimp only
    split_ifs
    · refine h.concat (hbad _ fun b hb => h.bytes b ?_)
      exact mem_of_mem_drop ((takeWhile_sublist _).mem hb)
    · exact h

/-- A run has only the events that its program can have. -/
theorem Clean.run {p : LineProg ε σ} (hp : p.Emits P Q) (hzero : P 0)
    (h : Clean P Q size m.mem m.log) : Clean P Q size (p.run m).2.mem (p.run m).2.log := by
  induction p generalizing m with
  | done => exact h
  | field sc valid bad next ih =>
    unfold LineProg.run
    dsimp only
    split_ifs
    · cases hscan : sc.scan (m.look (skipSpaces m.mem (m.ecp + 1) + 1)).mem
          (skipSpaces m.mem (m.ecp + 1)) with
      | outside => exact h
      | bad mem seen =>
        have hcut := sc.scan_bad hscan
        refine Clean.reject ?_ hp.1 _
        exact h.cut hzero hcut
      | found mem seen stop =>
        obtain ⟨-, -, hcut, haccept⟩ := sc.scan_found hscan
        dsimp only
        split_ifs with hvalid
        · exact ih _ (hp.2 _ haccept hvalid) (h.cut hzero hcut)
        · exact h.cut hzero hcut
    · exact h
  | emit event next ih => exact ih hp.2 (h.concat hp.1)
  | get next ih => exact ih m.vars (hp m.vars) h
  | modify f next ih => exact ih hp h
  | more next ih =>
    unfold LineProg.run
    dsimp only
    split_ifs
    · split
      · exact h
      · exact ih _ (hp _) h
    · exact ih _ (hp false) h
  | endOfLine next ih =>
    unfold LineProg.run
    dsimp only
    split_ifs
    · exact ih hp h
    · exact h
    · exact h
    · exact ih hp h

end Events

/-! ### All the fields that are left -/

section EachWord

variable {α : Type} (sc : Scanner) (bad : α → OnBad ε) (step : α → Bytes → α)
  (final : α → LineProg ε σ)

/-- Take the fields as long as there are more, at most as many as `fuel`. -/
def eachWord : ℕ → α → LineProg ε σ
  | 0, acc => final acc
  | fuel + 1, acc => .more fun b =>
    if b then .field sc (fun _ => true) (bad acc) fun text => eachWord fuel (step acc text)
    else final acc

variable {sc bad step final}

/-- The events when all the fields are taken, with a property that is kept from field to field. -/
lemma emits_eachWord {P : UInt8 → Prop} {Q : ε → Prop} {I : α → Prop}
    (hbad : ∀ acc, I acc → OnBad.Emits P Q (bad acc))
    (hstep : ∀ acc text, I acc → sc.accepts text = true → I (step acc text))
    (hfinal : ∀ acc, I acc → (final acc).Emits P Q) (fuel : ℕ) {acc : α} (h : I acc) :
    (eachWord sc bad step final fuel acc).Emits P Q := by
  induction fuel generalizing acc with
  | zero => exact hfinal acc h
  | succ fuel ih =>
    intro b
    cases b with
    | false => exact hfinal acc h
    | true => exact ⟨hbad acc h, fun text htext _ => ih (hstep acc text h htext)⟩

end EachWord

end LineProg

end AtlasProbe
