import AtlasProbe.Telnetd.Commands

/-!
# Where lines end

A client may end a line with CR, with LF or with both.  The lines that are returned do not depend on
how the bytes are split over the reads (`Input.getlines_eq`).  But `getline_2pty` takes the LF
behind a CR as the end of another line, so that they do depend on how the client ends its lines
(`SentLine.pieces`).
-/

namespace AtlasProbe.Telnetd

open List
open Lines (split complete rest split_append_cons)

/-! ### What a client sends -/

/-- The ends of a line. -/
inductive Ending
  | cr
  | lf
  | crlf
  deriving DecidableEq

/-- The bytes of an end. -/
def Ending.bytes : Ending → Bytes
  | .cr => [13]
  | .lf => [10]
  | .crlf => [13, 10]

/-- A line as a client sends it: it has no zero and no end in it, and is shorter than the buffer. -/
structure SentLine where
  text : Bytes
  ending : Ending
  plain : ∀ b ∈ text, b ≠ 0 ∧ eol b = false
  fits : text.length < bufsize

/-- The bytes of a line. -/
def SentLine.bytes (line : SentLine) : Bytes := line.text ++ line.ending.bytes

/-- The bytes of a sequence of lines. -/
def sentBytes (sent : List SentLine) : Bytes := sent.flatMap SentLine.bytes

/-- The lines that `getline_2pty` returns when it is called `n` times. -/
def Input.getlines : ℕ → Input → List Bytes
  | 0, _ => []
  | n + 1, b =>
    match b.getline2pty with
    | (none, b') => getlines n b'
    | (some line, b') => line :: getlines n b'

/-- The lines that are waiting to be returned.  No call returns more than there are bytes. -/
def Input.waiting (b : Input) : List Bytes := b.getlines b.contents.length

variable {sent : List SentLine} {b : Input} (line : SentLine)

lemma Input.getlines_of_none (h : b.getline2pty = (none, b)) (n : ℕ) : b.getlines n = [] := by
  induction n with
  | zero => rfl
  | succ n ih =>
    rw [Input.getlines, h]
    exact ih

lemma Input.getlines_eq {n : ℕ} (h : b.contents.length ≤ n) :
    b.getlines n = goodLines b.contents := by
  induction n generalizing b with
  | zero =>
    rw [length_eq_zero_iff.mp (Nat.le_zero.mp h)]
    rfl
  | succ n ih =>
    rcases b.getline2pty_spec with ⟨heq, hnone⟩ | ⟨line, b', heq, hlt, hcomplete, -⟩
    · rw [Input.getlines_of_none heq, goodLines, hnone]
      rfl
    · rw [Input.getlines, heq, goodLines, hcomplete]
      by_cases hzero : 0 ∈ line
      · rw [if_pos hzero, filter_cons_of_neg (by simpa using hzero)]
        exact ih (by omega)
      · rw [if_neg hzero, filter_cons_of_pos (by simpa using hzero)]
        exact congrArg (line :: ·) (ih (by omega))

lemma Input.waiting_eq (b : Input) : b.waiting = goodLines b.contents := getlines_eq le_rfl

/-! ### The lines in a stream -/

/-- What `getline_2pty` makes of a line. -/
def SentLine.pieces (line : SentLine) : List Bytes :=
  match line.ending with
  | .crlf => [line.text, []]
  | _ => [line.text]

open SentLine (pieces)

/-- One line, and what comes behind it. -/
lemma split_sentLine (stream : Bytes) :
    split eol (line.bytes ++ stream) = (line.pieces ++ complete eol stream, rest eol stream) := by
  have hplain : ∀ c ∈ line.text, eol c = false := fun c hc => (line.plain c hc).2
  unfold SentLine.bytes pieces
  rw [append_assoc]
  cases line.ending with
  | cr | lf => exact split_append_cons hplain rfl
  | crlf =>
    have hempty : split eol (10 :: stream) =
        ([] :: complete eol stream, rest eol stream) :=
      split_append_cons (forall_mem_nil _) rfl
    have hfirst : split eol (line.text ++ 13 :: 10 :: stream) = _ :=
      split_append_cons hplain rfl
    rw [complete, rest, hempty] at hfirst
    exact hfirst

/-- The lines of a sequence, and what comes behind them. -/
lemma split_sentBytes (sent : List SentLine) (stream : Bytes) :
    split eol (sentBytes sent ++ stream) =
      (sent.flatMap pieces ++ complete eol stream, rest eol stream) := by
  induction sent with
  | nil => rfl
  | cons line sent ih =>
    have hbytes : sentBytes (line :: sent) ++ stream =
        line.bytes ++ (sentBytes sent ++ stream) := by
      rw [sentBytes, flatMap_cons, append_assoc]
      rfl
    rw [hbytes, split_sentLine, complete, rest, ih, flatMap_cons, append_assoc]

lemma complete_sentBytes (sent : List SentLine) :
    complete eol (sentBytes sent) = sent.flatMap pieces := by
  have hsplit := congrArg Prod.fst (split_sentBytes sent [])
  rw [append_nil] at hsplit
  exact hsplit.trans (append_nil _)

lemma rest_sentBytes (sent : List SentLine) : rest eol (sentBytes sent) = [] := by
  have hsplit := congrArg Prod.snd (split_sentBytes sent [])
  rwa [append_nil] at hsplit

/-- A line gives itself and nothing else, unless its end has two bytes. -/
lemma SentLine.pieces_cases :
    line.pieces = [line.text] ∧ line.ending ≠ .crlf ∨
      2 ≤ line.pieces.length ∧ ¬line.ending ≠ .crlf := by
  unfold pieces
  cases line.ending with
  | crlf => exact .inr ⟨le_rfl, not_not_intro rfl⟩
  | cr | lf => exact .inl ⟨rfl, nofun⟩

lemma SentLine.mem_pieces {piece : Bytes} (h : piece ∈ line.pieces) :
    piece = line.text ∨ piece = [] := by
  unfold pieces at h
  cases hend : line.ending with
  | crlf =>
    rw [hend] at h
    simpa using h
  | cr | lf =>
    rw [hend] at h
    exact .inl (mem_singleton.mp h)

/-- The lines come back if and only if none of them ends with CR LF. -/
lemma flatMap_pieces_eq_iff :
    sent.flatMap pieces = sent.map SentLine.text ↔ ∀ line ∈ sent, line.ending ≠ .crlf :=
  Lines.flatMap_eq_map_iff fun line _ => line.pieces_cases

/-- None of the lines has a zero. -/
lemma goodLines_sentBytes (sent : List SentLine) :
    goodLines (sentBytes sent) = sent.flatMap pieces := by
  rw [goodLines, complete_sentBytes, filter_eq_self]
  intro piece hpiece
  obtain ⟨line, -, hpiece⟩ := mem_flatMap.mp hpiece
  refine decide_eq_true fun hzero => ?_
  rcases line.mem_pieces hpiece with rfl | rfl
  · exact (line.plain 0 hzero).1 rfl
  · cases hzero

/-- What has arrived of the lines leaves room in the buffer. -/
lemma length_rest_lt_bufsize {stream : Bytes} (h : stream <+: sentBytes sent) :
    (rest eol stream).length < bufsize := by
  obtain ⟨more, heq⟩ := h
  refine Lines.length_rest_lt more (by decide) ?_ ?_
  · rw [heq, rest_sentBytes]
  · rw [heq, complete_sentBytes]
    intro piece hpiece
    obtain ⟨line, -, hpiece⟩ := mem_flatMap.mp hpiece
    rcases line.mem_pieces hpiece with rfl | rfl
    · exact line.fits
    · decide

/-! ### What the server returns -/

/-- **Lines come back as they were sent, unless one ends with CR LF.**  However the bytes of a
sequence of lines are split over the reads of a session, the lines that `getline_2pty` has returned,
with those that are waiting, are the lines that were sent if and only if none ends with CR LF.  As
long as not all bytes have been read, they are the first of them; and if
`getline_2pty` finds no line, then the buffer has room for another read. -/
theorem lines_delivered_iff {s : Process} (h : Reached s) {id : ℕ} {ts : Session}
    (hts : s.sessions id = some ts) {sent : List SentLine}
    (hreceived : received id s.log <+: sentBytes sent) :
    (received id s.log = sentBytes sent →
      (returned id s.log ++ ts.input.waiting = sent.map SentLine.text ↔
        ∀ line ∈ sent, line.ending ≠ .crlf)) ∧
    ((∀ line ∈ sent, line.ending ≠ .crlf) →
      returned id s.log ++ ts.input.waiting <+: sent.map SentLine.text) ∧
    (ts.input.getline2pty = (none, ts.input) → ts.input.1.size < bufsize) := by
  obtain ⟨rfl, -, hsession⟩ := h.ok.sessions id ts hts
  rw [Input.waiting_eq, ← hsession.lines]
  refine ⟨fun hall => ?_, fun hends => ?_, fun hnone => ?_⟩
  · rw [hall, goodLines_sentBytes]
    exact flatMap_pieces_eq_iff
  · obtain ⟨more, heq⟩ := hreceived
    rw [← flatMap_pieces_eq_iff.mpr hends, ← goodLines_sentBytes, ← heq, goodLines_append]
    exact prefix_append _ _
  · have hcomplete : complete eol ts.input.contents = [] := by
      rcases ts.input.getline2pty_spec with ⟨-, hcomplete⟩ | ⟨line, b', heq, hlt, -⟩
      · exact hcomplete
      · have hsame : b' = ts.input := congrArg Prod.snd (heq.symm.trans hnone)
        rw [hsame] at hlt
        exact absurd hlt (lt_irrefl _)
    have hrest := length_rest_lt_bufsize hreceived
    rw [hsession.rest, Lines.rest_of_complete_eq_nil hcomplete] at hrest
    rwa [← ts.input.2.length_contents]

/-- The name that the controller sends first, once for each of the ends. -/
def sentLogin (endings : List Ending) : List SentLine :=
  endings.map fun ending => ⟨atlasLogin, ending, by decide +kernel, by decide⟩

/-- A client that has sent its lines. -/
lemma exists_of_sent (hsome : (connection (sentBytes sent)).map (fun s =>
      decide (received 0 s.log = sentBytes sent) && (s.sessions 0).isSome) = some true) :
    ∃ s ts, Reached s ∧ s.sessions 0 = some ts ∧ received 0 s.log = sentBytes sent := by
  obtain ⟨s, hs, htrue⟩ := Option.map_eq_some_iff.mp hsome
  obtain ⟨hreceived, hsession⟩ := Bool.and_eq_true_iff.mp htrue
  obtain ⟨ts, hts⟩ := Option.isSome_iff_exists.mp hsession
  exact ⟨s, ts, reached_connection hs, hts, of_decide_eq_true hreceived⟩

/-- A client that sends the name again where a password is asked for. -/
theorem lines_delivered_iff_twice :
    ∃ s ts, Reached s ∧ s.sessions 0 = some ts ∧
      received 0 s.log = sentBytes (sentLogin [.lf, .cr]) ∧
      returned 0 s.log ++ ts.input.waiting = [atlasLogin, atlasLogin] := by
  obtain ⟨s, ts, hs, hts, hreceived⟩ := @exists_of_sent (sentLogin [.lf, .cr]) (by decide +kernel)
  have hpart : received 0 s.log <+: sentBytes (sentLogin [.lf, .cr]) := by rw [hreceived]
  have hdelivered := (lines_delivered_iff hs hts hpart).1 hreceived
  exact ⟨s, ts, hs, hts, hreceived, hdelivered.mpr (by decide)⟩

/-- A client that ends the name with CR LF: the LF is returned as another, empty line, which the
server takes for the password. -/
theorem lines_delivered_crlf :
    ∃ s ts, Reached s ∧ s.sessions 0 = some ts ∧
      received 0 s.log = sentBytes (sentLogin [.crlf]) ∧
      returned 0 s.log ++ ts.input.waiting = [atlasLogin, []] := by
  obtain ⟨s, ts, hs, hts, hreceived⟩ := @exists_of_sent (sentLogin [.crlf]) (by decide +kernel)
  obtain ⟨hid, -, hsession⟩ := hs.ok.sessions 0 ts hts
  have hlines := hsession.lines
  rw [hid, hreceived, ← Input.waiting_eq] at hlines
  exact ⟨s, ts, hs, hts, hreceived, hlines.symm⟩

end AtlasProbe.Telnetd
