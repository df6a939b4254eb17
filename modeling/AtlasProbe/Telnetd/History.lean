import AtlasProbe.Lib.Trace
import AtlasProbe.Telnetd.Server

/-!
# What the log says

The log of the server determines what a session has sent (`received`), which of its lines have been
handled (`returned`), which session has authenticated last (`lastAuthenticated`), and what has been
uploaded.  An event is `Legal` if its past allows it: a command needs a session that has
authenticated last, and a crontab is installed only if its contents are the lines that were sent for
it.
-/

namespace AtlasProbe.Telnetd

open List
open Trace (gather gather_append_of_nil gather_eq_nil)

/-! ### Reading the log -/

/-- The session of an event. -/
def Event.id : Event → ℕ
  | .read id _ | .line id _ _ | .login id _ | .authenticated id | .command id _ | .opened id _
  | .writeFailed id | .installed id _ _ | .reply id _ | .killed id => id

/-- What a session has sent with an event. -/
def Event.bytes (id : ℕ) : Event → Bytes
  | .read i data => if i = id then kept data else []
  | _ => []

/-- The line that is returned for a session. -/
def Event.lines (id : ℕ) : Event → List Bytes
  | .line i text _ => if i = id then [text] else []
  | _ => []

/-- The text behind `CRONLINE ` in a line that is returned for a session. -/
def Event.cronlines (id : ℕ) : Event → List Bytes
  | .line i text _ =>
    if i = id ∧ text.take cmdCronline.length = cmdCronline then [text.drop cmdCronline.length]
    else []
  | _ => []

/-- The bytes that a session has sent. -/
def received (id : ℕ) (log : List Event) : Bytes := gather (Event.bytes id) log

/-- The lines that `getline_2pty` has returned for a session. -/
def returned (id : ℕ) (log : List Event) : List Bytes := gather (Event.lines id) log

/-- The texts of the `CRONLINE` lines among them. -/
def cronlines (id : ℕ) (log : List Event) : List Bytes :=
  gather (Event.cronlines id) log

/-- The complete lines of a stream that have no zero in them. -/
def goodLines (stream : Bytes) : List Bytes :=
  (Lines.complete eol stream).filter fun line => decide (0 ∉ line)

/-- The session that has authenticated last. -/
def lastAuthenticated : List Event → Option ℕ
  | [] => none
  | .authenticated id :: _ => some id
  | _ :: past => lastAuthenticated past

/-- Texts as a file, one on each line. -/
def crontabText (lines : List Bytes) : Bytes := lines.flatMap (· ++ [10])

/-- The events after which an upload of a session must not be installed. -/
def Event.cuts (id : ℕ) : Event → Bool
  | .authenticated _ | .writeFailed _ | .opened _ _ | .installed _ _ _ => true
  | .killed i => i = id
  | _ => false

/-- The session has opened a crontab in the directory, and has sent the contents since. -/
def Uploaded (id : ℕ) (dir contents : Bytes) (log : List Event) : Prop :=
  ∃ recent before, log = recent ++ .opened id dir :: before ∧
    contents = crontabText (cronlines id recent) ∧ ∀ e ∈ recent, e.cuts id = false

/-- The session has sent the text as the first line behind those that have been returned. -/
def Sent (id : ℕ) (text : Bytes) (log : List Event) : Prop :=
  ∃ waiting, goodLines (received id log) = returned id log ++ text :: waiting

/-- What the past of an event must be. -/
def Legal : Event → List Event → Prop
  | .line id text _, past => Sent id text past
  | .authenticated id, past => .authenticated id ∉ past ∧ ∃ passwd file before,
      past = .line id passwd file :: before ∧ storedSessionid file = some passwd ∧
        ∃ file', .line id atlasLogin file' ∈ before
  | .command id _, past => lastAuthenticated past = some id
  | .login id user, past => (goodLines (received id past)).head? = some user
  | .installed id dir contents, past =>
    lastAuthenticated past = some id ∧ Uploaded id dir contents past
  | .reply _ reply, _ => reply ≠ .crontabBusy
  | _, _ => True

/-! ### Events that say nothing about a session -/

section Frame

variable {id : ℕ} {e : Event} {new log : List Event} {dir contents : Bytes}

lemma bytes_of_ne (h : e.id ≠ id) : e.bytes id = [] := by
  cases e with
  | read i data => exact if_neg h
  | _ => rfl

lemma lines_of_ne (h : e.id ≠ id) : e.lines id = [] := by
  cases e with
  | line i text file => exact if_neg h
  | _ => rfl

lemma cronlines_of_ne (h : e.id ≠ id) : e.cronlines id = [] := by
  cases e with
  | line i text file => exact if_neg fun hi => h hi.1
  | _ => rfl

/-- The events that neither bring bytes or lines nor authenticate. -/
def Event.quiet : Event → Bool
  | .read .. | .line .. | .authenticated _ => false
  | _ => true

lemma bytes_of_quiet (h : e.quiet) : e.bytes id = [] ∧ e.lines id = [] := by
  cases e with
  | read i data => cases h
  | line i text file => cases h
  | _ => exact ⟨rfl, rfl⟩

lemma lastAuthenticated_cons (h : ∀ i, e ≠ .authenticated i) :
    lastAuthenticated (e :: log) = lastAuthenticated log := by
  cases e with
  | authenticated i => exact absurd rfl (h i)
  | _ => rfl

lemma ne_authenticated_of_quiet (h : e.quiet) (i : ℕ) : e ≠ .authenticated i := by
  rintro rfl
  cases h

lemma lastAuthenticated_append (h : ∀ e ∈ new, e.quiet) :
    lastAuthenticated (new ++ log) = lastAuthenticated log := by
  induction new with
  | nil => rfl
  | cons e new ih =>
    rw [cons_append, lastAuthenticated_cons (ne_authenticated_of_quiet (h e mem_cons_self))]
    exact ih fun d hd => h d (mem_cons_of_mem _ hd)

/-- An upload goes on behind events that neither cut it nor add to it. -/
lemma Uploaded.append (h : Uploaded id dir contents log)
    (hnew : ∀ e ∈ new, e.cuts id = false ∧ e.cronlines id = []) :
    Uploaded id dir contents (new ++ log) := by
  obtain ⟨recent, before, rfl, hcontents, hcuts⟩ := h
  refine ⟨new ++ recent, before, (append_assoc ..).symm, ?_, ?_⟩
  · rw [cronlines, gather_append_of_nil fun e he => (hnew e he).2]
    exact hcontents
  · intro e he
    rcases mem_append.mp he with hin | hin
    · exact (hnew e hin).1
    · exact hcuts e hin

lemma Uploaded.cons (h : Uploaded id dir contents log) (hcuts : e.cuts id = false)
    (hlines : e.cronlines id = []) : Uploaded id dir contents (e :: log) := by
  have happend := h.append (forall_mem_singleton.mpr ⟨hcuts, hlines⟩)
  rwa [singleton_append] at happend

/-- The text of a further line is added to an upload. -/
lemma Uploaded.line {text : Bytes} (h : Uploaded id dir contents log)
    (htext : text.take cmdCronline.length = cmdCronline) (file : Option Bytes) :
    Uploaded id dir (contents ++ text.drop cmdCronline.length ++ [10])
      (.line id text file :: log) := by
  obtain ⟨recent, before, rfl, hcontents, hcuts⟩ := h
  refine ⟨.line id text file :: recent, before, rfl, ?_, ?_⟩
  · have hlines : cronlines id (.line id text file :: recent) =
        cronlines id recent ++ [text.drop cmdCronline.length] := by
      rw [cronlines, gather, Event.cronlines, if_pos ⟨rfl, htext⟩]
      rfl
    rw [hlines, hcontents, crontabText, crontabText]
    simp
  · intro e he
    rcases mem_cons.mp he with rfl | hin
    · rfl
    · exact hcuts e hin

end Frame

lemma goodLines_append (stream more : Bytes) :
    goodLines (stream ++ more) = goodLines stream ++ goodLines (Lines.rest eol stream ++ more) := by
  rw [goodLines, Lines.complete_append, filter_append]
  rfl

/-! ### The session and its log -/

/-- What is in the buffers of a session fits what has been logged. -/
structure Streams (ts : Session) (log : List Event) : Prop where
  out : ts.out.Valid
  lines : goodLines (received ts.id log) = returned ts.id log ++ goodLines ts.input.contents
  rest : Lines.rest eol (received ts.id log) = Lines.rest eol ts.input.contents

/-- What the state of a session says about the log. -/
structure SessionOk (ts : Session) (log : List Event) : Prop extends Streams ts log where
  login : ts.state = .getLoginname → returned ts.id log = []
  password : ts.state = .getPassword → ∃ file, .line ts.id atlasLogin file ∈ log
  unauthenticated : ts.state = .getLoginname ∨ ts.state = .getPassword → .authenticated ts.id ∉ log

section Session

variable {ts ts' : Session} {new log : List Event} {input : Input}

/-- The states of the Atlas session, and that of a login, say nothing about the log. -/
lemma Streams.sessionOk (h : Streams ts log)
    (hstate : ts.state ≠ .getLoginname ∧ ts.state ≠ .getPassword) : SessionOk ts log where
  toStreams := h
  login hlogin := absurd hlogin hstate.1
  password hpassword := absurd hpassword hstate.2
  unauthenticated hor := by
    rcases hor with hlogin | hpassword
    · exact absurd hlogin hstate.1
    · exact absurd hpassword hstate.2

/-- A session that starts is as its empty log says. -/
lemma sessionOk_newSession {id : ℕ} (h : ∀ e ∈ log, e.id ≠ id) :
    SessionOk (newSession id) log where
  out := ⟨rfl, Nat.zero_le _⟩
  lines := by
    have hnone : received id log = [] := gather_eq_nil fun e he => bytes_of_ne (h e he)
    have hlines : returned id log = [] := gather_eq_nil fun e he => lines_of_ne (h e he)
    change goodLines (received id log) = returned id log ++ goodLines Input.new.contents
    rw [hnone, hlines]
    rfl
  rest := by
    have hnone : received id log = [] := gather_eq_nil fun e he => bytes_of_ne (h e he)
    change Lines.rest eol (received id log) = Lines.rest eol Input.new.contents
    rw [hnone, Input.contents_new]
  login _ := gather_eq_nil fun e he => lines_of_ne (h e he)
  password hstate := by cases hstate
  unauthenticated _ hin := h _ hin rfl

/-- The events of other sessions do not matter. -/
lemma SessionOk.append (h : SessionOk ts log) (hnew : ∀ e ∈ new, e.id ≠ ts.id) :
    SessionOk ts (new ++ log) := by
  have hreceived : received ts.id (new ++ log) = received ts.id log :=
    gather_append_of_nil fun e he => bytes_of_ne (hnew e he)
  have hreturned : returned ts.id (new ++ log) = returned ts.id log :=
    gather_append_of_nil fun e he => lines_of_ne (hnew e he)
  refine ⟨⟨h.out, ?_, ?_⟩, ?_, ?_, ?_⟩
  · rw [hreceived, hreturned]
    exact h.lines
  · rw [hreceived]
    exact h.rest
  · rw [hreturned]
    exact h.login
  · intro hstate
    obtain ⟨file, hin⟩ := h.password hstate
    exact ⟨file, mem_append_right _ hin⟩
  · intro hstate hin
    rcases mem_append.mp hin with hin | hin
    · exact hnew _ hin rfl
    · exact h.unauthenticated hstate hin

/-- Events without bytes and lines do not matter for the streams. -/
lemma Streams.append (h : Streams ts log) (hid : ts'.id = ts.id) (hinput : ts'.input = ts.input)
    (hout : ts'.out.Valid) (hnew : ∀ e ∈ new, e.bytes ts.id = [] ∧ e.lines ts.id = []) :
    Streams ts' (new ++ log) := by
  have hreceived : received ts.id (new ++ log) = received ts.id log :=
    gather_append_of_nil fun e he => (hnew e he).1
  have hreturned : returned ts.id (new ++ log) = returned ts.id log :=
    gather_append_of_nil fun e he => (hnew e he).2
  refine ⟨hout, ?_, ?_⟩
  · rw [hid, hinput, hreceived, hreturned]
    exact h.lines
  · rw [hid, hinput, hreceived]
    exact h.rest

lemma Streams.cons (h : Streams ts log) {e : Event} (hbytes : e.bytes ts.id = [])
    (hlines : e.lines ts.id = []) : Streams ts (e :: log) := by
  have happend := h.append rfl rfl h.out (forall_mem_singleton.mpr ⟨hbytes, hlines⟩)
  rwa [singleton_append] at happend

/-- Quiet events do not matter if the state stays as it is. -/
lemma SessionOk.quiet (h : SessionOk ts log) (hid : ts'.id = ts.id) (hstate : ts'.state = ts.state)
    (hinput : ts'.input = ts.input) (hout : ts'.out.Valid) (hnew : ∀ e ∈ new, e.quiet) :
    SessionOk ts' (new ++ log) := by
  have hreturned : returned ts.id (new ++ log) = returned ts.id log :=
    gather_append_of_nil fun e he => (bytes_of_quiet (hnew e he)).2
  refine ⟨h.toStreams.append hid hinput hout fun e he => bytes_of_quiet (hnew e he), ?_, ?_, ?_⟩
  · rw [hid, hstate, hreturned]
    exact h.login
  · rw [hid, hstate]
    intro hpassword
    obtain ⟨file, hin⟩ := h.password hpassword
    exact ⟨file, mem_append_right _ hin⟩
  · rw [hid, hstate]
    intro hor hin
    rcases mem_append.mp hin with hin | hin
    · exact ne_authenticated_of_quiet (hnew _ hin) _ rfl
    · exact h.unauthenticated hor hin

/-- A read appends to what is waiting. -/
lemma Streams.read (h : Streams ts log) (hsize : ts.input.1.size < bufsize) (data : Bytes) :
    Streams { ts with input := ts.input.recv data } (.read ts.id (ts.input.taken data) :: log) := by
  have hreceived : received ts.id (.read ts.id (ts.input.taken data) :: log) =
      received ts.id log ++ kept (ts.input.taken data) := by
    rw [received, gather, Event.bytes, if_pos rfl]
    rfl
  have hreturned : returned ts.id (.read ts.id (ts.input.taken data) :: log) =
      returned ts.id log := Trace.gather_cons_of_nil rfl
  refine ⟨h.out, ?_, ?_⟩
  · rw [hreceived, hreturned, Input.contents_recv hsize, goodLines_append (received ts.id log),
      goodLines_append ts.input.contents, h.rest, h.lines, append_assoc]
  · rw [hreceived, Input.contents_recv hsize, Lines.rest_append, h.rest, ← Lines.rest_append]

/-- A line that is dropped. -/
lemma Streams.dropped (h : Streams ts log) (hget : ts.input.getline2pty = (none, input)) :
    Streams { ts with input := input } log := by
  rcases ts.input.getline2pty_spec with ⟨heq, -⟩ | ⟨line, input', heq, -, hcomplete, hrest⟩
  · have hsame : input = ts.input := congrArg Prod.snd (hget.symm.trans heq)
    rw [hsame]
    exact h
  · have hsame : input = input' := congrArg Prod.snd (hget.symm.trans heq)
    have hbad : none = if 0 ∈ line then none else some line :=
      congrArg Prod.fst (hget.symm.trans heq)
    have hzero : 0 ∈ line := by
      by_contra hnot
      rw [if_neg hnot] at hbad
      cases hbad
    subst hsame
    refine ⟨h.out, ?_, h.rest.trans hrest⟩
    rw [h.lines, goodLines, hcomplete, filter_cons_of_neg (by simpa using hzero)]
    rfl

/-- A line that is returned. -/
lemma Streams.line (h : Streams ts log) {line : Bytes}
    (hget : ts.input.getline2pty = (some line, input)) (file : Option Bytes) :
    Streams { ts with input := input } (.line ts.id line file :: log) ∧ Sent ts.id line log ∧
      returned ts.id (.line ts.id line file :: log) = returned ts.id log ++ [line] := by
  have hreturned : returned ts.id (.line ts.id line file :: log) =
      returned ts.id log ++ [line] := by
    rw [returned, gather, Event.lines, if_pos rfl]
    rfl
  have hreceived : received ts.id (.line ts.id line file :: log) = received ts.id log :=
    Trace.gather_cons_of_nil rfl
  rcases ts.input.getline2pty_spec with ⟨heq, -⟩ | ⟨line', input', heq, -, hcomplete, hrest⟩
  · cases congrArg Prod.fst (hget.symm.trans heq)
  · have hsame : input = input' := congrArg Prod.snd (hget.symm.trans heq)
    have hgood : some line = if 0 ∈ line' then none else some line' :=
      congrArg Prod.fst (hget.symm.trans heq)
    by_cases hzero : 0 ∈ line'
    · rw [if_pos hzero] at hgood
      cases hgood
    · rw [if_neg hzero] at hgood
      cases hgood
      subst hsame
      have hlines : goodLines ts.input.contents = line :: goodLines input.contents := by
        rw [goodLines, hcomplete, filter_cons_of_pos (by simpa using hzero)]
        rfl
      refine ⟨⟨h.out, ?_, ?_⟩, ⟨goodLines input.contents, ?_⟩, hreturned⟩
      · rw [hreceived, hreturned, h.lines, hlines, append_assoc]
        rfl
      · rw [hreceived, h.rest, hrest]
      · rw [h.lines, hlines]

end Session

end AtlasProbe.Telnetd
