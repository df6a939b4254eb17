import AtlasProbe.Eooqd.Queue
import AtlasProbe.Lib.FileLines
import AtlasProbe.Lib.Files
import AtlasProbe.Telnetd.Server

/-!
# Handing over one-off commands

`do_oneoff` of `telnetd` takes the queue file away under another name, appends a command and puts
it back.  `checkQueue` of `eooqd` takes the queue file under a third name and reads it line by line.
The two work on the files at the same time, step by step.  No system call fails, except that a
`rename` or a `stat` may not find the file.
-/

namespace AtlasProbe.Oneoff

open List FileLines

/-! ### The commands -/

/-- The text that `do_oneoff` writes for a line: what stands behind the name of the file. -/
def commandText (line : Bytes) : Bytes :=
  ((line.drop Telnetd.cmdOneoff.length).dropWhile (!isspace ·)).dropWhile isspace

/-- A line as `getline_2pty` returns it. -/
structure Line where
  bytes : Bytes
  plain : ∀ b ∈ bytes, b ≠ 0 ∧ Telnetd.eol b = false

/-- The command in a line. -/
def Line.text (line : Line) : Bytes := commandText line.bytes

/-! ### The two processes -/

/-- The queue file, and its other names. -/
inductive Name
  | queue
  | queueNew
  | curr
  deriving DecidableEq

/-- Where `do_oneoff` stands: outside, before its `fopen`, before it writes, or before the second
`rename`. -/
inductive DoOneoff
  | idle
  | opening (line : Line)
  | writing (line : Line) (fd : ℕ)
  | releasing

/-- Where `checkQueue` stands: with no file open, before the `unlink`, before the `rename`, before
the `fopen`, or with an open file, of which it has read the first bytes. -/
inductive CheckQueue
  | idle
  | unlinking
  | taking
  | opening
  | reading (fd offset : ℕ)

/-- The files and the two processes, with the commands that have been written and the lines that
have been read. -/
structure State where
  files : Files Name
  telnetd : DoOneoff
  eooqd : CheckQueue
  sent : List Line
  read : List Bytes

/-- `rename`, with the result ignored. -/
def tryRename (files : Files Name) (a b : Name) : Files Name := (files.rename a b).getD files

/-- The first step of `do_oneoff`, for a line. -/
def State.grab (s : State) (line : Line) : State :=
  { s with files := tryRename s.files .queue .queueNew, telnetd := .opening line }

/-- A further step of `do_oneoff`. -/
def State.doOneoff (s : State) : State :=
  match s.telnetd with
  | .idle => s
  | .opening line =>
    let (files, fd) := s.files.openCreat .queueNew
    { s with files := files, telnetd := .writing line fd }
  | .writing line fd =>
    { s with
      files := s.files.append fd (line.text ++ [10])
      telnetd := .releasing
      sent := s.sent ++ [line] }
  | .releasing => { s with files := tryRename s.files .queueNew .queue, telnetd := .idle }

/-- The text of a line that `fgets` has read, up to its end. -/
def cmdline (line : Bytes) : Bytes := (CString.ofBuffer (line.takeWhile (· ≠ 10))).bytes

/-- A step of `checkQueue`. -/
def State.checkQueue (s : State) : State :=
  match s.eooqd with
  | .idle =>
    match s.files.names .queue with
    | none => s
    | some _ => { s with eooqd := .unlinking }
  | .unlinking => { s with files := s.files.unlink .curr, eooqd := .taking }
  | .taking =>
    match s.files.rename .queue .curr with
    | none => { s with eooqd := .idle }
    | some files => { s with files := files, eooqd := .opening }
  | .opening =>
    match s.files.names .curr with
    | none => { s with eooqd := .idle }
    | some fd => { s with eooqd := .reading fd 0 }
  | .reading fd offset =>
    match fgets 256 ((s.files.data fd).drop offset) with
    | none => { s with eooqd := .idle }
    | some (line, _) =>
      { s with eooqd := .reading fd (offset + line.length), read := s.read ++ [cmdline line] }

/-- One of the processes makes a step. -/
inductive Step : State → State → Prop
  | grab {s : State} (line : Line) : s.telnetd = .idle → Step s (s.grab line)
  | telnetd (s : State) : Step s s.doOneoff
  | eooqd (s : State) : Step s s.checkQueue

/-- The processes start without files. -/
def State.initial : State := ⟨.empty Name, .idle, .idle, [], []⟩

/-- The states that the interleavings of the steps reach. -/
def Reached (s : State) : Prop := Relation.ReflTransGen Step .initial s

/-! ### What is in the files -/

/-- The bytes of a file; there are none if it does not exist. -/
def bytesOf (files : Files Name) (a : Name) : Bytes := (files.contents a).getD []

/-- What has not been read of the current file. -/
def unreadOf (files : Files Name) : CheckQueue → Bytes
  | .idle | .unlinking | .taking => []
  | .opening => bytesOf files .curr
  | .reading fd offset => (files.data fd).drop offset

/-- What has not been read of the current file, in a state. -/
def State.unread (s : State) : Bytes := unreadOf s.files s.eooqd

/-- The lines that `fgets` cuts a command into. -/
def Line.pieces (line : Line) : List Bytes := FileLines.pieces 256 (line.text ++ [10])

/-! ### The invariant -/

/-- A file has lines, and no zeros. -/
structure TextFile (bytes : Bytes) : Prop where
  whole : FileLines.Whole bytes
  plain : 0 ∉ bytes

/-- The queue file has at most one of its names while `telnetd` has it. -/
def TelnetdOk (files : Files Name) : DoOneoff → Prop
  | .idle => files.names .queueNew = none
  | .opening _ | .releasing => files.names .queue = none
  | .writing _ fd => files.names .queue = none ∧ files.names .queueNew = some fd

/-- The file that is read has no other name. -/
def EooqdOk (files : Files Name) : CheckQueue → Prop
  | .reading fd _ => fd < files.next ∧ ∀ a, files.names a = some fd → a = .curr
  | _ => True

/-- The lines that have been read and those that are waiting, in the current file, in the queue file
and in the file that is being written, are the commands that have been sent. -/
structure Conserved (read : List Bytes) (unread queue queueNew : Bytes)
    (sent : List Line) : Prop where
  textUnread : TextFile unread
  textQueue : TextFile queue
  textQueueNew : TextFile queueNew
  lines : read ++ pieces 256 unread ++ pieces 256 queue ++ pieces 256 queueNew =
    sent.flatMap Line.pieces

/-- What holds in every state. -/
structure Ok (s : State) : Prop where
  telnetd : TelnetdOk s.files s.telnetd
  eooqd : EooqdOk s.files s.eooqd
  conserved : Conserved s.read s.unread (bytesOf s.files .queue) (bytesOf s.files .queueNew) s.sent

/-! ### Moving lines -/

lemma textFile_nil : TextFile [] := ⟨rfl, not_mem_nil⟩

variable {bytes : Bytes} {sent : List Line} (line : Line)

lemma TextFile.drop (h : TextFile bytes) (k : ℕ) : TextFile (bytes.drop k) :=
  ⟨h.whole.drop k, fun hin => h.plain (mem_of_mem_drop hin)⟩

lemma TextFile.append {more : Bytes} (h : TextFile bytes) (hmore : TextFile more) :
    TextFile (bytes ++ more) := by
  refine ⟨h.whole.append hmore.whole, fun hin => ?_⟩
  rcases mem_append.mp hin with hin | hin
  · exact h.plain hin
  · exact hmore.plain hin

lemma Line.text_subset : ∀ b ∈ line.text, b ∈ line.bytes := fun _ hb =>
  mem_of_mem_drop ((dropWhile_sublist _).mem ((dropWhile_sublist _).mem hb))

lemma Line.newline_not_mem_text : 10 ∉ line.text := by
  intro hin
  cases (line.plain 10 (line.text_subset 10 hin)).2

lemma Line.textFile : TextFile (line.text ++ [10]) := by
  refine ⟨whole_line line.newline_not_mem_text, fun hin => ?_⟩
  rcases mem_append.mp hin with hin | hin
  · exact (line.plain 0 (line.text_subset 0 hin)).1 rfl
  · cases mem_singleton.mp hin

/-- A line that has no zero is read up to its end. -/
lemma cmdline_eq {line : Bytes} (h : 0 ∉ line) : cmdline line = line.takeWhile (· ≠ 10) :=
  (takeWhile_ne fun hin => h ((takeWhile_sublist _).mem hin)).1

section Moves

variable {read : List Bytes} {unread queue queueNew : Bytes} {sent : List Line}

/-- The queue file is taken away, or put back. -/
lemma Conserved.swap (h : Conserved read unread queue queueNew sent)
    (hone : queue = [] ∨ queueNew = []) : Conserved read unread queueNew queue sent := by
  refine ⟨h.textUnread, h.textQueueNew, h.textQueue, ?_⟩
  rw [← h.lines]
  obtain rfl | rfl := hone <;> simp only [pieces_nil, append_nil]

/-- A command is appended. -/
lemma Conserved.write (h : Conserved read unread queue queueNew sent) (line : Line) :
    Conserved read unread queue (queueNew ++ (line.text ++ [10])) (sent ++ [line]) := by
  refine ⟨h.textUnread, h.textQueue, h.textQueueNew.append line.textFile, ?_⟩
  rw [pieces_append h.textQueueNew.whole, ← append_assoc, h.lines, flatMap_append]
  exact congrArg _ (append_nil _).symm

/-- The queue file becomes the current file. -/
lemma Conserved.take (h : Conserved read [] queue queueNew sent) :
    Conserved read queue [] queueNew sent := by
  have hlines := h.lines
  rw [pieces_nil, append_nil] at hlines
  refine ⟨h.textQueue, textFile_nil, h.textQueueNew, ?_⟩
  rwa [pieces_nil, append_nil]

/-- A line is read. -/
lemma Conserved.readLine {line rest : Bytes} (h : Conserved read unread queue queueNew sent)
    (hgets : fgets 256 unread = some (line, rest)) :
    Conserved (read ++ [cmdline line]) rest queue queueNew sent := by
  have happend := append_of_fgets hgets
  have hplain : 0 ∉ line := by
    intro hin
    rw [← happend] at h
    exact h.textUnread.plain (mem_append_left _ hin)
  have hrest : TextFile rest := by
    have hdrop := h.textUnread.drop line.length
    rwa [← happend, drop_left] at hdrop
  have hlines := h.lines
  rw [pieces_of_fgets hgets] at hlines
  refine ⟨hrest, h.textQueue, h.textQueueNew, ?_⟩
  rw [cmdline_eq hplain, ← hlines, append_assoc read, singleton_append]

end Moves

lemma Ok.initial : Ok .initial := ⟨rfl, trivial, textFile_nil, textFile_nil, textFile_nil, rfl⟩

/-! ### Steps of `telnetd` -/

section Steps

variable {s : State} {files files' : Files Name} {a b : Name} {eooqd : CheckQueue}
  {telnetd : DoOneoff} {line : Line}

lemma bytesOf_eq_nil (h : files.names a = none) : bytesOf files a = [] := by
  rw [bytesOf, Files.contents, h]
  rfl

/-- What a successful `rename` does to the bytes of the files. -/
lemma bytesOf_of_rename (h : files.rename a b = some files') (c : Name) :
    bytesOf files' c =
      if c = b then bytesOf files a else if c = a then [] else bytesOf files c := by
  unfold bytesOf
  rw [Files.contents_of_rename h]
  split_ifs <;> rfl

/-- A `rename` that fails has not found the file. -/
lemma names_of_rename_eq_none (h : files.rename a b = none) : files.names a = none := by
  unfold Files.rename at h
  split_ifs at h with hname
  exact hname

/-- What is read depends on the current file only. -/
lemma unreadOf_congr (hcurr : bytesOf files' .curr = bytesOf files .curr)
    (hdata : ∀ fd offset, eooqd = .reading fd offset → files'.data fd = files.data fd) :
    unreadOf files' eooqd = unreadOf files eooqd := by
  cases eooqd with
  | opening => exact hcurr
  | reading fd offset => exact congrArg (List.drop offset) (hdata fd offset rfl)
  | _ => rfl

/-- The file that is read keeps its name. -/
lemma EooqdOk.mono (h : EooqdOk files eooqd) (hnext : files.next ≤ files'.next)
    (hnames : ∀ fd offset, eooqd = .reading fd offset → ∀ a, files'.names a = some fd →
      ∃ c, files.names c = some fd ∧ (c = .curr → a = .curr)) :
    EooqdOk files' eooqd := by
  cases eooqd with
  | reading fd offset =>
    refine ⟨h.1.trans_le hnext, fun a ha => ?_⟩
    obtain ⟨c, hc, hcurr⟩ := hnames fd offset rfl a ha
    exact hcurr (h.2 c hc)
  | _ => trivial

/-- The invariant, from what the files have. -/
lemma Ok.of_bytes (htelnetd : TelnetdOk s.files s.telnetd) (heooqd : EooqdOk s.files s.eooqd)
    {unread queue queueNew : Bytes} (hunread : s.unread = unread)
    (hqueue : bytesOf s.files .queue = queue) (hqueueNew : bytesOf s.files .queueNew = queueNew)
    (h : Conserved s.read unread queue queueNew s.sent) : Ok s := by
  subst hunread hqueue hqueueNew
  exact ⟨htelnetd, heooqd, h⟩

/-- `telnetd` gives the queue file its other name. -/
lemma Ok.tryRename (h : Ok s) (hab : a = .queue ∧ b = .queueNew ∨ a = .queueNew ∧ b = .queue)
    (hb : s.files.names b = none)
    (htelnetd : ∀ files : Files Name, files.names a = none → TelnetdOk files telnetd) :
    Ok { s with files := tryRename s.files a b, telnetd := telnetd } := by
  unfold Oneoff.tryRename
  cases hrename : s.files.rename a b with
  | none => exact ⟨htelnetd _ (names_of_rename_eq_none hrename), h.eooqd, h.conserved⟩
  | some files =>
    obtain ⟨-, hdata, hnext, hnames⟩ := Files.rename_eq_some hrename
    have hbytes := bytesOf_of_rename hrename
    have hnil := bytesOf_eq_nil hb
    have heooqd : EooqdOk files s.eooqd := by
      refine h.eooqd.mono hnext.ge fun fd offset _ c hc => ?_
      rw [hnames] at hc
      split_ifs at hc with hcb hca
      · refine ⟨a, hc, fun hcurr => ?_⟩
        rcases hab with ⟨rfl, -⟩ | ⟨rfl, -⟩ <;> cases hcurr
      · exact ⟨c, hc, id⟩
    refine .of_bytes (htelnetd _ ?_) heooqd (unreadOf_congr ?_ fun fd _ _ => congrFun hdata fd)
      ?_ ?_ (h.conserved.swap ?_)
    all_goals rcases hab with ⟨rfl, rfl⟩ | ⟨rfl, rfl⟩
    all_goals simp [hnames, hbytes, hnil]

/-- The first `rename` of `do_oneoff`. -/
lemma Ok.grab (h : Ok s) (hidle : s.telnetd = .idle) (line : Line) : Ok (s.grab line) := by
  have htelnetd := h.telnetd
  rw [hidle] at htelnetd
  exact h.tryRename (.inl ⟨rfl, rfl⟩) htelnetd fun _ hnone => hnone

/-- The `fopen` of `do_oneoff`. -/
lemma Ok.fopen (h : Ok s) (hphase : s.telnetd = .opening line) : Ok s.doOneoff := by
  have htelnetd := h.telnetd
  have heooqd := h.eooqd
  rw [hphase] at htelnetd
  have hbytes : ∀ a, bytesOf (s.files.openCreat .queueNew).1 a = bytesOf s.files a := by
    intro a
    unfold bytesOf
    rcases s.files.contents_openCreat .queueNew a with heq | ⟨hnone, hempty⟩
    · rw [heq]
    · rw [hnone, hempty]
      rfl
  have hne : Name.queue ≠ .queueNew := nofun
  unfold State.doOneoff
  rw [hphase]
  refine .of_bytes ⟨(Files.names_openCreat_of_ne hne).trans htelnetd, Files.names_openCreat_self⟩
    (heooqd.mono Files.next_le_openCreat fun fd offset hreading a ha => ?_)
    (unreadOf_congr (hbytes .curr) fun fd offset hreading => ?_) (hbytes .queue)
    (hbytes .queueNew) h.conserved
  · rw [hreading] at heooqd
    by_cases haNew : a = .queueNew
    · subst haNew
      have hsame : (s.files.openCreat .queueNew).2 = fd :=
        Option.some.inj (Files.names_openCreat_self.symm.trans ha)
      refine absurd hsame (Files.ne_openCreat heooqd.1 fun hname => ?_)
      cases heooqd.2 .queueNew hname
    · exact ⟨a, (Files.names_openCreat_of_ne haNew).symm.trans ha, id⟩
  · rw [hreading] at heooqd
    exact Files.data_openCreat heooqd.1

/-- The command is written. -/
lemma Ok.fprintf (h : Ok s) {fd : ℕ} (hphase : s.telnetd = .writing line fd) : Ok s.doOneoff := by
  have htelnetd := h.telnetd
  have heooqd := h.eooqd
  rw [hphase] at htelnetd
  obtain ⟨hqueue, hqueueNew⟩ := htelnetd
  have hother : ∀ a, a ≠ .queueNew →
      bytesOf (s.files.append fd (line.text ++ [10])) a = bytesOf s.files a := by
    intro a ha
    unfold bytesOf
    rw [Files.append, Files.contents_store_of_ne fun hname => ha (s.files.inj hname hqueueNew)]
  have hnew : bytesOf (s.files.append fd (line.text ++ [10])) .queueNew =
      bytesOf s.files .queueNew ++ (line.text ++ [10]) := by
    unfold bytesOf
    rw [Files.append, Files.contents_eq_some_of_names hqueueNew,
      Files.contents_eq_some_of_names (f := s.files.store fd _) hqueueNew, Files.data_store_self]
    rfl
  unfold State.doOneoff
  rw [hphase]
  refine .of_bytes hqueue (heooqd.mono le_rfl fun _ _ _ a ha => ⟨a, ha, id⟩)
    (unreadOf_congr (hother .curr nofun) fun fd' offset hreading => Files.data_store_of_ne ?_)
    (hother .queue nofun) hnew (h.conserved.write line)
  rw [hreading] at heooqd
  rintro rfl
  cases heooqd.2 .queueNew hqueueNew

/-- The second `rename` of `do_oneoff`. -/
lemma Ok.release (h : Ok s) (hphase : s.telnetd = .releasing) : Ok s.doOneoff := by
  have htelnetd := h.telnetd
  rw [hphase] at htelnetd
  unfold State.doOneoff
  rw [hphase]
  exact h.tryRename (.inr ⟨rfl, rfl⟩) htelnetd fun _ hnone => hnone

/-- A step of `do_oneoff`. -/
lemma Ok.doOneoff (h : Ok s) : Ok s.doOneoff := by
  cases hphase : s.telnetd with
  | idle =>
    unfold State.doOneoff
    rw [hphase]
    exact h
  | opening line => exact h.fopen hphase
  | writing line fd => exact h.fprintf hphase
  | releasing => exact h.release hphase

/-! ### Steps of `eooqd` -/

/-- A step that does not touch the files. -/
lemma Ok.move (h : Ok s) (hok : EooqdOk s.files eooqd)
    (hunread : unreadOf s.files eooqd = s.unread) : Ok { s with eooqd := eooqd } :=
  .of_bytes h.telnetd hok hunread rfl rfl h.conserved

/-- What `telnetd` has depends on the names of the queue file. -/
lemma TelnetdOk.congr (h : TelnetdOk files telnetd)
    (hnew : files'.names .queueNew = files.names .queueNew)
    (hqueue : telnetd = .idle ∨ files'.names .queue = files.names .queue) :
    TelnetdOk files' telnetd := by
  cases telnetd with
  | idle => exact hnew.trans h
  | opening _ | releasing => exact (hqueue.resolve_left nofun).trans h
  | writing _ fd => exact ⟨(hqueue.resolve_left nofun).trans h.1, hnew.trans h.2⟩

/-- A file that has been read is closed. -/
lemma Ok.close (h : Ok s) (hunread : s.unread = []) : Ok { s with eooqd := .idle } :=
  h.move trivial hunread.symm

lemma State.unread_eq (hphase : s.eooqd = eooqd) :
    s.unread = unreadOf s.files eooqd := by rw [State.unread, hphase]

/-- The old current file, which has been read, is removed. -/
lemma Ok.unlink (h : Ok s) (hphase : s.eooqd = .unlinking) : Ok s.checkQueue := by
  have hbytes : ∀ a, a ≠ .curr → bytesOf (s.files.unlink .curr) a = bytesOf s.files a := by
    intro a ha
    unfold bytesOf Files.contents
    rw [Files.names_unlink_of_ne ha]
    rfl
  have hconserved := h.conserved
  rw [State.unread_eq hphase] at hconserved
  unfold State.checkQueue
  rw [hphase]
  exact .of_bytes (h.telnetd.congr rfl (.inr rfl)) trivial rfl (hbytes .queue nofun)
    (hbytes .queueNew nofun) hconserved

/-- The queue file becomes the current file, unless `telnetd` has taken it. -/
lemma Ok.rename (h : Ok s) (hphase : s.eooqd = .taking) : Ok s.checkQueue := by
  have hconserved := h.conserved
  rw [State.unread_eq hphase] at hconserved
  unfold State.checkQueue
  rw [hphase]
  cases hrename : s.files.rename .queue .curr with
  | none => exact h.close (State.unread_eq hphase)
  | some files =>
    obtain ⟨hbound, -, -, hnames⟩ := Files.rename_eq_some hrename
    have hbytes := bytesOf_of_rename hrename
    have htelnetd := h.telnetd
    refine .of_bytes (htelnetd.congr ?_ (.inl ?_)) trivial (hbytes .curr) (hbytes .queue)
      (hbytes .queueNew) hconserved.take
    · rw [hnames, if_neg nofun, if_neg nofun]
    · cases hwhere : s.telnetd with
      | idle => rfl
      | opening line | releasing =>
        rw [hwhere] at htelnetd
        exact absurd htelnetd hbound
      | writing line fd =>
        rw [hwhere] at htelnetd
        exact absurd htelnetd.1 hbound

/-- A step of `checkQueue`. -/
lemma Ok.checkQueue (h : Ok s) : Ok s.checkQueue := by
  cases hphase : s.eooqd with
  | idle =>
    unfold State.checkQueue
    rw [hphase]
    cases s.files.names .queue with
    | none => exact h
    | some fd => exact h.move trivial (State.unread_eq hphase).symm
  | unlinking => exact h.unlink hphase
  | taking => exact h.rename hphase
  | opening =>
    have hunread := State.unread_eq hphase
    unfold State.checkQueue
    rw [hphase]
    cases hname : s.files.names .curr with
    | none =>
      exact h.close (hunread.trans (bytesOf_eq_nil hname))
    | some fd =>
      refine h.move ⟨s.files.lt_next hname, fun a ha => s.files.inj ha hname⟩ ?_
      rw [hunread]
      change s.files.data fd = bytesOf s.files .curr
      rw [bytesOf, Files.contents_eq_some_of_names hname]
      rfl
  | reading fd offset =>
    have hunread : s.unread = (s.files.data fd).drop offset := State.unread_eq hphase
    have heooqd := h.eooqd
    rw [hphase] at heooqd
    unfold State.checkQueue
    rw [hphase]
    dsimp only
    cases hgets : fgets 256 ((s.files.data fd).drop offset) with
    | none =>
      exact h.close (hunread.trans (eq_nil_of_fgets hgets))
    | some result =>
      obtain ⟨line, rest⟩ := result
      have hrest : (s.files.data fd).drop (offset + line.length) = rest := by
        rw [← drop_drop, ← append_of_fgets hgets, drop_left]
      have hconserved := h.conserved
      rw [hunread] at hconserved
      exact .of_bytes h.telnetd heooqd hrest rfl rfl (hconserved.readLine hgets)

end Steps

/-- The invariant holds in every state. -/
lemma Reached.ok {s : State} (h : Reached s) : Ok s := by
  induction h with
  | refl => exact .initial
  | tail _ hstep ih =>
    cases hstep with
    | grab line hidle => exact ih.grab hidle line
    | telnetd => exact ih.doOneoff
    | eooqd => exact ih.checkQueue

/-! ### Commands that are not lost -/

/-- The lines that have been read and those in the files. -/
def State.lines (s : State) : List Bytes :=
  s.read ++ FileLines.lines s.unread ++ FileLines.lines (bytesOf s.files .queue) ++
    FileLines.lines (bytesOf s.files .queueNew)

/-- A command that leaves room for its end is read as it is, and a longer one is cut. -/
lemma Line.pieces_cases :
    line.pieces = [line.text] ∧ line.text.length ≤ 254 ∨
      2 ≤ line.pieces.length ∧ ¬line.text.length ≤ 254 := by
  rcases Nat.lt_or_ge 254 line.text.length with hlt | hle
  · exact .inr ⟨FileLines.two_le_length_pieces line.newline_not_mem_text hlt, hlt.not_ge⟩
  · exact .inl ⟨FileLines.pieces_line line.newline_not_mem_text hle, hle⟩

lemma flatMap_pieces_eq_iff :
    sent.flatMap Line.pieces = sent.map Line.text ↔ ∀ line ∈ sent, line.text.length ≤ 254 :=
  Lines.flatMap_eq_map_iff fun line _ => line.pieces_cases

/-- If all commands are short, then the pieces in a file are its lines. -/
lemma pieces_eq_lines (hle : ∀ line ∈ sent, line.text.length ≤ 254) (h : TextFile bytes)
    (hsub : pieces 256 bytes ⊆ sent.flatMap Line.pieces) :
    pieces 256 bytes = lines bytes := by
  refine FileLines.pieces_eq_lines h.whole fun piece hpiece => ?_
  have hin := hsub hpiece
  rw [flatMap_pieces_eq_iff.mpr hle] at hin
  obtain ⟨line, hline, rfl⟩ := mem_map.mp hin
  exact hle line hline

/-- **One-off commands are handed over without loss, unless one is too long.**  In every state that
the two processes reach, the lines that `eooqd` has read, followed by the lines in the current file,
in the queue file and in the file that `telnetd` has taken, are the commands that have been written,
if none of them is longer than 254 bytes.  When everything has been read, this condition is also
necessary. -/
theorem oneoff_conserved {s : State} (h : Reached s) :
    ((∀ line ∈ s.sent, line.text.length ≤ 254) → s.lines = s.sent.map Line.text) ∧
    (s.unread = [] → bytesOf s.files .queue = [] → bytesOf s.files .queueNew = [] →
      (s.read = s.sent.map Line.text ↔ ∀ line ∈ s.sent, line.text.length ≤ 254)) := by
  have hconserved := h.ok.conserved
  have hlines := hconserved.lines
  constructor
  · intro hle
    have hunread := pieces_eq_lines hle hconserved.textUnread fun piece hin => by
      rw [← hlines]
      exact mem_append_left _ (mem_append_left _ (mem_append_right _ hin))
    have hqueue := pieces_eq_lines hle hconserved.textQueue fun piece hin => by
      rw [← hlines]
      exact mem_append_left _ (mem_append_right _ hin)
    have hqueueNew := pieces_eq_lines hle hconserved.textQueueNew fun piece hin => by
      rw [← hlines]
      exact mem_append_right _ hin
    rw [hunread, hqueue, hqueueNew, flatMap_pieces_eq_iff.mpr hle] at hlines
    exact hlines
  · intro hunread hqueue hqueueNew
    rw [hunread, hqueue, hqueueNew] at hlines
    simp only [pieces_nil, append_nil] at hlines
    rw [hlines]
    exact flatMap_pieces_eq_iff

/-- A line with a command of `n` bytes. -/
def lineOfLength (n : ℕ) : Line where
  bytes := ascii "ONEOFF /home/atlas/crons/oneoff " ++ List.replicate n 97
  plain b hb := by
    rcases List.mem_append.mp hb with hb | hb
    · exact (by decide +kernel : ∀ b ∈ ascii "ONEOFF /home/atlas/crons/oneoff ",
        b ≠ 0 ∧ Telnetd.eol b = false) b hb
    · obtain rfl := List.eq_of_mem_replicate hb
      exact ⟨by decide, rfl⟩

/-- `do_oneoff` handles a line, and then `checkQueue` makes some steps. -/
def handOver (line : Line) (steps : ℕ) : State :=
  State.checkQueue^[steps] (State.initial.grab line).doOneoff.doOneoff.doOneoff

lemma reached_handOver (steps : ℕ) : Reached (handOver line steps) := by
  induction steps with
  | zero =>
    have hgrab : Reached (State.initial.grab line) := .single (.grab line rfl)
    exact ((hgrab.tail (.telnetd _)).tail (.telnetd _)).tail (.telnetd _)
  | succ steps ih =>
    unfold handOver
    rw [Function.iterate_succ_apply']
    exact ih.tail (.eooqd _)

theorem oneoff_conserved_short :
    Reached (handOver (lineOfLength 254) 7) ∧
      (handOver (lineOfLength 254) 7).read =
        (handOver (lineOfLength 254) 7).sent.map Line.text := by
  have hreached := reached_handOver (lineOfLength 254) 7
  have hread := (oneoff_conserved hreached).2 (by decide +kernel) (by decide +kernel)
    (by decide +kernel)
  exact ⟨hreached, hread.mpr (by decide +kernel)⟩

/-- A command of 255 bytes arrives as two lines, of which the second is empty. -/
theorem oneoff_conserved_long :
    Reached (handOver (lineOfLength 255) 7) ∧
      (handOver (lineOfLength 255) 7).sent.map Line.text = [List.replicate 255 97] ∧
      (handOver (lineOfLength 255) 7).read = [List.replicate 255 97, []] :=
  ⟨reached_handOver _ _, by decide +kernel, by decide +kernel⟩

end AtlasProbe.Oneoff
