import AtlasProbe.Lib.Files
import AtlasProbe.Lib.Text

/-!
# Telling `eperd` about a new crontab

When a crontab has been uploaded, `end_crontab` of `telnetd` renames it and leaves the name of the
user in the file `cron.update`.  Every minute `CheckUpdates` of `eperd` opens this file, removes it
and loads the crontabs that it names; every hour `SynchronizeDir` removes it and loads the crontab.
Both work on the file at the same time, step by step.
-/

namespace AtlasProbe.CronUpdate

open List

/-! ### The directory -/

/-- The files in the directory of the crontab. -/
inductive Name
  | rootNew
  | root
  | cronUpdate
  deriving DecidableEq

instance : Fintype Name where
  elems := {.rootNew, .root, .cronUpdate}
  complete a := by cases a <;> decide

/-- `UPDATELINE` -/
def updateline : Bytes := ascii "root\n"

/-- The name of the crontab of `CRONUSER`. -/
def cronuser : Bytes := ascii "root"

/-- What has happened in the directory. -/
inductive Event
  /-- A new crontab with these contents has been renamed. -/
  | renamed (crontab : Bytes)
  /-- `SynchronizeFile` has read a crontab, if there is one. -/
  | synchronized (fileName : Bytes) (crontab : Option Bytes)

/-! ### The two processes -/

/-- Where `end_crontab` stands: before the `open` of `cron.update`, before the `write`, before the
`fstat`, or behind its end, with or without an error. -/
inductive EndCrontab
  | opening
  | writing (fd : ℕ)
  | statting (fd : ℕ)
  | returned (ok : Bool)

/-- Where `eperd` stands: outside of the two functions; in `CheckUpdates` before the `unlink`, in
the loop around `fgets`, with the position in the file and the bytes in the buffer of the stream, or
before a call of `SynchronizeFile` in that loop; or in `SynchronizeDir` behind the `unlink`. -/
inductive Eperd
  | idle
  | unlinking (fd : ℕ)
  | reading (fd offset : ℕ) (buffer : Bytes)
  | synchronizing (fileName : Option Bytes) (fd offset : ℕ) (buffer : Bytes)
  | synchronizingDir

/-- The directory and the two processes; the log has the last event first. -/
structure State where
  files : Files Name
  telnetd : EndCrontab
  eperd : Eperd
  log : List Event

/-- What the world decides about a step: whether a system call succeeds, how many bytes are written
or read at once, and which function `eperd` calls. -/
structure Outcome where
  ok : Bool
  count : ℕ
  hour : Bool

/-- A crontab is uploaded. -/
def State.upload (s : State) (crontab : Bytes) : State :=
  let (files, fd) := s.files.openTrunc .rootNew
  { s with files := files.write fd crontab }

/-- A step of `end_crontab`. -/
def State.endCrontab (s : State) (o : Outcome) : State :=
  match s.telnetd with
  | .returned _ =>
    match s.files.contents .rootNew, s.files.rename .rootNew .root with
    | some crontab, some files =>
      if o.ok then
        { s with files := files, telnetd := .opening, log := .renamed crontab :: s.log }
      else { s with telnetd := .returned false }
    | _, _ => { s with telnetd := .returned false }
  | .opening =>
    if o.ok then
      let (files, fd) := s.files.openTrunc .cronUpdate
      { s with files := files, telnetd := .writing fd }
    else { s with telnetd := .returned false }
  | .writing fd =>
    let written := updateline.take o.count
    { s with
      files := s.files.write fd written
      telnetd := if written.length ≠ updateline.length then .returned false else .statting fd }
  | .statting fd =>
    if !o.ok then { s with telnetd := .returned false }
    -- With no link left there was a race, and the loop goes on.
    else if s.files.nlink fd ≠ 0 then { s with telnetd := .returned true }
    else { s with telnetd := .opening }

/-- The bytes at which `strtok` cuts. -/
def isDelim (b : UInt8) : Bool := b ∈ ascii " \t\r\n"

/-- The first call of `strtok`. -/
def strtok (line : Bytes) : Option Bytes :=
  match (line.takeWhile (· ≠ 0)).dropWhile isDelim with
  | [] => none
  | text => some (text.takeWhile (!isDelim ·))

/-- `SynchronizeFile`, as far as it reads a crontab; it does nothing without a name. -/
def State.synchronizeFile (s : State) (fileName : Option Bytes) : State :=
  match fileName with
  | none => s
  | some fileName =>
    let crontab := if fileName = cronuser then s.files.contents .root else none
    { s with log := .synchronized fileName crontab :: s.log }

/-- A step of `eperd`. -/
def State.eperdStep (s : State) (o : Outcome) : State :=
  match s.eperd with
  | .idle =>
    if o.hour then { s with files := s.files.unlink .cronUpdate, eperd := .synchronizingDir }
    else
      match s.files.names .cronUpdate with
      | none => s
      | some fd => { s with eperd := .unlinking fd }
  | .unlinking fd =>
    { s with files := s.files.unlink .cronUpdate, eperd := .reading fd 0 [] }
  | .reading fd offset buffer =>
    let line := firstLine 255 buffer
    if line.getLast? = some 10 ∨ line.length = 255 then
      { s with eperd := .synchronizing (strtok line) fd offset (buffer.drop line.length) }
    else
      -- The stream reads more of the file, at least a byte unless the file ends here.
      let bytes := ((s.files.data fd).drop offset).take (o.count + 1)
      if bytes ≠ [] then { s with eperd := .reading fd (offset + bytes.length) (buffer ++ bytes) }
      else if buffer = [] then { s with eperd := .idle }
      else { s with eperd := .synchronizing (strtok buffer) fd offset [] }
  | .synchronizing fileName fd offset buffer =>
    { s.synchronizeFile fileName with eperd := .reading fd offset buffer }
  | .synchronizingDir => { s.synchronizeFile (some cronuser) with eperd := .idle }

/-! ### Interleavings -/

/-- One of the processes makes a step. -/
inductive Step : State → State → Prop
  | upload {s : State} {ok : Bool} (crontab : Bytes) :
      s.telnetd = .returned ok → Step s (s.upload crontab)
  | telnetd (s : State) (o : Outcome) : Step s (s.endCrontab o)
  | eperd (s : State) (o : Outcome) : Step s (s.eperdStep o)

/-- The processes start with any files. -/
def State.initial (files : Files Name) : State := ⟨files, .returned false, .idle, []⟩

/-- The states that the interleavings of the steps reach. -/
def Reached (s : State) : Prop :=
  ∃ files, Relation.ReflTransGen Step (.initial files) s

/-! ### Updates that are not lost -/

/-- The crontab that has been renamed last. -/
def lastCrontab : List Event → Option Bytes
  | [] => none
  | .renamed crontab :: _ => some crontab
  | .synchronized _ _ :: log => lastCrontab log

/-- The last crontab has been loaded since it was renamed. -/
def Loaded : List Event → Prop
  | [] => False
  | .renamed _ :: _ => False
  | .synchronized fileName crontab :: log =>
    fileName = cronuser ∧ crontab.isSome ∧ crontab = lastCrontab log ∨ Loaded log

/-- The file `cron.update` is there and has its line. -/
def State.Left (s : State) : Prop := s.files.contents .cronUpdate = some updateline

/-- The crontab of `CRONUSER` is going to be loaded before `eperd` is idle again. -/
def Eperd.AboutTo (data : ℕ → Bytes) : Eperd → Prop
  | .idle | .unlinking _ => False
  | .reading fd offset buffer => buffer ++ (data fd).drop offset = updateline
  | .synchronizing fileName _ _ _ => fileName = some cronuser
  | .synchronizingDir => True

/-- The same of a state. -/
def State.AboutTo (s : State) : Prop := s.eperd.AboutTo s.files.data

variable {s : State} {eperd : Eperd} {log : List Event}

lemma State.AboutTo.of_phase (h : s.AboutTo) (hphase : s.eperd = eperd) :
    eperd.AboutTo s.files.data := hphase ▸ h

lemma Eperd.AboutTo.of_data {data data' : ℕ → Bytes} (h : eperd.AboutTo data)
    (hdata : ∀ fd offset buffer, eperd = .reading fd offset buffer → data' fd = data fd) :
    eperd.AboutTo data' := by
  cases eperd with
  | reading fd offset buffer =>
    change buffer ++ (data' fd).drop offset = updateline
    rw [hdata fd offset buffer rfl]
    exact h
  | _ => exact h

/-! ### The invariant -/

/-- The inode is that of `cron.update`, or has no name. -/
structure Owned (files : Files Name) (fd : ℕ) : Prop where
  lt_next : fd < files.next
  name : ∀ a, files.names a = some fd → a = .cronUpdate

/-- The inode has lost its name. -/
structure Removed (files : Files Name) (fd : ℕ) : Prop where
  lt_next : fd < files.next
  name : ∀ a, files.names a ≠ some fd

/-- What `telnetd` knows about the file that it has opened. -/
def TelnetdOk (files : Files Name) : EndCrontab → Prop
  | .writing fd => Owned files fd ∧ files.data fd = []
  | .statting fd => Owned files fd ∧ files.data fd = updateline
  | _ => True

/-- What `eperd` knows about the file that it has opened.  It can read nothing from a file to which
`telnetd` has not yet written. -/
def EperdOk (files : Files Name) (telnetd : EndCrontab) : Eperd → Prop
  | .unlinking fd => files.names .cronUpdate = some fd
  | .reading fd offset buffer =>
    Removed files fd ∧ (telnetd = .writing fd → offset = 0 ∧ buffer = [])
  | .synchronizing _ fd _ _ => Removed files fd ∧ telnetd ≠ .writing fd
  | _ => True

/-- What holds in every state. -/
structure Ok (s : State) : Prop where
  crontab : ∀ crontab, lastCrontab s.log = some crontab → s.files.contents .root = some crontab
  renamed : s.telnetd ≠ .returned false → (lastCrontab s.log).isSome
  telnetd : TelnetdOk s.files s.telnetd
  eperd : EperdOk s.files s.telnetd s.eperd
  update : s.telnetd = .returned true → s.Left ∨ s.AboutTo ∨ Loaded s.log

lemma Ok.telnetd_of_phase {telnetd : EndCrontab} (h : Ok s) (hphase : s.telnetd = telnetd) :
    TelnetdOk s.files telnetd := hphase ▸ h.telnetd

lemma Ok.eperd_of_phase (h : Ok s) (hphase : s.eperd = eperd) :
    EperdOk s.files s.telnetd eperd := hphase ▸ h.eperd

lemma Ok.initial (files : Files Name) : Ok (.initial files) where
  crontab _ h := by cases h
  renamed h := absurd rfl h
  telnetd := trivial
  eperd := trivial
  update h := by cases h

section Files

variable {files files' : Files Name} {fd : ℕ}

lemma Owned.names_root_ne (h : Owned files fd) : files.names .root ≠ some fd := by
  intro hroot
  cases h.name .root hroot

/-- An inode that has lost its name does not get one back. -/
lemma Removed.mono (h : Removed files fd) (hnext : files.next ≤ files'.next)
    (hnames : ∀ a, files'.names a = some fd → ∃ b, files.names b = some fd) :
    Removed files' fd := by
  refine ⟨h.lt_next.trans_le hnext, fun a ha => ?_⟩
  obtain ⟨b, hb⟩ := hnames a ha
  exact h.name b hb

lemma Removed.openTrunc (h : Removed files fd) (a : Name) : Removed (files.openTrunc a).1 fd := by
  refine h.mono Files.next_le_openTrunc fun b hb => ?_
  by_cases hba : b = a
  · subst hba
    have hself : (files.openCreat b).2 = fd := Option.some.inj
      (Files.names_openTrunc_self.symm.trans hb)
    exact absurd hself (Files.ne_openCreat h.lt_next (h.name b))
  · exact ⟨b, (Files.names_openCreat_of_ne hba).symm.trans hb⟩

lemma Removed.data_openTrunc (h : Removed files fd) (a : Name) :
    (files.openTrunc a).1.data fd = files.data fd := by
  have hne := Files.ne_openCreat h.lt_next (h.name a)
  exact (Files.data_store_of_ne hne.symm).trans (Files.data_openCreat h.lt_next)

lemma Owned.unlink (h : Owned files fd) (a : Name) : Owned (files.unlink a) fd where
  lt_next := h.lt_next
  name b hb := h.name b (Files.names_unlink_eq_some_iff.mp hb).2

lemma TelnetdOk.unlink {telnetd : EndCrontab} (h : TelnetdOk files telnetd) (a : Name) :
    TelnetdOk (files.unlink a) telnetd := by
  cases telnetd with
  | writing fd | statting fd => exact ⟨h.1.unlink a, h.2⟩
  | opening | returned ok => trivial

end Files

/-- How many steps of `eperd` it takes at most until the crontab is loaded. -/
def Eperd.rank : Eperd → ℕ
  | .reading _ _ buffer => 7 - buffer.length
  | _ => 1

section Steps

variable {s : State} {eperd : Eperd} {fd offset : ℕ} {buffer : Bytes} {ok : Bool}
  {files : Files Name}

/-- What `eperd` knows stays true when names are bound anew and `telnetd` does not write. -/
lemma EperdOk.mono {files' : Files Name} {telnetd telnetd' : EndCrontab}
    (h : EperdOk files telnetd eperd)
    (hname : ∀ fd, files.names .cronUpdate = some fd → files'.names .cronUpdate = some fd)
    (hremoved : ∀ fd, Removed files fd → Removed files' fd ∧ telnetd' ≠ .writing fd) :
    EperdOk files' telnetd' eperd := by
  cases eperd with
  | idle => trivial
  | unlinking fd => exact hname fd h
  | reading fd offset buffer =>
    exact ⟨(hremoved fd h.1).1, fun heq => absurd heq (hremoved fd h.1).2⟩
  | synchronizing fileName fd offset buffer => exact hremoved fd h.1
  | synchronizingDir => trivial

/-- A step in which `end_crontab` fails. -/
lemma Ok.fail (h : Ok s) (hroot : files.contents .root = s.files.contents .root)
    (hnames : files.names = s.files.names) (hnext : files.next = s.files.next) :
    Ok { s with files := files, telnetd := .returned false } where
  crontab crontab hlast := hroot.trans (h.crontab crontab hlast)
  renamed hne := absurd rfl hne
  telnetd := trivial
  eperd := h.eperd.mono (fun fd hfd => by rwa [hnames]) fun fd hfd =>
    ⟨hfd.mono hnext.ge fun a ha => ⟨a, hnames ▸ ha⟩, nofun⟩
  update heq := by cases heq

/-- The first step of `end_crontab`, which renames the new crontab. -/
lemma Ok.rename (h : Ok s) (hphase : s.telnetd = .returned ok) (o : Outcome) :
    Ok (s.endCrontab o) := by
  unfold State.endCrontab
  rw [hphase]
  dsimp only
  split
  · next crontab files hnew hrename =>
    split_ifs
    · obtain ⟨-, hdata, hnext, hnames⟩ := Files.rename_eq_some hrename
      refine ⟨?_, fun _ => rfl, trivial, ?_, nofun⟩
      · rintro _ ⟨⟩
        change (files.names .root).map files.data = _
        rw [hnames, hdata]
        exact hnew
      · refine h.eperd.mono (fun fd hfd => ?_) fun fd hfd => ⟨?_, nofun⟩
        · rw [hnames]
          exact hfd
        · refine hfd.mono hnext.ge fun a ha => ?_
          rw [hnames] at ha
          split_ifs at ha <;> exact ⟨_, ha⟩
    · exact h.fail rfl rfl rfl
  · exact h.fail rfl rfl rfl

/-- The `open` of `cron.update`, which truncates the file. -/
lemma Ok.open (h : Ok s) (hphase : s.telnetd = .opening) (o : Outcome) : Ok (s.endCrontab o) := by
  unfold State.endCrontab
  rw [hphase]
  dsimp only
  split_ifs
  · have hself := Files.names_openTrunc_self (f := s.files) (a := Name.cronUpdate)
    refine ⟨?_, fun _ => h.renamed (hphase ▸ nofun), ⟨⟨?_, ?_⟩, Files.data_openTrunc_self⟩, ?_,
      nofun⟩
    · intro crontab hlast
      have hne : Name.root ≠ .cronUpdate := nofun
      exact (Files.contents_openTrunc_of_ne hne).trans (h.crontab crontab hlast)
    · exact Files.lt_next _ hself
    · exact fun a ha => Files.inj _ ha hself
    · refine h.eperd.mono (fun fd hfd => ?_) fun fd hfd => ⟨hfd.openTrunc _, ?_⟩
      · rcases s.files.openCreat_spec .cronUpdate with ⟨hname, heq⟩ | ⟨hname, -⟩
        · rw [Files.names_openTrunc, heq]
          exact hfd
        · cases hname.symm.trans hfd
      · rintro ⟨⟩
        exact Files.ne_openCreat hfd.lt_next (hfd.name .cronUpdate) rfl
  · exact h.fail rfl rfl rfl

/-- The `write` to `cron.update`. -/
lemma Ok.write (h : Ok s) (hphase : s.telnetd = .writing fd) (o : Outcome) :
    Ok (s.endCrontab o) := by
  obtain ⟨howned, hdata⟩ := h.telnetd_of_phase hphase
  have hroot : (s.files.write fd (updateline.take o.count)).contents .root =
      s.files.contents .root := Files.contents_store_of_ne howned.names_root_ne
  unfold State.endCrontab
  rw [hphase]
  dsimp only
  split_ifs with hshort
  · exact h.fail hroot rfl rfl
  · have hall : updateline.take o.count = updateline := by
      refine take_of_length_le ?_
      rw [length_take] at hshort
      omega
    refine ⟨?_, fun _ => h.renamed (hphase ▸ nofun), ⟨⟨howned.lt_next, howned.name⟩, ?_⟩, ?_, nofun⟩
    · exact fun crontab hlast => hroot.trans (h.crontab crontab hlast)
    · rw [hall, Files.write, Files.data_store_self, hdata, drop_nil, append_nil]
    · exact h.eperd.mono (fun _ hname => hname) fun fd hfd => ⟨⟨hfd.lt_next, hfd.name⟩, nofun⟩

/-- The `fstat` of `cron.update`: a file that still has a link is found by `eperd`. -/
lemma Ok.fstat (h : Ok s) (hphase : s.telnetd = .statting fd) (o : Outcome) :
    Ok (s.endCrontab o) := by
  obtain ⟨howned, hdata⟩ := h.telnetd_of_phase hphase
  have hnext : ∀ telnetd, (∀ fd, telnetd ≠ .writing fd) → TelnetdOk s.files telnetd →
      (telnetd = .returned true → s.Left ∨ s.AboutTo ∨ Loaded s.log) →
      Ok { s with telnetd := telnetd } := by
    intro telnetd hne hok hupdate
    refine ⟨h.crontab, fun _ => h.renamed (hphase ▸ nofun), hok, ?_, hupdate⟩
    exact h.eperd.mono (fun _ hname => hname) fun fd hfd => ⟨hfd, hne fd⟩
  unfold State.endCrontab
  rw [hphase]
  dsimp only
  split_ifs with hok hlink
  · exact hnext _ nofun trivial nofun
  · refine hnext _ nofun trivial fun _ => .inl ?_
    obtain ⟨a, ha⟩ := Files.nlink_ne_zero_iff.mp hlink
    obtain rfl := howned.name a ha
    exact (Files.contents_eq_some_of_names ha).trans (congrArg some hdata)
  · exact hnext _ nofun trivial nofun

/-- A step of `telnetd`. -/
lemma Ok.endCrontab (h : Ok s) (o : Outcome) : Ok (s.endCrontab o) := by
  cases hphase : s.telnetd with
  | returned ok => exact h.rename hphase o
  | opening => exact h.open hphase o
  | writing fd => exact h.write hphase o
  | statting fd => exact h.fstat hphase o

lemma Removed.data_upload (h : Removed s.files fd) (crontab : Bytes) :
    (s.upload crontab).files.data fd = s.files.data fd := by
  have hne := Files.ne_openCreat h.lt_next (h.name .rootNew)
  exact (Files.data_store_of_ne hne.symm).trans (h.data_openTrunc .rootNew)

/-- A crontab that is uploaded does not get in the way. -/
lemma Ok.upload (h : Ok s) (hphase : s.telnetd = .returned ok) (crontab : Bytes) :
    Ok (s.upload crontab) := by
  have hcontents : ∀ a, a ≠ .rootNew →
      (s.upload crontab).files.contents a = s.files.contents a := by
    intro a ha
    refine (Files.contents_store_of_ne fun hname => ?_).trans (Files.contents_openTrunc_of_ne ha)
    exact ha (Files.inj _ hname Files.names_openTrunc_self)
  refine ⟨?_, h.renamed, ?_, ?_, fun htrue =>
    (h.update htrue).imp (hcontents .cronUpdate nofun).trans
      (Or.imp_left fun habout => habout.of_data fun fd offset buffer heq => ?_)⟩
  · exact fun c hlast => (hcontents .root nofun).trans (h.crontab c hlast)
  · change TelnetdOk _ s.telnetd
    rw [hphase]
    trivial
  · refine h.eperd.mono (fun fd hname => ?_) fun fd hfd =>
      ⟨⟨(hfd.openTrunc .rootNew).lt_next, (hfd.openTrunc .rootNew).name⟩, hphase ▸ nofun⟩
    have hne : Name.cronUpdate ≠ .rootNew := nofun
    exact (Files.names_openCreat_of_ne hne).trans hname
  · exact (h.eperd_of_phase heq).1.data_upload crontab

/-! ### Steps of `eperd` -/

/-- What has been read of the line is not a line before all of it has been read. -/
lemma firstLine_updateline {rest : Bytes} (h : buffer ++ rest = updateline)
    (hrest : rest ≠ []) :
    ¬((firstLine 255 buffer).getLast? = some 10 ∨ (firstLine 255 buffer).length = 255) := by
  have hlength : buffer.length + rest.length = 5 := by
    rw [← length_append, h]
    rfl
  have hpos := length_pos_iff.mpr hrest
  have hbuffer : buffer = updateline.take buffer.length := by rw [← h, take_left]
  have hcases : ∀ n < 5, ¬((firstLine 255 (updateline.take n)).getLast? = some 10 ∨
      (firstLine 255 (updateline.take n)).length = 255) := by decide
  rw [hbuffer]
  exact hcases buffer.length (by omega)

/-- While `eperd` reads the line, it is about to load the crontab, and comes closer. -/
lemma aboutTo_reading (hphase : s.eperd = .reading fd offset buffer) (h : s.AboutTo) (o : Outcome) :
    (s.eperdStep o).AboutTo ∧ (s.eperdStep o).eperd.rank < s.eperd.rank := by
  replace h : buffer ++ (s.files.data fd).drop offset = updateline := h.of_phase hphase
  unfold State.eperdStep
  rw [hphase]
  by_cases hrest : (s.files.data fd).drop offset = []
  · rw [hrest, append_nil] at h
    subst h
    exact ⟨rfl, show 1 < 2 from Nat.lt_succ_self 1⟩
  · simp only [if_neg (firstLine_updateline h hrest)]
    have hbytes : ((s.files.data fd).drop offset).take (o.count + 1) ≠ [] := by
      rw [ne_eq, take_eq_nil_iff]
      rintro (hzero | hnil)
      · omega
      · exact hrest hnil
    simp only [hbytes, ne_eq, not_false_eq_true, if_true]
    constructor
    · change buffer ++ _ ++ (s.files.data fd).drop _ = updateline
      rw [append_assoc, ← drop_drop, prefix_iff_eq_append.mp (List.take_prefix _ _)]
      exact h
    · have hlength : buffer.length + ((s.files.data fd).drop offset).length = 5 := by
        rw [← length_append, h]
        rfl
      have hpos := length_pos_iff.mpr hbytes
      simp only [Eperd.rank, length_append]
      omega

/-- Reading goes on, or a line has been read, from a file to which `telnetd` has written. -/
lemma Ok.read (h : Ok s) (hphase : s.eperd = .reading fd offset buffer) (o : Outcome) :
    EperdOk s.files s.telnetd (s.eperdStep o).eperd := by
  obtain ⟨hremoved, hfirst⟩ := h.eperd_of_phase hphase
  have hsync : buffer ≠ [] → Removed s.files fd ∧ s.telnetd ≠ .writing fd :=
    fun hne => ⟨hremoved, fun heq => hne (hfirst heq).2⟩
  unfold State.eperdStep
  rw [hphase]
  dsimp only
  split_ifs with hline hbytes hbuffer
  · refine hsync ?_
    rintro rfl
    revert hline
    decide
  · refine ⟨hremoved, fun heq => absurd ?_ hbytes⟩
    rw [(h.telnetd_of_phase heq).2, drop_nil, take_nil]
  · trivial
  · exact hsync hbuffer

/-- Reading changes nothing but where `eperd` stands. -/
lemma eperdStep_reading (hphase : s.eperd = .reading fd offset buffer) (o : Outcome) :
    s.eperdStep o = { s with eperd := (s.eperdStep o).eperd } := by
  unfold State.eperdStep
  rw [hphase]
  dsimp only
  split_ifs <;> rfl

/-- `SynchronizeFile` with the name of the crontab loads the last one. -/
lemma Ok.loaded (h : Ok s) (hdone : s.telnetd = .returned true) :
    Loaded (s.synchronizeFile (some cronuser)).log := by
  obtain ⟨crontab, hlast⟩ := Option.isSome_iff_exists.mp (h.renamed (hdone ▸ nofun))
  refine .inl ⟨rfl, ?_⟩
  rw [h.crontab crontab hlast, hlast]
  exact ⟨rfl, rfl⟩

/-- A call of `SynchronizeFile`, behind which `eperd` has nothing new open. -/
lemma Ok.synchronizeFile (h : Ok s) (fileName : Option Bytes)
    (heperd : EperdOk s.files s.telnetd eperd) (habout : s.AboutTo → fileName = some cronuser) :
    Ok { s.synchronizeFile fileName with eperd := eperd } := by
  have hlast : lastCrontab (s.synchronizeFile fileName).log = lastCrontab s.log := by
    cases fileName <;> rfl
  have hstate : { s.synchronizeFile fileName with eperd := eperd } =
      { s with eperd := eperd, log := (s.synchronizeFile fileName).log } := by
    cases fileName <;> rfl
  rw [hstate]
  refine ⟨?_, ?_, h.telnetd, heperd, fun hdone => ?_⟩
  · intro crontab hcrontab
    exact h.crontab crontab (hlast ▸ hcrontab)
  · intro hne
    exact hlast ▸ h.renamed hne
  · rcases h.update hdone with hleft | habove | hloaded
    · exact .inl hleft
    · obtain rfl := habout habove
      exact .inr (.inr (h.loaded hdone))
    · cases fileName with
      | none => exact .inr (.inr hloaded)
      | some fileName => exact .inr (.inr (.inr hloaded))

/-- `eperd` removes the name `cron.update`, and is about to load what it names. -/
lemma Ok.unlink (h : Ok s) (heperd : EperdOk (s.files.unlink .cronUpdate) s.telnetd eperd)
    (habout : s.Left ∨ s.AboutTo → eperd.AboutTo s.files.data) :
    Ok { s with files := s.files.unlink .cronUpdate, eperd := eperd } where
  crontab := h.crontab
  renamed := h.renamed
  telnetd := h.telnetd.unlink _
  eperd := heperd
  update hdone := .inr ((or_assoc.mpr (h.update hdone)).imp_left habout)

/-- A step of `eperd`. -/
lemma Ok.eperdStep (h : Ok s) (o : Outcome) : Ok (s.eperdStep o) := by
  cases hphase : s.eperd with
  | idle =>
    unfold State.eperdStep
    rw [hphase]
    dsimp only
    split_ifs
    · exact h.unlink trivial fun _ => trivial
    · split
      · exact h
      · next fd hname =>
        refine ⟨h.crontab, h.renamed, h.telnetd, hname, fun hdone => ?_⟩
        exact (h.update hdone).imp_right (Or.imp_left fun habout => (habout.of_phase hphase).elim)
  | unlinking fd =>
    have heperd : s.files.names .cronUpdate = some fd := h.eperd_of_phase hphase
    unfold State.eperdStep
    rw [hphase]
    refine h.unlink ⟨⟨s.files.lt_next heperd, fun a ha => ?_⟩, fun _ => ⟨rfl, rfl⟩⟩ ?_
    · obtain ⟨hne, ha⟩ := Files.names_unlink_eq_some_iff.mp ha
      exact hne (s.files.inj ha heperd)
    · rintro (hleft | habout)
      · exact Option.some.inj ((Files.contents_eq_some_of_names heperd).symm.trans hleft)
      · exact (habout.of_phase hphase).elim
  | reading fd offset buffer =>
    have hread := h.read hphase o
    have habout : s.AboutTo → (s.eperdStep o).AboutTo := fun habout =>
      (aboutTo_reading hphase habout o).1
    rw [eperdStep_reading hphase o] at habout ⊢
    exact ⟨h.crontab, h.renamed, h.telnetd, hread, fun hdone =>
      (h.update hdone).imp_right (Or.imp_left habout)⟩
  | synchronizing fileName fd offset buffer =>
    obtain ⟨hremoved, hne⟩ := h.eperd_of_phase hphase
    unfold State.eperdStep
    rw [hphase]
    refine h.synchronizeFile fileName ⟨hremoved, fun heq => absurd heq hne⟩ fun habout => ?_
    exact habout.of_phase hphase
  | synchronizingDir =>
    unfold State.eperdStep
    rw [hphase]
    exact h.synchronizeFile (some cronuser) trivial fun _ => rfl

end Steps

/-- The invariant holds in every state. -/
lemma Reached.ok (h : Reached s) : Ok s := by
  obtain ⟨files, hrun⟩ := h
  induction hrun with
  | refl => exact .initial files
  | tail _ hstep ih =>
    cases hstep with
    | upload crontab hphase => exact ih.upload hphase crontab
    | telnetd o => exact ih.endCrontab o
    | eperd o => exact ih.eperdStep o

/-! ### What `eperd` is about to do -/

section AboutTo

variable {s t : State}

lemma synchronizeFile_log (s : State) (fileName : Option Bytes) :
    s.log <:+ (s.synchronizeFile fileName).log := by
  cases fileName with
  | none => exact suffix_rfl
  | some fileName => exact suffix_cons _ _

/-- Since `s`, the crontab of `CRONUSER` has been loaded. -/
def LoadedSince (s t : State) : Prop :=
  ∃ new, t.log = new ++ s.log ∧ ∃ crontab, .synchronized cronuser crontab ∈ new

/-- A step of `eperd` loads the crontab, or brings it closer. -/
lemma aboutTo_eperdStep (h : s.AboutTo) (o : Outcome) :
    LoadedSince s (s.eperdStep o) ∨
      (s.eperdStep o).AboutTo ∧ (s.eperdStep o).eperd.rank < s.eperd.rank := by
  cases hphase : s.eperd with
  | idle | unlinking fd => exact (h.of_phase hphase).elim
  | reading fd offset buffer =>
    exact .inr (hphase ▸ aboutTo_reading hphase h o)
  | synchronizing fileName fd offset buffer =>
    obtain rfl : fileName = some cronuser := h.of_phase hphase
    refine .inl ?_
    unfold State.eperdStep
    rw [hphase]
    exact ⟨[_], rfl, _, mem_singleton_self _⟩
  | synchronizingDir =>
    refine .inl ?_
    unfold State.eperdStep
    rw [hphase]
    exact ⟨[_], rfl, _, mem_singleton_self _⟩

/-- The steps of `telnetd` do not move `eperd`, nor do they change a file that has lost its name,
unless `telnetd` writes to it. -/
lemma endCrontab_eperd (s : State) (o : Outcome) :
    (s.endCrontab o).eperd = s.eperd ∧ s.log <:+ (s.endCrontab o).log ∧
      ∀ fd, Removed s.files fd → s.telnetd ≠ .writing fd →
        (s.endCrontab o).files.data fd = s.files.data fd := by
  have hsame {t : EndCrontab} : ∀ fd, Removed s.files fd → t ≠ .writing fd →
      s.files.data fd = s.files.data fd := fun _ _ _ => rfl
  unfold State.endCrontab
  cases s.telnetd with
  | returned ok =>
    dsimp only
    split
    · next hrename =>
      split_ifs
      · exact ⟨rfl, suffix_cons _ _, fun fd _ _ => congrFun (Files.rename_eq_some hrename).2.1 fd⟩
      · exact ⟨rfl, suffix_rfl, hsame⟩
    · exact ⟨rfl, suffix_rfl, hsame⟩
  | opening =>
    dsimp only
    split_ifs
    · exact ⟨rfl, suffix_rfl, fun fd hfd _ => hfd.data_openTrunc .cronUpdate⟩
    · exact ⟨rfl, suffix_rfl, hsame⟩
  | writing fd' =>
    exact ⟨rfl, suffix_rfl, fun fd _ hne => Files.data_store_of_ne fun heq => hne (heq ▸ rfl)⟩
  | statting fd' =>
    dsimp only
    split_ifs <;> exact ⟨rfl, suffix_rfl, hsame⟩

/-- When `eperd` is about to read the line, it has been written. -/
lemma Ok.ne_writing (h : Ok s) (habout : s.AboutTo) {fd offset : ℕ} {buffer : Bytes}
    (hphase : s.eperd = .reading fd offset buffer) : s.telnetd ≠ .writing fd := by
  intro hwriting
  obtain ⟨rfl, rfl⟩ := (h.eperd_of_phase hphase).2 hwriting
  have hline := habout.of_phase hphase
  change [] ++ (s.files.data fd).drop 0 = updateline at hline
  rw [(h.telnetd_of_phase hwriting).2] at hline
  cases hline

/-- A step loads the crontab, or `eperd` is still about to load it. -/
lemma Ok.aboutTo_step (h : Ok s) (habout : s.AboutTo) (hstep : Step s t) :
    LoadedSince s t ∨ t.AboutTo := by
  cases hstep with
  | upload crontab hphase =>
    refine .inr (habout.of_data fun fd offset buffer hreading => ?_)
    exact (h.eperd_of_phase hreading).1.data_upload crontab
  | telnetd o =>
    obtain ⟨hsame, -, hdata⟩ := endCrontab_eperd s o
    refine .inr ?_
    unfold State.AboutTo
    rw [hsame]
    refine habout.of_data fun fd offset buffer hphase => ?_
    exact hdata fd (h.eperd_of_phase hphase).1 (h.ne_writing habout hphase)
  | eperd o => exact (aboutTo_eperdStep habout o).imp_right And.left

lemma eperdStep_log (s : State) (o : Outcome) : s.log <:+ (s.eperdStep o).log := by
  unfold State.eperdStep
  cases s.eperd with
  | idle =>
    cases s.files.names .cronUpdate <;> cases o.hour <;> exact suffix_rfl
  | unlinking fd => exact suffix_rfl
  | reading fd offset buffer =>
    dsimp only
    split_ifs <;> exact suffix_rfl
  | synchronizing fileName fd offset buffer => exact synchronizeFile_log s fileName
  | synchronizingDir => exact synchronizeFile_log s (some cronuser)

/-- The log grows at every step. -/
lemma step_log (h : Step s t) : s.log <:+ t.log := by
  cases h with
  | upload crontab hphase => exact suffix_rfl
  | telnetd o => exact (endCrontab_eperd s o).2.1
  | eperd o => exact eperdStep_log s o

lemma LoadedSince.mono {s' t' : State} (h : LoadedSince s t) (hs : s'.log <:+ s.log)
    (ht : t.log <:+ t'.log) : LoadedSince s' t' := by
  obtain ⟨new, hlog, crontab, hin⟩ := h
  obtain ⟨before, hs⟩ := hs
  obtain ⟨behind, ht⟩ := ht
  refine ⟨behind ++ (new ++ before), ?_, crontab, mem_append_right _ (mem_append_left _ hin)⟩
  rw [← ht, hlog, ← hs, append_assoc, append_assoc]

/-- Along every interleaving, `eperd` is about to load the crontab until it has done so. -/
lemma Reached.aboutTo_run (h : Reached s) (habout : s.AboutTo)
    (hrun : Relation.ReflTransGen Step s t) :
    s.log <:+ t.log ∧ (LoadedSince s t ∨ t.AboutTo) := by
  induction hrun with
  | refl => exact ⟨suffix_rfl, .inr habout⟩
  | @tail t u hrun hstep ih =>
    obtain ⟨hlog, hloaded | hnext⟩ := ih
    · exact ⟨hlog.trans (step_log hstep), .inl (hloaded.mono suffix_rfl (step_log hstep))⟩
    · obtain ⟨files, hinit⟩ := h
      have hok : Ok t := Reached.ok ⟨files, hinit.trans hrun⟩
      refine ⟨hlog.trans (step_log hstep), (hok.aboutTo_step hnext hstep).imp_left ?_⟩
      exact fun hloaded => hloaded.mono hlog suffix_rfl

lemma State.AboutTo.rank_pos (h : s.AboutTo) : 0 < s.eperd.rank := by
  cases hphase : s.eperd with
  | reading fd offset buffer =>
    have hlength := congrArg List.length (h.of_phase hphase)
    rw [length_append] at hlength
    change 0 < 7 - buffer.length
    have hfive : updateline.length = 5 := rfl
    omega
  | _ => exact Nat.one_pos

lemma Eperd.rank_le (eperd : Eperd) : eperd.rank ≤ 7 := by
  cases eperd with
  | reading fd offset buffer => exact Nat.sub_le _ _
  | _ => exact (by decide : 1 ≤ 7)

lemma LoadedSince.foldl (h : LoadedSince s t) (os : List Outcome) :
    LoadedSince s (os.foldl State.eperdStep t) := by
  induction os generalizing t with
  | nil => exact h
  | cons o os ih => exact ih (h.mono suffix_rfl (eperdStep_log t o))

/-- A few steps of `eperd` are enough. -/
lemma State.AboutTo.foldl (h : s.AboutTo) {os : List Outcome} (hrank : s.eperd.rank ≤ os.length) :
    LoadedSince s (os.foldl State.eperdStep s) := by
  induction os generalizing s with
  | nil => exact absurd h.rank_pos (Nat.not_lt.mpr hrank)
  | cons o os ih =>
    rcases aboutTo_eperdStep h o with hloaded | ⟨hnext, hlt⟩
    · exact hloaded.foldl os
    · have hloaded := ih hnext (by rw [length_cons] at hrank; omega)
      exact hloaded.mono (eperdStep_log s o) suffix_rfl

end AboutTo

lemma exists_of_lastCrontab {crontab : Bytes} (h : lastCrontab log = some crontab) :
    ∃ recent before, log = recent ++ .renamed crontab :: before ∧ ∀ c, .renamed c ∉ recent := by
  induction log with
  | nil => cases h
  | cons e log ih =>
    cases e with
    | renamed c =>
      cases h
      exact ⟨[], log, rfl, fun _ => not_mem_nil⟩
    | synchronized fileName c =>
      obtain ⟨recent, before, rfl, hnone⟩ := ih h
      exact ⟨_ :: recent, before, rfl, by simpa using hnone⟩

lemma exists_of_loaded (h : Loaded log) :
    ∃ recent crontab before, log = recent ++ .renamed crontab :: before ∧
      .synchronized cronuser (some crontab) ∈ recent ∧ ∀ c, .renamed c ∉ recent := by
  induction log with
  | nil => exact h.elim
  | cons e log ih =>
    cases e with
    | renamed crontab => exact h.elim
    | synchronized fileName crontab =>
      rcases h with ⟨rfl, hsome, hlast⟩ | hloaded
      · obtain ⟨crontab, rfl⟩ := Option.isSome_iff_exists.mp hsome
        obtain ⟨recent, before, rfl, hnone⟩ := exists_of_lastCrontab hlast.symm
        exact ⟨_ :: recent, crontab, before, rfl, mem_cons_self, by simpa using hnone⟩
      · obtain ⟨recent, last, before, rfl, hin, hnone⟩ := ih hloaded
        exact ⟨_ :: recent, last, before, rfl, mem_cons_of_mem _ hin, by simpa using hnone⟩

/-- **No crontab update is lost.**  When `end_crontab` has returned without an error, and as long as
it is not called again, the file `cron.update` has its line, or the crontab that was renamed has
been loaded since, or `eperd` is about to load it: it does so before it is idle again in every
interleaving, and by itself within seven steps. -/
theorem update_not_lost {s : State} (h : Reached s) (hdone : s.telnetd = .returned true) :
    s.files.contents .cronUpdate = some updateline ∨
    (∃ recent crontab before, s.log = recent ++ .renamed crontab :: before ∧
      .synchronized cronuser (some crontab) ∈ recent ∧ ∀ c, .renamed c ∉ recent) ∨
    (∀ t, Relation.ReflTransGen Step s t → t.eperd = .idle → LoadedSince s t) ∧
      ∀ os : List Outcome, 7 ≤ os.length → LoadedSince s (os.foldl State.eperdStep s) := by
  rcases h.ok.update hdone with hleft | habout | hloaded
  · exact .inl hleft
  · refine .inr (.inr ⟨fun t hrun hidle => ?_, fun os hlength => ?_⟩)
    · obtain ⟨-, hloaded | hnext⟩ := h.aboutTo_run habout hrun
      · exact hloaded
      · unfold State.AboutTo at hnext
        rw [hidle] at hnext
        exact hnext.elim
    · exact habout.foldl (s.eperd.rank_le.trans hlength)
  · exact .inr (.inl (exists_of_loaded hloaded))

/-- Every call succeeds. -/
def allWell : Outcome := ⟨true, 5, false⟩

/-- A crontab is uploaded, `end_crontab` returns, and `CheckUpdates` removes the name. -/
def afterUnlink : State :=
  let s := (State.initial (.empty Name)).upload (ascii "240 evping\n")
  let s := (((s.endCrontab allWell).endCrontab allWell).endCrontab allWell).endCrontab allWell
  (s.eperdStep allWell).eperdStep allWell

lemma reached_afterUnlink : Reached afterUnlink := by
  have hupload : Relation.ReflTransGen Step _ _ :=
    .single (.upload (s := .initial (.empty Name)) (ascii "240 evping\n") rfl)
  refine ⟨.empty Name, ?_⟩
  exact (((((hupload.tail (.telnetd _ allWell)).tail (.telnetd _ allWell)).tail
    (.telnetd _ allWell)).tail (.telnetd _ allWell)).tail (.eperd _ allWell)).tail
    (.eperd _ allWell)

theorem update_not_lost_unlinked :
    Reached afterUnlink ∧ afterUnlink.telnetd = .returned true ∧
      afterUnlink.files.contents .cronUpdate = none ∧
      ∀ os : List Outcome, 7 ≤ os.length →
        LoadedSince afterUnlink (os.foldl State.eperdStep afterUnlink) := by
  have hdone : afterUnlink.telnetd = .returned true := rfl
  refine ⟨reached_afterUnlink, hdone, rfl, ?_⟩
  rcases update_not_lost reached_afterUnlink hdone with hleft | ⟨recent, _, _, hlog, hin, -⟩ |
    habout
  · cases hleft
  · have hone : afterUnlink.log.length = 1 := rfl
    rw [hlog, length_append, length_cons] at hone
    obtain rfl : recent = [] := length_eq_zero_iff.mp (by omega)
    cases hin
  · exact habout.2

end AtlasProbe.CronUpdate
