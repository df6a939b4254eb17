import AtlasProbe.Eperd.Crontab

/-!
# The crontabs of `perd`

`perd` keeps a list of crontabs, each with its lines.  A crontab that is read again becomes a new
file in the list; its lines take over the cycle and the offset of the lines of the old file, if
`SetOld` finds one, and `DeleteFile` deletes the old one.

The lines have the format of `eperd`.  A pointer into the lines of a file is the rest of the lines
from there on, and there is none at the end.
-/

namespace AtlasProbe.Perd

open Eperd (Distribution modulus limit)

/-! ### Lines -/

/-- What a line of a crontab says.  The interval is not zero, and neither is the number that
`do_distr` divides by. -/
structure Entry where
  command : Bytes
  interval : ℕ
  startTime : ℤ
  endTime : ℤ
  distribution : Distribution
  distrParam : ℤ
  interval_pos : 0 < interval
  divides : distribution = .uniform → modulus distrParam ≠ 0

/-- `CronLine`, without the field that only appears in messages. -/
structure CronLine extends Entry where
  nextcycle : ℤ
  distrOffset : ℤ
  /-- `cl_Pid`: the process that runs, 0, or -1 for a job that is armed. -/
  pid : ℤ

/-- What `random` returns. -/
abbrev Random := Fin (2 ^ 31)

/-- The offset that `do_distr` computes, as an `int`. -/
def Entry.distr (e : Entry) (random : Random) : ℤ :=
  match e.distribution with
  | .none => 0
  | .uniform => ((random : ℤ).tmod (modulus e.distrParam) - e.distrParam.tdiv 2).bmod (2 ^ 32)

/-- The cycle that comes next. -/
def Entry.cycleAfter (e : Entry) (now : ℤ) : ℤ := (now - e.startTime).tdiv e.interval + 1

/-- The line for an entry that is read for the first time. -/
def Entry.fresh (e : Entry) (now : ℤ) (random : Random) : CronLine :=
  { e with nextcycle := e.cycleAfter now, distrOffset := e.distr random, pid := 0 }

/-- The fields that `CopyFromOld` compares. -/
def Entry.key (e : Entry) : ℕ × ℤ × Bytes := (e.interval, e.startTime, e.command)

/-- What becomes of a line of the file. -/
inductive Parsed
  | skipped
  /-- `do_distr` divides by zero. -/
  | dies
  | entry (e : Entry)

lemma interval_pos_of_parseLine {tokens : List Bytes} {line : Eperd.CronLine}
    (h : Eperd.parseLine tokens = some line) : 0 < line.interval := by
  unfold Eperd.parseLine at h
  split at h
  · dsimp only at h
    split_ifs at h with hmail hbad
    obtain ⟨⟨d, p⟩, -, hline⟩ := Option.bind_eq_some_iff.mp h
    cases hline
    exact Nat.pos_of_ne_zero (not_or.mp hbad).1
  · cases h

/-- A line by its words. -/
def parseLine (tokens : List Bytes) : Parsed :=
  match h : Eperd.parseLine tokens with
  | none => .skipped
  | some line =>
    if hzero : line.distribution = .uniform ∧ modulus line.distrParam = 0 then .dies
    else
      .entry
        { command := line.command
          interval := line.interval
          startTime := line.startTime
          endTime := line.endTime
          distribution := line.distribution
          distrParam := line.distrParam
          interval_pos := interval_pos_of_parseLine h
          divides := fun huniform hmodulus => hzero ⟨huniform, hmodulus⟩ }

/-! ### Files -/

/-- `CronFile` -/
structure CronFile where
  user : Bytes
  lines : List CronLine
  ready : Bool := false
  running : Bool := false
  toBeDeleted : Bool := false
  deleted : Bool := false

/-- `CopyFromOld`, with the lines from `oldLine` on, before and behind. -/
def copyFromOld (oldFile : Option CronFile) (oldLine : List CronLine) (line : CronLine) :
    CronLine × List CronLine :=
  match oldFile with
  | none => (line, oldLine)
  | some file =>
    let matching (l : List CronLine) : Bool := l.head?.any (fun old => old.key = line.key)
    let oldLine :=
      if matching oldLine then oldLine
      else file.lines.dropWhile (fun old => old.key ≠ line.key)
    match oldLine with
    | [] => (line, [])
    | old :: rest =>
      ({ line with
          nextcycle := old.nextcycle
          distrOffset :=
            if old.distribution = line.distribution ∧ old.distrParam = line.distrParam then
              old.distrOffset
            else line.distrOffset }, rest)

/-- The loop of `SynchronizeFile` that reads the lines, with the counter `maxLines` and what
`random` returns for each line that is not skipped.  There is no result if `do_distr` divides by
zero. -/
def readLines (oldFile : Option CronFile) (now : ℤ) :
    ℕ → List (List Bytes) → (ℕ → Random) → List CronLine → Option (List CronLine)
  | _, [], _, _ => some []
  | maxLines, tokens :: text, random, oldLine =>
    if maxLines - 1 = 0 then some []
    else
      match parseLine tokens with
      | .skipped => readLines oldFile now (maxLines - 1) text random oldLine
      | .dies => none
      | .entry e =>
        let (line, oldLine) := copyFromOld oldFile oldLine (e.fresh now (random 0))
        (readLines oldFile now (maxLines - 1) text (fun i => random (i + 1)) oldLine).map
          (line :: ·)

/-- What `DeleteFile` does to the file that it is called for.  The lines that run stay, and the
file as well if there are any. -/
def CronFile.delete (f : CronFile) : Option CronFile :=
  let lines := f.lines.filter (fun line => 0 < line.pid)
  if lines.isEmpty then none
  else some { f with lines := lines, running := true, deleted := true }

/-- `DeleteFile` for the file at some position, if there is one. -/
def deleteFile (files : List CronFile) : Option ℕ → List CronFile
  | none => files
  | some i =>
    match files[i]?.bind CronFile.delete with
    | none => files.eraseIdx i
    | some f => files.set i f

/-- The position that `SetOld` finds. -/
def setOld (files : List CronFile) (userName : Bytes) : Option ℕ :=
  files.findIdx? fun f => !f.toBeDeleted && f.user = userName

/-- The mark that `SetOld` and `SynchronizeDir` set. -/
def CronFile.mark (f : CronFile) : CronFile := { f with toBeDeleted := true }

/-- The directory: the words in the lines of each file that is there. -/
abbrev Dir := Bytes → Option (List (List Bytes))

/-- A call of `SynchronizeFile`, with the time that it reads and what `random` returns. -/
structure Reading where
  fileName : Bytes
  now : ℤ
  random : ℕ → Random

/-- `SynchronizeFile` -/
def synchronizeFile (dir : Dir) (files : List CronFile) (r : Reading) : Option (List CronFile) :=
  let old := setOld files r.fileName
  let oldFile := old.bind fun i => files[i]?
  let files := match old with
    | some i => files.modify i CronFile.mark
    | none => files
  match dir r.fileName with
  | none => some (deleteFile files old)
  | some text =>
    (readLines oldFile r.now (limit r.fileName) text r.random []).map fun lines =>
      deleteFile ({ user := r.fileName, lines := lines } :: files) (old.map (· + 1))

/-- `CheckUpdates`, for the names in the file. -/
def checkUpdates (dir : Dir) (files : List CronFile) (readings : List Reading) :
    Option (List CronFile) := readings.foldlM (synchronizeFile dir) files

/-- The end of `SynchronizeDir`: the flags are cleared, and what is marked is deleted. -/
def deleteMarked (files : List CronFile) : List CronFile :=
  files.filterMap fun f =>
    let f := { f with deleted := false }
    if f.toBeDeleted then f.delete else some f

/-- `SynchronizeDir`, for the files of the directory that belong to a user. -/
def synchronizeDir (dir : Dir) (files : List CronFile) (readings : List Reading) :
    Option (List CronFile) :=
  (readings.foldlM (synchronizeFile dir) (files.map CronFile.mark)).map deleteMarked

end AtlasProbe.Perd
