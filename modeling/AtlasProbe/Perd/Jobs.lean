import AtlasProbe.Perd.Crontab

/-!
# The jobs of `perd`

`TestJobs` arms the lines that are due, and `RunJobs` runs the jobs that are armed, one after the
other.  Between two passes the crontabs may be read again.
-/

namespace AtlasProbe.Perd

/-! ### `TestJobs` -/

/-- When the line is due. -/
def CronLine.due (line : CronLine) : ℤ :=
  line.startTime + line.nextcycle * line.interval + line.distrOffset

/-- The line is between its start and its end. -/
def CronLine.inTime (line : CronLine) (now : ℤ) : Bool :=
  line.startTime ≤ now ∧ now ≤ line.endTime

/-- If the time went backward, then the cycles start again. -/
def CronLine.rewind (line : CronLine) (now : ℤ) : CronLine :=
  if line.startTime ≤ now ∧ now < line.startTime + (line.nextcycle - 10) * line.interval then
    { line with nextcycle := 0 }
  else line

/-- The line is armed, and its next cycle and offset are computed. -/
def CronLine.arm (line : CronLine) (now : ℤ) (random : Random) : CronLine :=
  { line with
    pid := -1
    nextcycle :=
      if line.startTime + (line.nextcycle + 1) * line.interval ≤ now then line.cycleAfter now
      else line.nextcycle + 1
    distrOffset := line.distr random }

/-- What `TestJobs` finds out about a line. -/
inductive Verdict
  /-- The line is armed for a cycle. -/
  | armed (cycle : ℤ)
  /-- The line is due, but has not been run. -/
  | busy
  | later (time : ℤ)
  | outside

/-- What `TestJobs` decides about a line. -/
def CronLine.verdict (line : CronLine) (now : ℤ) : Verdict :=
  if line.due ≤ now ∧ line.inTime now = true then
    if line.pid = 0 then .armed line.nextcycle else .busy
  else if line.inTime now then .later line.due
  else .outside

/-- Whether a line is armed. -/
def Verdict.isArmed : Verdict → Bool
  | .armed _ => true
  | .busy | .later _ | .outside => false

/-- A line in `TestJobs`. -/
def CronLine.test (line : CronLine) (now : ℤ) (random : Random) : CronLine :=
  let line := line.rewind now
  if (line.verdict now).isArmed then line.arm now random else line

/-- The lines of a file in `TestJobs`. -/
def CronFile.verdicts (f : CronFile) (now : ℤ) : List Verdict :=
  if f.deleted then [] else f.lines.map fun line => (line.rewind now).verdict now

/-- A file in `TestJobs`. -/
def CronFile.test (f : CronFile) (now : ℤ) (random : ℕ → Random) : CronFile :=
  if f.deleted then f
  else
    { f with
      lines := f.lines.mapIdx fun j line => line.test now (random j)
      ready := f.ready || (f.verdicts now).any Verdict.isArmed }

/-- The time at which `TestJobs` is to be called again, or 0 if jobs are armed. -/
def nextTime (now : ℤ) (verdicts : List Verdict) : ℤ :=
  verdicts.foldl (fun next v =>
    match v with
    | .armed _ => 0
    | .later time => if time < next then time else next
    | .busy | .outside => next) (now + 3600)

/-- `TestJobs`: the files, the number of jobs that are armed, and the time that it stores. -/
def testJobs (files : List CronFile) (now : ℤ) (random : ℕ → ℕ → Random) :
    List CronFile × ℕ × ℤ :=
  let verdicts := files.flatMap fun f => f.verdicts now
  (files.mapIdx fun i f => f.test now (random i), verdicts.countP Verdict.isArmed,
    nextTime now verdicts)

/-! ### `RunJobs` -/

/-- `RunJob`: the command is run, and then the line is idle again. -/
def CronLine.runJob (line : CronLine) : CronLine := { line with pid := 0 }

/-- A file in `RunJobs`. -/
def CronFile.runJobs (f : CronFile) : CronFile :=
  if f.ready then
    { f with
      ready := false
      lines := f.lines.map fun line => if 0 ≤ line.pid then line else line.runJob }
  else f

/-- `RunJobs`.  No job runs on behind `RunJob`, so that there is nothing to wait for. -/
def runJobs (files : List CronFile) : List CronFile := files.map CronFile.runJobs

/-! ### Events -/

/-- What the main loop calls. -/
inductive Event
  | testJobs (now : ℤ) (random : ℕ → ℕ → Random)
  | runJobs
  | checkUpdates (readings : List Reading)
  | synchronizeDir (readings : List Reading)

/-- The files behind a call, as long as `perd` has not died. -/
def step (dir : Dir) (files : Option (List CronFile)) : Event → Option (List CronFile)
  | .testJobs now random => files.map fun files => (testJobs files now random).1
  | .runJobs => files.map runJobs
  | .checkUpdates readings => files.bind (checkUpdates dir · readings)
  | .synchronizeDir readings => files.bind (synchronizeDir dir · readings)

/-- Whether crontabs are read again. -/
def Event.isReload : Event → Bool
  | .checkUpdates _ | .synchronizeDir _ => true
  | .testJobs _ _ | .runJobs => false

/-- The lines of a crontab. -/
def linesOf (files : List CronFile) (user : Bytes) : Option (List CronLine) :=
  (files.find? fun f => f.user = user).map CronFile.lines

/-- A line, by the crontab that it is in and its place there. -/
def lineAt (files : List CronFile) (user : Bytes) (i : ℕ) : Option CronLine :=
  (linesOf files user).bind fun lines => lines[i]?

/-- The cycle for which a line is armed at a time. -/
def CronLine.armedFor (line : CronLine) (now : ℤ) : Option ℤ :=
  match (line.rewind now).verdict now with
  | .armed cycle => some cycle
  | .busy | .later _ | .outside => none

/-- The cycle for which a call arms a line, if it is a call of `TestJobs`. -/
def armedBy (user : Bytes) (i : ℕ) (files : Option (List CronFile)) :
    Event → List (Option ℤ)
  | .testJobs now _ =>
    [files.bind fun files => (lineAt files user i).bind fun line => line.armedFor now]
  | .runJobs | .checkUpdates _ | .synchronizeDir _ => []

/-- The cycles for which a line is armed, pass by pass. -/
def armings (dir : Dir) (user : Bytes) (i : ℕ) :
    List Event → Option (List CronFile) → List (Option ℤ)
  | [], _ => []
  | e :: events, files => armedBy user i files e ++ armings dir user i events (step dir files e)

end AtlasProbe.Perd
