import AtlasProbe.Eperd.CronLine
import AtlasProbe.Lib.Keyed

/-!
# Loading a crontab

`SynchronizeFile` marks all entries of the list, reads the crontab, and sweeps: a line of the
crontab either matches an entry, which loses its mark, or becomes a new entry that is started, and
at the end `DeleteFile` deletes the entries that are still marked.  An entry stays if its test is
busy.

A line is given by the words that `config_read` finds in it, and comes with what happens while it is
handled.
-/

namespace AtlasProbe.Eperd

/-! ### The lines of a crontab -/

/-- `MAX_INTERVAL` -/
def maxInterval : ℕ := 2 * 366 * 24 * 3600

/-- `MAXLINES`, the limit of the files other than `root`. -/
def maxLines : ℕ := 256

/-- The value with which the counter of the lines starts. -/
def limit (fileName : Bytes) : ℕ := if fileName = ascii "root" then 65535 else maxLines

/-- The distribution of a line, from its fourth and fifth word, with the parameter.  A word that is
not known leaves the field as it is in a new entry. -/
def parseDistribution (name param : Bytes) : Option (Distribution × ℤ) :=
  if name = ascii "NONE" then some (.none, 0)
  else if name = ascii "UNIFORM" then
    let (value, rest) := strtoul param
    let param : ℤ := (value : ℤ).bmod (2 ^ 32)
    if rest ≠ [] then Option.none
    else if param = 0 ∨ (2 ^ 63 - 1 : ℤ).tdiv param = 0 then some (.none, param)
    else some (.uniform, param)
  else some (.none, 0)

/-- The entry for a line, if the line is accepted. -/
def parseLine : List Bytes → Option CronLine
  | word₀ :: word₁ :: word₂ :: word₃ :: word₄ :: word₅ :: _ =>
    if word₀.take 7 = ascii "MAILTO=" then Option.none
    else
      let (interval, check₀) := strtoul word₀
      let (startTime, check₁) := strtoul word₁
      let (endTime, check₂) := strtoul word₂
      let interval := interval % 2 ^ 32
      if interval = 0 ∨ maxInterval < interval ∨ check₀ ≠ [] ∨ check₁ ≠ [] ∨ check₂ ≠ [] then
        Option.none
      else do
        let (distribution, distrParam) ← parseDistribution word₃ word₄
        some {
          command := word₅
          interval := interval
          startTime := (startTime : ℤ).bmod (2 ^ 64)
          endTime := (endTime : ℤ).bmod (2 ^ 64)
          distribution := distribution
          distrParam := distrParam }
  | _ => Option.none

/-! ### The list of entries -/

/-- What `atlas_init` does: it fails before it calls `init` of the test, or it sets `testops` and
`init` returns a state or nothing. -/
inductive InitResult where
  | failed
  | called (state : Option ℕ)

/-- A line of the file, and what happens while it is handled. -/
structure Line where
  /-- The words in the line. -/
  tokens : List Bytes
  now : TimeVal
  random : Random
  init : InitResult

/-- What `Insert` compares. -/
abbrev Key := ℕ × ℤ × Bytes

/-- The fields of an entry that `Insert` compares. -/
def CronLine.key (line : CronLine) : Key := (line.interval, line.startTime, line.command)

/-- The list of entries, the position that `oldLine` points to, and the entries that `Start` has
initialised and `DeleteFile` has deleted. -/
structure Crontab where
  /-- `LineBase` -/
  lines : List CronLine := []
  oldLine : Option ℕ := Option.none
  inits : List Key := []
  deleted : List Key := []

/-- `Start` -/
def CronLine.start (line : CronLine) (env : Line) : Option CronLine :=
  match env.init with
  | .failed => some { line with testops := false }
  | .called state =>
      { line with testops := true, teststate := state }.setTimeout true env.now env.random

namespace Crontab

/-- The first loop of `SynchronizeFile`. -/
def markAll (s : Crontab) : Crontab :=
  { s with lines := s.lines.map fun line => { line with needsDelete := true } }

/-- The search in `Insert`: `oldLine` comes first. -/
def search (s : Crontab) (line : CronLine) : Option ℕ :=
  let found := s.lines.findIdx? fun old => decide (old.key = line.key)
  match s.oldLine with
  | some i => if (s.lines[i]?.map CronLine.key) = some line.key then some i else found
  | Option.none => found

/-- `Insert`, followed by `Start` if the entry is new. -/
def insert (s : Crontab) (line : CronLine) (env : Line) : Option Crontab :=
  match s.search line with
  | some i => do
    let old ← s.lines[i]?
    let old := { old with endTime := line.endTime, needsDelete := false }
    let old ← old.setTimeout false env.now env.random
    some { s with lines := s.lines.set i old, oldLine := some i }
  | Option.none => do
    let new ← line.start env
    some { s with
      lines := s.lines ++ [new]
      oldLine := Option.none
      inits := s.inits ++ [line.key] }

/-- The loop of `SynchronizeFile` that reads the file, with the counter `maxLines`. -/
def readLines : ℕ → List Line → Crontab → Option Crontab
  | maxLines, file, s =>
    if maxLines - 1 = 0 then some s
    else
      match file with
      | [] => some s
      | env :: rest => do
        let s ← (match parseLine env.tokens with
          | Option.none => some s
          | some line => s.insert line env)
        readLines (maxLines - 1) rest s

end Crontab

/-- Whether `delete` refuses to delete the test of an entry; `delete` tells which states can be
deleted. -/
def CronLine.busy (line : CronLine) (delete : ℕ → Bool) : Bool :=
  line.testops && line.teststate.any fun state => !delete state

namespace Crontab

/-- `DeleteFile` -/
def deleteFile (s : Crontab) (delete : ℕ → Bool) : Crontab :=
  { s with
    oldLine := Option.none
    lines := s.lines.filter fun line => !line.needsDelete || line.busy delete
    deleted := s.deleted ++
      (s.lines.filter fun line => line.needsDelete && !line.busy delete).map CronLine.key }

/-- `SynchronizeFile`.  There is no file if it cannot be opened. -/
def synchronizeFile (s : Crontab) (fileName : Bytes) (file : Option (List Line))
    (delete : ℕ → Bool) : Option Crontab := do
  let s := s.markAll
  match file with
  | Option.none => some (s.deleteFile delete)
  | some lines =>
    let s ← readLines (limit fileName) lines s
    some (s.deleteFile delete)

end Crontab

end AtlasProbe.Eperd
