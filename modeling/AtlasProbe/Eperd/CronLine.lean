import Mathlib.Tactic.Ring
import AtlasProbe.Lib.Text

/-!
# The entries of a crontab

A `CronLine` of `eperd` is a measurement that is repeated with a fixed interval, each time with a
random offset if it has the distribution `UNIFORM`.  `set_timeout` arms the timer of the entry for
the next cycle, and `RunJob` is called when the timer fires.

Times are integers without a bound.  A division by zero ends the process; it is the absence of
a result here.
-/

namespace AtlasProbe.Eperd

/-- `struct timeval`, as `gettimeofday` returns it. -/
structure TimeVal where
  sec : ℤ
  usec : ℤ
  usec_nonneg : 0 ≤ usec
  usec_lt : usec < 1000000

/-- The time in microseconds. -/
def TimeVal.us (t : TimeVal) : ℤ := t.sec * 1000000 + t.usec

/-- `enum distribution` -/
inductive Distribution where
  | none
  | uniform
  deriving DecidableEq

/-- `CronLine`, without the fields that only appear in messages.  The field `event` is the time in
microseconds for which the timer is armed. -/
structure CronLine where
  /-- `cl_Shell` -/
  command : Bytes
  interval : ℕ
  startTime : ℤ
  endTime : ℤ
  distribution : Distribution
  distrParam : ℤ
  nextcycle : ℤ := 0
  /-- `distr_offset.tv_sec` -/
  offsetSec : ℤ := 0
  /-- `distr_offset.tv_usec` -/
  offsetUsec : ℤ := 0
  nexttime : ℤ := 0
  event : Option ℤ := Option.none
  /-- Whether `testops` is set. -/
  testops : Bool := false
  teststate : Option ℕ := Option.none
  needsDelete : Bool := false
  deriving DecidableEq

/-! ### `do_distr` -/

/-- What two calls of `random` return. -/
structure Random where
  offset : Fin (2 ^ 31)
  usec : Fin (2 ^ 31)

/-- `distr_param + 1`, as an `int`. -/
def modulus (param : ℤ) : ℤ := (param + 1).bmod (2 ^ 32)

/-- `do_distr`.  Its loop calls `random` until the result is below a bound of at least
`LONG_MAX - INT_MAX`, which every result is. -/
def CronLine.doDistr (line : CronLine) (random : Random) : Option CronLine :=
  match line.distribution with
  | .none => some { line with offsetSec := 0, offsetUsec := 0 }
  | .uniform =>
    if modulus line.distrParam = 0 then Option.none
    else
      some { line with
        offsetSec := (random.offset : ℤ).tmod (modulus line.distrParam) - line.distrParam.tdiv 2
        offsetUsec := (random.usec : ℤ).tmod 1000000 }

/-! ### `set_timeout` -/

/-- When the next cycle is due. -/
def CronLine.due (line : CronLine) : ℤ :=
  line.nextcycle * line.interval + line.startTime + line.offsetSec

/-- The end of `set_timeout`, where the timer is armed. -/
def CronLine.arm (line : CronLine) (now : TimeVal) : CronLine :=
  let sec := line.due - now.sec
  let usec := line.offsetUsec - now.usec
  let (sec, usec) := if usec < 0 then (sec - 1, usec + 1000000) else (sec, usec)
  let (sec, usec) := if sec < 0 then (0, 0) else (sec, usec)
  { line with nexttime := line.due, event := some (now.us + sec * 1000000 + usec) }

/-- The first cycle after `now`. -/
def CronLine.cycleAfter (line : CronLine) (now : TimeVal) : ℤ :=
  (now.sec - line.startTime).tdiv line.interval + 1

/-- Compute the next cycle from the time. -/
def CronLine.initNextCycle (line : CronLine) (now : TimeVal) : CronLine :=
  { line with nextcycle := if now.sec < line.startTime then 0 else line.cycleAfter now }

/-- `set_timeout`, with the time that it reads. -/
def CronLine.setTimeout (line : CronLine) (initNextCycle : Bool) (now : TimeVal) (random : Random) :
    Option CronLine :=
  if line.endTime < now.sec then some line
  else if initNextCycle then ((line.initNextCycle now).doDistr random).map (·.arm now)
  else some (line.arm now)

/-! ### `RunJob` -/

/-- What `RunJob` does when it has called `start` at the time `now`. -/
def CronLine.advance (line : CronLine) (now : TimeVal) : CronLine :=
  let line := { line with nextcycle := line.nextcycle + 1 }
  if line.startTime + line.nextcycle * line.interval < now.sec then
    { line with nextcycle := line.cycleAfter now }
  else line

/-- `RunJob`, with the time that it reads and the time that `set_timeout` reads later, and whether
it calls `start`.  The timer has fired and is not armed any more. -/
def CronLine.runJob (line : CronLine) (now later : TimeVal) (random : Random) :
    Option (CronLine × Bool) :=
  let line := { line with event := Option.none }
  if line.needsDelete then some (line, false)
  else if now.sec < line.nexttime - 10 ∨ line.nexttime + 10 < now.sec then do
    let line ← line.setTimeout true later random
    some (line, false)
  else if line.endTime < now.sec then some (line, false)
  else if line.teststate.isNone then some (line, false)
  else do
    let line ← (line.advance now).doDistr random
    let line ← line.setTimeout false later random
    some (line, true)

end AtlasProbe.Eperd
