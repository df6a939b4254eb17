import AtlasProbe.Lib.Slots
import AtlasProbe.Libbb.ValidateFilename

/-!
# The queue of one-off measurements

`eooqd` reads commands from a queue file and starts them.  At most `max_busy` commands run at a
time, each in a slot of its own.  `checkQueue` is called by a timer and adds lines with `add_line`;
a command that is done calls `cmddone`.  A line `barrier <file>` makes the queue wait until all
commands are done.

What the process does, as seen from the outside, is kept in a log.
-/

namespace AtlasProbe.Eooqd

open Libbb Slots

/-- `max_busy` -/
def maxBusy : ℕ := 10

instance : NeZero maxBusy := ⟨by decide⟩

/-- `builtin_cmds` -/
inductive Builtin where
  | evhttpget
  | evntp
  | evping
  | evtdig
  | evsslgetcert
  | evtlsscan
  | evtraceroute
  deriving DecidableEq

/-- The names in `builtin_cmds`. -/
def Builtin.cmd : Builtin → Bytes
  | .evhttpget => ascii "evhttpget"
  | .evntp => ascii "evntp"
  | .evping => ascii "evping"
  | .evtdig => ascii "evtdig"
  | .evsslgetcert => ascii "evsslgetcert"
  | .evtlsscan => ascii "evtlsscan"
  | .evtraceroute => ascii "evtraceroute"

/-- `builtin_cmds`, in their order. -/
def builtinCmds : List Builtin :=
  [.evhttpget, .evntp, .evping, .evtdig, .evsslgetcert, .evtlsscan, .evtraceroute]

/-- The address of the state of a command, never null. -/
abbrev CmdState := ℕ

/-- `struct slot`, when its `cmdstate` is not null. -/
structure Slot where
  cmdstate : CmdState
  bp : Builtin
  deriving DecidableEq

/-- Why a line is not executed; `initFailed` is reported without a reason. -/
inductive Reason where
  | commandNotFound
  | commandLineTooBig
  | tooManyArguments
  | endOfStringNotFound
  | initFailed
  deriving DecidableEq

/-- What can be seen of the process. -/
inductive Entry where
  /-- The queue file has been opened. -/
  | opened
  /-- A line has been read. -/
  | line (cmdline : Bytes)
  /-- The end of the queue file has been reached. -/
  | eof
  /-- `post` -/
  | post
  /-- `reload_resolv_conf` -/
  | reload
  /-- An error has been written to the results. -/
  | error (reason : Reason)
  /-- A command has been initialised and put into a slot, and is started. -/
  | start (cmdstate : CmdState) (argv : List Bytes)
  /-- A command has left its slot. -/
  | left (cmdstate : CmdState)
  /-- The barrier file is created, unless its name is null. -/
  | barrier (file : Option Bytes)
  /-- The process has ended with `no empty slot?`. -/
  | noEmptySlot
  deriving DecidableEq

/-- The static `state`; of the queue file it has what has not been read. -/
structure State where
  currFile : Option Bytes
  currBusy : ℤ
  currIndex : ℕ
  slots : Fin maxBusy → Option Slot
  barrier : Bool
  barrierFile : Option Bytes
  log : List Entry

/-- The state made by `eooqd_main`. -/
def State.init : State where
  currFile := none
  currBusy := 0
  currIndex := 0
  slots _ := none
  barrier := false
  barrierFile := none
  log := []

/-- Add to the log. -/
def State.trace (s : State) (e : Entry) : State := { s with log := s.log ++ [e] }

/-- What does not change while the process runs. -/
structure Config where
  /-- `ATLAS_SPOOLDIR` -/
  spooldir : CString
  queueId : CString
  /-- The result of `atlas_unsafe`. -/
  atlasUnsafe : Bool

/-- `SAFE_PREFIX_REL` -/
def safePrefixRel : CString := ⟨ascii "data/new", by decide⟩

/-! ### `cmddone` -/

/-- The first slot with a command. -/
def State.findSlot (s : State) (cmdstate : CmdState) : Option (Fin maxBusy) :=
  (List.finRange maxBusy).find? fun i => (s.slots i).map Slot.cmdstate == some cmdstate

/-- `cmddone`; `deleted` is whether the function `delete` of the command returns nonzero. -/
def State.cmddone (s : State) (cmdstate : CmdState) (deleted : Bool) : State :=
  match s.findSlot cmdstate with
  | none => s
  | some i =>
    if deleted then
      { s with
        slots := Function.update s.slots i none
        currBusy := s.currBusy - 1
        log := s.log ++ [.left cmdstate] }
    else s

/-! ### Arguments of a command -/

/-- The loop that splits a command line.  It has found the arguments `argv`, and `cp` is what
follows the last one.  The zero that ends an argument is written over the first byte of `cp`, so
that nothing is left of `cp` if this byte is no white space, which can only happen behind a string
in quotes. -/
def splitLoop : ℕ → List Bytes → Bytes → Except Reason (List Bytes)
  | 0, argv, _ => .ok argv
  | fuel + 1, argv, cp =>
    match cp with
    | [] => .ok argv
    | c :: _ =>
      let cp := if isspace c then cp.dropWhile isspace else []
      if 64 - 1 ≤ argv.length then .error .tooManyArguments
      else
        match cp with
        | 34 :: text =>
          match text.dropWhile (· ≠ 34) with
          | [] => .error .endOfStringNotFound
          | _ :: rest => splitLoop fuel (argv ++ [text.takeWhile (· ≠ 34)]) rest
        | _ =>
          splitLoop fuel (argv ++ [cp.takeWhile (!isspace ·)]) (cp.dropWhile (!isspace ·))

/-- Split a command line into arguments; two more are added later. -/
def splitArgs (cmdline : Bytes) : Except Reason (List Bytes) := do
  if 512 < cmdline.length + 1 then throw .commandLineTooBig
  let argv ← splitLoop (cmdline.length + 1) [cmdline.takeWhile (!isspace ·)]
    (cmdline.dropWhile (!isspace ·))
  if 64 - 2 ≤ argv.length then throw .tooManyArguments
  return argv

/-- The built-in command of a line. -/
def findBuiltin (cmdline : Bytes) : Option Builtin :=
  builtinCmds.find? fun bp => (bp.cmd ++ [32]).isPrefixOf cmdline

/-! ### `add_line` -/

/-- An allocator, which never returns the address of a command that is in a slot. -/
structure Allocator where
  alloc : List CmdState → CmdState
  fresh : ∀ used, alloc used ∉ used

/-- What happens outside of `eooqd` while a line is added. -/
structure Outcome where
  /-- `fgets` fails. -/
  readError : Bool
  /-- How the function `init` of the command gets its state, if it succeeds. -/
  init : Option Allocator
  /-- The calls of `cmddone` by the function `start`, which gets the new state. -/
  start : CmdState → List (CmdState × Bool)

/-- The states of the commands in the slots. -/
def State.held (s : State) : List CmdState := (contents s.slots).map Slot.cmdstate

/-- A command is put into a slot and started. -/
def State.started (s : State) (slot : Fin maxBusy) (cmdstate : CmdState) (bp : Builtin)
    (argv : List Bytes) : State :=
  { s with
    slots := Function.update s.slots slot (some ⟨cmdstate, bp⟩)
    currIndex := slot
    currBusy := s.currBusy + 1
    log := s.log ++ [.start cmdstate argv] }

/-- Initialise a command and start it. -/
def State.runCommand (cfg : Config) (s : State) (bp : Builtin) (argv : List Bytes)
    (o : Outcome) : State :=
  let slot := search s.slots (maxBusy - 1) (s.currIndex + 1)
  if (s.slots slot).isSome then s.trace .noEmptySlot
  else
    let filename := snprintf 80 (cfg.spooldir.bytes ++ ascii "/data/new/ooq" ++
      cfg.queueId.bytes ++ ascii "." ++ natText slot)
    match o.init with
    | none => s.trace (.error .initFailed)
    | some a =>
      let cmdstate := a.alloc s.held
      (o.start cmdstate).foldl (fun s call => s.cmddone call.1 call.2)
        (s.started slot cmdstate bp (argv ++ [ascii "-O", filename]))

/-- Whether a line is a barrier. -/
def isBarrier (cmdline : Bytes) : Bool := (ascii "barrier ").isPrefixOf cmdline

/-- The file of a barrier, or null if its name is not accepted. -/
def validatedBarrier (cfg : Config) (cmdline : Bytes) : Option Bytes :=
  rebasedValidatedFilename cfg.atlasUnsafe cfg.spooldir
    (CString.ofBuffer ((cmdline.drop 7).dropWhile (· = 32))) safePrefixRel

/-- Execute a line. -/
def State.execute (cfg : Config) (s : State) (cmdline : Bytes) (o : Outcome) : State :=
  if cmdline = ascii "post" then s.trace .post
  else if isBarrier cmdline then
    { s with barrier := true, barrierFile := validatedBarrier cfg cmdline }
  else if cmdline = ascii "reload_resolv_conf" then s.trace .reload
  else
    match findBuiltin cmdline with
    | none => s.trace (.error .commandNotFound)
    | some bp =>
      match splitArgs cmdline with
      | .error reason => s.trace (.error reason)
      | .ok argv => s.runCommand cfg bp argv o

/-- The start of `add_line`, when no command stands in the way of a barrier: the barrier file is
created. -/
def State.passBarrier (s : State) : State :=
  if s.barrier then
    { s with barrier := false, barrierFile := none, log := s.log ++ [.barrier s.barrierFile] }
  else s

/-- Read a line into a buffer of 256 bytes, and what is left of the file. -/
def State.readLine (s : State) (o : Outcome) : Option (Bytes × Bytes) := do
  let file ← s.currFile
  if o.readError then none
  let (line, rest) ← fgets 256 file
  some ((CString.ofBuffer (line.takeWhile (· ≠ 10))).bytes, rest)

/-- `add_line`, and whether it returns `0` (it returns `-1` at a barrier). -/
def State.addLine (cfg : Config) (s : State) (o : Outcome) : State × Bool :=
  if s.barrier ∧ 0 < s.currBusy then (s, false)
  else
    let s := s.passBarrier
    match s.readLine o with
    | none => ({ s with currFile := none, log := s.log ++ [.eof] }, true)
    | some (cmdline, rest) =>
      (State.execute cfg { s with currFile := some rest, log := s.log ++ [.line cmdline] }
        cmdline o,
        true)

/-! ### `checkQueue` -/

/-- The condition of the loop in `checkQueue`. -/
def State.Ready (s : State) : Prop := s.currFile.isSome ∧ s.currBusy < maxBusy

instance (s : State) : Decidable s.Ready := inferInstanceAs (Decidable (_ ∧ _))

/-- The loop in `checkQueue`, with what happens at each line; there is no result if the loop would
go on. -/
def State.addLines (cfg : Config) (s : State) : List Outcome → Option State
  | [] => if s.Ready then none else some s
  | o :: os =>
    if s.Ready then
      let (s, go) := s.addLine cfg o
      if go then s.addLines cfg os else some s
    else some s

/-- `checkQueue`; `queue` is what is in the queue file, if it can be opened. -/
def State.checkQueue (cfg : Config) (s : State) (queue : Option Bytes)
    (os : List Outcome) : Option State :=
  match s.currFile, queue with
  | none, none => some s
  | none, some content =>
    State.addLines cfg { s with currFile := some content, log := s.log ++ [.opened] } os
  | some _, _ => s.addLines cfg os

/-! ### All orders of events -/

/-- The states that can be reached: a queue file is opened, a round of the loop in `checkQueue` is
made, or a command is done, in any order. -/
inductive Reached (cfg : Config) : State → Prop
  | init : Reached cfg .init
  | opened {s : State} (content : Bytes) : Reached cfg s → s.currFile = none →
      Reached cfg { s with currFile := some content, log := s.log ++ [.opened] }
  | line {s : State} (o : Outcome) : Reached cfg s → s.Ready → Reached cfg (s.addLine cfg o).1
  | done {s : State} (cmdstate : CmdState) (deleted : Bool) : Reached cfg s →
      Reached cfg (s.cmddone cmdstate deleted)

section Reached

variable {cfg : Config} {s t : State}

lemma Reached.addLines {os : List Outcome} (h : Reached cfg s)
    (hrun : s.addLines cfg os = some t) : Reached cfg t := by
  induction os generalizing s with
  | nil =>
    unfold State.addLines at hrun
    split_ifs at hrun
    cases hrun
    exact h
  | cons o os ih =>
    unfold State.addLines at hrun
    by_cases hready : s.Ready
    · dsimp only at hrun
      split_ifs at hrun
      · exact ih (h.line o hready) hrun
      · cases hrun
        exact h.line o hready
    · rw [if_neg hready] at hrun
      cases hrun
      exact h

/-- A whole call of `checkQueue` leads to a state that can be reached. -/
lemma Reached.checkQueue {queue : Option Bytes} {os : List Outcome} (h : Reached cfg s)
    (hrun : s.checkQueue cfg queue os = some t) : Reached cfg t := by
  unfold State.checkQueue at hrun
  cases hfile : s.currFile with
  | none =>
    cases queue with
    | none =>
      rw [hfile] at hrun
      cases hrun
      exact h
    | some content =>
      rw [hfile] at hrun
      exact (h.opened content hfile).addLines hrun
  | some file =>
    rw [hfile] at hrun
    exact h.addLines hrun

end Reached

end AtlasProbe.Eooqd
