import AtlasProbe.Lib.StateLogic
import AtlasProbe.Libbb.ValidateFilename
import AtlasProbe.Telnetd.Buffer

/-!
# The command server of the probe

The telnetd of the probe serves several sessions.  A session that sends the name `C_TO_P_TEST_V1`
and then the session ID of the probe becomes the Atlas session, which may send commands; every other
name is handed to the login program.  There is one Atlas session at a time, `atlas_ts`, and one
crontab that is being uploaded, `atlas_crontab`.

The code that serves a session runs in the monad `Serve`, on the session and on what all sessions
share.  The only error is a call of `abort`.  What the world decides (the bytes that arrive, the
session file, whether an operation on a file succeeds) is an argument.  A log keeps what has
happened.

A session that has been handed to the login program is only waited for; the data between its socket
and its terminal are left out.
-/

namespace AtlasProbe.Telnetd

open Function

/-! ### Replies -/

/-- The texts that are sent to the client. -/
inductive Reply where
  | loginPrefix
  | probe (text : Bytes)
  | loginPrompt
  | passwordPrompt
  | echo (line : Bytes)
  | resultOk
  | badPassword
  | badCommand
  | nameTooLong
  | crontabBusy
  | createFailed
  | ioError
  | badPath
  | badFwFile
  | badRemount
  deriving DecidableEq

/-- The bytes of a reply. -/
def Reply.text : Reply → Bytes
  | .loginPrefix => ascii "Atlas probe, see http://atlas.ripe.net/\r\n\r\n"
  | .probe text => text
  | .loginPrompt => ascii " login: "
  | .passwordPrompt => ascii "\r\nPassword: "
  | .echo line => line
  | .resultOk => ascii "OK\r\n\r\n"
  | .badPassword => ascii "BAD_PASSWORD\r\n\r\n"
  | .badCommand => ascii "BAD_COMMAND\r\n\r\n"
  | .nameTooLong => ascii "NAME_TOO_LONG\r\n\r\n"
  | .crontabBusy => ascii "CRONTAB_BUSY\r\n\r\n"
  | .createFailed => ascii "UNABLE_TO_CREATE_NEW_CRONTAB\r\n\r\n"
  | .ioError => ascii "IO_ERROR\r\n\r\n"
  | .badPath => ascii "BAD_PATH\r\n\r\n"
  | .badFwFile => ascii "BAD_FW_FILE\r\n\r\n"
  | .badRemount => ascii "BAD_REMOUNT\r\n\r\n"

/-! ### The state -/

/-- `enum state` -/
inductive SessionState where
  | doTraditional
  | getLoginname
  | getPassword
  | getCmd
  | doCrontab
  | eomSeen
  deriving DecidableEq

/-- `struct tsession`, with its address as a number that is not used again. -/
structure Session where
  id : ℕ
  state : SessionState
  input : Input
  out : Buf2

/-- The commands that do something. -/
inductive Command where
  | crontab
  | cronline
  | oneoff
  | reboot
  | reload
  deriving DecidableEq

/-- What happens.  The number is that of the session. -/
inductive Event where
  /-- A read from the socket. -/
  | read (id : ℕ) (data : Bytes)
  /-- `getline_2pty` returns a line, while the session file is `file`. -/
  | line (id : ℕ) (text : Bytes) (file : Option Bytes)
  /-- `start_login` runs the login program with `user` as its argument. -/
  | login (id : ℕ) (user : Bytes)
  /-- The session becomes the Atlas session. -/
  | authenticated (id : ℕ)
  /-- A command is carried out. -/
  | command (id : ℕ) (command : Command)
  /-- `start_crontab` has opened a new crontab in a directory. -/
  | opened (id : ℕ) (dir : Bytes)
  /-- The crontab could not be written. -/
  | writeFailed (id : ℕ)
  /-- `end_crontab` has renamed the new crontab in a directory, which has some contents. -/
  | installed (id : ℕ) (dir contents : Bytes)
  /-- `add_2sock` has queued a reply. -/
  | reply (id : ℕ) (reply : Reply)
  /-- The session has been freed. -/
  | killed (id : ℕ)
  deriving DecidableEq

/-- The file that `atlas_crontab` points to: its path, and what has been written to it. -/
structure Upload where
  path : Bytes
  contents : Bytes

/-- What the sessions share: the variables `atlas_ts`, `atlas_crontab` and `atlas_dirname`, the
files, and the log, with the newest event in front. -/
structure Shared where
  atlasTs : Option ℕ
  atlasCrontab : Option Upload
  atlasDirname : Bytes
  files : Bytes → Option Bytes
  log : List Event

/-- What the code sees that serves the session `ts`. -/
structure View extends Shared where
  ts : Session

/-- The call of `abort` in `add_2sock` or `pack_4sock`. -/
inductive Abort where
  | abort

/-- The code that serves a session. -/
abbrev Serve := EStateM Abort View

/-- Where the code goes when a line has been handled: `again` is `goto skip3`, `leave` is `goto
skip3a`, and `kill` is `goto kill_session`. -/
inductive Verdict where
  | again
  | leave
  | kill
  deriving DecidableEq

/-- The result of updating `cron.update`. -/
inductive UpdateResult where
  | done
  | ioError
  | createFailed

/-- What the world decides while a line is handled. -/
structure LineEnv where
  /-- The contents of the session file, if it can be opened. -/
  sessionFile : Option Bytes
  /-- `ATLAS_SPOOLDIR` -/
  spooldir : CString
  /-- The result of `atlas_unsafe`. -/
  atlasUnsafe : Bool
  fopenOk : Bool
  fputsOk : Bool
  fcloseOk : Bool
  renameOk : Bool
  update : UpdateResult
  /-- Whether `do_oneoff` can rename the file, and rename it back. -/
  grabOk : Bool
  releaseOk : Bool
  mountOk : Bool
  /-- The contents of a file whose writing has failed or has been given up. -/
  left : Bytes

/-! ### Lines and replies -/

/-- Add to the log. -/
def record (event : ℕ → Event) : Serve Unit :=
  modify fun v => { v with log := event v.ts.id :: v.log }

/-- `add_2sock` -/
def add2sock (reply : Reply) : Serve Unit := do
  let v ← get
  match v.ts.out.add2sock reply.text.length with
  | none => throw .abort
  | some out => set { v with ts := { v.ts with out := out }, log := .reply v.ts.id reply :: v.log }

/-- Set the field `state`. -/
def setState (state : SessionState) : Serve Unit :=
  modify fun v => { v with ts := { v.ts with state := state } }

/-- `getline_2pty` -/
def getline2pty (env : LineEnv) : Serve (Option Bytes) := do
  let v ← get
  match v.ts.input.getline2pty with
  | (none, input) =>
    set { v with ts := { v.ts with input := input } }
    pure none
  | (some line, input) =>
    set { v with
      ts := { v.ts with input := input }, log := .line v.ts.id line env.sessionFile :: v.log }
    pure (some line)

/-! ### The session ID -/

/-- `ATLAS_LOGIN` -/
def atlasLogin : Bytes := ascii "C_TO_P_TEST_V1"

/-- `SESSION_ID_PREFIX` -/
def sessionIdPrefix : Bytes := ascii "SESSION_ID "

/-- The session ID that `equal_sessionid` finds in the session file: on the second line, behind the
prefix. -/
def storedSessionid (file : Option Bytes) : Option Bytes := do
  let file ← file
  let rest := match fgets 80 file with
    | some (_, rest) => rest
    | none => file
  let (line, _) ← fgets 80 rest
  let line := line.takeWhile (· ≠ 0)
  if line.length < sessionIdPrefix.length then none
  else if line.take sessionIdPrefix.length ≠ sessionIdPrefix then none
  else do
    let cp ← memchr line 10
    some ((line.take cp).drop sessionIdPrefix.length)

/-- `equal_sessionid` -/
def equalSessionid (file : Option Bytes) (passwd : Bytes) : Bool :=
  storedSessionid file = some passwd

/-! ### Crontabs -/

/-- `CMD_CRONTAB` -/
def cmdCrontab : Bytes := ascii "CRONTAB "

/-- `CMD_CRONLINE` -/
def cmdCronline : Bytes := ascii "CRONLINE "

/-- `CMD_ONEOFF` -/
def cmdOneoff : Bytes := ascii "ONEOFF "

/-- `CRONTAB_NEW_SUF` -/
def crontabNewSuf : Bytes := ascii "/root.new"

/-- `CRONTAB_SUFFIX` -/
def crontabSuffix : Bytes := ascii "/root"

/-- `CRONUPDATE` -/
def cronupdate : Bytes := ascii "/cron.update"

/-- `SAFE_PREFIX_REL` -/
def safePrefixRel : CString where
  bytes := ascii "crons"
  zero_notMem := by decide

/-- The size of `atlas_dirname` and of the buffers for file names. -/
def nameSize : ℕ := 256

/-- `rename`, if it succeeds. -/
def renameFile (files : Bytes → Option Bytes) (source target : Bytes) :
    Bytes → Option Bytes :=
  update (update files target (files source)) source none

/-- A call of `rename` whose result is ignored. -/
def tryRename (ok : Bool) (source target : Bytes) : Serve Unit :=
  modify fun v => { v with files := if ok then renameFile v.files source target else v.files }

/-- Close `atlas_crontab`, if it is open; the file then has the given contents. -/
def View.closeCrontab (v : View) (contents : Bytes) : View :=
  match v.atlasCrontab with
  | none => v
  | some upload =>
    { v with atlasCrontab := none, files := update v.files upload.path (some contents) }

/-- The file name that a command gives, if it may be used. -/
def validated (env : LineEnv) (name : Bytes) : Option Bytes :=
  Libbb.rebasedValidatedFilename env.atlasUnsafe env.spooldir (CString.ofBuffer name) safePrefixRel

/-- `start_crontab`; it returns whether a crontab has been opened. -/
def startCrontab (line : Bytes) (env : LineEnv) : Serve Bool := do
  if (← get).atlasCrontab.isSome then
    add2sock .crontabBusy
    pure false
  else
    match validated env (line.drop cmdCrontab.length) with
    | none =>
      add2sock .badPath
      pure false
    | some rebasedFn =>
      if nameSize < rebasedFn.length + 1 then
        add2sock .nameTooLong
        pure false
      else
        modify fun v => { v with atlasDirname := strlcpy nameSize rebasedFn }
        if nameSize < rebasedFn.length + crontabNewSuf.length + 1 then
          add2sock .nameTooLong
          pure false
        else if !env.fopenOk then
          add2sock .createFailed
          pure false
        else
          modify fun v =>
            let filename := strlcat nameSize (strlcpy nameSize v.atlasDirname) crontabNewSuf
            { v with
              atlasCrontab := some ⟨filename, []⟩
              files := update v.files filename (some [])
              log := .opened v.ts.id v.atlasDirname :: v.log }
          pure true

/-- `add_to_crontab` -/
def addToCrontab (text : Bytes) (env : LineEnv) : Serve Unit := do
  match (← get).atlasCrontab with
  | none => pure ()
  | some upload =>
    if env.fputsOk then
      modify fun v => { v with
        atlasCrontab := some { upload with contents := upload.contents ++ text ++ [10] } }
    else
      record .writeFailed
      add2sock .ioError
      modify (·.closeCrontab env.left)

/-- The end of `end_crontab`, which tells cron to load the new crontab. -/
def updateCron (env : LineEnv) : Serve Unit := do
  let dir := (← get).atlasDirname
  if nameSize < dir.length + cronupdate.length + 1 then add2sock .nameTooLong
  else
    match env.update with
    | .done => modify fun v =>
        { v with files := update v.files (dir ++ cronupdate) (some (ascii "root\n")) }
    | .ioError => add2sock .ioError
    | .createFailed => add2sock .createFailed

/-- `end_crontab` -/
def endCrontab (env : LineEnv) : Serve Unit := do
  match (← get).atlasCrontab with
  | none => pure ()
  | some upload =>
    if !env.fcloseOk then
      record .writeFailed
      modify (·.closeCrontab env.left)
      add2sock .ioError
    else
      modify (·.closeCrontab upload.contents)
      let v ← get
      if nameSize < v.atlasDirname.length + crontabNewSuf.length + 1 then add2sock .nameTooLong
      else
        let filename₁ := strlcat nameSize (strlcpy nameSize v.atlasDirname) crontabNewSuf
        if nameSize < v.atlasDirname.length + crontabSuffix.length + 1 then add2sock .nameTooLong
        else
          let filename₂ := strlcat nameSize (strlcpy nameSize v.atlasDirname) crontabSuffix
          if !env.renameOk then add2sock .ioError
          else
            record fun id => .installed id v.atlasDirname ((v.files filename₁).getD [])
            modify fun v => { v with files := renameFile v.files filename₁ filename₂ }
            updateCron env

/-! ### Commands -/

/-- `do_oneoff` -/
def doOneoff (line : Bytes) (env : LineEnv) : Serve Unit := do
  let cp := line.drop cmdOneoff.length
  let filename := cp.takeWhile (!isspace ·)
  let filenameNew := filename ++ ascii ".new"
  if nameSize < filename.length + 1 then add2sock .nameTooLong
  else if nameSize < filenameNew.length + 1 then add2sock .nameTooLong
  else
    match validated env filename, validated env filenameNew with
    | none, _ => add2sock .badPath
    | _, none => add2sock .badPath
    | some rebasedFn, some rebasedFnNew =>
      tryRename env.grabOk rebasedFn rebasedFnNew
      if !env.fopenOk then add2sock .createFailed
      else if !env.fputsOk then
        modify fun v => { v with files := update v.files rebasedFnNew (some env.left) }
        add2sock .ioError
      else
        let text := (cp.dropWhile (!isspace ·)).dropWhile isspace ++ [10]
        modify fun v => { v with
          files := update v.files rebasedFnNew (some ((v.files rebasedFnNew).getD [] ++ text)) }
        tryRename env.releaseOk rebasedFnNew rebasedFn

/-- The command at the label `do_cmd`. -/
def doCmd (line : Bytes) (env : LineEnv) : Serve Verdict := do
  if line.take cmdCrontab.length = cmdCrontab then
    record (.command · .crontab)
    let opened ← startCrontab line env
    if opened then
      setState .doCrontab
      pure .again
    else pure .again
  else if line.take cmdOneoff.length = cmdOneoff then
    record (.command · .oneoff)
    doOneoff line env
    pure .again
  else if line = ascii "REBOOT" then
    record (.command · .reboot)
    pure .again
  else if line = ascii "RELOAD" then
    record (.command · .reload)
    if !env.mountOk then
      add2sock .badRemount
      pure .leave
    else if !env.fopenOk then
      add2sock .badFwFile
      pure .leave
    else pure .again
  else if line = [] then
    add2sock .resultOk
    setState .eomSeen
    pure .again
  else
    add2sock .badCommand
    pure .leave

/-- Handle a line in the state `GET_LOGINNAME`. -/
def loginname (line : Bytes) : Serve Verdict := do
  if line = atlasLogin then
    add2sock .passwordPrompt
    setState .getPassword
    pure .again
  else
    add2sock (.echo line)
    record (.login · line)
    setState .doTraditional
    pure .leave

/-- Become the Atlas session, and take over from an old one. -/
def View.takeOver (v : View) (left : Bytes) : View :=
  { (if v.atlasTs.isSome then v.closeCrontab left else v) with atlasTs := some v.ts.id }

/-- Handle a line in the state `GET_PASSWORD`. -/
def password (line : Bytes) (env : LineEnv) : Serve Verdict := do
  if equalSessionid env.sessionFile line then
    modify (·.takeOver env.left)
    record .authenticated
    setState .getCmd
    pure .again
  else
    add2sock .badPassword
    pure .again

/-- Handle a line in the state `DO_CRONTAB`.  The line that ends the crontab is the next command. -/
def crontabLine (line : Bytes) (env : LineEnv) : Serve Verdict := do
  if line.take cmdCronline.length = cmdCronline then
    record (.command · .cronline)
    addToCrontab (line.drop cmdCronline.length) env
    pure .again
  else
    endCrontab env
    setState .getCmd
    doCmd line env

/-- Handle a line, in a state in which there is one to be handled. -/
def handleLine (line : Bytes) (env : LineEnv) : Serve Verdict := do
  match (← get).ts.state with
  | .doTraditional => pure .leave
  | .getLoginname => loginname line
  | .getPassword => password line env
  | .getCmd => doCmd line env
  | .doCrontab => crontabLine line env
  | .eomSeen =>
    add2sock .badCommand
    pure .again

/-- The states of the Atlas session. -/
def SessionState.isAtlas : SessionState → Bool
  | .getCmd | .doCrontab | .eomSeen => true
  | _ => false

/-- The `switch` behind the label `skip3`. -/
def serveLine (env : LineEnv) : Serve Verdict := do
  let v ← get
  if v.ts.state = .doTraditional then pure .leave
  -- An old session is killed.
  else if v.ts.state.isAtlas ∧ v.atlasTs ≠ some v.ts.id then pure .kill
  else
    match ← getline2pty env with
    | none => pure .leave
    | some line => handleLine line env

/-- Handle lines until the code leaves the loop.  The first argument bounds the number of lines. -/
def serveLines : ℕ → (ℕ → LineEnv) → Serve Verdict
  | 0, _ => pure .leave
  | n + 1, env => do
    match ← serveLine (env 0) with
    | .again => serveLines n fun k => env (k + 1)
    | verdict => pure verdict

/-! ### Sessions -/

/-- The result of an operation on a socket: the socket is not ready, the operation fails with
`EAGAIN`, or with another error, or it succeeds. -/
inductive Ready (α : Type) where
  | no
  | again
  | failed
  | done (result : α)

/-- What the world decides while a session is served. -/
structure Pass where
  /-- Whether the login program of a session has ended. -/
  hangup : Bool
  write : Ready ℕ
  /-- The bytes that have arrived; none at the end of the stream. -/
  read : Ready Bytes
  lines : ℕ → LineEnv
  left : Bytes

/-- Write replies to the socket; the result is whether the session goes on. -/
def writeSocket (pass : Pass) : Serve Bool := do
  let v ← get
  if v.ts.out.size = 0 then pure true
  else
    match pass.write with
    | .no | .again => pure true
    | .failed => pure false
    | .done count =>
      set { v with ts := { v.ts with out := v.ts.out.wrote (min count v.ts.out.pending) } }
      pure true

/-- Read from the socket; the result is whether the session goes on. -/
def readSocket (pass : Pass) : Serve Bool := do
  let v ← get
  if bufsize ≤ v.ts.input.1.size then pure true
  else
    match pass.read with
    | .no | .again => pure true
    | .failed => pure false
    | .done data =>
      let taken := v.ts.input.taken data
      if taken = [] then pure false
      else
        set { v with
          ts := { v.ts with input := v.ts.input.recv data }, log := .read v.ts.id taken :: v.log }
        pure true

/-- What is done at the label `kill_session`. -/
def killSession (left : Bytes) : Serve Unit := do
  modify fun v =>
    if v.atlasTs = some v.ts.id then { v.closeCrontab left with atlasTs := none } else v
  record .killed

/-- Whether the session is to be killed after a pass. -/
def serveUp (pass : Pass) : Serve Bool := do
  if (← get).ts.state = .doTraditional then pure pass.hangup
  else if !(← writeSocket pass) then pure true
  else if !(← readSocket pass) then pure true
  else
    let verdict ← serveLines ((← get).ts.input.contents.length + 1) pass.lines
    pure (verdict = .kill)

/-- One pass of the loop over all sessions; the result is whether the session has been freed. -/
def serveSession (pass : Pass) : Serve Bool := do
  let kill ← serveUp pass
  if kill then
    killSession pass.left
    pure true
  else pure false

/-- The replies to a new connection. -/
def greet (probe : Bytes) : Serve Unit := do
  add2sock .loginPrefix
  add2sock (.probe (snprintf 80 probe))
  add2sock .loginPrompt

/-! ### The process -/

/-- The state of the process: its sessions, how many there have been, and what they share. -/
structure Process extends Shared where
  sessions : ℕ → Option Session
  created : ℕ

/-- The process after its start. -/
def Process.initial (files : Bytes → Option Bytes) : Process where
  atlasTs := none
  atlasCrontab := none
  atlasDirname := []
  files := files
  log := []
  sessions := fun _ => none
  created := 0

/-- A session that starts. -/
def newSession (id : ℕ) : Session := ⟨id, .getLoginname, .new, {}⟩

/-- Accept a connection; `probe` is the text with the number and the name of the probe.  There is no
result if the process aborts. -/
def Process.accept (s : Process) (probe : Bytes) : Option Process :=
  match greet probe { toShared := s.toShared, ts := newSession s.created } with
  | .error .. => none
  | .ok _ v => some {
      toShared := v.toShared
      sessions := update s.sessions s.created (some v.ts)
      created := s.created + 1 }

/-- Serve a session. -/
def Process.serve (s : Process) (ts : Session) (pass : Pass) : Option Process :=
  match serveSession pass { toShared := s.toShared, ts := ts } with
  | .error .. => none
  | .ok freed v => some {
      toShared := v.toShared
      sessions := update s.sessions ts.id (if freed then none else some v.ts)
      created := s.created }

/-- The states that the process can reach, with any number of connections that are served in any
order. -/
inductive Reached : Process → Prop
  | initial (files : Bytes → Option Bytes) : Reached (.initial files)
  | accept {s t : Process} (probe : Bytes) : Reached s → s.accept probe = some t → Reached t
  | serve {s t : Process} {id : ℕ} {ts : Session} (pass : Pass) :
      Reached s → s.sessions id = some ts → s.serve ts pass = some t → Reached t

end AtlasProbe.Telnetd
