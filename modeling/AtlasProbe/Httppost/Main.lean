import AtlasProbe.Httppost.Reply
import AtlasProbe.Lib.StateLogic
import AtlasProbe.Libbb.ValidateFilename

/-!
# Posting files

`httppost` sends files to a server, and deletes them when the server says that it has them.  The
name of a file is checked and rebased, the file is opened, its size is added up, it is sent, and it
is deleted, at different places of the program, `httppostMain`.  What the system calls return is in
`Env`, and what has been done in `Post`.
-/

namespace AtlasProbe.Httppost

open Libbb

/-! ### Options and environment -/

/-- The options that say what is posted. -/
structure Options where
  deleteFile : Bool
  maxpostsize : ℕ
  postFile : Option CString
  postDir : Option CString
  postHeader : Option CString
  postFooter : Option CString
  outputFile : Option CString

/-- `ATLAS_SPOOLDIR` and `ATLAS_RUNDIR` -/
structure Config where
  spooldir : CString
  rundir : CString

/-- The result of `stat` or `fstat` -/
structure Stat where
  size : ℕ
  regular : Bool

/-- An open file: what `fstat` says about it, what `read` returns until it returns nothing, and
whether it ends without an error. -/
structure Handle where
  stat : Stat
  data : Bytes
  readOk : Bool

/-- What the calls return.  Opening a file, `stat` and writing to the connection may have another
result each time, so they are counted. -/
structure Env where
  openFile : ℕ → Bytes → Option Handle
  opendir : Bytes → Option (List CString)
  stat : ℕ → Bytes → Option Stat
  /-- What is in the memory that `realloc` adds. -/
  heap : ℕ → UInt8
  connected : Bool
  fwrite : ℕ → Bool
  reply : Bytes
  ferror : Bool
  /-- The output file can be created and written. -/
  outputOk : Bool

/-- How `httppost` ends when it does not get to its end: at the label `err`, or because it has left
a buffer. -/
inductive Stop
  | err
  | outside
  deriving DecidableEq

/-- What has been done: the files that were sent, with the path under which they were opened, the
`Content-Length` that was sent, whether the whole request was sent, and the paths that were unlinked
before and after the exchange. -/
structure Post where
  sent : List (Bytes × Bytes)
  contentLength : Option ℕ
  requested : Bool
  before : List Bytes
  after : List Bytes

/-- Nothing has been done. -/
def Post.start : Post := ⟨[], none, false, [], []⟩

/-- A part of `httppost_main` -/
abbrev Http := EStateM Stop Post

/-! ### Names -/

/-- `ATLAS_DATA_OUT_REL` -/
def dataOutRel : CString := ⟨ascii "data/out", by decide⟩

/-- `ATLAS_DATA_OOQ_OUT_REL` -/
def dataOoqOutRel : CString := ⟨ascii "data/ooq.out", by decide⟩

/-- `ATLAS_DATA_NEW_REL` -/
def dataNewRel : CString := ⟨ascii "data/new", zero_notMem_new⟩

/-- `ATLAS_DATA_STORAGE_REL` -/
def dataStorageRel : CString := ⟨ascii "data/storage", by decide⟩

/-- `ATLAS_STATUS_REL` -/
def statusRel : CString := ⟨ascii "status", by decide⟩

section

variable (cfg : Config)

/-- The name of a header, a footer or a file, rebased -/
def rebasedFile (name : CString) : Option Bytes :=
  match rebasedValidatedFilename false cfg.spooldir name dataOutRel with
  | some fn => some fn
  | none => rebasedValidatedFilename false cfg.rundir name statusRel

/-- The name of a directory, rebased -/
def rebasedDir (name : CString) : Option Bytes :=
  match rebasedValidatedDir false cfg.spooldir name dataOutRel with
  | some fn => some fn
  | none => rebasedValidatedDir false cfg.spooldir name dataStorageRel

/-- The name of a file in a directory, rebased -/
def rebasedEntry (name : CString) : Option Bytes :=
  match rebasedValidatedFilename false cfg.spooldir name dataOutRel with
  | some fn => some fn
  | none =>
    match rebasedValidatedFilename false cfg.spooldir name dataOoqOutRel with
    | some fn => some fn
    | none => rebasedValidatedFilename false cfg.spooldir name dataStorageRel

end

/-! ### Directories -/

variable (env : Env)

/-- The variables of `do_dir` -/
structure Dir where
  list : Bytes
  currsize : ℕ
  currTotSize : ℕ
  len : ℕ
  fileCount : ℕ
  unlinked : List Bytes

/-- `realloc` with 4096 bytes more -/
def grow (list : Bytes) : Bytes :=
  list ++ (List.range 4096).map fun i => env.heap (list.length + i)

/-- An entry of the directory, with whether the loop ends with it -/
def dirEntry (dirName : Bytes) (maxSize : ℕ) (k : ℕ) (name : CString) (d : Dir) :
    Except Stop (Bool × Dir) :=
  let len := dirName.length + 1 + name.length + 1
  let list := if d.currsize + len > d.list.length then grow env d.list else d.list
  if list.length ≤ d.currsize then .error .outside
  else
    let size := list.length - d.currsize
    let path := strlcat size (strlcat size (strlcpy size dirName) (ascii "/")) name.bytes
    let list := store list d.currsize (path ++ [0])
    match env.stat k path with
    | none => .error .err
    | some sb =>
      if !sb.regular then .ok (false, { d with list := list })
      else if d.currTotSize + sb.size > maxSize then
        let unlinked := if sb.size > maxSize / 2 then d.unlinked ++ [path] else d.unlinked
        .ok (false, { d with list := list, unlinked := unlinked })
      else
        .ok (d.fileCount + 1 ≥ 1000,
          ⟨list, d.currsize + len, d.currTotSize + sb.size, d.len + sb.size, d.fileCount + 1,
            d.unlinked⟩)

/-- The loop over the entries, with the number of calls of `stat` so far -/
def dirLoop (dirName : Bytes) (maxSize : ℕ) : ℕ → List CString → Dir → Except Stop Dir
  | _, [], d => .ok d
  | k, name :: names, d =>
    match dirEntry env dirName maxSize k name d with
    | .error e => .error e
    | .ok (true, d) => .ok d
    | .ok (false, d) => dirLoop dirName maxSize (k + 1) names d

/-- `do_dir`: at its end an empty string is put behind the names -/
def doDir (dirName : Bytes) (currTotSize maxSize : ℕ) : Except Stop Dir :=
  match env.opendir dirName with
  | none => .error .err
  | some names =>
    match dirLoop env dirName maxSize 0 names ⟨[], 0, currTotSize, 0, 0, []⟩ with
    | .error e => .error e
    | .ok d =>
      let list := if d.currsize + 1 > d.list.length then grow env d.list else d.list
      if list.length ≤ d.currsize then .error .outside
      else .ok { d with list := store list d.currsize [0] }

/-- The strings in the list, up to the empty one; nothing if the list ends before. -/
def strings : ℕ → Bytes → Option (List CString)
  | 0, _ => none
  | n + 1, list =>
    let p := CString.ofBuffer list
    if list.length ≤ p.length then none
    else if p.bytes = [] then some []
    else
      match strings n (list.drop (p.length + 1)) with
      | none => none
      | some ps => some (p :: ps)

/-! ### The main program -/

variable (cfg : Config)

/-- Open a file and check that it is a regular one. -/
def openRegular (k : ℕ) (path : Bytes) : Http Handle :=
  match env.openFile k path with
  | none => throw .err
  | some h => if h.stat.regular then pure h else throw .err

/-- Check the name of a header or a footer, and open it under its rebased name. -/
def openExtra (k : ℕ) (name : Option CString) : Http (Option (Bytes × Handle)) :=
  match name with
  | none => pure none
  | some name =>
    match rebasedFile cfg name with
    | none => throw .err
    | some fn => do
      let h ← openRegular env k fn
      pure (some (fn, h))

/-- Check the name of the file to be posted; it is opened under the name that was given. -/
def openPostFile (k : ℕ) (name : Option CString) : Http (Option (Bytes × Handle)) :=
  match name with
  | none => pure none
  | some name =>
    match rebasedFile cfg name with
    | none => throw .err
    | some _ => do
      let h ← openRegular env k name.bytes
      pure (some (name.bytes, h))

/-- The size of a file, if there is one. -/
def sizeOf (f : Option (Bytes × Handle)) : ℕ :=
  match f with
  | none => 0
  | some (_, h) => h.stat.size

/-- Make the list of the files in the directory: their names and their size -/
def openDir (name : Option CString) (cLength maxpostsize : ℕ) : Http (List CString × ℕ) :=
  match name with
  | none => pure ([], 0)
  | some name =>
    match rebasedDir cfg name with
    | none => throw .err
    | some fn =>
      match doDir env fn cLength maxpostsize with
      | .error e => throw e
      | .ok d => do
        modify fun s => { s with before := s.before ++ d.unlinked }
        match strings d.list.length d.list with
        | none => throw .outside
        | some files => pure (files, d.len)

/-- `write_to_tcp_fd` -/
def writeToTcpFd (k : ℕ) (path : Bytes) (h : Handle) : Http Unit :=
  if env.fwrite k && h.readOk then modify fun s => { s with sent := s.sent ++ [(path, h.data)] }
  else throw .err

/-- Send a file, if there is one. -/
def sendFile (k : ℕ) (f : Option (Bytes × Handle)) : Http Unit :=
  match f with
  | none => pure ()
  | some (path, h) => writeToTcpFd env k path h

/-- The loop that sends the files of the directory, with the number of files opened so far -/
def sendDir : ℕ → List CString → Http Unit
  | _, [] => pure ()
  | k, p :: files =>
    match rebasedEntry cfg p with
    | none => throw .err
    | some _ =>
      match env.openFile k p.bytes with
      | none => throw .err
      | some h => do
        writeToTcpFd env k p.bytes h
        sendDir (k + 1) files

/-- Read the reply, and say whether it is `OK`. -/
def getResult (outputFile : Option CString) : Http Bool :=
  match checkResult env.reply with
  | none => throw .err
  | some rest =>
    match eatHeaders rest with
    | none => throw .err
    | some (hd, input) =>
      match outputFile with
      | some name =>
        match rebasedValidatedFilename false cfg.spooldir name dataNewRel with
        | none => throw .err
        | some _ => copyReply hd input
      | none => copyReply hd input
where
  /-- Copy the body to the output. -/
  copyReply (hd : Headers) (input : Bytes) : Http Bool :=
    if !env.outputOk then throw .err
    else
      match copyBody env.ferror hd input with
      | none => throw .err
      | some c => pure c.foundOk

/-- `unlink` -/
def unlinkAfter (path : Bytes) : Http Unit :=
  modify fun s => { s with after := s.after ++ [path] }

/-- Delete the file, under its rebased name, if there is one. -/
def deletePostFile (name : Option CString) : Http Unit :=
  match name with
  | none => pure ()
  | some name =>
    match rebasedValidatedFilename false cfg.spooldir name dataOutRel with
    | none => throw .err
    | some fn => unlinkAfter fn

/-- Delete the files of the directory. -/
def deleteDir : List CString → Http Unit
  | [] => pure ()
  | p :: files => do
    unlinkAfter p.bytes
    deleteDir files

/-- `httppost_main`, behind the options -/
def httppostMain (o : Options) : Http Unit := do
  let header ← openExtra env cfg 0 o.postHeader
  let footer ← openExtra env cfg 1 o.postFooter
  let file ← openPostFile env cfg 2 o.postFile
  let (files, dirLength) ←
    openDir env cfg o.postDir (sizeOf header + sizeOf footer + sizeOf file) o.maxpostsize
  if !env.connected then throw .err
  let cLength := sizeOf header + sizeOf file + dirLength + sizeOf footer
  modify fun s => { s with contentLength := some cLength }
  sendFile env 0 header
  sendFile env 2 file
  sendDir env cfg 3 files
  sendFile env 1 footer
  modify fun s => { s with requested := true }
  let foundOk ← getResult env cfg o.outputFile
  if o.deleteFile && foundOk then
    deletePostFile cfg o.postFile
    deleteDir files

end AtlasProbe.Httppost
