import AtlasProbe.Measurement.Host

/-!
# The state of a ping measurement

`ping.c` sends a number of ICMP echo requests at fixed intervals and puts the text of its result
together while the replies come in.  A timer runs from one request to the next one.  The state
(`State`) has the parameters, the variables, the text so far, and a list of what was done to the
outside (`Act`).
-/

namespace AtlasProbe.Ping

open Measurement

/-! ### Constants -/

/-- `IPHDR` -/
def iphdr : ℕ := 20

/-- `MAX_DATA_SIZE` -/
def maxDataSize : ℕ := 4096 - iphdr

/-- `ICMP_MINLEN` and `ICMP6_HDRSIZE` -/
def icmpMinlen : ℕ := 8

/-- The size of `struct evdata` -/
def evdataSize : ℕ := 32

/-! ### Options -/

/-- What `getopt32` stores for the options. -/
structure Args where
  v4 : Bool
  /-- The libc stub resolver is used (`-e`). -/
  stub : Bool
  probeId : Bool
  count : ℕ
  size : ℕ
  atlas : Option CString
  bundle : Option CString
  /-- The name of the output file is accepted, and the file can be opened. -/
  outOk : Bool
  interval : ℕ
  interface : Bool
  hostname : CString

/-- The parameters in `struct pingstate` -/
structure Options where
  atlas : Option CString
  bundleId : Option CString
  hostname : CString
  interface : Bool
  pingcount : ℕ
  includeProbeId : Bool
  delayNameRes : Bool
  interval : ℕ
  /-- The family is `AF_INET6`, and otherwise `AF_INET`. -/
  inet6 : Bool
  maxsize : ℕ

/-- `ping_init`, as far as it checks the options and stores them; `lsa` is the address that the stub
resolver gives, if it gives one that is allowed. -/
def pingInit (a : Args) (lsa : Option Sockaddr) : Option Options :=
  if a.interval < 1 ∨ a.interval > 60000 then none
  else if !a.outOk then none
  else if !a.atlas.all (validateAtlasId ·.bytes) then none
  else if !a.bundle.all (validateAtlasId ·.bytes) then none
  else if a.stub && lsa.isNone then none
  else some
    { atlas := a.atlas
      bundleId := a.bundle
      hostname := a.hostname
      interface := a.interface
      pingcount := a.count
      includeProbeId := a.probeId
      delayNameRes := !a.stub
      interval := a.interval
      inet6 := !a.v4
      maxsize := a.size }

/-! ### States -/

/-- What a measurement does to the outside. -/
inductive Act
  /-- A request is given to the kernel, which may return an error. -/
  | sendto (seq : ℕ) (packet : Bytes) (error : Option ℕ)
  | timer (msec : ℕ)
  | written (text : Bytes)
  | done (error : Bool)
  deriving DecidableEq

/-- `struct pingstate`.  The timer and the event for the socket are on if they are waited for;
`acts` is what has been done, in order. -/
structure State where
  opt : Options
  index : ℕ
  cookie : Bytes
  sin6 : Sockaddr
  /-- There is no address if the kernel did not give one. -/
  locSin6 : Option Sockaddr
  busy : Bool
  gotReply : Bool
  first : Bool
  noDst : Bool
  noSrc : Bool
  error : Bool
  ttl : ℕ
  size : ℕ
  result : Bytes
  maxpkts : ℕ
  seq : ℕ
  rcvdTtl : ℕ
  dnsip : Bool
  sendError : Bool
  /-- The time to resolve the name, as it is printed. -/
  ttr : Bytes
  cursize : ℕ
  sentpkts : ℕ
  timer : Bool
  reading : Bool
  acts : List Act

/-- What the calls return while an event is handled.  The number that `sendto` has is that of an
error. -/
structure Io where
  now : Timespec
  sockname : Option Sockaddr
  sendto : Option ℕ
  probeId : Option ℕ
  atlasTime : ℤ
  timesync : Int32

/-! ### Entries of a result -/

/-- A reply: it may be a duplicate, it has a time in nanoseconds, and the size, the hop limit and
the local address if they differ from the last ones. -/
structure Reply where
  dup : Bool
  nsecs : ℤ
  size : Option ℕ
  ttl : Option ℕ
  src : Option Bytes

/-- An entry of a result. -/
inductive Entry
  | reply (r : Reply)
  | timeout
  | sendError (message : Bytes)

/-- What the measurements have in common, and the text that `%f` gives for a time in milliseconds
that is known in nanoseconds. -/
structure Env extends Host where
  millis6 : ℤ → Bytes

/-- A line of 256 bytes. -/
def line (text : Bytes) : Bytes := snprintf 256 text

/-- The text of an entry, with what separates it from the one before. -/
def Entry.text (env : Env) (separator : Bytes) : Entry → Bytes
  | .reply r =>
    line (separator ++ ascii "\x7b ") ++ (if r.dup then key "dup" ++ ascii "1, " else []) ++
      line (key "rtt" ++ env.millis6 r.nsecs) ++
      (match r.size with
        | none => []
        | some size => line (ascii ", " ++ key "size" ++ natText size)) ++
      (match r.ttl with
        | none => []
        | some ttl => line (ascii ", " ++ key "ttl" ++ natText ttl)) ++
      (match r.src with
        | none => []
        | some src => line (ascii ", " ++ key "src_addr" ++ quoted src)) ++ ascii " \x7d"
  | .timeout =>
    line (separator ++ ascii "\x7b " ++ key "x" ++ quoted (ascii "*")) ++ ascii " \x7d"
  | .sendError message =>
    line (separator ++ ascii "\x7b " ++ key "error" ++
      quoted (ascii "sendto failed: " ++ message)) ++ ascii " \x7d"

/-- The text between two entries. -/
def State.separator (s : State) : Bytes := if s.first then [] else ascii ", "

/-- Add an entry to the text. -/
def State.addEntry (env : Env) (s : State) (e : Entry) : State :=
  { s with result := s.result ++ e.text env s.separator, first := false }

/-! ### `report` -/

section Report

variable (env : Env) (io : Io) (s : State)

/-- `getnameinfo` for an address that may be missing. -/
def Env.nameOf : Option Sockaddr → Bytes
  | none => []
  | some addr => env.getnameinfo addr

/-- The members for the identifiers and the time. -/
def atlasText : Bytes :=
  identText env.toHost s.opt.atlas s.opt.bundleId io.timesync (key "time" ++ intText io.atlasTime)

/-- The members for the addresses. -/
def addrsText : Bytes :=
  (if env.isNumeric s.opt.hostname.bytes then [] else ascii ", " ++ key "ttr" ++ s.ttr) ++
  ascii ", " ++ key "af" ++ natText (if s.opt.inet6 then 6 else 4) ++
  (if s.noDst then [] else ascii ", " ++ key "dst_addr" ++ quoted (env.getnameinfo s.sin6)) ++
  (if !s.noDst && !s.noSrc then ascii ", " ++ key "src_addr" ++ quoted (env.nameOf s.locSin6)
    else [])

/-- What `report` writes. -/
def reportText : Bytes :=
  resultText (atlasText env io s) s.opt.hostname
    (addrsText env s ++ ascii ", " ++ key "proto" ++ quoted (ascii "ICMP") ++
      (if s.gotReply then ascii ", " ++ key "ttl" ++ natText s.ttl else []) ++
      ascii ", " ++ key "size" ++ natText s.size)
    s.result

/-- `report` -/
def report : State :=
  { s with
    result := []
    reading := false
    busy := false
    acts := s.acts ++ [.written (reportText env io s)] }

/-- The function `done` of the base is called. -/
def State.callDone (s : State) (error : Bool) : State := { s with acts := s.acts ++ [.done error] }

/-- `evtimer_add` for the timer -/
def State.evtimerAdd (s : State) : State :=
  { s with timer := true, acts := s.acts ++ [.timer s.opt.interval] }

end Report

/-! ### `ping_cb` -/

section Callback

variable (env : Env) (io : Io) (s : State)

/-- The size and the hop limit that later replies are compared with. -/
def State.firstValues (bytes ttl : ℕ) : State :=
  if s.first then { s with size := bytes, ttl := ttl } else s

/-- The local address of the first reply that is not a duplicate is kept. -/
def State.keepLoc (dup : Bool) (loc : Option Sockaddr) : State :=
  if !s.gotReply && !dup then { s with locSin6 := loc, gotReply := true } else s

/-- The entry for a reply. -/
def replyEntry (dup : Bool) (bytes : ℕ) (loc : Option Sockaddr) (ttl : ℕ) (nsecs : ℤ) : Entry :=
  .reply
    { dup := dup
      nsecs := nsecs
      size := if s.size ≠ bytes then some bytes else none
      ttl := if s.ttl ≠ ttl then some ttl else none
      src := if env.nameOf s.locSin6 ≠ env.nameOf loc then some (env.nameOf loc) else none }

/-- `ping_cb` with `PING_ERR_NONE` or `PING_ERR_DUP` -/
def pingCbReply (dup : Bool) (bytes : ℕ) (loc : Option Sockaddr) (ttl : ℕ) (nsecs : ℤ) : State :=
  if !s.busy then s
  else
    let s := (s.firstValues bytes ttl).keepLoc dup loc
    { s.addEntry env (replyEntry env s dup bytes loc ttl nsecs) with size := bytes, ttl := ttl }

/-- `ping_cb` with `PING_ERR_TIMEOUT`; the hop limit is `-1`. -/
def pingCbTimeout : State :=
  if !s.busy then s else (s.firstValues s.cursize 255).addEntry env .timeout

/-- `ping_cb` with `PING_ERR_SENDTO` -/
def pingCbSendto (errno : ℕ) : State :=
  if !s.busy then s
  else (s.firstValues s.cursize 0).addEntry env (.sendError (env.strerror errno))

/-- `ping_cb` with `PING_ERR_DNS` -/
def pingCbDns (message : Bytes) : State :=
  if !s.busy then s
  else
    let s := { s.firstValues s.opt.maxsize 0 with size := s.opt.maxsize }
    report env io { s with
      result := s.result ++ line (s.separator ++ ascii "\x7b " ++ key "error" ++
        quoted (ascii "dns resolution failed: " ++ message) ++ ascii " \x7d") }

/-- `ping_cb` with `PING_ERR_BAD_ADDR` -/
def pingCbBadAddr : State :=
  if !s.busy then s
  else
    let s := { s.firstValues s.opt.maxsize 0 with size := s.opt.maxsize }
    report env io { s with
      result := s.result ++ line (s.separator ++ ascii "\x7b " ++ key "error" ++
        quoted (ascii "address not allowed") ++ ascii " \x7d")
      noDst := false
      noSrc := true }

/-- `ping_cb` with `PING_ERR_DONE` -/
def pingCbDone (bytes ttl : ℕ) : State :=
  if !s.busy then s
  else
    let s := s.firstValues bytes ttl
    report env io { s with error := !s.gotReply }

/-- `ping_cb` with `PING_ERR_DNS_NO_ADDR`, which has no text -/
def pingCbNoAddr : State := if !s.busy then s else s.firstValues s.cursize 0

end Callback

end AtlasProbe.Ping
