import AtlasProbe.Evtdig.Buf

/-!
# A query and its events

What `evtdig` does with a query between `tdig_start` and the next one: the name of the server is
resolved, the query is sent, and a reply, a timeout or an error is reported by `printReply`, which
goes on with the next resolver if there is one.  libevent calls the functions of the source when
a timer fires, a DNS request is answered or a socket can be read; which of these calls are pending
is a part of the state.
-/

namespace AtlasProbe.Evtdig

/-! ### The state of a query -/

/-- The values of `qst`. -/
inductive Status where
  | free
  | dnsResolv
  | nextQuery
  | retransmitQuery
  | send
  | waitResponse
  deriving DecidableEq

/-- `opt_proto`. -/
inductive Proto where
  | udp
  | tcp
  deriving DecidableEq

/-- What libevent may call. -/
structure Events where
  /-- `noreply_timer`. -/
  noreplyTimer : Bool := false
  /-- `next_qry_timer`. -/
  nextQryTimer : Bool := false
  /-- The read event of `udp_fd`, which is added and deleted with the socket. -/
  readEvent : Bool := false
  /-- The number of requests to `evdns_getaddrinfo` that have not been answered. -/
  dns : ℕ := 0
  /-- The timer of `tu_env`. -/
  timer : Bool := false
  /-- The bufferevent of `tu_env`. -/
  bev : Bool := false
  deriving DecidableEq

/-- What a call of `printReply` adds to `result`. -/
structure Element where
  /-- `subid` and `submax`, which are printed with `--resolv` only. -/
  sub : Option (ℕ × ℕ)
  /-- The name of the server that the query was for. -/
  target : Option Bytes
  retry : ℕ
  answer : Option Bytes
  error : Bytes
  deriving DecidableEq

/-- A line of output. -/
inductive Line where
  /-- What `printReply` writes. -/
  | result (elements : List Element)
  /-- What `printErrorQuick` writes for a query that is busy. -/
  | busy
  deriving DecidableEq

/-- The part of `struct query_state` that controls a query. -/
structure Qry where
  optProto : Proto
  /-- `opt_resolv_conf`, and also `opt_rset`: `--resolv` sets both. -/
  optResolvConf : Bool
  optRetryMax : ℕ
  optTimeout : ℕ
  qst : Status
  retry : ℕ
  resolvI : ℕ
  resolvMax : ℕ
  nslist : List Bytes
  serverName : Option Bytes
  /-- The name that was passed to `evdns_getaddrinfo` last. -/
  target : Option Bytes
  qryid : ℕ
  /-- The field `dnsip` of `tu_env`. -/
  dnsip : Bool
  err : Buf
  events : Events
  /-- The elements in `result`, none if its size is `0`. -/
  result : List Element
  written : List Line

/-- A query after `tdig_init`. -/
def tdigInit (proto : Proto) (resolvConf : Bool) (retryMax timeout : ℕ)
    (serverName : Option Bytes) : Qry where
  optProto := proto
  optResolvConf := resolvConf
  optRetryMax := retryMax
  optTimeout := timeout
  qst := .free
  retry := 0
  resolvI := 0
  resolvMax := 0
  nslist := []
  serverName := serverName
  target := none
  qryid := 0
  dnsip := false
  err := bufInit
  events := {}
  result := []
  written := []

/-! ### The end of a query -/

/-- `tu_cleanup`. -/
def Qry.tuCleanup (qry : Qry) : Qry :=
  { qry with events.timer := false, events.bev := false }

/-- `free_qry_inst`; there is no `done` callback.  An entry of `nslist` that is `NULL` would be the
end of the process. -/
def Qry.freeQryInst (qry : Qry) : Qry :=
  let qry := { qry with err := bufInit }
  let qry := if qry.optProto = .tcp then qry.tuCleanup else qry
  let qry := { qry with events.readEvent := false }
  if qry.optResolvConf ∧ qry.resolvI < qry.resolvMax then
    { qry with
      serverName := qry.nslist[qry.resolvI]?
      qst := .nextQuery
      events.nextQryTimer := true }
  else
    { qry with
      nslist := []
      qst := if qry.qst = .retransmitQuery then .retransmitQuery else .free }

/-- The element that `printReply` adds. -/
def Qry.element (qry : Qry) (answer : Option Bytes) : Element where
  sub := if qry.optResolvConf then some (qry.resolvI + 1, qry.resolvMax) else none
  target := qry.target
  retry := qry.retry
  answer := answer
  error := qry.err.bytes

/-- The end of `printReply`: close the result and write it if it is complete. -/
def Qry.writeOut (qry : Qry) : Qry :=
  let qry := if qry.optResolvConf then { qry with resolvI := qry.resolvI + 1 } else qry
  if qry.optResolvConf ∧ qry.resolvI < qry.resolvMax then qry
  else { qry with result := [], written := qry.written ++ [.result qry.result] }

/-- `printReply`. -/
def Qry.printReply (qry : Qry) (answer : Option Bytes) : Qry :=
  let qry := { qry with result := qry.result ++ [qry.element answer] }
  { qry.writeOut with retry := 0 }.freeQryInst

/-- Add an error text. -/
def Qry.addErr (qry : Qry) (text : Bytes) : Qry :=
  { qry with err := Evtdig.addErr qry.err text }

/-- The end of `noreply_callback` and `tcp_reporterr`: try again if there are retries left. -/
def Qry.retransmit (qry : Qry) : Qry :=
  if qry.retry < qry.optRetryMax then
    { { qry with retry := qry.retry + 1, qst := .retransmitQuery }.freeQryInst with
      events.nextQryTimer := true }
  else
    qry.printReply none

/-- `noreply_callback`. -/
def Qry.noreplyCallback (qry : Qry) : Qry :=
  (qry.addErr (ascii " \"timeout\" : " ++ natText qry.optTimeout)).retransmit

/-! ### The start of a query -/

/-- `MAXNS`. -/
def maxNs : ℕ := 3

/-- What `tdig_start` reads from outside. -/
structure StartInput where
  /-- `atlas_name_macro` succeeds. -/
  expanded : Bool
  /-- The entries that `get_local_resolvers` finds. -/
  nslist : List Bytes
  nslist_le : nslist.length ≤ maxNs

/-- The second half of `tdig_start`: pass the name of the server to `evdns_getaddrinfo`, for TCP by
way of `tu_connect_to_name`. -/
def Qry.resolve (qry : Qry) : Qry :=
  let qry := { qry with
    qst := .dnsResolv
    target := qry.serverName
    events.dns := qry.events.dns + 1 }
  if qry.optProto = .udp then qry else { qry with dnsip := true, events.bev := false }

/-- The part of `tdig_start` for `--resolv`. -/
def Qry.startResolvers (qry : Qry) (nslist : List Bytes) : Qry :=
  let qry := { qry with nslist := nslist, resolvMax := nslist.length }
  match nslist with
  | [] =>
    { qry with
      serverName := none
      err := bufAdd qry.err (ascii "\"nameserver\": \"no local resolvers found\"")
    }.printReply none
  | name :: _ => { qry with serverName := some name }.resolve

/-- The part of `tdig_start` for a query that is idle. -/
def Qry.startFree (qry : Qry) (i : StartInput) : Qry :=
  if i.expanded then
    let qry := { qry with resolvI := 0 }
    if qry.optResolvConf then qry.startResolvers i.nslist else qry.resolve
  else
    { qry with
      err := bufAdd qry.err (ascii "\"err\": \"macro expansion failed\"") }.printReply none

/-- `tdig_start`. -/
def Qry.tdigStart (qry : Qry) (i : StartInput) : Qry :=
  match qry.qst with
  | .free => qry.startFree i
  | .nextQuery | .retransmitQuery => qry.resolve
  | _ => { qry with written := qry.written ++ [.busy] }

/-! ### Sending over UDP -/

/-- One of the addresses of the server, with the results of the calls that are made for it.  A text
is the reason of a failure. -/
structure Addr where
  socket : Option Bytes
  /-- `bind_interface` succeeds, or no interface is given. -/
  bound : Bool
  /-- The address passes `atlas_check_addr`. -/
  allowed : Bool
  connect : Option Bytes
  getsockname : Option Bytes
  /-- The identifier of the query that `mk_dns_buff` makes, if it can. -/
  mkDnsBuff : Option ℕ
  send : Option Bytes
  /-- `ai_family` is `AF_INET`. -/
  inet : Bool
  deriving DecidableEq

/-- How a round of the loop of `tdig_send_query_callback` ends. -/
inductive Round where
  /-- A reply has been printed, and the function returns. -/
  | left (qry : Qry)
  /-- The loop goes on, with the local variable `err`. -/
  | next (qry : Qry) (err : Bool)

/-- Report an error and leave the loop. -/
def Qry.leave (qry : Qry) (text : Bytes) : Round := .left ((qry.addErr text).printReply none)

/-- The end of a round: make the query and send it. -/
def Qry.sendQuery (qry : Qry) (a : Addr) : Round :=
  match a.mkDnsBuff with
  | none => qry.leave (ascii " \"err\" : \"unable to format DNS query\"")
  | some id =>
    match a.send with
    | none => .next { qry with qryid := id, events.noreplyTimer := true } false
    | some e =>
      .next ({ qry with qryid := id }.addErr (ascii " \"senderror\" : \"AF " ++ e ++ ascii ", " ++
        ascii (if a.inet then "AF_INET" else "NOT AF_INET") ++ ascii "\"")) true

/-- The middle of a round: connect the socket. -/
def Qry.connectSocket (qry : Qry) (a : Addr) : Round :=
  match a.connect with
  | some e => qry.leave (ascii " \"socket\" : \"connect failed " ++ e ++ ascii "\"")
  | none =>
    match a.getsockname with
    | some e => (qry.addErr (ascii " \"getsockname\" : \"" ++ e ++ ascii "\"")).sendQuery a
    | none => qry.sendQuery a

/-- A round of the loop of `tdig_send_query_callback`. -/
def Qry.sendRound (qry : Qry) (a : Addr) : Round :=
  let qry := { qry with events.readEvent := false }
  match a.socket with
  | some e => qry.leave (ascii " \"socket\" : \"socket failed " ++ e ++ ascii "\"")
  | none =>
    let qry := { qry with events.readEvent := true }
    if a.bound = false then
      qry.leave (ascii " \"socket\" : \"bind_interface failed\"")
    else if qry.optResolvConf = false ∧ a.allowed = false then
      qry.leave (ascii " \"reason\" : \"address not allowed\"")
    else
      qry.connectSocket a

/-- The loop of `tdig_send_query_callback`, and what comes after it. -/
def sendLoop (qry : Qry) (err : Bool) : List Addr → Qry
  | [] => if err then qry.printReply none else { qry with qst := .waitResponse }
  | a :: as =>
    match qry.sendRound a with
    | .left qry => qry
    | .next qry err => sendLoop qry err as

/-- `tdig_send_query_callback`. -/
def Qry.tdigSendQueryCallback (qry : Qry) (addrs : List Addr) : Qry :=
  sendLoop { qry with events.noreplyTimer := false, qst := .send } false addrs

/-- `udp_dns_cb` for an error. -/
def Qry.udpDnsError (qry : Qry) (e : Bytes) : Qry :=
  { qry with
    err := bufAdd qry.err (snprintf lineLength (ascii "\"evdns_getaddrinfo\": \"" ++
      qry.serverName.getD (ascii "(null)") ++ ascii " " ++ e ++ ascii "\"")) }.printReply none

/-- `ready_callback` with `process_reply`; there are no data if `recvmsg` fails. -/
def Qry.readyCallback (qry : Qry) (data : Option Bytes) : Qry :=
  match data with
  | none => qry
  | some packet =>
    -- a header has twelve bytes
    if packet.length < 12 ∨ uint16 packet ≠ qry.qryid then qry
    else { qry with events.noreplyTimer := false }.printReply (some packet)

/-! ### Sending over TCP -/

/-- The causes of errors in `tcputil` that do not end the process. -/
inductive TuErr where
  | dns
  | socket
  | read
  | connect
  | badAddr
  deriving DecidableEq

/-- The text that `tcp_reporterr` adds. -/
def TuErr.text (str : Bytes) : TuErr → Bytes
  | .dns => ascii " \"TUDNS\" : \"" ++ str ++ ascii "\""
  | .socket => ascii " \"TUSOCKET\" : \"" ++ str ++ ascii "\""
  | .read => ascii " \"TU_READ_ERR\" : \"" ++ str ++ ascii "\""
  | .connect => ascii " \"TUCONNECT\" : \"" ++ str ++ ascii "\""
  | .badAddr => ascii " \"TU_BAD_ADDR\" : true"

/-- `tcp_reporterr`. -/
def Qry.tcpReporterr (qry : Qry) (cause : TuErr) (str : Bytes) : Qry :=
  (qry.addErr (cause.text str)).retransmit

/-- The loop of `dns_cb`.  Every error goes to `tcp_reporterr`, where `tu_cleanup` takes the list of
addresses away, so that there is one round only. -/
def Qry.connectTcp (qry : Qry) (a : Addr) : Qry :=
  let qry := { qry with qst := .send, events.timer := true }
  if a.allowed = false then qry.tcpReporterr .badAddr []
  else if a.socket ≠ none then qry.tcpReporterr .socket (ascii "socket call failed")
  else if a.bound = false then qry.tcpReporterr .socket (ascii "bind_interface failed")
  else
    let qry := { qry with events.bev := true }
    match a.connect with
    | some e => qry.tcpReporterr .connect e
    | none => qry

/-- What `tcp_readcb` makes of the input. -/
inductive ReadResult where
  /-- There is more to come. -/
  | more
  | reply (packet : Bytes)
  /-- An error is added, and a reply printed without an answer. -/
  | failed (text : Bytes)

/-- `tcp_readcb`. -/
def Qry.tcpReadcb (qry : Qry) : ReadResult → Qry
  | .more => qry
  | .reply packet => qry.printReply (some packet)
  | .failed text => (qry.addErr text).printReply none

/-! ### Events -/

/-- What happens to a query. -/
inductive Event where
  /-- `eperd` calls `tdig_start`. -/
  | start (i : StartInput)
  /-- `next_qry_timer` fires, and `next_qry_cb` calls `tdig_start`. -/
  | nextQry (i : StartInput)
  /-- `noreply_timer` fires. -/
  | noreply
  /-- A DNS request fails. -/
  | dnsError (e : Bytes)
  /-- A DNS request is answered with at least one address. -/
  | dnsAnswer (a : Addr) (as : List Addr)
  /-- `udp_fd` can be read. -/
  | packet (data : Option Bytes)
  /-- The timer of `tu_env` fires. -/
  | timeout
  /-- An error is reported for the connection. -/
  | connError (cause : TuErr) (str : Bytes)
  /-- The connection is established. -/
  | connected
  /-- There is input on the connection. -/
  | read (r : ReadResult)

/-- libevent can make the call. -/
def Qry.Enabled (qry : Qry) : Event → Prop
  | .start _ => True
  | .nextQry _ => qry.events.nextQryTimer
  | .noreply => qry.events.noreplyTimer
  | .dnsError _ | .dnsAnswer _ _ => 0 < qry.events.dns
  | .packet _ => qry.events.readEvent
  | .timeout => qry.events.timer
  | .connError _ _ | .connected | .read _ => qry.events.bev

instance (qry : Qry) : (e : Event) → Decidable (qry.Enabled e)
  | .start _ => inferInstanceAs (Decidable True)
  | .nextQry _ => inferInstanceAs (Decidable (qry.events.nextQryTimer = true))
  | .noreply => inferInstanceAs (Decidable (qry.events.noreplyTimer = true))
  | .dnsError _ | .dnsAnswer _ _ => inferInstanceAs (Decidable (0 < qry.events.dns))
  | .packet _ => inferInstanceAs (Decidable (qry.events.readEvent = true))
  | .timeout => inferInstanceAs (Decidable (qry.events.timer = true))
  | .connError _ _ | .connected | .read _ =>
    inferInstanceAs (Decidable (qry.events.bev = true))

/-- A DNS request fails: `udp_dns_cb` or `dns_cb`. -/
def Qry.dnsError (qry : Qry) (e : Bytes) : Qry :=
  let qry := { qry with events.dns := qry.events.dns - 1 }
  if qry.optProto = .udp then qry.udpDnsError e
  else if qry.dnsip then { qry with dnsip := false }.tcpReporterr .dns e
  else qry

/-- A DNS request is answered: `udp_dns_cb` or `dns_cb`. -/
def Qry.dnsAnswer (qry : Qry) (a : Addr) (as : List Addr) : Qry :=
  let qry := { qry with events.dns := qry.events.dns - 1 }
  if qry.optProto = .udp then qry.tdigSendQueryCallback (a :: as)
  else if qry.dnsip then { qry with dnsip := false }.connectTcp a
  else qry

/-- The query after an event.  A timer that fires is no longer pending. -/
def Qry.step (qry : Qry) : Event → Qry
  | .start i => qry.tdigStart i
  | .nextQry i => { qry with events.nextQryTimer := false }.tdigStart i
  | .noreply => { qry with events.noreplyTimer := false }.noreplyCallback
  | .dnsError e => qry.dnsError e
  | .dnsAnswer a as => qry.dnsAnswer a as
  | .packet data => qry.readyCallback data
  | .timeout => { qry with events.timer := false }.noreplyCallback
  | .connError cause str => qry.tcpReporterr cause str
  | .connected => qry
  | .read r => qry.tcpReadcb r

/-- The steps of a query. -/
def Step (qry : Qry) (e : Event) (qry' : Qry) : Prop := qry.Enabled e ∧ qry' = qry.step e

/-- `eperd` starts the query. -/
def Event.isStart : Event → Bool
  | .start _ => true
  | _ => false

/-- The steps up to the next start. -/
def StepWithin (qry : Qry) (e : Event) (qry' : Qry) : Prop :=
  Step qry e qry' ∧ e.isStart = false

end AtlasProbe.Evtdig
