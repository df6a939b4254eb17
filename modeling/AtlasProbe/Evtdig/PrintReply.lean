import AtlasProbe.Evtdig.Name
import AtlasProbe.Measurement.Host

/-!
# What `printReply` prints

`printReply` adds the description of a reply to the buffer `result` and writes it when it is
complete.  The text is made of lines that are formatted in a buffer of 256 bytes each.  The first
two answers of a message are read and printed one after the other; an answer that does not fit the
message ends the description of the message.
-/

namespace AtlasProbe.Evtdig

open Measurement (validateAtlasId versionText)

/-! ### Lines -/

/-- What is added to `result` by way of `line`. -/
def line (text : Bytes) : Bytes := snprintf lineLength text

/-- A key with a colon. -/
def keyText (key : String) : Bytes := ascii "\"" ++ ascii key ++ ascii "\" : "

/-- `JS`. -/
def js (key : String) (val : Bytes) : Bytes :=
  line (keyText key ++ ascii "\"" ++ val ++ ascii "\" , ")

/-- `JS_NC`. -/
def jsNc (key : String) (val : Bytes) : Bytes :=
  line (keyText key ++ ascii "\"" ++ val ++ ascii "\" ")

/-- `JSDOT`. -/
def jsdot (key : String) (val : Bytes) : Bytes :=
  line (keyText key ++ ascii "\"" ++ val ++ ascii ".\" , ")

/-- `JS1`, and also `JD` and `JU`, for a value that is formatted already. -/
def js1 (key : String) (val : Bytes) : Bytes := line (keyText key ++ val ++ ascii " , ")

/-- `JD_NC`. -/
def jdNc (key : String) (val : Bytes) : Bytes := line (keyText key ++ val ++ ascii " ")

/-- `JU_NC`. -/
def juNc (key : String) (val : Bytes) : Bytes := line (keyText key ++ val)

/-- The alphabet of `buf_add_b64`. -/
def b64 : Bytes := ascii "ABCDEFGHIJKLMNOPQRSTUVWXYZabcdefghijklmnopqrstuvwxyz0123456789+/"

/-- The character for the last six bits of `v`. -/
def b64Char (v : ℕ) : UInt8 := b64.getD (v % 64) 0

/-- What `buf_add_b64` adds. -/
def b64Text : Bytes → Bytes
  | a :: b :: c :: data =>
    let v := a.toNat * 2 ^ 16 + b.toNat * 2 ^ 8 + c.toNat
    b64Char (v / 2 ^ 18) :: b64Char (v / 2 ^ 12) :: b64Char (v / 2 ^ 6) :: b64Char v :: b64Text data
  | [a, b] =>
    let v := a.toNat * 2 ^ 16 + b.toNat * 2 ^ 8
    [b64Char (v / 2 ^ 18), b64Char (v / 2 ^ 12), b64Char (v / 2 ^ 6)] ++ ascii "="
  | [a] =>
    let v := a.toNat * 2 ^ 16
    [b64Char (v / 2 ^ 18), b64Char (v / 2 ^ 12)] ++ ascii "=="
  | [] => []

/-! ### Answers -/

/-- A byte of a text record: quotes, backslashes and bytes that are not printable are given by their
number, with two backslashes in front. -/
def txtByte (b : UInt8) : Bytes :=
  if b ≠ 34 ∧ b ≠ 92 ∧ 32 ≤ b ∧ b ≤ 126 then [b]
  else ascii "\\\\" ++ natText (b.toNat / 100) ++ natText (b.toNat / 10 % 10) ++
    natText (b.toNat % 10)

/-- The loop of `print_txt_json`; `len` is `none` where the source has `-1`. -/
def txtLoop : Option ℕ → Bytes → Bytes
  | _, [] => []
  | none, b :: rdata => txtLoop (some b.toNat) rdata
  | some 0, b :: rdata => ascii "\", \"" ++ txtLoop (some b.toNat) rdata
  | some (len + 1), b :: rdata => txtByte b ++ txtLoop (some len) rdata

/-- `print_txt_json`. -/
def printTxtJson (rdata : Bytes) : Bytes :=
  ascii "\"RDATA\" : [ \"" ++ txtLoop none rdata ++ ascii "\" ] "

/-- An answer that has been read. -/
inductive Answer where
  | txt (name rdata : Bytes)
  | soa (name : Bytes) (ttl : UInt32) (mname rname : Bytes) (serial : UInt32)
  | other
  deriving DecidableEq

/-- `get32b`, and also `ntohl` of a field. -/
def get32b (p : Bytes) : UInt32 := .ofNat (65536 * uint16 p + uint16 (p.drop 2))

/-- Read the data of an answer whose other fields end at `offset`. -/
def readRdata (behind : UInt8) (result name : Bytes) (type : ℕ) (ttl : UInt32)
    (dataLen offset : ℕ) : Option (Answer × ℕ) := do
  if type = 16 then
    if result.length < offset + dataLen then none
    else some (.txt name ((result.drop offset).take dataLen), offset + dataLen)
  else if type = 6 then
    let (name1, stop1) ← readName behind result offset
    let (name2, stop2) ← readName behind result (offset + stop1)
    let offset := offset + stop1 + stop2
    if result.length < offset + 5 * 4 then none
    else some (.soa name ttl name1 name2 (get32b (result.drop offset)), offset + 5 * 4)
  else
    if result.length < offset + dataLen then none else some (.other, offset + dataLen)

/-- Read an answer before it is printed: the answer and the offset behind it, or `none` when
the source goes to `truncated`. -/
def readAnswer (behind : UInt8) (result : Bytes) (offset : ℕ) : Option (Answer × ℕ) := do
  let (name, stop) ← readName behind result offset
  let offset := offset + stop
  if result.length < offset + 10 then none
  else
    let resource := result.drop offset
    readRdata behind result name (uint16 resource) (get32b (resource.drop 4))
      (uint16 (resource.drop 8)) (offset + 10)

/-- The loop over the answers: those that are read, and whether it ends at `truncated`. -/
def readAnswers (behind : UInt8) (result : Bytes) : ℕ → ℕ → List Answer × Bool
  | 0, _ => ([], false)
  | n + 1, offset =>
    match readAnswer behind result offset with
    | none => ([], true)
    | some (a, offset) =>
      let (as, truncated) := readAnswers behind result n offset
      (a :: as, truncated)

/-- What is printed for an answer, when `flagAnswer` of them have been counted. -/
def answerText (flagAnswer : ℕ) : Answer → Bytes
  | .txt name rdata =>
    (if flagAnswer = 0 then ascii ",\"answers\" : [ \x7b" else ascii ", \x7b") ++
      js "TYPE" (ascii "TXT") ++ js "NAME" name ++ printTxtJson rdata ++ ascii "\x7d"
  | .soa name ttl mname rname serial =>
    (if flagAnswer = 0 then ascii ",\"answers\" : [ \x7b " else ascii ",\x7b ") ++
      js "TYPE" (ascii "SOA") ++ jsdot "NAME" name ++ js1 "TTL" (natText ttl.toNat) ++
      jsdot "MNAME" mname ++ jsdot "RNAME" rname ++ juNc "SERIAL" (natText serial.toNat) ++
      ascii " \x7d "
  | .other => []

/-- `flagAnswer` behind an answer; the first text record is counted twice. -/
def flagAfter (flagAnswer : ℕ) : Answer → ℕ
  | .txt _ _ => if flagAnswer = 0 then flagAnswer + 2 else flagAnswer + 1
  | .soa _ _ _ _ _ => flagAnswer + 1
  | .other => flagAnswer

/-- What is printed for the answers: the text, and the last value of `flagAnswer`. -/
def answersText (flagAnswer : ℕ) : List Answer → Bytes × ℕ
  | [] => ([], flagAnswer)
  | a :: as =>
    let (text, flag) := answersText (flagAfter flagAnswer a) as
    (answerText flagAnswer a ++ text, flag)

/-! ### Messages -/

/-- A message, the byte behind it in memory, and its length, which is an `int`. -/
structure Reply where
  bytes : Bytes
  behind : UInt8
  length_lt : bytes.length < 2 ^ 31

/-- The answers of a message that are read, at most two, and whether the source goes to `truncated`.
The question is skipped. -/
def Reply.read (r : Reply) : List Answer × Bool :=
  if r.bytes.length < 12 then ([], true)
  else
    match dnsNamelen r.bytes 12 with
    | none => ([], true)
    | some len =>
      let offset := 12 + len + 4
      if r.bytes.length < offset then ([], true)
      else readAnswers r.behind r.bytes (min 2 (uint16 (r.bytes.drop 6))) offset

/-- The lines for the header of a message. -/
def Reply.headerText (r : Reply) : Bytes :=
  if r.bytes.length < 12 then []
  else
    ascii "," ++ js1 "ID" (natText (uint16 r.bytes)) ++
      js1 "ANCOUNT" (natText (uint16 (r.bytes.drop 6))) ++
      js1 "QDCOUNT" (natText (uint16 (r.bytes.drop 4))) ++
      js1 "NSCOUNT" (natText (uint16 (r.bytes.drop 8))) ++
      juNc "ARCOUNT" (natText (uint16 (r.bytes.drop 10)))

/-- The lines for the answers of a message. -/
def Reply.answersText (r : Reply) : Bytes :=
  let (as, truncated) := r.read
  let (text, flagAnswer) := Evtdig.answersText 0 as
  text ++ if truncated = false ∧ 0 < flagAnswer then ascii " ]" else []

/-! ### `printReply` -/

/-- The options of a query that `printReply` uses.  `tdig_init` checks the two identifiers. -/
structure PrintOptions where
  strAtlas : Option Bytes
  strBundle : Option Bytes
  /-- The firmware version, and the version of the measurement code. -/
  fwVersion : Int32
  msmVersion : Bytes
  /-- `opt_resolv_conf`, and also `opt_rset`: `--resolv` sets both. -/
  resolvConf : Bool
  /-- `opt_proto` is that of TCP. -/
  tcp : Bool
  /-- `opt_do_tls` or `opt_do_https`. -/
  tls : Bool
  optQbuf : Bool
  optAbuf : Bool
  portAsChar : Bytes
  strAtlas_valid : ∀ id ∈ strAtlas, validateAtlasId id = true
  strBundle_valid : ∀ bundle ∈ strBundle, validateAtlasId bundle = true

/-- An address as text, and whether it is of IPv6. -/
structure AddrText where
  addr : Bytes
  inet6 : Bool

/-- What `printReply` finds in the state of a query when it is called. -/
structure Call where
  xmitTime : UInt64
  lts : Int32
  sslVersion : Option Bytes
  resolvI : Int32
  resolvMax : Int32
  /-- The address in `ressent`. -/
  ressent : Option AddrText
  /-- `dst_addr_str`, if `dst_ai_family` is set. -/
  dst : Option AddrText
  serverName : Option Bytes
  /-- The local address, if there is one; the empty text is not printed. -/
  src : Bytes
  retry : Int32
  rcvdttl : Int32
  /-- The query that is encoded in `qbuf`. -/
  qbuf : Bytes
  /-- `triptime` and `querytime`, in thousandths of their unit. -/
  triptime : UInt64
  querytime : UInt64
  clientCookieMismatch : Bool
  err : Buf
  result : Option Reply

section Text

variable (o : PrintOptions) (c : Call)

/-- The lines for the identifiers. -/
def idText : Bytes :=
  match o.strAtlas with
  | none => []
  | some id =>
    js "id" id ++
      match o.strBundle with
      | none => []
      | some bundle => js1 "bundle" bundle

/-- The lines for the time, which are printed twice in a result set. -/
def timeText : Bytes :=
  js1 "time" (natText c.xmitTime.toNat) ++ js1 "lts" (intText c.lts.toInt)

/-- What `printReply` adds to an empty buffer first. -/
def headerText : Bytes :=
  ascii "RESULT \x7b " ++ idText o ++ versionText o.fwVersion o.msmVersion ++ ascii ", " ++
    if o.resolvConf then timeText c ++ ascii "\"resultset\" : [ \x7b" else []

/-- The lines for the number of a resolver. -/
def subText : Bytes :=
  if o.resolvConf then
    js1 "subid" (intText (c.resolvI.toInt + 1)) ++ js1 "submax" (intText c.resolvMax.toInt)
  else []

/-- The lines for a destination whose name has the given key. -/
def addrText (key : String) (a : AddrText) (name : Bytes) : Bytes :=
  (if a.addr = name then [] else js key name) ++ js "dst_addr" a.addr ++
    js "dst_port" o.portAsChar ++ js1 "af" (natText (if a.inet6 then 6 else 4))

/-- The lines for the destination. -/
def dstText : Bytes :=
  match c.serverName with
  | none => []
  | some name =>
    match c.ressent with
    | some a => addrText o "name" a name
    | none =>
      match c.dst with
      | some a => addrText o "dst_name" a name
      | none => js "dst_name" name

/-- The line for the version of TLS. -/
def sslText : Bytes :=
  match c.sslVersion with
  | none => []
  | some version => if o.tls then js "sslvers" version else []

/-- The lines before the protocol. -/
def connectionText : Bytes :=
  timeText c ++ sslText o c ++ subText o c ++ dstText o c ++
    (if c.src = [] then [] else js "src_addr" c.src) ++
    (if c.retry = 0 then [] else js1 "retry" (intText c.retry.toInt)) ++
    if 0 ≤ c.rcvdttl.toInt then js1 "ttl" (intText c.rcvdttl.toInt) else []

/-- The query, if it is to be printed. -/
def qbufText : Bytes :=
  if o.optQbuf = true ∧ b64Text c.qbuf ≠ [] then
    ascii ",\"qbuf\" : \"" ++ b64Text c.qbuf ++ ascii "\" "
  else []

/-- The description of a reply. -/
def replyText (r : Reply) : Bytes :=
  line (ascii ",\"result\" : \x7b \"rt\" : " ++ fixedText 3 false c.triptime.toNat ++ ascii ",") ++
    (if o.tcp then
      line (ascii "\"qt\" : " ++ fixedText 3 false c.querytime.toNat ++ ascii ",") else []) ++
    jdNc "size" (natText r.bytes.length) ++
    (if o.optAbuf then ascii ", \"abuf\" : \"" ++ b64Text r.bytes ++ ascii "\"" else []) ++
    (if c.clientCookieMismatch then ascii ", \"client-cookie-mismatch\" : true" else []) ++
    r.headerText ++ r.answersText ++ ascii " \x7d"

/-- The description of the reply, if there is one. -/
def resultText : Bytes :=
  match c.result with
  | none => []
  | some r => replyText o c r

/-- The errors, if there are any. -/
def errorText : Bytes :=
  if c.err.size = 0 then [] else ascii ", \"error\" : \x7b" ++ c.err.bytes ++ ascii "\x7d"

/-- An element of a result set, or the members of a result without one. -/
def elementText : Bytes :=
  connectionText o c ++ jsNc "proto" (ascii (if o.tcp then "TCP" else "UDP")) ++ qbufText o c ++
    resultText o c ++ errorText c

end Text

/-- The buffer `result`, whose size is `0` if it is empty, and the lines that are written. -/
structure Printer where
  result : Bytes
  written : List Bytes

/-- The buffer behind an element of a result set. -/
def Printer.add (p : Printer) (o : PrintOptions) (c : Call) : Bytes :=
  p.result ++
    (if p.result = [] then headerText o c else if o.resolvConf then ascii ",\x7b" else []) ++
    elementText o c ++ if o.resolvConf then ascii "\x7d" else []

/-- `printReply` writes the result, which is complete. -/
def Call.writes (o : PrintOptions) (c : Call) : Bool :=
  !o.resolvConf || decide (c.resolvMax.toInt ≤ c.resolvI.toInt + 1)

/-- `printReply`, as far as it prints. -/
def Printer.printReply (p : Printer) (o : PrintOptions) (c : Call) : Printer :=
  if c.writes o then
    { result := []
      written := p.written ++
        [p.add o c ++ (if o.resolvConf then ascii "]" else []) ++ ascii " \x7d\n"] }
  else
    { p with result := p.add o c }

/-- Calls of `printReply` one after the other. -/
def printReplies (o : PrintOptions) (cs : List Call) : Printer :=
  cs.foldl (fun p c => p.printReply o c) ⟨[], []⟩

end AtlasProbe.Evtdig
