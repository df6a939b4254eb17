import AtlasProbe.Measurement.Host
import AtlasProbe.Lib.Checksum

/-!
# The state of a traceroute measurement

`traceroute.c` sends probes with growing hop limits and puts the text of its result together while
the answers come in.  The state (`State`) has the options (`Options`), the variables that say how
far the measurement is, the text so far, and a list of what was done to the outside (`Act`).
-/

namespace AtlasProbe.Traceroute

open Measurement

/-! ### Constants -/

/-- `BASE_PORT` -/
def basePort : ℕ := 0x8000 + 666

/-- `SRC_BASE_PORT` -/
def srcBasePort : ℕ := 20480

/-- `MAX_DATA_SIZE` -/
def maxDataSize : ℕ := 4096

/-- The size of `base->packet` -/
def packetSize : ℕ := maxDataSize + 128

/-- The size of `struct v6info` -/
def v6infoSize : ℕ := 32

/-- `TRT_ICMP4_INSTANCE_ID_SHIFT` -/
def trtIcmp4InstanceIdShift : ℕ := 12

/-- The value that is there to spot problems. -/
def minus42 : Millis := ⟨true, 42000, by decide⟩

/-! ### Options -/

/-- What `getopt32` stores for the options. -/
structure Args where
  v6 : Bool
  icmp : Bool
  tcp : Bool
  parismod : ℕ
  parisbase : ℕ
  count : ℕ
  firsthop : ℕ
  gaplimit : ℕ
  maxhops : ℕ
  tos : Int32
  timeout : ℕ
  duptimeout : ℕ
  atlas : Option CString
  bundle : Option CString
  /-- The name of the output file is accepted, and the file can be opened. -/
  outOk : Bool
  maxpacksize : ℕ
  hbhoptsize : ℕ
  destoptsize : ℕ
  interface : Bool
  hostname : CString

/-- The parameters in `struct trtstate` -/
structure Options where
  atlas : Option CString
  bundleId : Option CString
  hostname : CString
  interface : Bool
  doIcmp : Bool
  doTcp : Bool
  doUdp : Bool
  doV6 : Bool
  trtcount : ℤ
  maxpacksize : ℕ
  hbhoptsize : ℕ
  destoptsize : ℕ
  firsthop : ℕ
  maxhops : ℕ
  gaplimit : ℕ
  parismod : ℕ
  parisbase : ℕ
  duptimeout : ℕ
  timeout : ℕ
  tos : Int32

/-- `traceroute_init`, as far as it checks the options and stores them. -/
def tracerouteInit (host : Host) (a : Args) : Option Options :=
  if a.maxpacksize > maxDataSize then none
  else if !a.outOk then none
  else if !a.atlas.all (validateAtlasId ·.bytes) then none
  else if !a.bundle.all (validateAtlasId ·.bytes) then none
  else some
    { atlas := a.atlas
      bundleId := a.bundle
      hostname := a.hostname
      interface := a.interface
      doIcmp := a.icmp
      doTcp := a.tcp
      doUdp := !(a.icmp || a.tcp)
      doV6 := a.v6
      trtcount := host.toChar a.count
      maxpacksize := a.maxpacksize % 65536
      hbhoptsize := a.hbhoptsize % 65536
      destoptsize := a.destoptsize % 65536
      firsthop := a.firsthop % 256
      maxhops := a.maxhops % 256
      gaplimit := a.gaplimit % 256
      parismod := a.parismod % 256
      parisbase := a.parisbase % 256
      duptimeout := a.duptimeout * 1000 % 2 ^ 32
      timeout := a.timeout * 1000 % 2 ^ 32
      tos := a.tos }

/-! ### States -/

/-- The protocol of a probe. -/
inductive Proto
  | icmp
  | tcp
  | udp
  deriving DecidableEq

/-- A probe as it is given to the kernel: its number, the hop limit, the addresses and ports, and
the data.  For UDP the kernel adds the header. -/
structure Probe where
  seq : ℕ
  hop : ℕ
  proto : Proto
  src : Sockaddr
  dst : Sockaddr
  data : Bytes

/-- What a measurement does to the outside. -/
inductive Act
  | sent (probe : Probe)
  | timer (usec : ℕ)
  | written (text : Bytes)

/-- `struct trtstate`.  The timer and the two sockets are on if they are waited for; `acts` is what
has been done, in order. -/
structure State where
  opt : Options
  index : ℕ
  sin6 : Sockaddr
  locSin6 : Sockaddr
  sent : ℕ
  hop : ℕ
  paris : ℕ
  seq : ℕ
  curpacksize : ℕ
  lastResponseHop : ℕ
  done : Bool
  notDone : Bool
  lastditch : Bool
  busy : Bool
  gotresp : Bool
  dnsip : Bool
  noSrc : Bool
  starttime : ℕ
  xmitTime : Timespec
  /-- The time to resolve the name, by its sign and in nanoseconds. -/
  ttr : Bool × ℕ
  result : Bytes
  openResult : Bool
  timer : Bool
  socketIcmp : Bool
  socketTcp : Bool
  acts : List Act

/-- What the calls return while an event is handled, and the size of the table of measurements.  The
number that a call has is that of an error. -/
structure Io where
  tabsiz : ℕ
  now : Timespec
  xmit : Timespec
  /-- What is in `base->packet` when a probe is made. -/
  packet : ℕ → UInt8
  /-- The type of service can be set. -/
  setTos : Bool
  bind : Option ℕ
  sendto : Option ℕ
  /-- The error number after the socket has been closed. -/
  errno : ℕ
  atlasTime : ℕ
  timesync : Int32

/-! ### Text -/

/-- `add_str` -/
def State.addStr (s : State) (text : Bytes) : State := { s with result := s.result ++ text }

section Report

variable (host : Host) (io : Io) (s : State)

/-- The members for the identifiers and the times. -/
def atlasText : Bytes :=
  identText host s.opt.atlas s.opt.bundleId io.timesync
    (key "time" ++ natText s.starttime ++ ascii ", " ++ key "endtime" ++ natText io.atlasTime)

/-- The members for the addresses. -/
def addrsText : Bytes :=
  (if host.isNumeric s.opt.hostname.bytes then []
    else ascii ", " ++ key "ttr" ++ fixedText 6 s.ttr.1 s.ttr.2) ++
  (if s.dnsip then [] else ascii ", " ++ key "dst_addr" ++ quoted (host.getnameinfo s.sin6)) ++
  (if !s.dnsip && !s.noSrc then
    ascii ", " ++ key "src_addr" ++ quoted (host.getnameinfo s.locSin6) else [])

/-- The name of the protocol. -/
def protoText : Bytes :=
  if s.opt.doIcmp then ascii "ICMP" else if s.opt.doTcp then ascii "TCP" else ascii "UDP"

/-- The members for the protocol and the options. -/
def optionsText : Bytes :=
  ascii ", " ++ key "proto" ++ quoted (protoText s) ++ ascii ", " ++ key "af" ++ ascii " " ++
    natText (if (if s.dnsip then s.opt.doV6 else s.sin6.inet6) then 6 else 4) ++
    ascii ", " ++ key "size" ++ natText s.opt.maxpacksize ++
    (if s.opt.parismod ≠ 0 then ascii ", " ++ key "paris_id" ++ natText s.paris else [])

/-- What `report` writes. -/
def reportText : Bytes :=
  resultText (atlasText host io s) s.opt.hostname (addrsText host s ++ optionsText s) s.result

/-- `report` -/
def report : State :=
  { s with
    timer := false
    result := []
    busy := false
    socketIcmp := false
    socketTcp := false
    acts := s.acts ++ [.written (reportText host io s)] }

end Report

/-- `evtimer_add` -/
def State.evtimerAdd (s : State) (usec : ℕ) : State :=
  { s with timer := true, acts := s.acts ++ [.timer usec] }

end AtlasProbe.Traceroute
