import AtlasProbe.Measurement.Host

/-!
# The texts of an NTP measurement

`ntp.c` prints the fields of the replies that it gets: all of them once, and from then on those that
have changed and the time stamps (`headerText`, `changes`, `timesText`).
-/

namespace AtlasProbe.Ntp

open Wire Measurement

/-! ### Replies -/

/-- `struct ntphdr`.  Time stamps are in units of `2⁻³²` seconds. -/
structure Header where
  flags : ℕ
  stratum : ℕ
  poll : Int8
  precision : Int8
  rootDelay : ℕ
  rootDispersion : ℕ
  /-- The four bytes in the order in which they were sent. -/
  referenceId : Bytes
  referenceTs : ℕ
  originTs : ℕ
  receiveTs : ℕ
  transmitTs : ℕ
  deriving DecidableEq

/-- The size of `struct ntphdr` -/
def headerSize : ℕ := 48

/-- A time stamp: the seconds and the fraction. -/
def ntpTs (buf : ℕ → UInt8) (i : ℕ) : ℕ := u32 buf i * 2 ^ 32 + u32 buf (i + 4)

/-- The header at the start of a packet. -/
def headerOf (buf : ℕ → UInt8) : Header where
  flags := u8 buf 0
  stratum := u8 buf 1
  poll := (buf 2).toInt8
  precision := (buf 3).toInt8
  rootDelay := u32 buf 4
  rootDispersion := u32 buf 8
  referenceId := bytesAt buf 12 4
  referenceTs := ntpTs buf 16
  originTs := ntpTs buf 24
  receiveTs := ntpTs buf 32
  transmitTs := ntpTs buf 40

/-- `struct timeval` -/
structure Timeval where
  sec : ℕ
  usec : ℕ

/-- `NTP_1970` -/
def ntp1970 : ℕ := 2208988800

/-- What the measurements have in common, and the conversions that go through floating point. -/
structure Env extends Host where
  /-- `%g` of a number over `2¹⁶` -/
  shortText : ℕ → Bytes
  /-- `%g` of a power of two -/
  powText : ℤ → Bytes
  /-- `%.9f` of a number over `2³²` -/
  tsText : ℕ → Bytes
  /-- `%f` of a number over `2³²` -/
  secondsText : ℤ → Bytes
  /-- `%f` of half a number over `2³²` -/
  halfText : ℤ → Bytes
  /-- The fraction of a second that microseconds are, in units of `2⁻³²` seconds -/
  fraction : ℕ → ℕ
  fraction_lt : ∀ usec, fraction usec < 2 ^ 32

section Format

variable (env : Env)

/-- The time stamp for a time of the host. -/
def Env.timestamp (t : Timeval) : ℕ := (t.sec + ntp1970) % 2 ^ 32 * 2 ^ 32 + env.fraction t.usec

/-- A name, and its value behind a blank. -/
def member (name : String) (value : Bytes) : Bytes := key name ++ ascii " " ++ value

/-- The leap indicator in the flags. -/
def leap (flags : ℕ) : ℕ := (flags &&& 0xc0) >>> 6

/-- The version in the flags. -/
def version (flags : ℕ) : ℕ := (flags &&& 0x38) >>> 3

/-- The mode in the flags. -/
def mode (flags : ℕ) : ℕ := flags &&& 0x7

/-- `format_li` -/
def formatLi (flags : ℕ) : Bytes :=
  line (member "li" (quoted (ascii (match leap flags with
    | 0 => "no"
    | 1 => "61"
    | 2 => "59"
    | _ => "unknown"))))

/-- `format_mode` -/
def formatMode (flags : ℕ) : Bytes :=
  line (member "mode" (quoted (ascii (match mode flags with
    | 0 => "reserved"
    | 1 => "sym. active"
    | 2 => "sym. passive"
    | 3 => "client"
    | 4 => "server"
    | 5 => "broadcast"
    | 6 => "control"
    | _ => "private"))))

/-- `format_stratum` -/
def formatStratum (stratum : ℕ) : Bytes :=
  line (member "stratum" (
    if stratum = 0 then quoted (ascii "invalid")
    else if stratum = 16 then quoted (ascii "unsynchronized")
    else if stratum < 16 then natText stratum
    else quoted (ascii "reserved (" ++ natText stratum ++ ascii ")")))

/-- `format_8bit` -/
def format8bit (label : String) (value : Int8) : Bytes :=
  line (member label (
    if 0 ≤ value.toInt ∧ value.toInt < 32 then natText (1 <<< value.toInt.toNat)
    else env.powText value.toInt))

/-- `format_short_ts` -/
def formatShortTs (label : String) (value : ℕ) : Bytes :=
  line (member label (env.shortText value))

/-- A byte of a reference identifier. -/
def refIdChar (b : UInt8) : Bytes :=
  if b < 32 ∨ b = 34 ∨ b = 92 ∨ 127 ≤ b then ascii "\\\\x" ++ hexText 2 b.toNat else [b]

/-- `format_ref_id` -/
def formatRefId (value : Bytes) (stratum : ℕ) : Bytes :=
  line (member "ref-id" (quoted (
    if stratum = 0 ∨ stratum = 1 then (value.takeWhile (· ≠ 0)).flatMap refIdChar
    else hexText 8 (u32 (fun i => value.getD i 0) 0))))

/-- `format_ts` -/
def formatTs (label : String) (ts : ℕ) : Bytes := line (member label (env.tsText ts))

/-! ### What has changed -/

/-- A text with its members, and whether there are none yet (`head`). -/
structure Draft where
  text : Bytes
  head : Bool

/-- There are no members. -/
def Draft.empty : Draft := ⟨[], true⟩

/-- Members as they are. -/
def Draft.addRaw (d : Draft) (changed : Bool) (text : Bytes) : Draft :=
  if changed then ⟨d.text ++ text, false⟩ else d

/-- A member behind the others. -/
def Draft.add (d : Draft) (changed : Bool) (text : Bytes) : Draft :=
  d.addRaw changed ((if d.head then [] else ascii ", ") ++ text)

/-- The fields that differ from those of the first reply.  The version has its comma in any case. -/
def changes (old new : Header) : Draft :=
  Draft.empty
    |>.addRaw (leap new.flags ≠ leap old.flags) (formatLi new.flags)
    |>.addRaw (version new.flags ≠ version old.flags)
      (line (ascii ", " ++ member "version" (natText (version new.flags))))
    |>.add (mode new.flags ≠ mode old.flags) (formatMode new.flags)
    |>.add (new.stratum ≠ old.stratum) (formatStratum new.stratum)
    |>.add (new.poll ≠ old.poll) (format8bit env "poll" new.poll)
    |>.add (new.precision ≠ old.precision) (format8bit env "precision" new.precision)
    |>.add (new.rootDelay ≠ old.rootDelay) (formatShortTs env "root-delay" new.rootDelay)
    |>.add (new.rootDispersion ≠ old.rootDispersion)
      (formatShortTs env "root-dispersion" new.rootDispersion)
    |>.add (new.referenceId ≠ old.referenceId) (formatRefId new.referenceId new.stratum)
    |>.add (new.referenceTs ≠ old.referenceTs) (formatTs env "ref-ts" new.referenceTs)

/-! ### Times -/

/-- The difference of two time stamps, taken as a signed number. -/
def tsDiff (t u : ℕ) : ℤ := (BitVec.ofNat 64 t - BitVec.ofNat 64 u).toInt

/-- The time that the request and the reply were under way. -/
def roundTrip (t1 t2 t3 t4 : ℕ) : ℤ := tsDiff t4 t1 - tsDiff t3 t2

/-- Twice the offset of the clocks. -/
def twiceOffset (t1 t2 t3 t4 : ℕ) : ℤ := tsDiff t2 t1 + tsDiff t3 t4

/-- The members for the times of a reply that came at `final`. -/
def timesText (head : Bool) (h : Header) (final : ℕ) : Bytes :=
  line ((if head then [] else ascii ", ") ++ member "origin-ts" (env.tsText h.originTs)) ++
  line (ascii ", " ++ member "receive-ts" (env.tsText h.receiveTs)) ++
  line (ascii ", " ++ member "transmit-ts" (env.tsText h.transmitTs)) ++
  line (ascii ", " ++ member "final-ts" (env.tsText final)) ++
  line (ascii ", " ++ member "rtt"
    (env.secondsText (roundTrip h.originTs h.receiveTs h.transmitTs final))) ++
  line (ascii ", " ++ member "offset"
    (env.halfText (twiceOffset h.originTs h.receiveTs h.transmitTs final)))

/-- The fields of the first reply in the result. -/
def headerText (h : Header) : Bytes :=
  ascii ", " ++ formatLi h.flags ++
  ascii ", " ++ member "version" (natText (version h.flags)) ++
  ascii ", " ++ formatMode h.flags ++
  ascii ", " ++ formatStratum h.stratum ++
  ascii ", " ++ format8bit env "poll" h.poll ++
  ascii ", " ++ format8bit env "precision" h.precision ++
  ascii ", " ++ formatShortTs env "root-delay" h.rootDelay ++
  ascii ", " ++ formatShortTs env "root-dispersion" h.rootDispersion ++
  ascii ", " ++ formatRefId h.referenceId h.stratum ++
  ascii ", " ++ formatTs env "ref-ts" h.referenceTs

end Format

end AtlasProbe.Ntp
