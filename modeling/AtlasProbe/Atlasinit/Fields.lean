import AtlasProbe.Lib.LineHandler

/-!
# The fields of a reply

The registration server and the controller reply with lines of text, a keyword and its fields.
These are the scanners for the fields, such as `skipAddress`, the events (`Event`) and variables
(`Vars`), and the steps of which the programs for the lines are made (`value`, `number`,
`processWait`).
-/

namespace AtlasProbe.Atlasinit

/-! ### Bytes -/

/-- `A-Z` -/
def isUpper (c : UInt8) : Bool := 65 ≤ c && c ≤ 90

/-- `a-z` -/
def isLower (c : UInt8) : Bool := 97 ≤ c && c ≤ 122

/-- `0-9, a-z, '.', '-'` -/
def isHostname (c : UInt8) : Bool := isdigit c || isLower c || c == 46 || c == 45

/-- `0-9, a-z, '.', '-', '_'` -/
def isFilename (c : UInt8) : Bool := isdigit c || isLower c || c == 46 || c == 45 || c == 95

/-- `0-9, '.'` -/
def isIpv4 (c : UInt8) : Bool := isdigit c || c == 46

/-- `0-9, A-F, a-f, ':'` -/
def isIpv6 (c : UInt8) : Bool := isHex c || c == 58

/-- `0-9, A-Z, a-z, '+', '/', '='` -/
def isBase64 (c : UInt8) : Bool :=
  isdigit c || isUpper c || isLower c || c == 43 || c == 47 || c == 61

/-! ### Scanners -/

/-- `skip_tag` -/
def skipTag : Scanner :=
  .token (fun c => isUpper c || c == 95 || isdigit c) (fun _ => true) (by decide)

/-- `skip_session_id` -/
def skipSessionId : Scanner := .token isHex (· ≤ 80) (by decide)

/-- `skip_seconds` -/
def skipSeconds : Scanner := .token isdigit (· ≤ 6) (by decide)

/-- `skip_timestamp` -/
def skipTimestamp : Scanner := .token isdigit (· ≤ 12) (by decide)

/-- `skip_version` -/
def skipVersion : Scanner := .token isdigit (· ≤ 5) (by decide)

/-- `skip_hash_algorithm` -/
def skipHashAlgorithm : Scanner := .literal (ascii "md5") (by decide)

/-- `skip_hash` -/
def skipHash : Scanner := .token isHex (· = 32) (by decide)

/-- `skip_filename` -/
def skipFilename : Scanner := .token isFilename (· ≤ 64) (by decide)

/-- `skip_hostname` -/
def skipHostname : Scanner := .token isHostname (· ≤ 32) (by decide)

/-- `skip_ipv4address` -/
def skipIpv4address : Scanner := .token isIpv4 (· ≤ 16) (by decide)

/-- `skip_ipv6address` -/
def skipIpv6address : Scanner := .token isIpv6 (· ≤ 40) (by decide)

/-- `skip_address` -/
def skipAddress : Scanner := .orElse skipIpv4address skipIpv6address

/-- `skip_hostname_or_address` -/
def skipHostnameOrAddress : Scanner := .orElse skipHostname skipAddress

/-- `skip_port` -/
def skipPort : Scanner := .token isdigit (· ≤ 5) (by decide)

/-- `skip_key_type` -/
def skipKeyType : Scanner := .literal (ascii "ssh-rsa") (by decide)

/-- `skip_key_material` -/
def skipKeyMaterial : Scanner := .token isBase64 (· ≤ 512) (by decide)

/-- `skip_boolean` -/
def skipBoolean : Scanner :=
  .orElse (.literal (ascii "True") (by decide)) (.literal (ascii "False") (by decide))

/-- `skip_prefixlen` -/
def skipPrefixlen : Scanner := .token isdigit (· ≤ 3) (by decide)

/-! ### What is done -/

/-- The files that are written or deleted. -/
inductive File
  | contrKnownHosts
  | conSessionId
  | forceReg
  | netconfigV4
  | netconfigV6
  | resolvConf
  | networkV4StaticInfo
  | networkV6StaticInfo
  | networkDnsStaticInfo
  deriving DecidableEq

/-- What a line leads to. -/
inductive Event
  | printed (text : Bytes)
  | wrote (file : File) (contents : Bytes)
  | unlinked (file : File)
  | settimeofday (seconds : ℕ)
  deriving DecidableEq

/-- The device for the static addresses, the directory for the status files, and what each call of
`time` returns. -/
structure Config where
  device : Bytes
  status : Bytes
  time : ℕ → ℕ

/-- The variables that live from line to line, and how often `time` has been called. -/
structure Vars where
  nController : ℕ
  doRmV4StaticInfo : Bool
  doRmV6StaticInfo : Bool
  doRmDnsStaticInfo : Bool
  calls : ℕ

/-- A program for a line. -/
abbrev Prog := LineProg Event Vars

/-- A field. -/
def value (sc : Scanner) (next : Bytes → Prog) : Prog :=
  .field sc (fun _ => true) (.emits []) next

/-- A field that is a number to its end, but not zero and not `ULONG_MAX`. -/
def number (sc : Scanner) (next : ℕ → Prog) : Prog :=
  .field sc
    (fun text => (strtoul text).1 ≠ 0 && (strtoul text).1 ≠ 2 ^ 64 - 1 && (strtoul text).2 = [])
    (.emits []) fun text => next (strtoul text).1

/-- A line of the output, a keyword and a value. -/
def setting (key text : Bytes) : Event := .printed (key ++ 32 :: text ++ [10])

/-- `process_wait` -/
def processWait (cfg : Config) (type : Bytes) (delay : ℕ) (next : Prog) : Prog :=
  .get fun vars =>
    let mytime := cfg.time (vars.calls + 1)
    let delay := if delay > 28 * 24 * 3600 then 28 * 24 * 3600 else delay
    let delay := if delay < 100 then 100 else delay
    .emit (setting type (natText ((mytime + delay) % 2 ^ 32)))
      (.modify (fun vars => { vars with calls := vars.calls + 2 }) next)

end AtlasProbe.Atlasinit
