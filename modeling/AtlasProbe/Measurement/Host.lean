import Mathlib.Algebra.Ring.Int.Defs
import AtlasProbe.Lib.Text
import AtlasProbe.Lib.Wire

/-!
# What the measurements have in common

The measurements of the probe run on one host (`Host`), which they ask for texts and times.  They
check the identifiers that they are given (`validateAtlasId`), learn the address of their
destination in the same way (`DnsResult`) and print their results in the same form: `identText` has
the identifiers, the versions (`versionText`) and the times, and `resultText` puts the parts of a
result together.

`plainHost` is a host with plain texts on which a run can be computed.
-/

namespace AtlasProbe.Measurement

open Wire

/-! ### Addresses and times -/

/-- `struct sockaddr_in` or `struct sockaddr_in6` -/
structure Sockaddr where
  /-- The family is `AF_INET6`, and otherwise `AF_INET`. -/
  inet6 : Bool
  addr : Bytes
  port : ℕ

/-- `struct timespec` -/
structure Timespec where
  sec : ℤ
  nsec : ℤ

/-- A time in milliseconds, to three digits behind the point.  It is computed from seconds and
nanoseconds of 64 bits each. -/
structure Millis where
  negative : Bool
  thousandths : ℕ
  lt : thousandths < 10 ^ 22

/-- `%.3f` -/
def Millis.text (ms : Millis) : Bytes := fixedText 3 ms.negative ms.thousandths

/-- The length of the IPv4 header at the start of a packet. -/
def hlen (buf : ℕ → UInt8) : ℕ := (u8 buf 0 &&& 15) * 4

/-! ### The host -/

/-- The process, and the calls that only turn values into texts or back. -/
structure Host where
  instanceId : ℕ
  myPid : ℕ
  myPid_lt : myPid < 2 ^ 32
  /-- `char` is a signed type. -/
  charSigned : Bool
  strerror : ℕ → Bytes
  /-- `inet_ntop` for addresses of 16 bytes. -/
  inetNtop : Bytes → Bytes
  getnameinfo : Sockaddr → Bytes
  /-- Whether `getaddrinfo` takes the name for an address. -/
  isNumeric : Bytes → Bool
  /-- What `get_atlas_fw_version` returns, and `ATLAS_MSM_VERSION` -/
  fwVersion : Int32
  msmVersion : Bytes
  /-- The difference of two times. -/
  millis : Timespec → Timespec → Millis
  /-- A time as it lies in memory. -/
  timespecBytes : Timespec → Bytes
  length_timespecBytes : ∀ t, (timespecBytes t).length = 16
  timespecOf : Bytes → Timespec

/-- Conversion to `char` -/
def Host.toChar (host : Host) (n : ℕ) : ℤ :=
  if host.charSigned ∧ 128 ≤ n % 256 then (n % 256 : ℕ) - 256 else (n % 256 : ℕ)

lemma Host.toChar_le (host : Host) (n : ℕ) : host.toChar n ≤ 255 := by
  unfold toChar
  split <;> omega

/-- A small number is kept, whether `char` is signed or not. -/
lemma Host.toChar_of_le (host : Host) {n : ℕ} (h : n ≤ 127) : host.toChar n = n := by
  unfold toChar
  rw [Nat.mod_eq_of_lt (by omega : n < 256), if_neg (by omega)]

/-- The result of the name resolution: an error with its message, an address, which may be a
forbidden one, or no address that can be used. -/
inductive DnsResult
  | failed (message : Bytes)
  | resolved (sin6 : Sockaddr) (allowed : Bool)
  | noAddr

/-- `validate_atlas_id` -/
def validateAtlasId (atlasId : Bytes) : Bool := atlasId.all isdigit

/-! ### The text of a result -/

/-- A line of 80 bytes. -/
def line (text : Bytes) : Bytes := snprintf 80 text

/-- `DBQ` for a key, with the colon. -/
def key (name : String) : Bytes := ascii "\"" ++ ascii name ++ ascii "\":"

/-- A string in quotes. -/
def quoted (text : Bytes) : Bytes := ascii "\"" ++ text ++ ascii "\""

/-- `atlas_get_version_json_str` -/
def versionText (fwVersion : Int32) (msmVersion : Bytes) : Bytes :=
  line (key "fw" ++ intText fwVersion.toInt ++ ascii ", " ++ key "mver" ++ ascii " " ++
    quoted msmVersion)

/-- The members for the identifiers, the versions and the times, if there is an identifier. -/
def identText (host : Host) (atlas bundle : Option CString) (timesync : Int32) (times : Bytes) :
    Bytes :=
  match atlas with
  | none => []
  | some id =>
    key "id" ++ quoted id.bytes ++ ascii ", " ++ versionText host.fwVersion host.msmVersion ++
      ascii ", " ++ key "lts" ++ intText timesync.toInt ++ ascii ", " ++ times ++ ascii ", " ++
      match bundle with
      | none => []
      | some bundle => key "bundle" ++ bundle.bytes ++ ascii ", "

/-- What `report` writes: the members for the identifiers, the name of the destination, other
members, and the list of the results. -/
def resultText (ident : Bytes) (hostname : CString) (members result : Bytes) : Bytes :=
  ascii "RESULT \x7b " ++ ident ++ key "dst_name" ++ quoted hostname.bytes ++ members ++
    ascii ", " ++ key "result" ++ ascii " [ " ++ result ++ ascii " ] \x7d\n"

/-! ### A plain host -/

/-- A host on which every text is plain, and the clock stands at zero. -/
def plainHost : Host where
  instanceId := 0
  myPid := 1
  myPid_lt := by decide
  charSigned := false
  strerror := fun _ => ascii "error"
  inetNtop := fun _ => ascii "::1"
  getnameinfo := fun _ => ascii "127.0.0.1"
  isNumeric := fun _ => true
  fwVersion := 5000
  msmVersion := ascii "2.4.1"
  millis := fun _ _ => ⟨false, 0, by decide⟩
  timespecBytes := fun _ => List.replicate 16 0
  length_timespecBytes := fun _ => List.length_replicate
  timespecOf := fun _ => ⟨0, 0⟩

/-- The address 127.0.0.1 -/
def plainAddr : Sockaddr := ⟨false, [127, 0, 0, 1], 0⟩

/-- The name of this address. -/
def plainName : CString := .ofBuffer (ascii "127.0.0.1")

/-- An IPv4 header without options. -/
def plainIpHeader (protocol : UInt8) : Bytes :=
  [69, 0, 0, 0, 0, 0, 0, 0, 64, protocol, 0, 0, 127, 0, 0, 1, 127, 0, 0, 1]

end AtlasProbe.Measurement
