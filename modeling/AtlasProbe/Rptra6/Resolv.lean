import AtlasProbe.Lib.Text
import AtlasProbe.Lib.Wire
import AtlasProbe.Lib.Reactive

/-!
# Resolvers from router advertisements

`rptra6` keeps a list of resolvers in memory and in a file.  `do_resolv` goes through the options of
a router advertisement; each option with resolvers is put into a list `dnsnext`, and if this list
differs from `dnscurr`, then it becomes the new one and the file is written.

The lists have three rows of fixed size.  A name that is longer than a row overwrites what is behind
it; there is no result then.
-/

namespace AtlasProbe.Rptra6

open Wire

/-- `N_DNS` -/
def nDns : ℕ := 3

/-- `INET6_ADDRSTRLEN`, the size of a row. -/
def rowSize : ℕ := 46

/-- The size of `struct nd_router_advert`. -/
def advertSize : ℕ := 16

/-- `ND_ROUTER_ADVERT` -/
def ndRouterAdvert : ℕ := 134

/-- `OPT_RDNSS` -/
def optRdnss : ℕ := 25

/-- What does not change: the texts of addresses, and the options of the program. -/
structure Env where
  inetNtop : Bytes → Bytes
  interfaceName : Option Bytes
  updateCmd : Bool

/-- The lists of resolvers. -/
abbrev Rows := List Bytes

/-- The variables of `main`, the file with the resolvers, and how often the command for updates has
been called. -/
structure State where
  dnscurr : Rows
  dnsexpires : ℤ
  resolv : Option Bytes
  updates : ℕ

/-- At first the rows hold what no resolver has as its name. -/
def unknown : Rows := List.replicate nDns (ascii "!")

/-- The state in front of the loop of `main`. -/
def initial (resolv : Option Bytes) : State := ⟨unknown, 0, resolv, 0⟩

section Options

variable (env : Env)

/-- `IN6_IS_ADDR_LINKLOCAL` -/
def isLinkLocal (addr : Bytes) : Bool := addr.getD 0 0 == 254 && addr.getD 1 0 &&& 192 == 128

/-- The size of `namebuf`. -/
def namebufSize : ℕ := 1025 + 16

/-- The name of a resolver: its address, with the interface if this is needed. -/
def namebuf (addr : Bytes) : Bytes :=
  match env.interfaceName with
  | none => env.inetNtop addr
  | some interface =>
    if isLinkLocal addr then
      strlcat namebufSize (strlcat namebufSize (env.inetNtop addr) (ascii "%")) interface
    else env.inetNtop addr

/-- The loop over the addresses of an option, from the row `n` on. -/
def store : List Bytes → ℕ → Rows → Option Rows
  | [], _, rows => some rows
  | addr :: addrs, n, rows =>
    if n < nDns then
      if (namebuf env addr).length < rowSize then
        store addrs (n + 1) (rows.set n (namebuf env addr))
      else none
    else store addrs n rows

/-- The lifetime of an option.  One year is infinite enough. -/
def lifetimeOf (lifetime : ℕ) : ℕ := if lifetime = 2 ^ 32 - 1 then 365 * 24 * 3600 else lifetime

/-- What is written to the file. -/
def fileText (rows : Rows) : Bytes :=
  (rows.takeWhile (· ≠ [])).flatMap fun name => ascii "nameserver " ++ name ++ ascii "\n"

/-- The list is a new one. -/
def State.update (s : State) (dnsnext : Rows) : State :=
  { s with
    dnscurr := dnsnext
    resolv := some (fileText dnsnext)
    updates := if env.updateCmd then s.updates + 1 else s.updates }

/-- An option with resolvers, at the time `now`. -/
def rdnss (lifetime : ℕ) (addrs : List Bytes) (now : ℤ) (x : State × Rows) :
    Option (State × Rows) :=
  let lifetime := lifetimeOf lifetime
  let dnsnext := if lifetime = 0 then some x.2 else store env addrs 0 x.2
  dnsnext.map fun dnsnext =>
    let s := if x.1.dnscurr ≠ dnsnext then x.1.update env dnsnext else x.1
    ({ s with dnsexpires := if lifetime = 0 then 0 else now + lifetime }, dnsnext)

/-- The addresses in the option at `o`. -/
def addrsAt (buf : ℕ → UInt8) (o : ℕ) : List Bytes :=
  (List.range ((u8 buf (o + 1) * 8 - 8) / 16)).map fun k => bytesAt buf (o + 8 + 16 * k) 16

/-- The places of the options, from `o` on. -/
def walk (buf : ℕ → UInt8) (nrecv : ℕ) : ℕ → ℕ → List ℕ
  | 0, _ => []
  | fuel + 1, o =>
    if nrecv ≤ o then []
    else if nrecv < o + 2 then []
    else if u8 buf (o + 1) = 0 then []
    else o :: walk buf nrecv fuel (o + u8 buf (o + 1) * 8)

/-- A packet, with the time when the option at some place is handled and the time at the end. -/
structure Packet where
  buf : ℕ → UInt8
  nrecv : ℕ
  now : ℕ → ℤ
  final : ℤ

/-- An option in the loop of `do_resolv`. -/
def handle (p : Packet) (x : State × Rows) (o : ℕ) : Option (State × Rows) :=
  if u8 p.buf o = optRdnss then rdnss env (u32 p.buf (o + 4)) (addrsAt p.buf o) (p.now o) x
  else some x

/-- The end of `do_resolv`. -/
def State.expire (s : State) (now : ℤ) : State :=
  if s.dnsexpires ≠ 0 ∧ s.dnsexpires < now then
    { s with dnsexpires := 0, dnscurr := unknown, resolv := some [] }
  else s

/-- `do_resolv`.  The list `dnsnext` is cleared once. -/
def doResolv (p : Packet) (s : State) : Option State :=
  ((walk p.buf p.nrecv p.nrecv advertSize).foldlM (handle env p)
    (s, List.replicate nDns [])).map fun x => x.1.expire p.final

/-- A packet in the loop of `main`, with a file for the resolvers. -/
def receive (s : Option State) (p : Packet) : Option State :=
  if u8 p.buf 0 = ndRouterAdvert then s.bind (doResolv env p) else s

end Options

end AtlasProbe.Rptra6
