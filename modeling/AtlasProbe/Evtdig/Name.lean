import AtlasProbe.Evtdig.Buf

/-!
# Names in DNS messages

`ReadName` makes a string of a name in a message, and `dns_namelen` finds its length.  A name is
a list of labels, each with its length in front, and may go on elsewhere in the message by way of
a pointer.  The bytes of the labels are copied as they are.
-/

namespace AtlasProbe.Evtdig

/-! ### `ReadName` -/

/-- The local variables of `ReadName`; `name` is what has been copied. -/
structure NameState where
  offset : ℕ
  name : Bytes
  jumped : Bool
  jumpCount : ℕ
  count : ℕ

/-- How a round of the loop of `ReadName` ends. -/
inductive NameStep where
  | stop
  /-- `*count` is `-1`. -/
  | error
  | next (s : NameState)

/-- Follow a pointer. -/
def NameState.jump (s : NameState) (noffset : ℕ) : NameState where
  offset := noffset
  name := s.name
  jumped := true
  jumpCount := s.jumpCount + 1
  count := if s.jumped then s.count else s.count + 2

/-- Copy a label. -/
def NameState.label (s : NameState) (label : Bytes) : NameState :=
  { s with
    offset := s.offset + label.length + 1
    name := s.name ++ label ++ ascii "."
    count := if s.jumped then s.count else s.count + label.length + 1 }

/-- A round of the loop of `ReadName`.  The second byte of a pointer at the end of the message is
the byte `behind` it. -/
def nameStep (behind : UInt8) (base : Bytes) (s : NameState) : NameStep :=
  let len := base.getD s.offset 0
  if base.length ≤ s.offset ∨ len = 0 then .stop
  else if len &&& 0xc0 ≠ 0 then
    let noffset := len.toNat % 64 * 256 + (base.getD (s.offset + 1) behind).toNat
    if len &&& 0xc0 ≠ 0xc0 then .error
    else if base.length ≤ noffset then .error
    else if 256 < s.jumpCount then .error
    else .next (s.jump noffset)
  else if base.length < s.offset + len.toNat + 1 then .error
  else if 255 < s.name.length + len.toNat + 1 then .error
  else .next (s.label ((base.drop (s.offset + 1)).take len.toNat))

/-- The loop of `ReadName`, cut off after `fuel` rounds, and what comes after it: the string up to
its first byte of `0`, without the last dot, and the number of bytes. -/
def readNameLoop (behind : UInt8) (base : Bytes) : ℕ → NameState → Option (Bytes × ℕ)
  | 0, _ => none
  | fuel + 1, s =>
    match nameStep behind base s with
    | .stop =>
      some (s.name.dropLast.takeWhile (· ≠ 0), if s.jumped then s.count else s.count + 1)
    | .error => none
    | .next s => readNameLoop behind base fuel s

/-- `ReadName`.  There are at most 257 jumps and 127 labels. -/
def readName (behind : UInt8) (base : Bytes) (offset : ℕ) : Option (Bytes × ℕ) :=
  readNameLoop behind base 513 ⟨offset, [], false, 0, 0⟩

/-! ### `dns_namelen` -/

/-- The loop of `dns_namelen`, cut off after `fuel` rounds: the end of the name.  A pointer is taken
to have one byte. -/
def dnsNamelenLoop (base : Bytes) : ℕ → ℕ → Option ℕ
  | 0, offset => some offset
  | fuel + 1, offset =>
    let len := base.getD offset 0
    if base.length ≤ offset then some offset
    else if len &&& 0xc0 ≠ 0 then if len &&& 0xc0 ≠ 0xc0 then none else some (offset + 1)
    else if base.length < offset + len.toNat + 1 then none
    else if len = 0 then some (offset + 1)
    else dnsNamelenLoop base fuel (offset + len.toNat + 1)

/-- `dns_namelen`. -/
def dnsNamelen (base : Bytes) (offset : ℕ) : Option ℕ :=
  (dnsNamelenLoop base (base.length + 1) offset).map (· - offset)

end AtlasProbe.Evtdig
