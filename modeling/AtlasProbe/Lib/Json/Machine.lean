import AtlasProbe.Lib.Json.Grammar

/-!
# A machine that reads JSON

A pushdown automaton that reads a JSON text byte by byte (`step`, `run`).  The stack has the arrays
and objects that are open (`Ctx`), and the `Mode` says what is expected.  A text that is put
together from pieces is checked by running the machine on one piece after the other.
-/

namespace AtlasProbe.Json

/-- What is open. -/
inductive Ctx where
  | array
  | object
  deriving DecidableEq

/-- The parts of a number that have been read. -/
inductive NumMode where
  | minus
  | zero
  | int
  | dot
  | frac
  | exp
  | expSign
  | expDigits
  deriving DecidableEq

/-- What the machine has read last, or what it expects. -/
inductive Mode where
  /-- A value. -/
  | value
  /-- A value, or the end of an array. -/
  | first
  /-- A key. -/
  | key
  /-- A key, or the end of an object. -/
  | firstKey
  /-- The colon behind a key. -/
  | colon
  /-- What follows a value. -/
  | after
  /-- A character of a string, which is a key or a value. -/
  | str (isKey : Bool)
  /-- What follows a backslash. -/
  | esc (isKey : Bool)
  /-- The last `n + 1` hexadecimal digits of a character. -/
  | hex (isKey : Bool) (n : Nat)
  /-- The rest of a number. -/
  | num (n : NumMode)
  /-- The rest of a literal, which is not empty. -/
  | lit (b : UInt8) (rest : Bytes)
  deriving DecidableEq

/-- The state of the machine. -/
structure State where
  mode : Mode
  stack : List Ctx
  deriving DecidableEq

/-- The mode behind a string. -/
def Mode.closed (isKey : Bool) : Mode := if isKey then .colon else .after

/-- A byte where a value is expected. -/
def stepValue (st : List Ctx) (b : UInt8) : Option State :=
  if isWs b then some ⟨.value, st⟩
  else if b = 34 then some ⟨.str false, st⟩
  else if b = 91 then some ⟨.first, .array :: st⟩
  else if b = 123 then some ⟨.firstKey, .object :: st⟩
  else if b = 45 then some ⟨.num .minus, st⟩
  else if b = 48 then some ⟨.num .zero, st⟩
  else if isdigit b then some ⟨.num .int, st⟩
  else if b = 116 then some ⟨.lit 114 [117, 101], st⟩
  else if b = 102 then some ⟨.lit 97 [108, 115, 101], st⟩
  else if b = 110 then some ⟨.lit 117 [108, 108], st⟩
  else none

/-- A byte behind a value. -/
def stepAfter (st : List Ctx) (b : UInt8) : Option State :=
  if isWs b then some ⟨.after, st⟩
  else
    match st with
    | [] => none
    | .array :: st =>
      if b = 44 then some ⟨.value, .array :: st⟩
      else if b = 93 then some ⟨.after, st⟩
      else none
    | .object :: st =>
      if b = 44 then some ⟨.key, .object :: st⟩
      else if b = 125 then some ⟨.after, st⟩
      else none

/-- A byte where a key is expected. -/
def stepKey (st : List Ctx) (b : UInt8) : Option State :=
  if isWs b then some ⟨.key, st⟩
  else if b = 34 then some ⟨.str true, st⟩
  else none

/-- A byte in a number; a number ends where it cannot go on. -/
def stepNum (st : List Ctx) (b : UInt8) : NumMode → Option State
  | .minus =>
    if b = 48 then some ⟨.num .zero, st⟩ else if isdigit b then some ⟨.num .int, st⟩ else none
  | .zero =>
    if b = 46 then some ⟨.num .dot, st⟩
    else if isExp b then some ⟨.num .exp, st⟩
    else stepAfter st b
  | .int =>
    if isdigit b then some ⟨.num .int, st⟩
    else if b = 46 then some ⟨.num .dot, st⟩
    else if isExp b then some ⟨.num .exp, st⟩
    else stepAfter st b
  | .dot => if isdigit b then some ⟨.num .frac, st⟩ else none
  | .frac =>
    if isdigit b then some ⟨.num .frac, st⟩
    else if isExp b then some ⟨.num .exp, st⟩
    else stepAfter st b
  | .exp =>
    if isSign b then some ⟨.num .expSign, st⟩
    else if isdigit b then some ⟨.num .expDigits, st⟩
    else none
  | .expSign => if isdigit b then some ⟨.num .expDigits, st⟩ else none
  | .expDigits => if isdigit b then some ⟨.num .expDigits, st⟩ else stepAfter st b

/-- The machine reads a byte. -/
def step (s : State) (b : UInt8) : Option State :=
  match s.mode with
  | .value => stepValue s.stack b
  | .first =>
    if isWs b then some s
    else if b = 93 then s.stack.head?.map fun _ => ⟨.after, s.stack.tail⟩
    else stepValue s.stack b
  | .key => stepKey s.stack b
  | .firstKey =>
    if isWs b then some s
    else if b = 125 then s.stack.head?.map fun _ => ⟨.after, s.stack.tail⟩
    else stepKey s.stack b
  | .colon =>
    if isWs b then some s else if b = 58 then some ⟨.value, s.stack⟩ else none
  | .after => stepAfter s.stack b
  | .str isKey =>
    if b = 34 then some ⟨.closed isKey, s.stack⟩
    else if b = 92 then some ⟨.esc isKey, s.stack⟩
    else if isPlain b then some s
    else none
  | .esc isKey =>
    if isEscape b then some ⟨.str isKey, s.stack⟩
    else if b = 117 then some ⟨.hex isKey 3, s.stack⟩
    else none
  | .hex isKey n =>
    if isHex b then
      match n with
      | 0 => some ⟨.str isKey, s.stack⟩
      | n + 1 => some ⟨.hex isKey n, s.stack⟩
    else none
  | .num n => stepNum s.stack b n
  | .lit c rest =>
    if b = c then
      match rest with
      | [] => some ⟨.after, s.stack⟩
      | c :: rest => some ⟨.lit c rest, s.stack⟩
    else none

/-- The machine reads a text. -/
def run (s : State) : Bytes → Option State
  | [] => some s
  | b :: t => (step s b).bind fun s => run s t

/-- A number may end here. -/
def NumMode.ends : NumMode → Bool
  | .zero | .int | .frac | .expDigits => true
  | _ => false

/-- A value may end here. -/
def Mode.ends : Mode → Bool
  | .after => true
  | .num n => n.ends
  | _ => false

/-- The text may end here. -/
def State.final (s : State) : Bool := s.mode.ends && s.stack.isEmpty

/-- The machine accepts the text. -/
def accepts (s : State) (t : Bytes) : Bool := (run s t).any State.final

/-- The state before a JSON text. -/
def start : State := ⟨.value, []⟩

end AtlasProbe.Json
