import AtlasProbe.Evtdig.PrintReply
import AtlasProbe.Evtdig.Session
import AtlasProbe.Lib.Ring
import AtlasProbe.Libbb.ValidateFilename

/-!
# The list of queries

`tdig_init` allocates a query, reads the options and puts the query into a circular list that starts
at `qry_head`; `tdig_delete` takes it out and frees it.  The base also counts the queries in
`activeqry`.  Which addresses the allocator returns is left open; only an address that is in use is
never returned again.
-/

namespace AtlasProbe.Evtdig

open Libbb AtlasProbe.Ring Function
open Measurement (validateAtlasId)

/-! ### The heap -/

/-- The address of a `struct query_state`. -/
abbrev QueryAddr := ℕ

/-- The fields of `struct query_state` that `tdig_init` and `tdig_delete` use for the list; `base`
is whether the field points to the base. -/
structure QueryCell where
  base : Bool := false
  qst : Status := .free
  next : Option QueryAddr := none
  prev : Option QueryAddr := none

/-- `struct tdig_base`, and the queries that are allocated. -/
structure TdigBase where
  qryHead : Option QueryAddr
  activeqry : UInt32
  heap : QueryAddr → Option QueryCell

/-- What `tdig_base_new` makes. -/
def tdigBaseNew : TdigBase where
  qryHead := none
  activeqry := 0
  heap _ := none

namespace TdigBase

/-- The field `next` of a query. -/
def next (s : TdigBase) (qry : QueryAddr) : Option QueryAddr := (s.heap qry).bind QueryCell.next

/-- The field `prev` of a query. -/
def prev (s : TdigBase) (qry : QueryAddr) : Option QueryAddr := (s.heap qry).bind QueryCell.prev

/-- Read the field `next` of a query, which has to be allocated. -/
def readNext (s : TdigBase) (qry : QueryAddr) : Option (Option QueryAddr) :=
  (s.heap qry).map QueryCell.next

/-- Read the field `prev` of a query, which has to be allocated. -/
def readPrev (s : TdigBase) (qry : QueryAddr) : Option (Option QueryAddr) :=
  (s.heap qry).map QueryCell.prev

/-- Change the query that the pointer `p` points to.  There is no result if `p` is null or points to
a query that has been freed. -/
def modify (s : TdigBase) (p : Option QueryAddr) (f : QueryCell → QueryCell) : Option TdigBase := do
  let a ← p
  let cell ← s.heap a
  some { s with heap := update s.heap a (some (f cell)) }

/-- `p->next = v` -/
def setNext (s : TdigBase) (p v : Option QueryAddr) : Option TdigBase :=
  s.modify p ({ · with next := v })

/-- `p->prev = v` -/
def setPrev (s : TdigBase) (p v : Option QueryAddr) : Option TdigBase :=
  s.modify p ({ · with prev := v })

/-! ### `tdig_delete` -/

/-- Take a query out of the list. -/
def unlink (s : TdigBase) (qry : QueryAddr) : Option TdigBase := do
  let q ← s.heap qry
  if q.next = q.prev ∧ q.next = some qry then
    if q.base then some { s with qryHead := none } else none
  else
    let s ← (if q.next.isSome then s.setPrev q.next q.prev else some s)
    let prev ← s.readPrev qry
    let next ← s.readNext qry
    let s ← (if prev.isSome then s.setNext prev next else some s)
    let next ← s.readNext qry
    some (if q.base ∧ s.qryHead = some qry then { s with qryHead := next } else s)

/-- `tdig_delete`, which returns `0` for a query that is busy. -/
def tdigDelete (s : TdigBase) (qry : QueryAddr) : Option (TdigBase × ℕ) := do
  let q ← s.heap qry
  if q.qst ≠ .free then some (s, 0)
  else
    let s ← s.unlink qry
    let q ← s.heap qry
    let s := if q.base then { s with activeqry := s.activeqry - 1 } else s
    some ({ s with heap := update s.heap qry none }, 1)

end TdigBase

/-! ### `tdig_init` -/

/-- What `getopt_long` returns, as far as it has to do with the checks that can fail. -/
inductive Opt where
  /-- `-A` -/
  | atlas (arg : CString)
  /-- `-B` -/
  | bundle (arg : CString)
  /-- `-b`, `-h`, `-i` and `-r` with their fixed names, `-s`, `--query` and the options for types of
  records with the name in the argument. -/
  | lookup (name : CString)
  /-- `-O` -/
  | out (arg : CString)
  /-- `--write-response` -/
  | responseOut (arg : CString)
  /-- `--read-response` -/
  | responseIn (arg : CString)
  /-- `--cookies` -/
  | cookies
  /-- `--resolv` -/
  | resolvConf
  /-- An option whose check passes for all arguments, such as `--type` and `--class`: the fields
  `qtype` and `qclass` have 16 bits. -/
  | other
  /-- An option that is not in the list. -/
  | unknown

/-- The fields of the query that the options set. -/
structure OptState where
  macroLookupname : Option CString := none
  outFilename : Option CString := none
  responseOut : Option CString := none
  responseIn : Option CString := none
  optCookies : Bool := false
  optResolvConf : Bool := false

/-- A round of the loop over the options; there is no result if the query is deleted. -/
def OptState.step (o : OptState) : Opt → Option OptState
  | .atlas arg => if validateAtlasId arg.bytes then some o else none
  | .bundle arg => if validateAtlasId arg.bytes then some o else none
  | .lookup name => some { o with macroLookupname := some name }
  | .out arg => some { o with outFilename := some arg }
  | .responseOut arg => some { o with responseOut := some arg }
  | .responseIn arg => some { o with responseIn := some arg }
  | .cookies => some { o with optCookies := true }
  | .resolvConf => some { o with optResolvConf := true }
  | .other => some o
  | .unknown => none

/-- What a call of `tdig_init` depends on: the command line and its surroundings. -/
structure InitArgs where
  opts : List Opt
  /-- Whether `optind` is `argc - 1`. -/
  server : Bool
  /-- The result of `atlas_unsafe`. -/
  atlasUnsafe : Bool
  /-- `ATLAS_SPOOLDIR` -/
  spooldir : CString
  /-- The byte in memory in front of the name, which is looked at if the name is empty. -/
  before : UInt8
  /-- How many bytes can be read from `/dev/urandom`, if it can be opened. -/
  urandom : Option ℕ

/-- The directory of the output, `SAFE_PREFIX_REL`. -/
def safePrefixRel : CString := ⟨ascii "data/new", zero_notMem_new⟩

/-- `ATLAS_FUZZING_REL` -/
def atlasFuzzingRel : CString := ⟨ascii "data", by decide⟩

/-- A file name is not given, or it passes `rebased_validated_filename`. -/
def InitArgs.fileOk (args : InitArgs) (dir : CString) : Option CString → Bool
  | none => true
  | some path => (rebasedValidatedFilename args.atlasUnsafe args.spooldir path dir).isSome

/-- `argProcess`: whether all its checks pass. -/
def InitArgs.argProcess (args : InitArgs) (o : OptState) : Bool :=
  (o.optResolvConf || args.server) &&
    match o.macroLookupname with
    | none => false
    | some name =>
      name.bytes.getLastD args.before == 46 && args.fileOk safePrefixRel o.outFilename &&
        args.fileOk atlasFuzzingRel o.responseIn && args.fileOk atlasFuzzingRel o.responseOut

/-- The client secret of 32 bytes can be read, if cookies are wanted. -/
def InitArgs.cookieOk (args : InitArgs) (o : OptState) : Bool :=
  !o.optCookies || args.urandom == some 32

/-- All checks of `tdig_init` pass. -/
def InitArgs.accepted (args : InitArgs) : Bool :=
  match args.opts.foldlM OptState.step {} with
  | none => false
  | some o => args.argProcess o && args.cookieOk o

namespace TdigBase

/-- Put a query into the empty list. -/
def insertFirst (s : TdigBase) (qry : QueryAddr) : Option TdigBase := do
  let s ← s.setPrev qry qry
  let s ← s.setNext qry qry
  some { s with qryHead := qry }

/-- Put a query into the list behind its first one. -/
def insertBehind (s : TdigBase) (head qry : QueryAddr) : Option TdigBase := do
  let prev ← s.readPrev head
  let s ← (if prev = some head then s.setPrev head qry else some s)
  let next ← s.readNext head
  let s ← s.setNext qry next
  let s ← s.setPrev qry head
  let next ← s.readNext head
  let s ← s.setPrev next qry
  s.setNext head qry

/-- The end of `tdig_init`, where a query becomes a part of the list. -/
def insert (s : TdigBase) (qry : QueryAddr) : Option TdigBase := do
  let s ← s.modify qry ({ · with base := true })
  match s.qryHead with
  | none => s.insertFirst qry
  | some head => s.insertBehind head qry

/-- The start of `tdig_init`: a query is allocated and counted. -/
def allocate (s : TdigBase) (qry : QueryAddr) : TdigBase :=
  { s with activeqry := s.activeqry + 1, heap := update s.heap qry (some {}) }

/-- `tdig_init`, when the allocator returns `qry`.  A query whose secret cannot be read is not
freed. -/
def tdigInit (s : TdigBase) (qry : QueryAddr) (args : InitArgs) :
    Option (TdigBase × Option QueryAddr) :=
  let s := s.allocate qry
  match args.opts.foldlM OptState.step {} with
  | none => do
    let (s, _) ← s.tdigDelete qry
    some (s, none)
  | some o => do
    if !args.argProcess o then
      let (s, _) ← s.tdigDelete qry
      some (s, none)
    else if !args.cookieOk o then some (s, none)
    else
      let s ← s.insert qry
      some (s, some qry)

end TdigBase

/-! ### What a write leaves alone -/

/-- The two states agree but for the links between the queries. -/
structure SameButLinks (s t : TdigBase) : Prop where
  qryHead : t.qryHead = s.qryHead
  activeqry : t.activeqry = s.activeqry
  base : ∀ a, (t.heap a).map QueryCell.base = (s.heap a).map QueryCell.base
  qst : ∀ a, (t.heap a).map QueryCell.qst = (s.heap a).map QueryCell.qst

lemma SameButLinks.refl (s : TdigBase) : SameButLinks s s :=
  ⟨rfl, rfl, fun _ => rfl, fun _ => rfl⟩

lemma SameButLinks.trans {s t u : TdigBase} (h : SameButLinks s t) (h' : SameButLinks t u) :
    SameButLinks s u where
  qryHead := h'.qryHead.trans h.qryHead
  activeqry := h'.activeqry.trans h.activeqry
  base a := (h'.base a).trans (h.base a)
  qst a := (h'.qst a).trans (h.qst a)

lemma SameButLinks.isSome {s t : TdigBase} (h : SameButLinks s t) (a : QueryAddr) :
    (t.heap a).isSome = (s.heap a).isSome := by
  have hbase := congrArg Option.isSome (h.base a)
  rwa [Option.isSome_map, Option.isSome_map] at hbase

lemma TdigBase.modify_eq {s : TdigBase} {a : QueryAddr} {cell : QueryCell}
    (h : s.heap a = some cell) (f : QueryCell → QueryCell) :
    s.modify (some a) f = some { s with heap := update s.heap a (some (f cell)) } := by
  unfold modify
  rw [Option.bind_eq_bind, Option.bind_some, h]
  rfl

/-- From `s` to `t` only links have been written, and these are now `next` and `prev`. -/
structure Rewired (s : TdigBase) (next prev : QueryAddr → Option QueryAddr) (t : TdigBase) : Prop
    extends SameButLinks s t where
  next_eq : t.next = next
  prev_eq : t.prev = prev

namespace Rewired

variable {s t : TdigBase} {next prev : QueryAddr → Option QueryAddr} {a : QueryAddr}

lemma refl (s : TdigBase) : Rewired s s.next s.prev s := ⟨.refl s, rfl, rfl⟩

lemma readNext (h : Rewired s next prev t) (ha : (s.heap a).isSome) :
    t.readNext a = some (next a) := by
  obtain ⟨cell, hcell⟩ := Option.isSome_iff_exists.mp ((h.isSome a).trans ha)
  rw [← h.next_eq, TdigBase.readNext, TdigBase.next, hcell, Option.map_some, Option.bind_some]

lemma readPrev (h : Rewired s next prev t) (ha : (s.heap a).isSome) :
    t.readPrev a = some (prev a) := by
  obtain ⟨cell, hcell⟩ := Option.isSome_iff_exists.mp ((h.isSome a).trans ha)
  rw [← h.prev_eq, TdigBase.readPrev, TdigBase.prev, hcell, Option.map_some, Option.bind_some]

/-- A write to a link of a query that is allocated. -/
lemma setLink (h : Rewired s next prev t) (ha : (s.heap a).isSome) (v : Option QueryAddr) :
    (∃ u, t.setNext (some a) v = some u ∧ Rewired s (update next a v) prev u) ∧
      ∃ u, t.setPrev (some a) v = some u ∧ Rewired s next (update prev a v) u := by
  obtain ⟨cell, hcell⟩ := Option.isSome_iff_exists.mp ((h.isSome a).trans ha)
  constructor
  all_goals
    refine ⟨_, TdigBase.modify_eq hcell _, h.toSameButLinks.trans ⟨rfl, rfl, ?_, ?_⟩, ?_, ?_⟩
    all_goals
      first | intro x | funext x
      by_cases hx : x = a
      · subst hx
        simp [← h.next_eq, ← h.prev_eq, TdigBase.next, TdigBase.prev, hcell]
      · simp [← h.next_eq, ← h.prev_eq, TdigBase.next, TdigBase.prev, hx]

end Rewired

end AtlasProbe.Evtdig
