import Mathlib.Data.List.Infix
import AtlasProbe.Lib.Text

/-!
# File names and what they resolve to

A path is a list of bytes, cut into parts at its slashes.  Resolving it lexically walks through the
parts from the root: an empty part and `.` stay where they are, `..` goes one level up, any other
part goes one level down.  Behind a point where no `..` follows, the walk can only go down, so the
path stays inside the directory it has reached there.
-/

namespace AtlasProbe.Path

open List

/-- The parts of a path between its slashes. -/
def parts (path : Bytes) : List Bytes := path.splitOn 47

/-- The part `.`, the directory itself. -/
def here : Bytes := ascii "."

/-- The part `..`, the directory above. -/
def up : Bytes := ascii ".."

/-- Where one part of a path leads from the directory `dir`, given by the names from the root on. -/
def walk (dir : List Bytes) (part : Bytes) : List Bytes :=
  if part = [] ∨ part = here then dir else if part = up then dir.dropLast else dir ++ [part]

/-- Where a path leads from the root. -/
def resolve (path : Bytes) : List Bytes := (parts path).foldl walk []

/-- The parts that go one level down. -/
def names (path : Bytes) : List Bytes :=
  (parts path).filter fun part => part ≠ [] ∧ part ≠ here

/-- The path of `name` in the directory `dir`. -/
def join (dir name : Bytes) : Bytes := dir ++ 47 :: name

/-- The path resolves to the directory or to something below it. -/
def Inside (dir path : Bytes) : Prop := resolve dir <+: resolve path

/-- The path resolves to something below the directory. -/
def StrictlyInside (dir path : Bytes) : Prop :=
  Inside dir path ∧ resolve path ≠ resolve dir

/-! ### Parts -/

lemma parts_join (dir name : Bytes) : parts (join dir name) = parts dir ++ parts name :=
  splitOnP_append_cons dir name (by decide)

lemma parts_cons_slash (path : Bytes) : parts (47 :: path) = [] :: parts path :=
  parts_join [] path

lemma parts_cons {b : UInt8} (h : b ≠ 47) (path : Bytes) :
    parts (b :: path) = (parts path).modifyHead (b :: ·) := by
  have hb : ¬(b == 47) = true := by simpa using h
  unfold parts splitOn
  rw [splitOnP_cons_eq_if_modifyHead, if_neg hb]

lemma parts_ne_nil (path : Bytes) : parts path ≠ [] := splitOnP_ne_nil _ path

/-- With a slash in front of each of them the parts give the path back. -/
lemma flatten_parts (path : Bytes) : ((parts path).map (47 :: ·)).flatten = 47 :: path := by
  induction path with
  | nil => rfl
  | cons b path ih =>
    by_cases hb : b = 47
    · rw [hb, parts_cons_slash, map_cons, flatten_cons, ih]
      rfl
    · rw [parts_cons hb]
      obtain ⟨first, rest, hparts⟩ := exists_cons_of_ne_nil (parts_ne_nil path)
      rw [hparts, map_cons, flatten_cons, cons_append, List.cons.injEq] at ih
      rw [hparts, modifyHead_cons, map_cons, flatten_cons, cons_append, cons_append, ih.2]

/-- Each part stands between two slashes, or between a slash and the end of the path. -/
lemma exists_of_mem_parts {path part : Bytes} (h : part ∈ parts path) :
    ∃ front back, 47 :: path = front ++ (47 :: part ++ back) ∧
      (back = [] ∨ ∃ tail, back = 47 :: tail) := by
  obtain ⟨before, after, hparts⟩ := append_of_mem h
  have hpath := flatten_parts path
  rw [hparts, map_append, flatten_append, map_cons] at hpath
  refine ⟨_, _, hpath.symm, ?_⟩
  cases after with
  | nil => exact .inl rfl
  | cons part after => exact .inr ⟨part ++ (after.map (47 :: ·)).flatten, rfl⟩

/-- A path with no `/../` in it that does not end in `/..` has no part `..` behind its slashes. -/
lemma up_notMem_parts {path front back : Bytes} (hpath : path = join front back)
    (hwithin : ¬ascii "/../" <:+: path) (hsuffix : ¬ascii "/.." <:+ path) : up ∉ parts back := by
  intro hmem
  obtain ⟨before, after, hback, hafter⟩ := exists_of_mem_parts hmem
  rw [join, hback] at hpath
  rcases hafter with rfl | ⟨tail, rfl⟩
  · exact hsuffix ⟨front ++ before, by rw [hpath, append_assoc]; rfl⟩
  · exact hwithin ⟨front ++ before, tail, by rw [hpath]; simp [up, ascii]⟩

/-! ### Walking -/

lemma foldl_walk_of_up_notMem {ps : List Bytes} (h : up ∉ ps) (dir : List Bytes) :
    ps.foldl walk dir = dir ++ ps.filter fun part => part ≠ [] ∧ part ≠ here := by
  induction ps generalizing dir with
  | nil => exact (append_nil dir).symm
  | cons part ps ih =>
    rw [mem_cons, not_or] at h
    rw [foldl_cons, ih h.2]
    unfold walk
    by_cases hstay : part = [] ∨ part = here
    · rw [if_pos hstay, filter_cons_of_neg]
      simpa only [decide_eq_true_eq, not_and_or, not_not] using hstay
    · rw [if_neg hstay, if_neg (Ne.symm h.1), append_assoc, singleton_append,
        filter_cons_of_pos]
      simpa only [decide_eq_true_eq, not_or] using hstay

variable {name : Bytes}

/-- With no `..` behind the directory, the names behind it are added to what it resolves to. -/
lemma resolve_join (h : up ∉ parts name) (dir : Bytes) :
    resolve (join dir name) = resolve dir ++ names name := by
  unfold resolve
  rw [parts_join, foldl_append, foldl_walk_of_up_notMem h]
  rfl

lemma inside_join (h : up ∉ parts name) (dir : Bytes) :
    Inside dir (join dir name) := ⟨names name, (resolve_join h dir).symm⟩

/-- The path is below the directory unless all that is behind it are slashes and `.`. -/
lemma strictlyInside_join_iff (h : up ∉ parts name) (dir : Bytes) :
    StrictlyInside dir (join dir name) ↔ names name ≠ [] := by
  unfold StrictlyInside
  rw [and_iff_right (inside_join h dir), resolve_join h, Ne, append_right_eq_self]

end AtlasProbe.Path
