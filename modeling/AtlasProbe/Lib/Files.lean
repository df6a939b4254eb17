import AtlasProbe.Lib.Bytes
import Mathlib.Data.Fintype.Option

/-!
# Files and their names

The files of a directory, as far as processes that share it can tell them apart.  A name is bound to
an inode, or to none; the bytes belong to the inode, so that a process that has a file open goes on
with its inode when the name is bound to another one.  No file has two names.  The system calls are
`unlink`, `rename`, `openCreat`, `openTrunc`, `write` and `append`, and `contents` is what a reader
of a name finds.
-/

namespace AtlasProbe

open Function

/-- A directory with names in `N`, and the inodes of its files. -/
structure Files (N : Type*) where
  /-- The inode to which a name is bound. -/
  names : N → Option ℕ
  /-- The bytes of an inode. -/
  data : ℕ → Bytes
  /-- The next inode that is allocated. -/
  next : ℕ
  inj : ∀ {a b i}, names a = some i → names b = some i → a = b
  lt_next : ∀ {a i}, names a = some i → i < next

namespace Files

/-- An empty directory. -/
def empty (N : Type*) : Files N where
  names _ := none
  data _ := []
  next := 0
  inj h _ := by cases h
  lt_next h := by cases h

variable {N : Type*} [DecidableEq N] (f : Files N)

/-! ### System calls -/

/-- The bytes of the file with a name. -/
def contents (a : N) : Option Bytes := (f.names a).map f.data

/-- `unlink`; it fails if the name is not bound, which changes nothing. -/
def unlink (a : N) : Files N where
  names := update f.names a none
  data := f.data
  next := f.next
  inj {b c i} hb hc := by
    rw [update_apply] at hb hc
    split_ifs at hb hc
    exact f.inj hb hc
  lt_next {b i} hb := by
    rw [update_apply] at hb
    split_ifs at hb
    exact f.lt_next hb

/-- `rename`, if the first name is bound. -/
def rename (a b : N) : Option (Files N) :=
  if f.names a = none then none
  else some {
    names := fun c => if c = b then f.names a else if c = a then none else f.names c
    data := f.data
    next := f.next
    inj := by
      intro c d i hc hd
      split_ifs at hc hd with hcb hdb hda hca hdb hda
      · exact hcb.trans hdb.symm
      · exact absurd (f.inj hd hc) hda
      · exact absurd (f.inj hc hd) hca
      · exact f.inj hc hd
    lt_next := by
      intro c i hc
      split_ifs at hc
      · exact f.lt_next hc
      · exact f.lt_next hc }

/-- Write bytes to an inode, over those that are there. -/
def store (i : ℕ) (bytes : Bytes) : Files N :=
  { f with data := update f.data i bytes }

/-- Bind a name that is not bound to a new, empty inode. -/
def fresh (a : N) : Files N where
  names := update f.names a (some f.next)
  data := update f.data f.next []
  next := f.next + 1
  inj {b c i} hb hc := by
    rw [update_apply] at hb hc
    split_ifs at hb hc with hba hca hca
    · exact hba.trans hca.symm
    · cases hb
      exact absurd (f.lt_next hc) (lt_irrefl _)
    · cases hc
      exact absurd (f.lt_next hb) (lt_irrefl _)
    · exact f.inj hb hc
  lt_next {b i} hb := by
    rw [update_apply] at hb
    split_ifs at hb with hba
    · cases hb
      exact Nat.lt_succ_self _
    · exact (f.lt_next hb).trans (Nat.lt_succ_self _)

/-- `open` with `O_CREAT`; the result has the inode. -/
def openCreat (a : N) : Files N × ℕ :=
  match f.names a with
  | some i => (f, i)
  | none => (f.fresh a, f.next)

/-- `open` with `O_CREAT` and `O_TRUNC`. -/
def openTrunc (a : N) : Files N × ℕ :=
  ((f.openCreat a).1.store (f.openCreat a).2 [], (f.openCreat a).2)

/-- `write` at the start of a file. -/
def write (i : ℕ) (bytes : Bytes) : Files N :=
  f.store i (bytes ++ (f.data i).drop bytes.length)

/-- `write` with `O_APPEND`. -/
def append (i : ℕ) (bytes : Bytes) : Files N := f.store i (f.data i ++ bytes)

/-- `st_nlink` -/
def nlink [Fintype N] (i : ℕ) : ℕ := (Finset.univ.filter fun a => f.names a = some i).card

/-! ### What they do -/

section Inode

variable {N : Type*} {f : Files N} {i : ℕ} {bytes : Bytes}

lemma nlink_ne_zero_iff [Fintype N] : f.nlink i ≠ 0 ↔ ∃ a, f.names a = some i := by
  rw [nlink, Finset.card_ne_zero]
  constructor
  · rintro ⟨a, ha⟩
    exact ⟨a, (Finset.mem_filter.mp ha).2⟩
  · rintro ⟨a, ha⟩
    exact ⟨a, Finset.mem_filter.mpr ⟨Finset.mem_univ a, ha⟩⟩

@[simp]
lemma names_store : (f.store i bytes).names = f.names := rfl

@[simp]
lemma data_store_self : (f.store i bytes).data i = bytes := update_self ..

lemma data_store_of_ne {j : ℕ} (h : j ≠ i) : (f.store i bytes).data j = f.data j :=
  update_of_ne h ..

lemma contents_store_of_ne {a : N} (h : f.names a ≠ some i) :
    (f.store i bytes).contents a = f.contents a := by
  unfold contents
  rw [names_store]
  cases ha : f.names a with
  | none => rfl
  | some j =>
    refine congrArg some (data_store_of_ne ?_)
    rintro rfl
    exact h ha

lemma contents_eq_some_of_names {a : N} (h : f.names a = some i) :
    f.contents a = some (f.data i) := by
  rw [contents, h]
  rfl

end Inode

variable {f} {a b : N} {i j : ℕ} {g : Files N}

@[simp]
lemma names_unlink_self : (f.unlink a).names a = none := update_self ..

lemma names_unlink_of_ne (h : b ≠ a) : (f.unlink a).names b = f.names b :=
  update_of_ne h ..

/-- A name that is bound after an `unlink` was bound before, and is another one. -/
lemma names_unlink_eq_some_iff : (f.unlink a).names b = some i ↔ b ≠ a ∧ f.names b = some i := by
  by_cases h : b = a
  · subst h
    simp
  · rw [names_unlink_of_ne h]
    exact ⟨fun hb => ⟨h, hb⟩, fun hb => hb.2⟩

@[simp]
lemma names_fresh_self : (f.fresh a).names a = some f.next := update_self ..

lemma names_fresh_of_ne (h : b ≠ a) : (f.fresh a).names b = f.names b := update_of_ne h ..

@[simp]
lemma data_fresh_self : (f.fresh a).data f.next = [] := update_self ..

lemma data_fresh_of_lt (h : i < f.next) : (f.fresh a).data i = f.data i :=
  update_of_ne h.ne ..

/-- What `open` with `O_CREAT` finds or makes. -/
lemma openCreat_spec (f : Files N) (a : N) :
    (f.names a = some (f.openCreat a).2 ∧ (f.openCreat a).1 = f) ∨
      (f.names a = none ∧ (f.openCreat a).2 = f.next ∧ (f.openCreat a).1 = f.fresh a) := by
  unfold openCreat
  cases h : f.names a with
  | some i => exact .inl ⟨rfl, rfl⟩
  | none => exact .inr ⟨rfl, rfl, rfl⟩

lemma names_openCreat_self : (f.openCreat a).1.names a = some (f.openCreat a).2 := by
  rcases f.openCreat_spec a with ⟨hname, heq⟩ | ⟨-, hinode, heq⟩
  · rw [heq, hname]
  · rw [heq, hinode, names_fresh_self]

lemma names_openCreat_of_ne (h : b ≠ a) : (f.openCreat a).1.names b = f.names b := by
  rcases f.openCreat_spec a with ⟨-, heq⟩ | ⟨-, -, heq⟩
  · rw [heq]
  · rw [heq, names_fresh_of_ne h]

lemma next_le_openCreat : f.next ≤ (f.openCreat a).1.next := by
  rcases f.openCreat_spec a with ⟨-, heq⟩ | ⟨-, -, heq⟩
  · rw [heq]
  · rw [heq]
    exact Nat.le_succ _

/-- The inodes that were there keep their bytes. -/
lemma data_openCreat (h : j < f.next) : (f.openCreat a).1.data j = f.data j := by
  rcases f.openCreat_spec a with ⟨-, heq⟩ | ⟨-, -, heq⟩
  · rw [heq]
  · rw [heq, data_fresh_of_lt h]

/-- An inode without a name is not the one that is opened. -/
lemma ne_openCreat (hlt : j < f.next) (h : f.names a ≠ some j) : (f.openCreat a).2 ≠ j := by
  rcases f.openCreat_spec a with ⟨hname, -⟩ | ⟨-, hinode, -⟩
  · rintro rfl
    exact h hname
  · rw [hinode]
    exact hlt.ne'

lemma names_openTrunc : (f.openTrunc a).1.names = (f.openCreat a).1.names := rfl

lemma names_openTrunc_self : (f.openTrunc a).1.names a = some (f.openTrunc a).2 :=
  names_openCreat_self

lemma next_le_openTrunc : f.next ≤ (f.openTrunc a).1.next := next_le_openCreat

lemma data_openTrunc_self : (f.openTrunc a).1.data (f.openTrunc a).2 = [] := data_store_self

/-- The other files stay as they are when a file is truncated. -/
lemma contents_openTrunc_of_ne (h : b ≠ a) : (f.openTrunc a).1.contents b = f.contents b := by
  unfold contents
  rw [names_openTrunc, names_openCreat_of_ne h]
  cases hb : f.names b with
  | none => rfl
  | some i =>
    refine congrArg some ?_
    have hne := ne_openCreat (f.lt_next hb) fun ha => h (f.inj hb ha)
    exact (data_store_of_ne hne.symm).trans (data_openCreat (f.lt_next hb))

/-- What `rename` does if it succeeds. -/
lemma rename_eq_some (h : f.rename a b = some g) :
    f.names a ≠ none ∧ g.data = f.data ∧ g.next = f.next ∧
      ∀ c, g.names c = if c = b then f.names a else if c = a then none else f.names c := by
  unfold rename at h
  split_ifs at h with hname
  cases h
  exact ⟨hname, rfl, rfl, fun _ => rfl⟩

lemma contents_of_rename (h : f.rename a b = some g) (c : N) :
    g.contents c = if c = b then f.contents a else if c = a then none else f.contents c := by
  obtain ⟨-, hdata, -, hnames⟩ := rename_eq_some h
  unfold contents
  rw [hnames, hdata]
  split_ifs <;> rfl

/-- A file that is opened and was not there is empty. -/
lemma contents_openCreat (f : Files N) (a b : N) :
    (f.openCreat a).1.contents b = f.contents b ∨
      f.contents b = none ∧ (f.openCreat a).1.contents b = some [] := by
  rcases f.openCreat_spec a with ⟨-, heq⟩ | ⟨hname, -, heq⟩
  · exact .inl (by rw [heq])
  · by_cases h : b = a
    · subst h
      refine .inr ⟨by rw [contents, hname]; rfl, ?_⟩
      rw [heq, contents_eq_some_of_names names_fresh_self, data_fresh_self]
    · refine .inl ?_
      unfold contents
      rw [heq, names_fresh_of_ne h]
      cases hb : f.names b with
      | none => rfl
      | some i => exact congrArg some (data_fresh_of_lt (f.lt_next hb))

end Files

end AtlasProbe
