import AtlasProbe.Lib.Path

/-!
# File names from the outside

`rebased_validated_filename` and `rebased_validated_dir` of libbb decide whether a file name that
came with a measurement or with a command may be used.  The name has to start with `/home/atlas` or
with the base directory, followed by a fixed subdirectory, and must not go up from there.
-/

namespace AtlasProbe.Libbb

open List AtlasProbe.Path

/-- `ATLAS_HOME` -/
def atlasHome : CString where
  bytes := ascii "/home/atlas"
  zero_notMem := by decide

lemma zero_notMem_spool : 0 ∉ ascii "/var/spool/ripe-atlas" := by decide

lemma zero_notMem_new : 0 ∉ ascii "data/new" := by decide

/-- Property 2 of the source: at `k` the path has a slash or, if no slash is required, its end. -/
def followed (path : CString) (k : ℕ) (requireSlash : Bool) : Bool :=
  path.charAt k == 47 || (!requireSlash && path.charAt k == 0)

/-- Properties 1 and 2 for a relative `pfx`: the path starts with `root`, a slash and `pfx`. -/
def startsWith (path root pfx : CString) (requireSlash : Bool) : Bool :=
  decide (root.length + 1 + pfx.length ≤ path.length) && path.memcmp 0 root &&
    path.charAt root.length == 47 && path.memcmp (root.length + 1) pfx &&
    followed path (root.length + 1 + pfx.length) requireSlash

/-- The first half of `rebased_validated_common`: whether the leading `ATLAS_HOME` is replaced, or
nothing if the path has neither property. -/
def doReplace (base path pfx : CString) (requireSlash : Bool) : Option Bool :=
  if pfx.charAt 0 == 47 then
    if path.length < pfx.length then none
    else if !path.memcmp 0 pfx then none
    else if !followed path pfx.length requireSlash then none
    else some false
  else if startsWith path atlasHome pfx requireSlash then some true
  else if startsWith path base pfx requireSlash then some false
  else none

/-- `rebased_validated_common`, with the result of `atlas_unsafe` as its first argument. -/
def rebasedValidatedCommon (atlasUnsafe : Bool) (base path pfx : CString) (requireSlash : Bool) :
    Option Bytes :=
  if atlasUnsafe then some path.bytes
  else
    match doReplace base path pfx requireSlash with
    | none => none
    | some replace =>
      if ascii "/../" <:+: path.bytes then none
      else if 3 ≤ path.length ∧ path.bytes.drop (path.length - 3) = ascii "/.." then none
      else if replace then
        let newLen := base.length + (path.length - atlasHome.length) + 1
        some (strlcat newLen (strlcpy newLen base.bytes) (path.bytes.drop atlasHome.length))
      else some path.bytes

/-- `rebased_validated_filename` -/
def rebasedValidatedFilename (atlasUnsafe : Bool) (base path pfx : CString) : Option Bytes :=
  rebasedValidatedCommon atlasUnsafe base path pfx true

/-- `rebased_validated_dir` -/
def rebasedValidatedDir (atlasUnsafe : Bool) (base path pfx : CString) : Option Bytes :=
  rebasedValidatedCommon atlasUnsafe base path pfx false

/-! ### What the checks say about the path -/

variable {path root pfx : CString}

/-- Without a required slash the check also passes at the end of the path, and only there. -/
lemma followed_false_iff {k : ℕ} (hk : k ≤ path.length) :
    followed path k false ↔ followed path k true ∨ path.bytes.drop k = [] := by
  have hend : path.charAt k = 0 ↔ path.bytes.drop k = [] := by
    rw [CString.charAt_eq_zero_iff hk, drop_eq_nil_iff]
    exact ⟨fun h => Nat.le_of_eq h.symm, Nat.le_antisymm hk⟩
  simp [followed, hend]

/-- What the path consists of when it starts with `root` and `pfx`. -/
lemma bytes_of_startsWith {requireSlash : Bool} (h : startsWith path root pfx requireSlash) :
    path.bytes = join root.bytes pfx.bytes ++ path.bytes.drop (root.length + 1 + pfx.length) := by
  unfold startsWith at h
  simp only [Bool.and_eq_true, beq_iff_eq] at h
  obtain ⟨⟨⟨⟨-, hroot⟩, hslash⟩, hpfx⟩, -⟩ := h
  have hfront := CString.drop_eq_append_of_memcmp hroot
  rw [Nat.zero_add, CString.drop_eq_cons_of_charAt hslash (by decide),
    CString.drop_eq_append_of_memcmp hpfx] at hfront
  rw [join, append_assoc]
  exact hfront

/-- With a required slash there is a slash behind `pfx`. -/
lemma exists_behind_of_startsWith (h : startsWith path root pfx true) :
    ∃ behind, path.bytes = join (join root.bytes pfx.bytes) behind := by
  have hfollowed : followed path (root.length + 1 + pfx.length) true := by
    exact (Bool.and_eq_true_iff.mp h).2
  have hslash : path.charAt (root.length + 1 + pfx.length) = 47 := by
    simpa [followed] using hfollowed
  refine ⟨path.bytes.drop (root.length + 1 + pfx.length + 1), ?_⟩
  rw [join, ← CString.drop_eq_cons_of_charAt hslash (by decide)]
  exact bytes_of_startsWith h

/-- A path that passes with a required slash passes without. -/
lemma startsWith_of_requireSlash (h : startsWith path root pfx true) :
    startsWith path root pfx false := by
  unfold startsWith at h ⊢
  rw [Bool.and_eq_true] at h ⊢
  refine ⟨h.1, ?_⟩
  unfold followed at h ⊢
  exact Bool.or_eq_true_iff.mpr (.inl (by simpa using h.2))

/-- Without a required slash the path may also end behind `pfx`. -/
lemma startsWith_cases (h : startsWith path root pfx false) :
    startsWith path root pfx true ∨ path.bytes = join root.bytes pfx.bytes := by
  have hbytes := bytes_of_startsWith h
  unfold startsWith at h
  rw [Bool.and_eq_true] at h
  obtain ⟨hfront, hfollowed⟩ := h
  have hlength : root.length + 1 + pfx.length ≤ path.length := by
    simp only [Bool.and_eq_true, decide_eq_true_eq] at hfront
    exact hfront.1.1.1
  rcases (followed_false_iff hlength).mp hfollowed with hslash | hend
  · exact .inl (Bool.and_eq_true_iff.mpr ⟨hfront, hslash⟩)
  · rw [hend, append_nil] at hbytes
    exact .inr hbytes

/-- Properties 3 and 4 of the source. -/
def NoUp (path : CString) : Prop :=
  ¬ascii "/../" <:+: path.bytes ∧
    ¬(3 ≤ path.length ∧ path.bytes.drop (path.length - 3) = ascii "/..")

/-- A path that passes the two tests for `..` has no part `..` behind any of its slashes. -/
lemma NoUp.notMem_parts (h : NoUp path) {front behind : Bytes}
    (hpath : path.bytes = join front behind) : up ∉ parts behind := by
  refine up_notMem_parts hpath h.1 fun hsuffix => h.2 ?_
  obtain ⟨before, hbefore⟩ := hsuffix
  have hlength : path.length = before.length + 3 := by
    rw [CString.length, ← hbefore, length_append]
    rfl
  refine ⟨by omega, ?_⟩
  rw [hlength, ← hbefore]
  exact drop_left

/-- The new buffer is long enough for the base and the rest of the path. -/
lemma strlcat_rebased (base : CString) (rest : Bytes) :
    strlcat (base.length + rest.length + 1) (strlcpy (base.length + rest.length + 1) base.bytes)
      rest = base.bytes ++ rest := by
  unfold strlcat strlcpy
  rw [Nat.add_sub_cancel, take_of_length_le (Nat.le_add_right base.length rest.length),
    CString.length, Nat.add_sub_cancel_left, take_length]

/-! ### What an accepted path looks like -/

section Accepted

variable {base path pfx : CString} {requireSlash : Bool} {r : Bytes}

lemma rebasedValidatedCommon_eq_some_iff :
    rebasedValidatedCommon false base path pfx requireSlash = some r ↔
      ∃ replace, doReplace base path pfx requireSlash = some replace ∧ NoUp path ∧
        r = if replace then base.bytes ++ path.bytes.drop atlasHome.length else path.bytes := by
  have hnew : strlcat (base.length + (path.length - atlasHome.length) + 1)
      (strlcpy (base.length + (path.length - atlasHome.length) + 1) base.bytes)
      (path.bytes.drop atlasHome.length) = base.bytes ++ path.bytes.drop atlasHome.length := by
    have h := strlcat_rebased base (path.bytes.drop atlasHome.length)
    rwa [length_drop] at h
  unfold rebasedValidatedCommon NoUp
  rw [if_neg Bool.false_ne_true]
  cases hreplace : doReplace base path pfx requireSlash with
  | none => simp
  | some replace =>
    dsimp only
    rw [hnew]
    split_ifs with hwithin hend
    · exact ⟨fun h => (nomatch h), fun ⟨_, _, hno, _⟩ => absurd hwithin hno.1⟩
    · exact ⟨fun h => (nomatch h), fun ⟨_, _, hno, _⟩ => absurd hend hno.2⟩
    all_goals
      simp only [Option.some.injEq, exists_eq_left', not_false_eq_true, and_self, true_and, *,
        if_true, if_false, Bool.false_eq_true]
      exact eq_comm

/-- With a relative `pfx` the path starts with `ATLAS_HOME`, which is replaced, or with the base. -/
lemma doReplace_eq_some_iff (hrel : pfx.charAt 0 ≠ 47) {replace : Bool} :
    doReplace base path pfx requireSlash = some replace ↔
      replace = true ∧ startsWith path atlasHome pfx requireSlash ∨
        replace = false ∧ ¬startsWith path atlasHome pfx requireSlash ∧
          startsWith path base pfx requireSlash := by
  have hrel' : ¬(pfx.charAt 0 == 47) = true := by simpa using hrel
  unfold doReplace
  rw [if_neg hrel']
  split_ifs with hhome hbase
  · simp [hhome]
  · simp [hhome, hbase]
  · simp [hhome, hbase]

/-- With a required slash an accepted path goes on behind the base and `pfx`, without `..`. -/
lemma exists_behind_of_accepted (hrel : pfx.charAt 0 ≠ 47)
    (h : rebasedValidatedCommon false base path pfx true = some r) :
    ∃ behind, r = join (join base.bytes pfx.bytes) behind ∧ up ∉ parts behind := by
  obtain ⟨replace, hreplace, hup, rfl⟩ := rebasedValidatedCommon_eq_some_iff.mp h
  rcases (doReplace_eq_some_iff hrel).mp hreplace with ⟨rfl, hhome⟩ | ⟨rfl, -, hbase⟩
  · obtain ⟨behind, hpath⟩ := exists_behind_of_startsWith hhome
    refine ⟨behind, ?_, hup.notMem_parts hpath⟩
    rw [if_pos rfl, hpath, join, join, join, join, append_assoc, append_assoc,
      CString.length, drop_left]
  · obtain ⟨behind, hpath⟩ := exists_behind_of_startsWith hbase
    exact ⟨behind, hpath, hup.notMem_parts hpath⟩

/-- What comes back is the path, or the path with `ATLAS_HOME` replaced by the base. -/
lemma eq_or_rebased_of_accepted (hrel : pfx.charAt 0 ≠ 47)
    (h : rebasedValidatedCommon false base path pfx requireSlash = some r) :
    r = path.bytes ∨ ∃ rest, path.bytes = atlasHome.bytes ++ rest ∧ r = base.bytes ++ rest := by
  obtain ⟨replace, hreplace, -, rfl⟩ := rebasedValidatedCommon_eq_some_iff.mp h
  rcases (doReplace_eq_some_iff hrel).mp hreplace with ⟨rfl, hhome⟩ | ⟨rfl, -, -⟩
  · refine .inr ⟨path.bytes.drop atlasHome.length, ?_, rfl⟩
    have hpath := bytes_of_startsWith hhome
    rw [join, append_assoc] at hpath
    rw [hpath, CString.length, drop_left]
  · exact .inl rfl

/-- A directory name is accepted as a file name is, or it is the base and `pfx`. -/
lemma filename_or_eq_of_dir (hrel : pfx.charAt 0 ≠ 47)
    (h : rebasedValidatedDir false base path pfx = some r) :
    rebasedValidatedFilename false base path pfx = some r ∨ r = join base.bytes pfx.bytes := by
  obtain ⟨replace, hreplace, hup, hr⟩ := rebasedValidatedCommon_eq_some_iff.mp h
  have hfilename : doReplace base path pfx true = some replace →
      rebasedValidatedFilename false base path pfx = some r := fun hreplace =>
    rebasedValidatedCommon_eq_some_iff.mpr ⟨replace, hreplace, hup, hr⟩
  rcases (doReplace_eq_some_iff hrel).mp hreplace with ⟨rfl, hhome⟩ | ⟨rfl, hhome, hbase⟩
  · rcases startsWith_cases hhome with hhome | hpath
    · exact .inl (hfilename ((doReplace_eq_some_iff hrel).mpr (.inl ⟨rfl, hhome⟩)))
    · right
      rw [hr, if_pos rfl, hpath, join, join, CString.length, drop_left]
  · have hhome' := fun h => hhome (startsWith_of_requireSlash h)
    rcases startsWith_cases hbase with hbase | hpath
    · exact .inl (hfilename ((doReplace_eq_some_iff hrel).mpr (.inr ⟨rfl, hhome', hbase⟩)))
    · exact .inr (hr.trans hpath)

end Accepted

/-- An accepted file name resolves to the directory `pfx` of the base or to something in it, and to
the directory only if nothing but slashes and `.` follows in the name.  It is the given path, or the
given path with `ATLAS_HOME` replaced by the base.  A directory name can in addition be the
directory itself. -/
theorem rebasedValidated_inside (base path pfx : CString) (hrel : pfx.charAt 0 ≠ 47) :
    (∀ r, rebasedValidatedFilename false base path pfx = some r →
      Inside (join base.bytes pfx.bytes) r ∧
        (∃ behind, r = join (join base.bytes pfx.bytes) behind ∧
          (StrictlyInside (join base.bytes pfx.bytes) r ↔
            ∃ part ∈ parts behind, part ≠ [] ∧ part ≠ here)) ∧
        (r = path.bytes ∨ ∃ rest, path.bytes = atlasHome.bytes ++ rest ∧ r = base.bytes ++ rest)) ∧
      ∀ r, rebasedValidatedDir false base path pfx = some r →
        rebasedValidatedFilename false base path pfx = some r ∨ r = join base.bytes pfx.bytes := by
  refine ⟨fun r h => ?_, fun r h => filename_or_eq_of_dir hrel h⟩
  obtain ⟨behind, hr, hup⟩ := exists_behind_of_accepted hrel h
  refine ⟨hr ▸ inside_join hup _, ⟨behind, hr, ?_⟩, eq_or_rebased_of_accepted hrel h⟩
  rw [hr, strictlyInside_join_iff hup, names, Ne, filter_eq_nil_iff]
  simp

/-- An output file of a measurement. -/
theorem rebasedValidated_inside_output :
    rebasedValidatedFilename false ⟨ascii "/var/spool/ripe-atlas", by decide⟩
        ⟨ascii "/home/atlas/data/new/7", by decide⟩ ⟨ascii "data/new", by decide⟩ =
      some (ascii "/var/spool/ripe-atlas/data/new/7") ∧
      Inside (ascii "/var/spool/ripe-atlas/data/new")
        (ascii "/var/spool/ripe-atlas/data/new/7") := by
  have haccepted : rebasedValidatedFilename false ⟨ascii "/var/spool/ripe-atlas", by decide⟩
        ⟨ascii "/home/atlas/data/new/7", by decide⟩ ⟨ascii "data/new", by decide⟩ =
      some (ascii "/var/spool/ripe-atlas/data/new/7") := by decide +kernel
  exact ⟨haccepted, ((rebasedValidated_inside _ _ _ (by decide)).1 _ haccepted).1⟩

/-- A slash behind the directory is enough for a file name, although it names the directory. -/
theorem rebasedValidated_not_strictlyInside :
    rebasedValidatedFilename false ⟨ascii "/var/spool/ripe-atlas", by decide⟩
        ⟨ascii "/home/atlas/data/new/", by decide⟩ ⟨ascii "data/new", by decide⟩ =
      some (ascii "/var/spool/ripe-atlas/data/new/") ∧
      ¬StrictlyInside (ascii "/var/spool/ripe-atlas/data/new")
        (ascii "/var/spool/ripe-atlas/data/new/") := by
  refine ⟨by decide +kernel, fun h => h.2 ?_⟩
  decide +kernel

end AtlasProbe.Libbb
