import AtlasProbe.Perd.Jobs
import AtlasProbe.Lib.Reactive

/-!
# Reading the crontabs again

A crontab that `CheckUpdates` reads again keeps the cycle and the offset of each line: every line is
found in the old file, one behind the other.  `SynchronizeDir` has marked the old files before it
reads the new ones, so that `SetOld` finds none of them, and every line starts afresh.  A line stays
as it is then only if it is just as if it had been read now.
-/

namespace AtlasProbe.Perd

open List Reactive
open Eperd (limit)
open Option (map bind_some none_or map_some)

/-! ### The lines of a file -/

/-- The lines that are not skipped, up to the limit. -/
def entriesOf : ℕ → List (List Bytes) → Option (List Entry)
  | _, [] => some []
  | maxLines, tokens :: text =>
    if maxLines - 1 = 0 then some []
    else
      match parseLine tokens with
      | .skipped => entriesOf (maxLines - 1) text
      | .dies => none
      | .entry e => (entriesOf (maxLines - 1) text).map (e :: ·)

section Lines

variable {now : ℤ} {oldFile : CronFile} {es : List Entry}

/-- Without an old file every line is fresh. -/
lemma readLines_none (now : ℤ) (maxLines : ℕ) (text : List (List Bytes))
    (random : ℕ → Random) (oldLine : List CronLine) :
    readLines none now maxLines text random oldLine =
      (entriesOf maxLines text).map fun es => es.mapIdx fun i e => e.fresh now (random i) := by
  induction text generalizing maxLines random with
  | nil => rfl
  | cons tokens text ih =>
    unfold readLines entriesOf
    split
    · rfl
    · cases parseLine tokens with
      | skipped => exact ih (maxLines - 1) random
      | dies => rfl
      | entry e =>
        simp only [copyFromOld, ih, Option.map_map]
        refine congrArg (fun g => map g (entriesOf (maxLines - 1) text)) ?_
        funext es
        rw [Function.comp_apply, Function.comp_apply, mapIdx_cons]

/-- A line finds itself in the old file, if the pointer is there or the line is the first one. -/
lemma copyFromOld_same {oldLine rest : List CronLine} {old : CronLine} (random : Random)
    (h : oldLine = old :: rest ∨ oldLine = [] ∧ oldFile.lines = old :: rest) :
    copyFromOld (some oldFile) oldLine (old.toEntry.fresh now random) =
      ({ old with pid := 0 }, rest) := by
  have hfresh : (old.toEntry.fresh now random).toEntry = old.toEntry := rfl
  have hmatch : (head? (old :: rest)).any
      (fun o => o.key = (old.toEntry.fresh now random).key) = true := decide_eq_true rfl
  have hkeep : old.distribution = (old.toEntry.fresh now random).distribution ∧
      old.distrParam = (old.toEntry.fresh now random).distrParam := ⟨rfl, rfl⟩
  unfold copyFromOld
  dsimp only
  rcases h with rfl | ⟨rfl, hlines⟩
  · rw [if_pos hmatch]
    dsimp only
    rw [if_pos hkeep]
    rfl
  · have hnil : ¬(head? ([] : List CronLine)).any
        (fun o => o.key = (old.toEntry.fresh now random).key) = true := Bool.false_ne_true
    rw [if_neg hnil, hlines, dropWhile_cons_of_neg (by simp [hfresh])]
    dsimp only
    rw [if_pos hkeep]
    rfl

/-- A file that is read again finds every line, one behind the other. -/
lemma readLines_same {maxLines : ℕ} {text : List (List Bytes)} {random : ℕ → Random}
    {oldLine rest : List CronLine} (hes : entriesOf maxLines text = some es)
    (hrest : rest.map CronLine.toEntry = es)
    (hold : oldLine = rest ∨ oldLine = [] ∧ oldFile.lines = rest) :
    readLines (some oldFile) now maxLines text random oldLine =
      some (rest.map fun line => { line with pid := 0 }) := by
  induction text generalizing maxLines random oldLine rest es with
  | nil =>
    rw [← Option.some.inj hes, map_eq_nil_iff] at hrest
    rw [hrest]
    rfl
  | cons tokens text ih =>
    unfold entriesOf at hes
    unfold readLines
    split_ifs at hes ⊢
    · rw [← Option.some.inj hes, map_eq_nil_iff] at hrest
      rw [hrest]
      rfl
    · cases hparse : parseLine tokens with
      | skipped =>
        rw [hparse] at hes
        exact ih hes hrest hold
      | dies =>
        rw [hparse] at hes
        cases hes
      | entry e =>
        rw [hparse] at hes
        obtain ⟨es', hes', rfl⟩ := Option.map_eq_some_iff.mp hes
        obtain ⟨old, rest', rfl, rfl, hrest'⟩ := map_eq_cons_iff.mp hrest
        dsimp only
        rw [copyFromOld_same (random 0) hold]
        rw [ih hes' hrest' (.inl rfl)]
        rfl

end Lines

/-! ### The files -/

/-- No line of any file makes `do_distr` divide by zero. -/
def Dir.Loadable (dir : Dir) : Prop :=
  ∀ user text, dir user = some text → (entriesOf (limit user) text).isSome = true

/-- The lines of a file in the directory. -/
def entriesIn (dir : Dir) (user : Bytes) : List Entry :=
  ((dir user).bind (entriesOf (limit user))).getD []

/-- The file as it is read without an old one. -/
def newFile (dir : Dir) (r : Reading) : CronFile where
  user := r.fileName
  lines := (entriesIn dir r.fileName).mapIdx fun i e => e.fresh r.now (r.random i)

/-- A file as it is in the directory. -/
structure CronFile.Current (dir : Dir) (f : CronFile) : Prop where
  toBeDeleted : f.toBeDeleted = false
  deleted : f.deleted = false
  lines : f.lines.map CronLine.toEntry = entriesIn dir f.user
  armed : ∀ line ∈ f.lines, line.pid ≠ 0 → line.pid = -1 ∧ f.ready = true

/-- The files are those of the directory. -/
structure Loaded (dir : Dir) (files : List CronFile) : Prop where
  nodup : (files.map CronFile.user).Nodup
  mem : ∀ user, user ∈ files.map CronFile.user ↔ (dir user).isSome = true
  current : ∀ f ∈ files, f.Current dir

/-- No job is armed or running. -/
def Idle (files : List CronFile) : Prop := ∀ f ∈ files, ∀ line ∈ f.lines, line.pid = 0

section Files

variable {dir : Dir} {files post pre : List CronFile} {r : Reading} {user : Bytes}
  {f : CronFile} {readings : List Reading} {α : Type*}

lemma Dir.Loadable.entriesOf_eq (h : dir.Loadable) {text : List (List Bytes)}
    (htext : dir user = some text) : entriesOf (limit user) text = some (entriesIn dir user) := by
  obtain ⟨es, hes⟩ := Option.isSome_iff_exists.mp (h user text htext)
  unfold entriesIn
  rw [htext, bind_some, hes, Option.getD_some]

lemma Idle.delete_eq_none (h : ∀ line ∈ f.lines, line.pid = 0) : f.delete = none := by
  have hnil : f.lines.filter (fun line => 0 < line.pid) = [] := by
    rw [filter_eq_nil_iff]
    intro line hline
    rw [h line hline]
    decide
  unfold CronFile.delete
  rw [hnil]
  rfl

lemma Idle.map_reset (h : ∀ line ∈ f.lines, line.pid = 0) :
    (f.lines.map fun line => { line with pid := 0 }) = f.lines := by
  conv_rhs => rw [← map_id f.lines]
  refine map_congr_left fun line hline => ?_
  have hpid := h line hline
  obtain ⟨e, nextcycle, distrOffset, pid⟩ := line
  obtain rfl : pid = 0 := hpid
  rfl

/-- `SetOld` finds the file of a user. -/
lemma setOld_eq_some (hpre : ∀ g ∈ pre, g.user ≠ f.user) (hf : f.toBeDeleted = false) :
    setOld (pre ++ f :: post) f.user = some pre.length := by
  unfold setOld
  rw [findIdx?_append, findIdx?_eq_none_iff.mpr, findIdx?_cons]
  · simp [hf]
  · intro g hg
    simp [hpre g hg]

lemma setOld_eq_none (h : ∀ f ∈ files, f.toBeDeleted = true ∨ f.user ≠ user) :
    setOld files user = none := by
  unfold setOld
  rw [findIdx?_eq_none_iff]
  intro f hf
  rcases h f hf with hmarked | hne
  · simp [hmarked]
  · simp [hne]

/-- Without an old file, the new file is put in front. -/
lemma synchronizeFile_new (hdir : dir.Loadable) (hmem : (dir r.fileName).isSome = true)
    (h : ∀ f ∈ files, f.toBeDeleted = true ∨ f.user ≠ r.fileName) :
    synchronizeFile dir files r = some (newFile dir r :: files) := by
  obtain ⟨text, htext⟩ := Option.isSome_iff_exists.mp hmem
  unfold synchronizeFile
  rw [setOld_eq_none h]
  simp only [htext, Option.bind_none, readLines_none, hdir.entriesOf_eq htext]
  rfl

lemma modify_middle (pre post : List α) (x : α) (g : α → α) :
    (pre ++ x :: post).modify pre.length g = pre ++ g x :: post := by
  induction pre with
  | nil => rfl
  | cons y pre ih => exact congrArg (y :: ·) ih

lemma eraseIdx_middle (pre post : List α) (x : α) :
    (pre ++ x :: post).eraseIdx pre.length = pre ++ post := by
  rw [eraseIdx_append_of_length_le le_rfl, Nat.sub_self, eraseIdx_cons_zero]

/-- A file that is read again is put in front, with the same lines. -/
lemma synchronizeFile_again (hdir : dir.Loadable) (hpre : ∀ g ∈ pre, g.user ≠ f.user)
    (hf : f.Current dir) (hmem : (dir f.user).isSome = true)
    (hidle : ∀ line ∈ f.lines, line.pid = 0) (hr : r.fileName = f.user) :
    synchronizeFile dir (pre ++ f :: post) r =
      some ({ user := f.user, lines := f.lines } :: (pre ++ post)) := by
  obtain ⟨text, htext⟩ := Option.isSome_iff_exists.mp hmem
  have hlines : readLines (some f) r.now (limit f.user) text r.random [] = some f.lines := by
    rw [readLines_same (hdir.entriesOf_eq htext) hf.lines (.inr ⟨rfl, rfl⟩), Idle.map_reset hidle]
  have hmark : f.mark.delete = none := Idle.delete_eq_none hidle
  unfold synchronizeFile
  simp only [hr, setOld_eq_some hpre hf.toBeDeleted, htext, bind_some,
    getElem?_append_right le_rfl, Nat.sub_self, getElem?_cons_zero, hlines, deleteFile]
  rw [modify_middle]
  simp [hmark, eraseIdx_middle]

lemma linesOf_cons (f : CronFile) (files : List CronFile) (user : Bytes) :
    linesOf (f :: files) user = if f.user = user then some f.lines else linesOf files user := by
  unfold linesOf
  split <;> simp_all

lemma linesOf_append (pre post : List CronFile) (user : Bytes) :
    linesOf (pre ++ post) user = (linesOf pre user).or (linesOf post user) := by
  unfold linesOf
  rw [find?_append, Option.map_or]

lemma linesOf_eq_none (h : ∀ f ∈ files, f.user ≠ user) : linesOf files user = none := by
  unfold linesOf
  rw [find?_eq_none.mpr fun f hf => by simpa using h f hf]
  rfl

/-- No other file is that of the same user. -/
lemma user_ne (h : ((pre ++ f :: post).map CronFile.user).Nodup) :
    ∀ g ∈ pre ++ post, g.user ≠ f.user := by
  rw [map_append, map_cons, nodup_middle, nodup_cons, ← map_append] at h
  exact fun g hg heq => h.1 (heq ▸ mem_map_of_mem hg)

/-- `SynchronizeFile` for files without armed jobs: the lines of every file stay. -/
lemma Loaded.synchronizeFile (h : Loaded dir files) (hdir : dir.Loadable) (hidle : Idle files)
    (r : Reading) :
    ∃ after, synchronizeFile dir files r = some after ∧ Loaded dir after ∧ Idle after ∧
      ∀ user, linesOf after user = linesOf files user := by
  cases htext : dir r.fileName with
  | none =>
    have hnot : r.fileName ∉ files.map CronFile.user := by
      rw [h.mem, htext]
      exact Bool.false_ne_true
    have hold : setOld files r.fileName = none :=
      setOld_eq_none fun f hf => .inr fun heq => hnot (heq ▸ mem_map_of_mem hf)
    refine ⟨files, ?_, h, hidle, fun _ => rfl⟩
    unfold Perd.synchronizeFile
    rw [hold, htext]
    rfl
  | some text =>
    have hmem : (dir r.fileName).isSome = true := by rw [htext]; rfl
    obtain ⟨f, hf, huser⟩ := mem_map.mp ((h.mem r.fileName).mpr hmem)
    obtain ⟨pre, post, rfl⟩ := append_of_mem hf
    have hpre : ∀ g ∈ pre, g.user ≠ f.user := fun g hg => user_ne h.nodup g (mem_append_left _ hg)
    have hcurrent := h.current f hf
    have hother : ∀ g ∈ pre ++ post, g ∈ pre ++ f :: post := by simp +contextual [or_imp]
    refine ⟨_, synchronizeFile_again hdir hpre hcurrent (huser ▸ hmem) (hidle f hf) huser.symm,
      ⟨?_, ?_, ?_⟩, ?_, ?_⟩
    · have hnodup := h.nodup
      rwa [map_append, map_cons, nodup_middle, ← map_append] at hnodup
    · intro user
      rw [← h.mem]
      simp only [map_cons, map_append, mem_cons, mem_append]
      tauto
    · intro g hg
      rcases mem_cons.mp hg with rfl | hg
      · refine ⟨rfl, rfl, hcurrent.lines, fun line hline hpid => ?_⟩
        exact absurd (hidle f hf line hline) hpid
      · exact h.current g (hother g hg)
    · intro g hg
      rcases mem_cons.mp hg with rfl | hg
      · exact hidle f hf
      · exact hidle g (hother g hg)
    · intro user
      rw [linesOf_cons, linesOf_append, linesOf_append, linesOf_cons]
      by_cases heq : f.user = user
      · rw [if_pos heq, if_pos heq, linesOf_eq_none (heq ▸ hpre), none_or]
      · rw [if_neg heq, if_neg heq]

/-- `CheckUpdates` keeps the lines of every file. -/
lemma Loaded.checkUpdates (h : Loaded dir files) (hdir : dir.Loadable) (hidle : Idle files)
    (readings : List Reading) :
    ∃ after, checkUpdates dir files readings = some after ∧ Loaded dir after ∧ Idle after ∧
      ∀ user, linesOf after user = linesOf files user := by
  induction readings generalizing files with
  | nil => exact ⟨files, rfl, h, hidle, fun _ => rfl⟩
  | cons r readings ih =>
    obtain ⟨mid, hmid, hloaded, hidleMid, hsame⟩ := h.synchronizeFile hdir hidle r
    obtain ⟨after, hafter, hloaded', hidle', hsame'⟩ := ih hloaded hidleMid
    refine ⟨after, ?_, hloaded', hidle', fun user => (hsame' user).trans (hsame user)⟩
    unfold Perd.checkUpdates at hafter ⊢
    rw [foldlM_cons, hmid]
    exact hafter

/-- The calls for a directory: each file that is there once. -/
structure Scanned (dir : Dir) (readings : List Reading) : Prop where
  nodup : (readings.map Reading.fileName).Nodup
  mem : ∀ user, user ∈ readings.map Reading.fileName ↔ (dir user).isSome = true

/-- The new files come in front of the marked ones. -/
lemma foldlM_synchronizeFile (hdir : dir.Loadable)
    (hmem : ∀ r ∈ readings, (dir r.fileName).isSome = true)
    (hnodup : (readings.map Reading.fileName).Nodup)
    (h : ∀ f ∈ files, f.toBeDeleted = true ∨ ∀ r ∈ readings, f.user ≠ r.fileName) :
    readings.foldlM (synchronizeFile dir) files =
      some ((readings.map (newFile dir)).reverse ++ files) := by
  induction readings generalizing files with
  | nil => rfl
  | cons r readings ih =>
    rw [map_cons, nodup_cons] at hnodup
    rw [foldlM_cons, synchronizeFile_new hdir (hmem r mem_cons_self)
      fun f hf => (h f hf).imp_right fun hne => hne r mem_cons_self]
    refine (ih (fun r' hr' => hmem r' (mem_cons_of_mem _ hr')) hnodup.2 ?_).trans ?_
    · intro f hf
      rcases mem_cons.mp hf with rfl | hf
      · refine .inr fun r' hr' heq => hnodup.1 ?_
        have huser : (newFile dir r).user = r.fileName := rfl
        rw [← huser, heq]
        exact mem_map_of_mem hr'
      · exact (h f hf).imp_right fun hne r' hr' => hne r' (mem_cons_of_mem _ hr')
    · rw [map_cons, reverse_cons, append_assoc, singleton_append]

/-- `SynchronizeDir` reads every file afresh. -/
lemma synchronizeDir_eq (hdir : dir.Loadable) (hidle : Idle files) (hscan : Scanned dir readings) :
    synchronizeDir dir files readings = some (readings.map (newFile dir)).reverse := by
  have hmem (r : Reading) (hr : r ∈ readings) : (dir r.fileName).isSome = true :=
    (hscan.mem r.fileName).mp (mem_map_of_mem hr)
  have hmarked : ∀ f ∈ files.map CronFile.mark,
      f.toBeDeleted = true ∨ ∀ r ∈ readings, f.user ≠ r.fileName := by
    intro f hf
    obtain ⟨g, -, rfl⟩ := mem_map.mp hf
    exact .inl rfl
  have hold : deleteMarked (files.map CronFile.mark) = [] := by
    unfold deleteMarked
    rw [filterMap_eq_nil_iff]
    intro f hf
    obtain ⟨g, hg, rfl⟩ := mem_map.mp hf
    exact Idle.delete_eq_none (hidle g hg)
  have hnew : deleteMarked (readings.map (newFile dir)).reverse =
      (readings.map (newFile dir)).reverse := by
    refine (filterMap_congr fun f hf => ?_).trans filterMap_some
    obtain ⟨r, -, rfl⟩ := mem_map.mp (mem_reverse.mp hf)
    rfl
  unfold synchronizeDir
  rw [foldlM_synchronizeFile hdir hmem hscan.nodup hmarked, map_some]
  unfold deleteMarked at hold hnew ⊢
  rw [filterMap_append, hold, hnew, append_nil]

/-- The lines of a file in the list. -/
lemma linesOf_of_mem (hnodup : (files.map CronFile.user).Nodup) (hf : f ∈ files) :
    linesOf files f.user = some f.lines := by
  obtain ⟨pre, post, rfl⟩ := append_of_mem hf
  have hpre : ∀ g ∈ pre, g.user ≠ f.user := fun g hg => user_ne hnodup g (mem_append_left _ hg)
  rw [linesOf_append, linesOf_eq_none hpre, none_or, linesOf_cons, if_pos rfl]

lemma lineAt_of_mem (hnodup : (files.map CronFile.user).Nodup) (hf : f ∈ files) (i : ℕ) :
    lineAt files f.user i = f.lines[i]? := by
  unfold lineAt
  rw [linesOf_of_mem hnodup hf, bind_some]

lemma mem_of_lineAt {i : ℕ} {line : CronLine} (h : lineAt files user i = some line) :
    ∃ f ∈ files, f.user = user ∧ f.lines[i]? = some line := by
  obtain ⟨lines, hlines, hline⟩ := Option.bind_eq_some_iff.mp h
  obtain ⟨f, hf, rfl⟩ := Option.map_eq_some_iff.mp hlines
  exact ⟨f, mem_of_find?_eq_some hf, by simpa using find?_some hf, hline⟩

/-- The files behind `SynchronizeDir`. -/
lemma Scanned.loaded (hscan : Scanned dir readings) :
    Loaded dir (readings.map (newFile dir)).reverse ∧
      Idle (readings.map (newFile dir)).reverse := by
  have husers : (readings.map (newFile dir)).map CronFile.user = readings.map Reading.fileName := by
    rw [map_map]
    rfl
  refine ⟨⟨?_, ?_, ?_⟩, ?_⟩
  · rw [map_reverse, nodup_reverse, husers]
    exact hscan.nodup
  · intro user
    rw [map_reverse, mem_reverse, husers, hscan.mem]
  · intro f hf
    obtain ⟨r, -, rfl⟩ := mem_map.mp (mem_reverse.mp hf)
    refine ⟨rfl, rfl, ?_, fun line hline hpid => ?_⟩
    · refine ext_getElem? fun i => ?_
      simp only [newFile, getElem?_map, getElem?_mapIdx, Option.map_map]
      exact congrFun Option.map_id _
    · obtain ⟨i, hi, rfl⟩ := mem_mapIdx.mp hline
      exact absurd rfl hpid
  · intro f hf line hline
    obtain ⟨r, -, rfl⟩ := mem_map.mp (mem_reverse.mp hf)
    obtain ⟨i, hi, rfl⟩ := mem_mapIdx.mp hline
    rfl

/-- A line behind `SynchronizeDir`. -/
lemma Scanned.lineAt (hscan : Scanned dir readings) (hr : r ∈ readings) (i : ℕ) :
    lineAt (readings.map (newFile dir)).reverse r.fileName i =
      (entriesIn dir r.fileName)[i]?.map fun e => e.fresh r.now (r.random i) := by
  have hmem : newFile dir r ∈ (readings.map (newFile dir)).reverse :=
    mem_reverse.mpr (mem_map_of_mem hr)
  refine (lineAt_of_mem hscan.loaded.1.nodup hmem i).trans ?_
  exact getElem?_mapIdx

end Files

/-! ### Passes -/

section Passes

variable {dir : Dir} {files : List CronFile} {now : ℤ} {line : CronLine} {user : Bytes} {i : ℕ}
  {f : CronFile}

lemma toEntry_test (line : CronLine) (now : ℤ) (random : Random) :
    (line.test now random).toEntry = line.toEntry := by
  have hrewind : (line.rewind now).toEntry = line.toEntry := by
    unfold CronLine.rewind
    split <;> rfl
  unfold CronLine.test
  dsimp only
  split
  · exact hrewind
  · exact hrewind

/-- `TestJobs` arms a line, or does not change what is known of its process. -/
lemma pid_test (line : CronLine) (now : ℤ) (random : Random) :
    (line.test now random).pid = line.pid ∨
      (line.test now random).pid = -1 ∧ ((line.rewind now).verdict now).isArmed = true := by
  have hrewind : (line.rewind now).pid = line.pid := by
    unfold CronLine.rewind
    split <;> rfl
  unfold CronLine.test
  dsimp only
  split
  · next harmed => exact .inr ⟨rfl, harmed⟩
  · exact .inl hrewind

/-- A file behind `TestJobs`. -/
lemma CronFile.Current.test (h : f.Current dir) (now : ℤ) (random : ℕ → Random) :
    (f.test now random).Current dir ∧ (f.test now random).user = f.user ∧
      ∀ i, (f.test now random).lines[i]? =
        f.lines[i]?.map fun line : CronLine => line.test now (random i) := by
  have heq : f.test now random =
      { f with
        lines := f.lines.mapIdx fun j line => line.test now (random j)
        ready := f.ready || (f.verdicts now).any Verdict.isArmed } := by
    unfold CronFile.test
    rw [if_neg (ne_true_of_eq_false h.deleted)]
  rw [heq]
  refine ⟨⟨h.toBeDeleted, h.deleted, ?_, fun line hline hpid => ?_⟩, rfl, fun i => getElem?_mapIdx⟩
  · rw [← h.lines]
    refine ext_getElem? fun j => ?_
    simp only [getElem?_map, getElem?_mapIdx, Option.map_map]
    exact congrArg (fun g => f.lines[j]?.map g)
      (funext fun line => toEntry_test line now (random j))
  · obtain ⟨j, hj, rfl⟩ := mem_mapIdx.mp hline
    have hmem := getElem_mem hj
    rcases pid_test f.lines[j] now (random j) with hsame | ⟨hminus, harmed⟩
    · rw [hsame] at hpid ⊢
      obtain ⟨hminus, hready⟩ := h.armed _ hmem hpid
      exact ⟨hminus, Bool.or_eq_true_iff.mpr (.inl hready)⟩
    · have hany : (f.verdicts now).any Verdict.isArmed = true := by
        unfold CronFile.verdicts
        rw [if_neg (ne_true_of_eq_false h.deleted), any_eq_true]
        exact ⟨_, mem_map_of_mem hmem, harmed⟩
      exact ⟨hminus, Bool.or_eq_true_iff.mpr (.inr hany)⟩

/-- Files that are changed one by one, with their lines. -/
lemma Loaded.of_getElem? (h : Loaded dir files) {after : List CronFile}
    {g : ℕ → CronFile → CronFile} {c : ℕ → ℕ → CronLine → CronLine}
    (hafter : ∀ k, after[k]? = files[k]?.map (g k))
    (hg : ∀ k, ∀ f ∈ files, (g k f).Current dir ∧ (g k f).user = f.user ∧
      ∀ i, (g k f).lines[i]? = f.lines[i]?.map (c k i)) :
    Loaded dir after ∧ ∀ user i line, lineAt files user i = some line →
      ∃ k, lineAt after user i = some (c k i line) := by
  have husers : after.map CronFile.user = files.map CronFile.user := by
    refine ext_getElem? fun k => ?_
    rw [getElem?_map, getElem?_map, hafter]
    cases hk : files[k]? with
    | none => rfl
    | some f => exact congrArg some (hg k f (mem_of_getElem? hk)).2.1
  have hloaded : Loaded dir after := by
    refine ⟨husers ▸ h.nodup, fun user => by rw [husers, h.mem], fun f' hf' => ?_⟩
    obtain ⟨k, hk⟩ := mem_iff_getElem?.mp hf'
    rw [hafter] at hk
    obtain ⟨f, hf, rfl⟩ := Option.map_eq_some_iff.mp hk
    exact (hg k f (mem_of_getElem? hf)).1
  refine ⟨hloaded, fun user i line hline => ?_⟩
  obtain ⟨f, hf, rfl, hi⟩ := mem_of_lineAt hline
  obtain ⟨k, hk⟩ := mem_iff_getElem?.mp hf
  obtain ⟨-, huser, hlines⟩ := hg k f hf
  have hmem : g k f ∈ after := mem_of_getElem? (by rw [hafter, hk, map_some])
  refine ⟨k, ?_⟩
  rw [← huser, lineAt_of_mem hloaded.nodup hmem, hlines, hi, map_some]

lemma Loaded.testJobs (h : Loaded dir files) (now : ℤ) (random : ℕ → ℕ → Random) :
    Loaded dir (testJobs files now random).1 ∧
      ∀ user i line, lineAt files user i = some line →
        ∃ k, lineAt (testJobs files now random).1 user i = some (line.test now (random k i)) :=
  h.of_getElem? (fun _ => getElem?_mapIdx) fun k f hf =>
    (h.current f hf).test now (random k)

/-- A file behind `RunJobs`: no job is armed any more. -/
lemma CronFile.Current.runJobs (h : f.Current dir) :
    f.runJobs.Current dir ∧ f.runJobs.user = f.user ∧
      f.runJobs.lines = f.lines.map CronLine.runJob := by
  have hself (line : CronLine) (hpid : line.pid = 0) : line = line.runJob := by
    unfold CronLine.runJob
    rw [← hpid]
  unfold CronFile.runJobs
  split
  · have hlines : (f.lines.map fun line => if 0 ≤ line.pid then line else line.runJob) =
        f.lines.map CronLine.runJob := by
      refine map_congr_left fun line hline => ?_
      by_cases hpid : line.pid = 0
      · rw [if_pos (by omega)]
        exact hself line hpid
      · obtain ⟨hminus, -⟩ := h.armed line hline hpid
        rw [if_neg (by omega)]
    rw [hlines]
    refine ⟨⟨h.toBeDeleted, h.deleted, ?_, fun line hline hpid => ?_⟩, rfl, rfl⟩
    · rw [← h.lines, map_map]
      rfl
    · obtain ⟨old, -, rfl⟩ := mem_map.mp hline
      exact absurd rfl hpid
  · next hready =>
    have hidle : ∀ line ∈ f.lines, line.pid = 0 := by
      intro line hline
      by_contra hpid
      exact hready (h.armed line hline hpid).2
    refine ⟨h, rfl, ?_⟩
    conv_lhs => rw [← map_id f.lines]
    exact map_congr_left fun line hline => hself line (hidle line hline)

lemma Loaded.runJobs (h : Loaded dir files) :
    Loaded dir (runJobs files) ∧
      ∀ user i line, lineAt files user i = some line →
        lineAt (runJobs files) user i = some line.runJob := by
  obtain ⟨hloaded, hlines⟩ := h.of_getElem? (c := fun _ _ => CronLine.runJob)
    (fun _ => getElem?_map) fun _ f hf => by
      obtain ⟨hcurrent, huser, hlines⟩ := (h.current f hf).runJobs
      exact ⟨hcurrent, huser, fun _ => by rw [hlines, getElem?_map]⟩
  exact ⟨hloaded, fun user i line hline => (hlines user i line hline).choose_spec⟩

end Passes

end AtlasProbe.Perd
