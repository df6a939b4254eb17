import AtlasProbe.Lib.Text
import AtlasProbe.Lib.Reactive

/-!
# Moving the files of a directory

`condmv -D` moves the regular files of one directory to another one, by `rename` or, across file
systems, by a copy and `unlink`.  A file that is there already is not overwritten.  The copy is
closed without a look at the result, so that the source is removed even if the last bytes of the
copy could not be written; in every other case each file stays whole in one of the directories.
-/

namespace AtlasProbe.Condmv

open List Reactive Function

/-- A directory and a name in it. -/
abbrev Path := Bytes × Bytes

/-- The contents of the regular files. -/
abbrev Store := Path → Option Bytes

/-- The arguments of `do_dir`, the options that it reads and the time at which it is called. -/
structure Config where
  fromDir : Bytes
  toDir : Bytes
  ageValue : ℤ
  appendTimestamp : Bool
  crossFilesystems : Bool
  now : ℕ

/-- An entry that `readdir` returns, and what the calls for it do.  The `k`-th `fread` may fail
behind some bytes; `fclose` may leave only some bytes in the copy. -/
structure Entry where
  name : Bytes
  reallocFrom : Bool
  stat : Bool
  isReg : Bool
  mtime : ℤ
  reallocTo : Bool
  /-- `stat` of the destination succeeds or says `ENOENT`, and there is a regular file or none. -/
  statTo : Bool
  rename : Bool
  openIn : Bool
  openOut : Bool
  fread : ℕ → Option ℕ
  fwrite : ℕ → Bool
  fclose : Option ℕ
  unlinkTo : Bool
  unlinkFrom : Bool

/-- The files, and whether `do_dir` has stopped. -/
structure State where
  files : Store
  error : Bool

/-- `from_file` -/
def fromFile (cfg : Config) (name : Bytes) : Path := (cfg.fromDir, name)

/-- `to_file` -/
def toFile (cfg : Config) (name : Bytes) : Path :=
  (cfg.toDir, name ++ if cfg.appendTimestamp then 46 :: natText cfg.now else [])

/-- The size of `buf` in `do_cprm`. -/
def bufSize : ℕ := 1024

/-- The loop of `do_cprm` from the `k`-th call on: what was written, and whether all went well. -/
def copyLoop (e : Entry) : ℕ → ℕ → Bytes → Bytes → Bool → Bytes × Bool
  | 0, _, _, out, ferror => (out, !ferror)
  | fuel + 1, k, rest, out, ferror =>
    let lenIn := min ((e.fread k).getD bufSize) bufSize
    let ferror := ferror || (e.fread k).isSome
    if rest.take lenIn = [] then (out, !ferror)
    else if e.fwrite k then
      copyLoop e fuel (k + 1) (rest.drop lenIn) (out ++ rest.take lenIn) ferror
    else (out ++ rest.take lenIn, false)

/-- What is in the copy behind `fclose`. -/
def Entry.flush (e : Entry) (out : Bytes) : Bytes :=
  match e.fclose with
  | none => out
  | some n => out.take n

/-- `do_cprm` -/
def doCprm (cfg : Config) (files : Store) (e : Entry) (content : Bytes) : State :=
  if !e.openIn || !e.openOut then ⟨files, true⟩
  else
    let copy := copyLoop e (content.length + 1) 0 content [] false
    let files := update files (toFile cfg e.name) (some (e.flush copy.1))
    if copy.2 then
      ⟨if e.unlinkFrom then update files (fromFile cfg e.name) none else files, false⟩
    else ⟨if e.unlinkTo then update files (toFile cfg e.name) none else files, true⟩

/-- What `do_dir` decides about an entry. -/
inductive Verdict
  | skip
  | fail
  | move (content : Bytes)

/-- The checks of `do_dir`. -/
def verdict (cfg : Config) (files : Store) (e : Entry) : Verdict :=
  if !e.reallocFrom || !e.stat then .fail
  else if !e.isReg then .skip
  else
    match files (fromFile cfg e.name) with
    | none => .fail
    | some content =>
      if cfg.ageValue ≠ 0 ∧ e.mtime + cfg.ageValue > cfg.now then .skip
      else if !e.reallocTo then .fail
      else if !e.statTo || (files (toFile cfg e.name)).isSome then .skip
      else .move content

/-- A round of the loop of `do_dir`. -/
def step (cfg : Config) (s : State) (e : Entry) : State :=
  if s.error then s
  else
    match verdict cfg s.files e with
    | .skip => s
    | .fail => { s with error := true }
    | .move content =>
      if cfg.crossFilesystems then doCprm cfg s.files e content
      else if e.rename then
        ⟨update (update s.files (toFile cfg e.name) (some content))
          (fromFile cfg e.name) none, false⟩
      else { s with error := true }

/-- `do_dir`, with the entries of the directory unless it cannot be opened. -/
def doDir (cfg : Config) (files : Store) (entries : Option (List Entry)) : State :=
  match entries with
  | none => ⟨files, true⟩
  | some entries => run (step cfg) entries ⟨files, false⟩

/-! ### Copies -/

/-- The calls of the loop succeed, from the `k`-th on, if there are `len` bytes left. -/
inductive Entry.Copies (e : Entry) : ℕ → ℕ → Prop
  | eof {k : ℕ} (hread : e.fread k = none) : Copies e k 0
  | more {k len : ℕ} (hpos : 0 < len) (hread : e.fread k = none) (hwrite : e.fwrite k = true)
    (hrest : Copies e (k + 1) (len - bufSize)) : Copies e k len

section Copies

variable {e : Entry} {k : ℕ}

lemma Entry.Copies.fread_eq {len : ℕ} (h : e.Copies k len) : e.fread k = none := by
  cases h with
  | eof hread | more _ hread => exact hread

lemma Entry.copies_iff {len : ℕ} (hpos : 0 < len) :
    e.Copies k len ↔ e.fread k = none ∧ e.fwrite k = true ∧ e.Copies (k + 1) (len - bufSize) := by
  constructor
  · rintro (_ | ⟨_, hread, hwrite, hrest⟩)
    · exact absurd hpos (lt_irrefl 0)
    · exact ⟨hread, hwrite, hrest⟩
  · rintro ⟨hread, hwrite, hrest⟩
    exact .more hpos hread hwrite hrest

lemma copyLoop_ferror (fuel : ℕ) (rest out : Bytes) :
    (copyLoop e fuel k rest out true).2 = false := by
  induction fuel generalizing k rest out with
  | zero => rfl
  | succ fuel ih =>
    unfold copyLoop
    dsimp only
    split_ifs
    · rfl
    · exact ih _ _
    · rfl

/-- The loop ends well if and only if its calls succeed; all has been written then. -/
lemma copyLoop_iff {fuel : ℕ} {rest : Bytes} (hfuel : rest.length < fuel) (out : Bytes) :
    ((copyLoop e fuel k rest out false).2 = true ↔ e.Copies k rest.length) ∧
      (e.Copies k rest.length → (copyLoop e fuel k rest out false).1 = out ++ rest) := by
  induction fuel generalizing k rest out with
  | zero => exact absurd hfuel (Nat.not_lt_zero _)
  | succ fuel ih =>
    have hpos : rest ≠ [] → 0 < rest.length := length_pos_iff.mpr
    unfold copyLoop
    dsimp only
    cases hread : e.fread k with
    | some n =>
      have hnot : ¬e.Copies k rest.length := fun h => by cases hread.symm.trans h.fread_eq
      refine ⟨iff_of_false ?_ hnot, fun h => absurd h hnot⟩
      rw [Option.isSome_some, Bool.or_true, Bool.not_true]
      split_ifs
      · exact not_false
      · rw [copyLoop_ferror]
        exact Bool.false_ne_true
      · exact not_false
    | none =>
      rw [Option.getD_none, Nat.min_self, Option.isSome_none]
      by_cases hrest : rest = []
      · rw [hrest, take_nil, append_nil]
        exact ⟨iff_of_true rfl (.eof hread), fun _ => rfl⟩
      · have htake : rest.take bufSize ≠ [] := by simp [hrest, bufSize]
        rw [if_neg htake, Entry.copies_iff (hpos hrest), and_iff_right hread]
        split_ifs with hwrite
        · have hless : (rest.drop bufSize).length < fuel := by
            have hlength := hpos hrest
            rw [length_drop, bufSize]
            omega
          have hagain := ih (k := k + 1) hless (out ++ rest.take bufSize)
          rw [length_drop, append_assoc, take_append_drop] at hagain
          rw [and_iff_right hwrite]
          exact hagain
        · exact ⟨iff_of_false not_false fun h => hwrite h.1, fun h => absurd h.1 hwrite⟩

end Copies

/-! ### Files -/

/-- If the source of a copy is removed, then all of the copy has been written when it is closed. -/
def Secured (cfg : Config) (s : State) (e : Entry) : Prop :=
  ∀ content n, s.error = false → verdict cfg s.files e = .move content →
    cfg.crossFilesystems = true → e.openIn = true → e.openOut = true → e.Copies 0 content.length →
    e.unlinkFrom = true → e.fclose = some n → content.length ≤ n

/-- What a round does to the files: nothing, or a new file comes and the old one stays, or the old
one goes and is in the new one if the round is secured. -/
inductive Outcome (cfg : Config) (s : State) (e : Entry) (files : Store) : Prop
  | same (heq : files = s.files) (hsecured : Secured cfg s e)
  | added (new : Option Bytes) (hto : s.files (toFile cfg e.name) = none)
    (heq : files = update s.files (toFile cfg e.name) new) (hsecured : Secured cfg s e)
  | moved (content new : Bytes) (hfrom : s.files (fromFile cfg e.name) = some content)
    (hto : s.files (toFile cfg e.name) = none)
    (heq : files = update (update s.files (toFile cfg e.name) (some new))
      (fromFile cfg e.name) none) (hsecured : new = content ↔ Secured cfg s e)

section Steps

variable {cfg : Config} {s : State} {e : Entry} {content : Bytes}

lemma verdict_eq_move (h : verdict cfg s.files e = .move content) :
    s.files (fromFile cfg e.name) = some content ∧ s.files (toFile cfg e.name) = none := by
  unfold verdict at h
  cases hfrom : s.files (fromFile cfg e.name) <;> rw [hfrom] at h
  · split_ifs at h
  · split_ifs at h with hrealloc hreg hage hreallocTo hto
    obtain rfl := Verdict.move.inj h
    rw [Bool.or_eq_true, not_or, Option.not_isSome_iff_eq_none] at hto
    exact ⟨rfl, hto.2⟩

lemma Entry.flush_eq_iff : e.flush content = content ↔ ∀ n, e.fclose = some n →
    content.length ≤ n := by
  unfold Entry.flush
  cases e.fclose with
  | none => simp
  | some n =>
    simp only [Option.some.injEq, forall_eq']
    refine ⟨fun htake => ?_, take_of_length_le⟩
    rw [← htake]
    exact (length_take_le n content)

/-- What `do_cprm` does. -/
lemma outcome_doCprm (herror : s.error = false) (h : verdict cfg s.files e = .move content)
    (hcross : cfg.crossFilesystems = true) :
    Outcome cfg s e (doCprm cfg s.files e content).files := by
  obtain ⟨hfrom, hto⟩ := verdict_eq_move h
  have hcopy := copyLoop_iff (e := e) (k := 0) (Nat.lt_succ_self content.length) []
  have hsame {content' : Bytes} (h' : verdict cfg s.files e = .move content') :
      content' = content := Verdict.move.inj (h'.symm.trans h)
  unfold doCprm
  split
  · next hopen =>
    refine .same rfl fun content' n _ _ _ hin hout => ?_
    rw [hin, hout] at hopen
    cases hopen
  · next hopen =>
    dsimp only
    split
    · next hok =>
      have hall := hcopy.2 (hcopy.1.mp hok)
      rw [hall]
      by_cases hunlink : e.unlinkFrom = true
      · rw [if_pos hunlink]
        refine .moved content _ hfrom hto rfl (Entry.flush_eq_iff.trans ⟨fun hflush => ?_, ?_⟩)
        · intro content' n _ h' _ _ _ _ _ hclose
          exact hsame h' ▸ hflush n hclose
        · intro hsecured n hclose
          rw [Bool.or_eq_true, not_or] at hopen
          exact hsecured content n herror h hcross (by simpa using hopen.1) (by simpa using hopen.2)
            (hcopy.1.mp hok) hunlink hclose
      · rw [if_neg hunlink]
        exact .added _ hto rfl fun _ _ _ _ _ _ _ _ hremoved => absurd hremoved hunlink
    · next hfailed =>
      have hsecured : Secured cfg s e := fun content' n _ h' _ _ _ hcopies =>
        absurd (hcopy.1.mpr (hsame h' ▸ hcopies)) hfailed
      split
      · rw [update_idem]
        exact .added _ hto rfl hsecured
      · exact .added _ hto rfl hsecured

/-- What a round does. -/
lemma outcome_step (cfg : Config) (s : State) (e : Entry) :
    Outcome cfg s e (step cfg s e).files := by
  unfold step
  by_cases herror : s.error = true
  · rw [if_pos herror]
    exact .same rfl fun _ _ hgoing => absurd herror (ne_true_of_eq_false hgoing)
  rw [if_neg herror]
  cases h : verdict cfg s.files e with
  | skip | fail => exact .same rfl fun _ _ _ h' => by cases h.symm.trans h'
  | move content =>
    dsimp only
    by_cases hcross : cfg.crossFilesystems = true
    · rw [if_pos hcross]
      exact outcome_doCprm (Bool.eq_false_iff.mpr herror) h hcross
    · have hsecured : Secured cfg s e := fun _ _ _ _ hcross' => absurd hcross' hcross
      rw [if_neg hcross]
      obtain ⟨hfrom, hto⟩ := verdict_eq_move h
      split
      · exact .moved content content hfrom hto rfl (iff_of_true rfl hsecured)
      · exact .same rfl hsecured

end Steps

/-! ### Runs -/

section Runs

variable {cfg : Config} {s : State} {e : Entry} {files : Store} {p : Path} {content : Bytes}

variable (hdir : cfg.fromDir ≠ cfg.toDir) (entries : List Entry)

include hdir

lemma fromFile_ne_toFile (name name' : Bytes) :
    fromFile cfg name ≠ toFile cfg name' := fun h => hdir (congrArg Prod.fst h)

/-- The files of the destination stay as they are. -/
lemma Outcome.dest (h : Outcome cfg s e files) (hp : p.1 = cfg.toDir)
    (hfile : s.files p = some content) : files p = some content := by
  have hne (hto : s.files (toFile cfg e.name) = none) : p ≠ toFile cfg e.name := by
    rintro rfl
    cases hto.symm.trans hfile
  cases h with
  | same heq => rwa [heq]
  | added new hto heq => rwa [heq, update_of_ne (hne hto)]
  | moved _ new _ hto heq =>
    have hfrom : p ≠ fromFile cfg e.name := by
      rintro rfl
      exact hdir hp
    rwa [heq, update_of_ne hfrom, update_of_ne (hne hto)]

/-- A file that is in the source was there before. -/
lemma Outcome.source (h : Outcome cfg s e files) (hp : p.1 = cfg.fromDir)
    (hfile : files p = some content) : s.files p = some content := by
  have hne : p ≠ toFile cfg e.name := by
    rintro rfl
    exact hdir hp.symm
  cases h with
  | same heq => rwa [heq] at hfile
  | added new _ heq => rwa [heq, update_of_ne hne] at hfile
  | moved _ new _ _ heq =>
    rw [heq] at hfile
    by_cases hfrom : p = fromFile cfg e.name
    · rw [hfrom, update_self] at hfile
      cases hfile
    · rwa [update_of_ne hfrom, update_of_ne hne] at hfile

lemma run_dest (hp : p.1 = cfg.toDir) (hfile : s.files p = some content) :
    (run (step cfg) entries s).files p = some content := by
  induction entries generalizing s with
  | nil => exact hfile
  | cons e entries ih => exact ih ((outcome_step cfg s e).dest hdir hp hfile)

lemma run_source (hp : p.1 = cfg.fromDir)
    (hfile : (run (step cfg) entries s).files p = some content) : s.files p = some content := by
  induction entries generalizing s with
  | nil => exact hfile
  | cons e entries ih => exact (outcome_step cfg s e).source hdir hp (ih hfile)

/-- Each file of the source is whole behind the rounds if and only if every round is secured. -/
lemma kept_iff (s : State) :
    (∀ name content, s.files (fromFile cfg name) = some content →
        (run (step cfg) entries s).files (fromFile cfg name) = some content ∨
          (run (step cfg) entries s).files (toFile cfg name) = some content) ↔
      Along (step cfg) (Secured cfg) entries s := by
  induction entries generalizing s with
  | nil => exact iff_of_true (fun _ _ hfile => .inl hfile) trivial
  | cons e entries ih =>
    rw [Along, ← ih, run_cons]
    have hout := outcome_step cfg s e
    generalize step cfg s e = t at hout
    constructor
    · intro hkept
      refine ⟨?_, fun name content hfile => hkept name content (hout.source hdir rfl hfile)⟩
      cases hout with
      | same _ hsecured => exact hsecured
      | added _ _ _ hsecured => exact hsecured
      | moved content new hfrom hto heq hsecured =>
        have hgone : t.files (fromFile cfg e.name) = none := by rw [heq, update_self]
        have hnew : t.files (toFile cfg e.name) = some new := by
          rw [heq, update_of_ne (fromFile_ne_toFile hdir _ _).symm, update_self]
        refine hsecured.mp ?_
        rcases hkept e.name content hfrom with hin | hin
        · cases hgone.symm.trans (run_source hdir entries rfl hin)
        · exact Option.some.inj ((run_dest hdir entries rfl hnew).symm.trans hin)
    · rintro ⟨hround, hrest⟩ name content hfile
      by_cases hstays : t.files (fromFile cfg name) = some content
      · exact hrest name content hstays
      have hne := fromFile_ne_toFile hdir name e.name
      cases hout with
      | same heq => exact absurd (heq ▸ hfile) hstays
      | added new _ heq => exact absurd (by rwa [heq, update_of_ne hne]) hstays
      | moved content' new hfrom hto heq hsecured =>
        obtain rfl : name = e.name := by
          by_contra hother
          have hpath : fromFile cfg name ≠ fromFile cfg e.name :=
            fun h => hother (congrArg Prod.snd h)
          exact hstays (by rwa [heq, update_of_ne hpath, update_of_ne hne])
        obtain rfl : content' = content := Option.some.inj (hfrom.symm.trans hfile)
        refine .inr (run_dest hdir entries rfl ?_)
        rw [heq, update_of_ne hne.symm, update_self, hsecured.mpr hround]

end Runs

/-- Each file of the source is whole in the source or in the destination behind `do_dir`, and the
files of the destination are as before. -/
def KeepsFiles (cfg : Config) (files : Store) (entries : Option (List Entry)) : Prop :=
  (∀ name content, files (fromFile cfg name) = some content →
    (doDir cfg files entries).files (fromFile cfg name) = some content ∨
      (doDir cfg files entries).files (toFile cfg name) = some content) ∧
  ∀ name content, files (cfg.toDir, name) = some content →
    (doDir cfg files entries).files (cfg.toDir, name) = some content

/-- No file is lost if and only if no copy loses bytes when it is closed and its source is
removed. -/
theorem doDir_keepsFiles_iff (cfg : Config) (hdir : cfg.fromDir ≠ cfg.toDir) (files : Store)
    (entries : Option (List Entry)) :
    KeepsFiles cfg files entries ↔
      ∀ l ∈ entries, Along (step cfg) (Secured cfg) l ⟨files, false⟩ := by
  cases entries with
  | none => exact iff_of_true ⟨fun _ _ h => .inl h, fun _ _ h => h⟩ (fun _ h => by cases h)
  | some l =>
    have hkept := kept_iff hdir l ⟨files, false⟩
    constructor
    · rintro h l' ⟨⟩
      exact hkept.mp h.1
    · intro h
      exact ⟨hkept.mpr (h l rfl), fun name content hfile => run_dest hdir l rfl hfile⟩

/-- Results are moved across file systems. -/
def plainConfig : Config := ⟨ascii "new", ascii "out", 0, false, true, 0⟩

/-- A file that is copied and removed, with some result of `fclose`. -/
def plainEntry (fclose : Option ℕ) : Entry :=
  ⟨ascii "1", true, true, true, 0, true, true, true, true, true, fun _ => none, fun _ => true,
    fclose, true, true⟩

/-- A directory with one result. -/
def plainStore : Store := fun p => if p = (ascii "new", ascii "1") then some (ascii "ok") else none

/-- A copy that is closed well is whole. -/
theorem doDir_keepsFiles_closed : KeepsFiles plainConfig plainStore (some [plainEntry none]) := by
  refine (doDir_keepsFiles_iff plainConfig (by decide) plainStore _).mpr ?_
  rintro l ⟨⟩
  refine ⟨?_, trivial⟩
  intro content n _ _ _ _ _ _ _ hclose
  cases hclose

/-- If the bytes cannot be written when the copy is closed, then the result is lost. -/
theorem doDir_loses_file : ¬KeepsFiles plainConfig plainStore (some [plainEntry (some 0)]) := by
  rintro ⟨hkept, -⟩
  exact absurd (hkept (ascii "1") (ascii "ok") (by decide +kernel)) (by decide +kernel)

end AtlasProbe.Condmv
