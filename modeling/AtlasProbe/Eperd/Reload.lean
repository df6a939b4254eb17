import AtlasProbe.Eperd.Crontab
import AtlasProbe.Lib.Transition

/-!
# A crontab is reconciled with the list of entries

If no two entries of the list agree in what `Insert` compares, then the position that `oldLine`
remembers makes no difference, and reading a file is a sequence of insertions by key.  What a file
does to the list follows from what one insertion does.
-/

namespace AtlasProbe.Eperd

open List

/-! ### One line -/

/-- What stays the same in an entry that is matched. -/
structure CronLine.Keeps (old new : CronLine) : Prop where
  key : new.key = old.key
  testops : new.testops = old.testops
  teststate : new.teststate = old.teststate
  nextcycle : new.nextcycle = old.nextcycle

/-- A line whose parameter does not make `do_distr` divide by zero. -/
def CronLine.Divides (line : CronLine) : Prop :=
  line.distribution = .uniform → modulus line.distrParam ≠ 0

/-- What the insertion of a line does to the list. -/
structure Inserted (s : Crontab) (line : CronLine) (t : Crontab) : Prop where
  nodup : (t.lines.map CronLine.key).Nodup
  deleted : t.deleted = s.deleted
  entry : ∃ entry : CronLine, entry.key = line.key ∧ entry.endTime = line.endTime ∧
    entry.needsDelete = false ∧ (∀ x, x ∈ t.lines ↔ x = entry ∨ x ∈ s.lines ∧ x.key ≠ line.key) ∧
    ((∃ old ∈ s.lines, old.Keeps entry ∧ t.inits = s.inits) ∨
      (∀ x ∈ s.lines, x.key ≠ line.key) ∧ t.inits = s.inits ++ [line.key])

section Insert

variable {s : Crontab} {line : CronLine} {env : Line} {t : Crontab}

/-- A matched entry keeps its test and its cycle: without a new cycle, `set_timeout` only arms the
timer. -/
lemma setTimeout_matched (old : CronLine) (endTime : ℤ) (now : TimeVal) (random : Random) :
    ∃ new, { old with endTime := endTime, needsDelete := false }.setTimeout false now random =
      some new ∧ old.Keeps new ∧ new.endTime = endTime ∧ new.needsDelete = false := by
  by_cases hend : endTime < now.sec
  · exact ⟨_, if_pos hend, ⟨rfl, rfl, rfl, rfl⟩, rfl, rfl⟩
  · exact ⟨_, if_neg hend, ⟨rfl, rfl, rfl, rfl⟩, rfl, rfl⟩

/-- If it does not divide by zero, `do_distr` sets the offset. -/
lemma doDistr_of_divides (hdivides : line.Divides) (random : Random) :
    ∃ sec usec, line.doDistr random = some { line with offsetSec := sec, offsetUsec := usec } := by
  unfold CronLine.doDistr
  cases hdistr : line.distribution with
  | none => exact ⟨_, _, rfl⟩
  | uniform => exact ⟨_, _, if_neg (hdivides hdistr)⟩

/-- A new entry is started, and has what the line says. -/
lemma start_spec (hdivides : line.Divides) (env : Line) :
    ∃ new, line.start env = some new ∧ new.key = line.key ∧ new.endTime = line.endTime ∧
      new.needsDelete = line.needsDelete := by
  unfold CronLine.start
  cases env.init with
  | failed => exact ⟨_, rfl, rfl, rfl, rfl⟩
  | called state =>
    dsimp only
    obtain ⟨new, hnew⟩ : ∃ new, new = { line with testops := true, teststate := state } := ⟨_, rfl⟩
    have hkeeps : new.key = line.key ∧ new.endTime = line.endTime ∧
        new.needsDelete = line.needsDelete := by
      subst hnew
      exact ⟨rfl, rfl, rfl⟩
    have hcycle : (new.initNextCycle env.now).Divides := by
      subst hnew
      exact hdivides
    obtain ⟨sec, usec, hoffset⟩ := doDistr_of_divides hcycle env.random
    rw [← hnew, CronLine.setTimeout, hoffset, if_pos rfl]
    split_ifs
    · exact ⟨_, rfl, hkeeps⟩
    · exact ⟨_, rfl, hkeeps⟩

/-- The search finds an entry with the key of the line. -/
lemma search_eq_some {i : ℕ} (h : s.search line = some i) :
    ∃ old, s.lines[i]? = some old ∧ old.key = line.key := by
  have hfound : ∀ i, s.lines.findIdx? (fun old => decide (old.key = line.key)) = some i →
      ∃ old, s.lines[i]? = some old ∧ old.key = line.key := by
    intro i hi
    obtain ⟨hlt, hkey, -⟩ := findIdx?_eq_some_iff_getElem.mp hi
    exact ⟨_, getElem?_eq_getElem hlt, of_decide_eq_true hkey⟩
  unfold Crontab.search at h
  cases hold : s.oldLine with
  | none =>
    rw [hold] at h
    exact hfound i h
  | some j =>
    simp only [hold] at h
    split_ifs at h with hj
    · cases h
      exact Option.map_eq_some_iff.mp hj
    · exact hfound i h

/-- If the search finds nothing, then the key of the line is new. -/
lemma search_eq_none (h : s.search line = none) : ∀ x ∈ s.lines, x.key ≠ line.key := by
  have hfound : s.lines.findIdx? (fun old => decide (old.key = line.key)) = none := by
    unfold Crontab.search at h
    cases hold : s.oldLine with
    | none => rwa [hold] at h
    | some j =>
      simp only [hold] at h
      split_ifs at h
      exact h
  intro x hx hkey
  have hnot := findIdx?_eq_none_iff.mp hfound x hx
  rw [decide_eq_false_iff_not] at hnot
  exact hnot hkey

/-- The line matches an entry, or is new. -/
lemma insert_spec (hnodup : (s.lines.map CronLine.key).Nodup) (hmark : line.needsDelete = false)
    (hdivides : line.Divides) (env : Line) :
    ∃ t, s.insert line env = some t ∧ Inserted s line t := by
  cases hsearch : s.search line with
  | some i =>
    obtain ⟨old, hi, hkey⟩ := search_eq_some hsearch
    obtain ⟨new, harm, hkeeps, hend, hneeds⟩ :=
      setTimeout_matched old line.endTime env.now env.random
    have hinsert : s.insert line env = some { s with
        lines := s.lines.set i new, oldLine := some i } := by
      simp only [Crontab.insert, hsearch, hi, harm, Option.bind_eq_bind, Option.bind_some]
    have hnew : new.key = line.key := hkeeps.key.trans hkey
    refine ⟨_, hinsert, ?_, rfl, new, hnew, hend, hneeds, ?_, .inl ⟨old, ?_, hkeeps, rfl⟩⟩
    · rw [Keyed.map_set hi hkeeps.key]
      exact hnodup
    · intro x
      rw [Keyed.mem_set_iff hnodup hi hkeeps.key, hnew]
    · exact mem_of_getElem? hi
  | none =>
    have hnew := search_eq_none hsearch
    obtain ⟨new, hstart, hkey, hend, hneeds⟩ := start_spec hdivides env
    have hinsert : s.insert line env = some { s with
        lines := s.lines ++ [new]
        oldLine := none
        inits := s.inits ++ [line.key] } := by
      simp only [Crontab.insert, hsearch, hstart, Option.bind_eq_bind, Option.bind_some]
    refine ⟨_, hinsert, ?_, rfl, new, hkey, hend, hneeds.trans hmark, ?_, .inr ⟨hnew, rfl⟩⟩
    · exact Keyed.nodup_append hnodup fun x hx => hkey ▸ hnew x hx
    · intro x
      rw [mem_append, mem_singleton, or_comm]
      exact or_congr_right ⟨fun hx => ⟨hx, hnew x hx⟩, And.left⟩

/-- The insertion adds the key of the line, if it is new. -/
lemma Inserted.mem_keys (h : Inserted s line t) (key : Key) :
    key ∈ t.lines.map CronLine.key ↔ key ∈ s.lines.map CronLine.key ∨ key = line.key := by
  obtain ⟨-, -, entry, hkey, -, -, hmem, -⟩ := h
  have hentry : line.key ∈ t.lines.map CronLine.key :=
    mem_map.mpr ⟨entry, (hmem entry).mpr (.inl rfl), hkey⟩
  constructor
  · intro ht
    obtain ⟨x, hx, rfl⟩ := mem_map.mp ht
    rcases (hmem x).mp hx with rfl | ⟨hxs, -⟩
    · exact .inr hkey
    · exact .inl (mem_map_of_mem hxs)
  · rintro (hs | rfl)
    · obtain ⟨x, hx, rfl⟩ := mem_map.mp hs
      by_cases hxkey : x.key = line.key
      · exact hxkey ▸ hentry
      · exact mem_map_of_mem ((hmem x).mpr (.inr ⟨hx, hxkey⟩))
    · exact hentry

/-- The insertion initialises an entry if the key is new. -/
lemma Inserted.inits (h : Inserted s line t) :
    line.key ∈ s.lines.map CronLine.key ∧ t.inits = s.inits ∨
      line.key ∉ s.lines.map CronLine.key ∧ t.inits = s.inits ++ [line.key] := by
  obtain ⟨-, -, entry, hkey, -, -, -, ⟨old, hold, hkeeps, hinits⟩ | ⟨hnew, hinits⟩⟩ := h
  · exact .inl ⟨mem_map.mpr ⟨old, hold, hkeeps.key.symm.trans hkey⟩, hinits⟩
  · refine .inr ⟨fun hin => ?_, hinits⟩
    obtain ⟨x, hx, hxkey⟩ := mem_map.mp hin
    exact hnew x hx hxkey

/-- An entry that has the key of one before is matched, or untouched. -/
lemma Inserted.keeps (h : Inserted s line t) {x : CronLine} (hx : x ∈ t.lines)
    (hkey : x.key ∈ s.lines.map CronLine.key) : ∃ old ∈ s.lines, old.Keeps x := by
  obtain ⟨-, -, entry, hentry, -, -, hmem, hnew⟩ := h
  rcases (hmem x).mp hx with rfl | ⟨hxs, -⟩
  · rcases hnew with ⟨old, hold, hkeeps, -⟩ | ⟨hnone, -⟩
    · exact ⟨old, hold, hkeeps⟩
    · obtain ⟨y, hy, hykey⟩ := mem_map.mp hkey
      exact absurd (hykey.trans hentry) (hnone y hy)
  · exact ⟨x, hxs, rfl, rfl, rfl, rfl⟩

end Insert

lemma CronLine.Keeps.trans {old mid new : CronLine} (h : old.Keeps mid) (h' : mid.Keeps new) :
    old.Keeps new :=
  ⟨h'.key.trans h.key, h'.testops.trans h.testops, h'.teststate.trans h.teststate,
    h'.nextcycle.trans h.nextcycle⟩

/-! ### The file -/

/-- The lines of a file that are accepted. -/
def accepted (file : List Line) : List CronLine := file.filterMap fun env => parseLine env.tokens

/-- The end time in the last line with a key. -/
def lastEndTime (lines : List CronLine) (key : Key) : Option ℤ :=
  (lines.filter fun line => decide (line.key = key)).getLast?.map CronLine.endTime

variable {line : CronLine} {s t u : Crontab} {lines : List CronLine} {file : List Line}

/-- What the lines read so far have done to the marked list `s`. -/
structure Merged (s : Crontab) (lines : List CronLine) (t : Crontab) : Prop where
  nodup : (t.lines.map CronLine.key).Nodup
  deleted : t.deleted = s.deleted
  entry : ∀ x ∈ t.lines, x.key ∈ lines.map CronLine.key →
    x.needsDelete = false ∧ lastEndTime lines x.key = some x.endTime
  rest : ∀ x ∈ t.lines, x.key ∉ lines.map CronLine.key → x ∈ s.lines
  keys : ∀ key, key ∈ t.lines.map CronLine.key ↔
    key ∈ s.lines.map CronLine.key ∨ key ∈ lines.map CronLine.key
  keeps : ∀ old ∈ s.lines, ∀ x ∈ t.lines, x.key = old.key → old.Keeps x
  inits : ∃ new, t.inits = s.inits ++ new ∧ new.Nodup ∧
    ∀ key, key ∈ new ↔ key ∈ lines.map CronLine.key ∧ key ∉ s.lines.map CronLine.key

lemma Merged.nil (hnodup : (s.lines.map CronLine.key).Nodup) : Merged s [] s where
  nodup := hnodup
  deleted := rfl
  entry _ _ h := absurd h not_mem_nil
  rest _ hx _ := hx
  keys _ := by simp
  keeps old hold x hx hkey := by
    obtain rfl := inj_on_of_nodup_map hnodup hx hold hkey
    exact ⟨rfl, rfl, rfl, rfl⟩
  inits := ⟨[], (append_nil _).symm, nodup_nil, fun _ => by simp⟩

/-- The new keys, with one line more. -/
lemma Merged.inits_snoc (h : Merged s lines t) (hline : Inserted t line u) :
    ∃ new, u.inits = s.inits ++ new ∧ new.Nodup ∧ ∀ key,
      key ∈ new ↔ (key ∈ lines.map CronLine.key ∨ key = line.key) ∧
        key ∉ s.lines.map CronLine.key := by
  obtain ⟨new, hinits, hnodup, hmem⟩ := h.inits
  have hkeys := h.keys line.key
  rcases hline.inits with ⟨hpresent, hsame⟩ | ⟨habsent, hone⟩
  · rw [hkeys] at hpresent
    refine ⟨new, hsame.trans hinits, hnodup, fun key => ?_⟩
    rw [hmem]
    constructor
    · exact fun ⟨hin, hnot⟩ => ⟨.inl hin, hnot⟩
    · rintro ⟨hin | rfl, hnot⟩
      · exact ⟨hin, hnot⟩
      · exact ⟨hpresent.resolve_left hnot, hnot⟩
  · rw [hkeys, not_or] at habsent
    refine ⟨new ++ [line.key], by rw [hone, hinits, append_assoc], ?_, fun key => ?_⟩
    · rw [← concat_eq_append]
      exact hnodup.concat fun hin => habsent.2 ((hmem _).mp hin).1
    · rw [mem_append, mem_singleton, hmem]
      constructor
      · rintro (⟨hin, hnot⟩ | rfl)
        · exact ⟨.inl hin, hnot⟩
        · exact ⟨.inr rfl, habsent.1⟩
      · rintro ⟨hin | rfl, hnot⟩
        · exact .inl ⟨hin, hnot⟩
        · exact .inr rfl

/-- One line more. -/
lemma Merged.snoc (h : Merged s lines t) (hline : Inserted t line u) :
    Merged s (lines ++ [line]) u := by
  have hkeys : ∀ key, key ∈ (lines ++ [line]).map CronLine.key ↔
      key ∈ lines.map CronLine.key ∨ key = line.key := fun key => by simp
  obtain ⟨entry, hkey, hend, hneeds, hmem, -⟩ := hline.entry
  refine ⟨hline.nodup, hline.deleted.trans h.deleted, ?_, ?_, ?_, ?_, ?_⟩
  · intro x hx hxkey
    rcases (hmem x).mp hx with rfl | ⟨hxt, hne⟩
    · rw [hkey, hend]
      exact ⟨hneeds, by simp [lastEndTime]⟩
    · have hlast : lastEndTime (lines ++ [line]) x.key = lastEndTime lines x.key := by
        simp [lastEndTime, hne.symm]
      rw [hlast]
      exact h.entry x hxt (((hkeys _).mp hxkey).resolve_right hne)
  · intro x hx hxkey
    rw [hkeys, not_or] at hxkey
    rcases (hmem x).mp hx with rfl | ⟨hxt, -⟩
    · exact absurd hkey hxkey.2
    · exact h.rest x hxt hxkey.1
  · intro key
    rw [hline.mem_keys, h.keys, hkeys, or_assoc]
  · intro old hold x hx hxkey
    have hpresent := (h.keys old.key).mpr (.inl (mem_map_of_mem hold))
    obtain ⟨mid, hmid, hkeeps⟩ := hline.keeps hx (hxkey ▸ hpresent)
    exact (h.keeps old hold mid hmid (hkeeps.key.symm.trans hxkey)).trans hkeeps
  · simp only [hkeys]
    exact h.inits_snoc hline

/-- A run of insertions merges the lines. -/
lemma merged_of_run (hnodup : (s.lines.map CronLine.key).Nodup) (h : Run Inserted s lines t) :
    Merged s lines t := by
  induction h with
  | nil => exact .nil hnodup
  | snoc _ hlast ih => exact ih.snoc hlast

/-- What a line that is accepted says: the entry is not marked, and the parameter is an `int`. -/
lemma parseLine_spec {tokens : List Bytes} (h : parseLine tokens = some line) :
    line.needsDelete = false ∧ -2 ^ 31 ≤ line.distrParam ∧ line.distrParam < 2 ^ 31 := by
  have hdistr : ∀ {name param : Bytes} {d : Distribution} {p : ℤ},
      parseDistribution name param = some (d, p) → -2 ^ 31 ≤ p ∧ p < 2 ^ 31 := by
    intro name param d p hp
    have hle := Int.le_bmod (x := ((strtoul param).1 : ℤ)) (m := 2 ^ 32) (by decide)
    have hlt := Int.bmod_lt (x := ((strtoul param).1 : ℤ)) (m := 2 ^ 32) (by decide)
    unfold parseDistribution at hp
    dsimp only at hp
    split_ifs at hp <;> cases hp <;> omega
  unfold parseLine at h
  split at h
  · dsimp only at h
    split_ifs at h
    obtain ⟨⟨d, p⟩, hp, hline⟩ := Option.bind_eq_some_iff.mp h
    cases hline
    exact ⟨rfl, hdistr hp⟩
  · cases h

/-- If the file is short enough, then it is read to its end. -/
lemma run_of_readLines {s₀ : Crontab} (hnodup : (s₀.lines.map CronLine.key).Nodup)
    (hdivides : ∀ line ∈ accepted file, line.Divides) {maxLines : ℕ} (hlt : file.length < maxLines)
    (hrun : Run Inserted s₀ lines s) :
    ∃ t, Crontab.readLines maxLines file s = some t ∧
      Run Inserted s₀ (lines ++ accepted file) t := by
  induction file generalizing maxLines lines s with
  | nil =>
    refine ⟨s, ?_, by rwa [accepted, filterMap_nil, append_nil]⟩
    unfold Crontab.readLines
    split_ifs <;> rfl
  | cons env file ih =>
    rw [length_cons] at hlt
    have hmore : maxLines - 1 ≠ 0 := by omega
    unfold Crontab.readLines
    rw [if_neg hmore]
    cases hparse : parseLine env.tokens with
    | none =>
      have hskip : accepted (env :: file) = accepted file := by
        simp only [accepted, filterMap_cons, hparse]
      rw [hskip] at hdivides ⊢
      simp only [hparse]
      exact ih hdivides (by omega) hrun
    | some line =>
      have hcons : accepted (env :: file) = line :: accepted file := by
        simp only [accepted, filterMap_cons, hparse]
      rw [hcons] at hdivides ⊢
      obtain ⟨t, hinsert, hinserted⟩ := insert_spec (merged_of_run hnodup hrun).nodup
        (parseLine_spec hparse).1 (hdivides line mem_cons_self) env
      simp only [hparse, hinsert, Option.bind_eq_bind]
      rw [append_cons]
      exact ih (fun l hl => hdivides l (mem_cons_of_mem _ hl)) (by omega) (hrun.snoc hinserted)

/-! ### The sweep -/

/-- The list `t` after a file with the accepted lines `lines` has been loaded over the list `s`,
with the tests that `delete` deletes. -/
structure Reconciled (s : Crontab) (lines : List CronLine) (delete : ℕ → Bool) (t : Crontab) :
    Prop where
  /-- The key of a line is that of one entry, which ends when the last such line says. -/
  entry : ∀ line ∈ lines, ∃ entry,
    t.lines.filter (fun x => decide (x.key = line.key)) = [entry] ∧ entry.needsDelete = false ∧
      lastEndTime lines line.key = some entry.endTime
  /-- An entry that was there before keeps its test and its cycle. -/
  keeps : ∀ old ∈ s.lines, ∀ x ∈ t.lines, x.key = old.key →
    x.teststate = old.teststate ∧ x.nextcycle = old.nextcycle
  /-- The new entries are initialised once. -/
  inits : ∃ new, t.inits = s.inits ++ new ∧ new.Nodup ∧
    ∀ key, key ∈ new ↔ key ∈ lines.map CronLine.key ∧ key ∉ s.lines.map CronLine.key
  /-- An entry that is not in the file stays only if its test is busy. -/
  leftover : ∀ x ∈ t.lines, x.key ∉ lines.map CronLine.key →
    x.needsDelete = true ∧ ∃ old ∈ s.lines, old.key = x.key ∧ old.busy delete = true
  /-- The entries that are not in the file and not busy are deleted. -/
  deleted : ∃ gone, t.deleted = s.deleted ++ gone ∧ ∀ key, key ∈ gone ↔
    key ∉ lines.map CronLine.key ∧ ∃ old ∈ s.lines, old.key = key ∧ old.busy delete = false

section Sweep

variable {s t : Crontab} {lines : List CronLine} {x : CronLine}

lemma map_key_markAll (s : Crontab) :
    s.markAll.lines.map CronLine.key = s.lines.map CronLine.key := by
  unfold Crontab.markAll
  rw [map_map]
  rfl

/-- A marked entry is one from before, with a mark. -/
lemma mem_markAll (hx : x ∈ s.markAll.lines) :
    ∃ old ∈ s.lines, x = { old with needsDelete := true } := by
  obtain ⟨old, hold, rfl⟩ := mem_map.mp hx
  exact ⟨old, hold, rfl⟩

/-- What is marked after the file has been read is what the file does not have. -/
lemma Merged.needsDelete_iff (h : Merged s.markAll lines t) (hx : x ∈ t.lines) :
    x.needsDelete = true ↔ x.key ∉ lines.map CronLine.key := by
  constructor
  · intro hneeds hkey
    rw [(h.entry x hx hkey).1] at hneeds
    cases hneeds
  · intro hkey
    obtain ⟨old, -, rfl⟩ := mem_markAll (h.rest x hx hkey)
    rfl

/-- The entries that the sweep keeps. -/
lemma mem_deleteFile {delete : ℕ → Bool} :
    x ∈ (t.deleteFile delete).lines ↔
      x ∈ t.lines ∧ (x.needsDelete = false ∨ x.busy delete = true) := by
  simp [Crontab.deleteFile]

/-- The sweep after the file has been read reconciles the list with the file. -/
lemma Merged.reconciled (h : Merged s.markAll lines t) (delete : ℕ → Bool) :
    Reconciled s lines delete (t.deleteFile delete) where
  entry := by
    intro line hline
    have hkey : line.key ∈ lines.map CronLine.key := mem_map_of_mem hline
    obtain ⟨x, hx, hxkey⟩ := mem_map.mp ((h.keys line.key).mpr (.inr hkey))
    obtain ⟨hneeds, hend⟩ := h.entry x hx (hxkey ▸ hkey)
    refine ⟨x, ?_, hneeds, hxkey ▸ hend⟩
    rw [← hxkey]
    refine Keyed.filter_eq_singleton ?_ (mem_deleteFile.mpr ⟨hx, .inl hneeds⟩)
    exact (filter_sublist.map CronLine.key).nodup h.nodup
  keeps := by
    intro old hold x hx hxkey
    have hmark : { old with needsDelete := true } ∈ s.markAll.lines := mem_map_of_mem hold
    have hkeeps := h.keeps _ hmark x (mem_deleteFile.mp hx).1 hxkey
    exact ⟨hkeeps.teststate, hkeeps.nextcycle⟩
  inits := by
    obtain ⟨new, hinits, hnodup, hmem⟩ := h.inits
    rw [map_key_markAll] at hmem
    exact ⟨new, hinits, hnodup, hmem⟩
  leftover := by
    intro x hx hxkey
    obtain ⟨hxt, hkept⟩ := mem_deleteFile.mp hx
    have hneeds := (h.needsDelete_iff hxt).mpr hxkey
    have hbusy := hkept.resolve_left (by simp [hneeds])
    obtain ⟨old, hold, rfl⟩ := mem_markAll (h.rest x hxt hxkey)
    exact ⟨rfl, old, hold, rfl, hbusy⟩
  deleted := by
    refine ⟨_, congrArg (· ++ _) h.deleted, fun key => ?_⟩
    simp only [mem_map, mem_filter, Bool.and_eq_true, Bool.not_eq_true']
    constructor
    · rintro ⟨x, ⟨hx, hneeds, hbusy⟩, rfl⟩
      have hxkey := (h.needsDelete_iff hx).mp hneeds
      obtain ⟨old, hold, rfl⟩ := mem_markAll (h.rest x hx hxkey)
      exact ⟨by simpa using hxkey, old, hold, rfl, hbusy⟩
    · rintro ⟨hkey, old, hold, rfl, hbusy⟩
      have hold' : { old with needsDelete := true } ∈ s.markAll.lines := mem_map_of_mem hold
      have hpresent : old.key ∈ s.markAll.lines.map CronLine.key := by
        rw [map_key_markAll]
        exact mem_map_of_mem hold
      obtain ⟨x, hx, hxkey⟩ := mem_map.mp ((h.keys old.key).mpr (.inl hpresent))
      have hnot : x.key ∉ lines.map CronLine.key := by simpa [hxkey] using hkey
      have hkeeps := h.keeps _ hold' x hx hxkey
      refine ⟨x, ⟨hx, (h.needsDelete_iff hx).mpr hnot, ?_⟩, hxkey⟩
      rw [CronLine.busy, hkeeps.testops, hkeeps.teststate]
      exact hbusy

end Sweep

/-- A file that is short enough is loaded. -/
lemma synchronizeFile_spec (hnodup : (s.lines.map CronLine.key).Nodup) {fileName : Bytes}
    (hlimit : file.length < limit fileName)
    (hparam : ∀ line ∈ accepted file, line.distribution = .uniform → line.distrParam ≠ -1)
    (delete : ℕ → Bool) :
    ∃ t, s.synchronizeFile fileName (some file) delete = some t ∧
      (t.lines.map CronLine.key).Nodup ∧ Reconciled s (accepted file) delete t := by
  have hmarked : (s.markAll.lines.map CronLine.key).Nodup := by rwa [map_key_markAll]
  have hdivides : ∀ line ∈ accepted file, line.Divides := by
    -- Only the parameter -1 makes `do_distr` divide by zero.
    intro line hline huniform hzero
    obtain ⟨env, -, hparse⟩ := mem_filterMap.mp hline
    obtain ⟨-, hle, hlt⟩ := parseLine_spec hparse
    have hdvd : ((2 ^ 32 : ℕ) : ℤ) ∣ line.distrParam + 1 := Int.dvd_of_bmod_eq_zero hzero
    have hne := hparam line hline huniform
    omega
  obtain ⟨t, hread, hrun⟩ := run_of_readLines hmarked hdivides hlimit .nil
  have hmerged := merged_of_run hmarked hrun
  refine ⟨t.deleteFile delete, ?_, ?_, hmerged.reconciled delete⟩
  · simp only [Crontab.synchronizeFile, hread, Option.bind_eq_bind, Option.bind_some]
  · exact (filter_sublist.map CronLine.key).nodup hmerged.nodup

/-- **Loading a crontab reconciles the entries with the file.**  If no two entries have the same
key, the file has fewer lines than the limit, and no line that is accepted has the distribution
`UNIFORM` with the parameter -1, then the list is reconciled with the file, and loading the same
file once more initialises nothing and deletes nothing but entries that stayed because they were
busy. -/
theorem synchronizeFile_reconciles {s : Crontab} (hnodup : (s.lines.map CronLine.key).Nodup)
    {fileName : Bytes} {file : List Line} (hlimit : file.length < limit fileName)
    (hparam : ∀ line ∈ accepted file, line.distribution = .uniform → line.distrParam ≠ -1)
    (delete : ℕ → Bool) :
    ∃ t, s.synchronizeFile fileName (some file) delete = some t ∧
      Reconciled s (accepted file) delete t ∧
      ∀ (again : List Line) (delete' : ℕ → Bool), again.map Line.tokens = file.map Line.tokens →
        ∃ u, t.synchronizeFile fileName (some again) delete' = some u ∧ u.inits = t.inits ∧
          ∃ gone, u.deleted = t.deleted ++ gone ∧
            ∀ key ∈ gone, ∃ x ∈ t.lines, x.key = key ∧ x.needsDelete = true := by
  obtain ⟨t, ht, htnodup, hreconciled⟩ := synchronizeFile_spec hnodup hlimit hparam delete
  refine ⟨t, ht, hreconciled, fun again delete' hsame => ?_⟩
  have hlength : again.length = file.length := by
    simpa using congrArg List.length hsame
  have haccepted : accepted again = accepted file := by
    have hmap := congrArg (List.filterMap parseLine) hsame
    rwa [filterMap_map, filterMap_map] at hmap
  obtain ⟨u, hu, -, hagain⟩ := synchronizeFile_spec htnodup (hlength ▸ hlimit)
    (haccepted ▸ hparam) delete'
  rw [haccepted] at hagain
  obtain ⟨new, hinits, -, hnew⟩ := hagain.inits
  obtain ⟨gone, hdeleted, hgone⟩ := hagain.deleted
  have hnil : new = [] := by
    -- The keys of the file are there since the file was loaded first.
    refine eq_nil_iff_forall_not_mem.mpr fun key hkey => ?_
    obtain ⟨hin, hnot⟩ := (hnew key).mp hkey
    obtain ⟨line, hline, rfl⟩ := mem_map.mp hin
    obtain ⟨entry, hentry, -⟩ := hreconciled.entry line hline
    have hmem : entry ∈ t.lines.filter (fun x => decide (x.key = line.key)) := by
      rw [hentry]
      exact mem_singleton_self entry
    rw [mem_filter, decide_eq_true_eq] at hmem
    exact hnot (hmem.2 ▸ mem_map_of_mem hmem.1)
  refine ⟨u, hu, by rw [hinits, hnil, append_nil], gone, hdeleted, fun key hkey => ?_⟩
  obtain ⟨hnot, old, hold, rfl, -⟩ := (hgone key).mp hkey
  exact ⟨old, hold, rfl, (hreconciled.leftover old hold hnot).1⟩

/-- A line with the words, which is read at the time 1000 and starts the test 7. -/
def lineOf (words : List String) : Line where
  tokens := words.map ascii
  now := ⟨1000, 0, by decide, by decide⟩
  random := ⟨0, 0⟩
  init := .called (some 7)

/-- A crontab with a line that matches, a line that is bad and a line that is new. -/
def pingCrontab : List Line :=
  [lineOf ["240", "0", "4000", "NONE", "0", "evping"],
    lineOf ["0", "0", "0", "NONE", "0", "evping"],
    lineOf ["60", "0", "4000", "UNIFORM", "3", "evtraceroute"]]

/-- The entries before: one that is in the crontab, one that is busy, and one that is not. -/
def pingEntries : Crontab where
  lines :=
    [⟨ascii "evping", 240, 0, 2000, .none, 0, 4, 0, 0, 960, none, true, some 1, false⟩,
      ⟨ascii "evtdig", 240, 0, 2000, .none, 0, 4, 0, 0, 960, none, true, some 2, false⟩,
      ⟨ascii "evntp", 240, 0, 2000, .none, 0, 4, 0, 0, 960, none, true, some 3, false⟩]

theorem synchronizeFile_reconciles_ping :
    pingCrontab.length < limit (ascii "root") ∧ (accepted pingCrontab).length = 2 ∧
      ∃ t, pingEntries.synchronizeFile (ascii "root") (some pingCrontab) (fun state => state ≠ 2) =
        some t ∧ Reconciled pingEntries (accepted pingCrontab) (fun state => state ≠ 2) t := by
  have hlimit : pingCrontab.length < limit (ascii "root") := by decide
  obtain ⟨t, ht, hreconciled, -⟩ := synchronizeFile_reconciles (s := pingEntries) (by decide) hlimit
    (by decide) (fun state => decide (state ≠ 2))
  exact ⟨hlimit, by decide, t, ht, hreconciled⟩

/-- A crontab with a line behind 300 others. -/
def mailCrontab : List Line :=
  List.replicate 300 (lineOf ["MAILTO="]) ++ [lineOf ["240", "0", "4000", "NONE", "0", "evping"]]

/-- All lines count, and not only those that are accepted: behind 300 other lines, the only line
that is accepted is not read. -/
theorem synchronizeFile_ignores_last :
    (accepted mailCrontab).length < limit (ascii "new") ∧
      (∀ line ∈ accepted mailCrontab, line.distribution = .none) ∧
      ∃ line ∈ accepted mailCrontab, ∀ delete, ∃ t,
        ({} : Crontab).synchronizeFile (ascii "new") (some mailCrontab) delete = some t ∧
          ∀ entry ∈ t.lines, entry.key ≠ line.key := by
  refine ⟨by decide +kernel, by decide +kernel,
    ⟨ascii "evping", 240, 0, 4000, .none, 0, 0, 0, 0, 0, none, false, none, false⟩,
    by decide +kernel, fun delete => ?_⟩
  have hread : (Crontab.readLines (limit (ascii "new")) mailCrontab ({} : Crontab).markAll).map
      Crontab.lines = some [] := by decide +kernel
  obtain ⟨t, ht, hlines⟩ := Option.map_eq_some_iff.mp hread
  refine ⟨t.deleteFile delete, ?_, fun entry hentry => ?_⟩
  · simp only [Crontab.synchronizeFile, ht, Option.bind_eq_bind, Option.bind_some]
  · rw [mem_deleteFile, hlines] at hentry
    exact absurd hentry.1 not_mem_nil

end AtlasProbe.Eperd
