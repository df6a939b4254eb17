import Mathlib.Data.List.ReduceOption
import AtlasProbe.Perd.Reload

/-!
# The cycles in which a line is armed

Every line goes its own way from pass to pass, whatever the other lines do (`Loaded.step`).  As long
as the reloads leave it where it is, a line with the distribution `NONE` is armed in the same passes
for the same cycles as without reloads (`Loaded.armings_eq`), and the cycles increase if the clock
does not go back (`CronLine.OnTime`).
-/

namespace AtlasProbe.Perd

open List Reactive

/-! ### Reloads -/

/-- A reload comes when no job is armed or running, and a directory is read as a whole. -/
def Regular (dir : Dir) (files : Option (List CronFile)) : Event → Prop
  | .testJobs _ _ | .runJobs => True
  | .checkUpdates _ => ∀ fs ∈ files, Idle fs
  | .synchronizeDir readings => (∀ fs ∈ files, Idle fs) ∧ Scanned dir readings

/-- A line is just as if `SynchronizeDir` read it for the first time. -/
def Unmoved (user : Bytes) (i : ℕ) (files : Option (List CronFile)) : Event → Prop
  | .testJobs _ _ | .runJobs | .checkUpdates _ => True
  | .synchronizeDir readings =>
    ∀ fs ∈ files, ∀ line ∈ lineAt fs user i, ∀ r ∈ readings, r.fileName = user →
      line.nextcycle = line.cycleAfter r.now ∧ line.distrOffset = line.distr (r.random i)

section Reloads

variable {dir : Dir} {files : List CronFile} {e : Event}

/-- What a reload does to the lines. -/
lemma Loaded.reload (h : Loaded dir files) (hdir : dir.Loadable) (hreload : e.isReload = true)
    (he : Regular dir (some files) e) :
    ∃ after, step dir (some files) e = some after ∧ Loaded dir after ∧
      ∀ user i line, lineAt files user i = some line →
        ∃ line', lineAt after user i = some line' ∧ line'.toEntry = line.toEntry ∧
          line'.pid = line.pid ∧
          (line'.nextcycle = line.nextcycle ∧ line'.distrOffset = line.distrOffset ↔
            Unmoved user i (some files) e) := by
  cases e with
  | testJobs now random | runJobs => cases hreload
  | checkUpdates readings =>
    obtain ⟨after, hafter, hloaded, -, hsame⟩ := h.checkUpdates hdir (he files rfl) readings
    refine ⟨after, hafter, hloaded, fun user i line hline => ⟨line, ?_, rfl, rfl, ?_⟩⟩
    · unfold lineAt at hline ⊢
      rwa [hsame]
    · exact iff_of_true ⟨rfl, rfl⟩ trivial
  | synchronizeDir readings =>
    obtain ⟨hidle, hscan⟩ := he
    refine ⟨_, synchronizeDir_eq hdir (hidle files rfl) hscan, hscan.loaded.1, ?_⟩
    intro user i line hline
    obtain ⟨f, hf, rfl, hi⟩ := mem_of_lineAt hline
    have hdirUser := (h.mem f.user).mp (mem_map_of_mem hf)
    obtain ⟨r, hr, huser⟩ := mem_map.mp ((hscan.mem f.user).mpr hdirUser)
    have hentry : (entriesIn dir r.fileName)[i]? = some line.toEntry := by
      rw [huser, ← (h.current f hf).lines, getElem?_map, hi, Option.map_some]
    refine ⟨line.toEntry.fresh r.now (r.random i), ?_, rfl, ?_, ?_⟩
    · rw [← huser, hscan.lineAt hr i, hentry, Option.map_some]
    · exact (hidle files rfl f hf line (mem_of_getElem? hi)).symm
    · constructor
      · rintro ⟨hcycle, hoffset⟩ fs hfs line' hline' r' hr' huser'
        obtain rfl := Option.some.inj hfs
        obtain rfl := Option.some.inj (hline.symm.trans hline')
        obtain rfl := inj_on_of_nodup_map hscan.nodup hr' hr (huser'.trans huser.symm)
        exact ⟨hcycle.symm, hoffset.symm⟩
      · intro hunmoved
        obtain ⟨hcycle, hoffset⟩ := hunmoved files rfl line hline r hr huser
        exact ⟨hcycle.symm, hoffset.symm⟩

/-- Every call leaves the files of the directory. -/
lemma Loaded.step (h : Loaded dir files) (hdir : dir.Loadable) (he : Regular dir (some files) e) :
    ∃ after, step dir (some files) e = some after ∧ Loaded dir after := by
  cases hreload : e.isReload with
  | true =>
    obtain ⟨after, hafter, hloaded, -⟩ := h.reload hdir hreload he
    exact ⟨after, hafter, hloaded⟩
  | false =>
    cases e with
    | testJobs now random => exact ⟨_, rfl, (h.testJobs now random).1⟩
    | runJobs => exact ⟨_, rfl, h.runJobs.1⟩
    | checkUpdates readings => cases hreload
    | synchronizeDir readings => cases hreload

/-- The files of the directory are there behind any calls. -/
lemma Loaded.run (h : Loaded dir files) (hdir : dir.Loadable) {events : List Event}
    (hevents : Along (Perd.step dir) (Regular dir) events (some files)) :
    ∃ after, run (Perd.step dir) events (some files) = some after ∧ Loaded dir after := by
  refine hevents.invariant (I := fun s => ∃ files, s = some files ∧ Loaded dir files) ?_
    ⟨files, rfl, h⟩
  rintro s e ⟨files, rfl, hloaded⟩ he
  exact hloaded.step hdir he

end Reloads

/-! ### A line on its own -/

/-- The cycles for which a line is armed, pass by pass, if nothing else changes it. -/
def CronLine.armings : List Event → CronLine → List (Option ℤ)
  | [], _ => []
  | .testJobs now _ :: events, line =>
    line.armedFor now :: CronLine.armings events (line.test now 0)
  | .runJobs :: events, line => CronLine.armings events line.runJob
  | .checkUpdates _ :: events, line => CronLine.armings events line
  | .synchronizeDir _ :: events, line => CronLine.armings events line

section Lines

variable {dir : Dir} {files : List CronFile} {line : CronLine} {user : Bytes} {i : ℕ}

/-- Without a distribution the random numbers do not matter. -/
lemma test_of_none (h : line.distribution = .none) (now : ℤ) (random : Random) :
    line.test now random = line.test now 0 := by
  have hdistr : (line.rewind now).distribution = .none := by
    unfold CronLine.rewind
    split <;> exact h
  unfold CronLine.test CronLine.arm Entry.distr
  simp only [hdistr]

/-- Reloads do not matter for a line on its own. -/
lemma armings_filter (events : List Event) (line : CronLine) :
    CronLine.armings (events.filter fun e => !e.isReload) line = CronLine.armings events line := by
  induction events generalizing line with
  | nil => rfl
  | cons e events ih =>
    cases e with
    | testJobs now random => exact congrArg (line.armedFor now :: ·) (ih _)
    | runJobs => exact ih _
    | checkUpdates readings => exact ih _
    | synchronizeDir readings => exact ih _

/-- A line that the reloads leave where it is goes its own way. -/
lemma Loaded.armings_eq (h : Loaded dir files) (hdir : dir.Loadable) {events : List Event}
    (hline : lineAt files user i = some line) (hnone : line.distribution = .none)
    (hevents : Along (Perd.step dir) (fun s e => Regular dir s e ∧ Unmoved user i s e) events
      (some files)) :
    armings dir user i events (some files) = CronLine.armings events line := by
  induction events generalizing files line with
  | nil => rfl
  | cons e events ih =>
    obtain ⟨⟨hregular, hunmoved⟩, hrest⟩ := hevents
    have hreload (hreload : e.isReload = true) :
        armings dir user i events (Perd.step dir (some files) e) =
          CronLine.armings events line := by
      obtain ⟨after, hafter, hloaded, hlines⟩ := h.reload hdir hreload hregular
      obtain ⟨line', hline', hentry, hpid, hsame⟩ := hlines user i line hline
      obtain ⟨hcycle, hoffset⟩ := hsame.mpr hunmoved
      obtain rfl : line' = line := by
        obtain ⟨e', c', o', p'⟩ := line'
        simp only at hentry hpid hcycle hoffset
        rw [hentry, hpid, hcycle, hoffset]
      rw [hafter] at hrest ⊢
      exact ih hloaded hline' hnone hrest
    cases e with
    | testJobs now random =>
      obtain ⟨hloaded, hlines⟩ := h.testJobs now random
      obtain ⟨k, hk⟩ := hlines user i line hline
      rw [test_of_none hnone] at hk
      have hnone' : (line.test now 0).distribution = .none := by
        rw [toEntry_test]
        exact hnone
      change [(lineAt files user i).bind fun line => line.armedFor now] ++ _ = _
      rw [hline]
      exact congrArg (line.armedFor now :: ·) (ih hloaded hk hnone' hrest)
    | runJobs =>
      obtain ⟨hloaded, hlines⟩ := h.runJobs
      exact ih hloaded (hlines user i line hline) hnone hrest
    | checkUpdates readings => exact hreload rfl
    | synchronizeDir readings => exact hreload rfl

end Lines

/-! ### The clock -/

/-- The times that are read from the clock. -/
def Event.times : Event → List ℤ
  | .testJobs now _ => [now]
  | .runJobs => []
  | .checkUpdates readings | .synchronizeDir readings => readings.map Reading.now

/-- A line without a distribution whose cycle is not ahead of the clock. -/
structure CronLine.OnTime (line : CronLine) (last : ℤ) : Prop where
  distribution : line.distribution = .none
  distrOffset : line.distrOffset = 0
  nextcycle : line.nextcycle ≤ line.cycleAfter last

section Clock

variable {line : CronLine} {last now : ℤ}

lemma Entry.cycleAfter_mono (e : Entry) (h : last ≤ now) :
    e.cycleAfter last ≤ e.cycleAfter now := by
  have hpos : (0 : ℤ) < e.interval := Int.natCast_pos.mpr e.interval_pos
  unfold Entry.cycleAfter
  have hdiv := Int.tdiv_le_tdiv hpos (show last - e.startTime ≤ now - e.startTime by omega)
  omega

/-- From the start on, the last cycle that has begun is the one before `cycleAfter`. -/
lemma Entry.lt_cycleAfter_iff (e : Entry) (hstart : e.startTime ≤ now) {k : ℤ} :
    k < e.cycleAfter now ↔ e.startTime + k * e.interval ≤ now := by
  have hpos : (0 : ℤ) < e.interval := Int.natCast_pos.mpr e.interval_pos
  unfold Entry.cycleAfter
  rw [Int.tdiv_eq_ediv_of_nonneg (by omega), Int.lt_add_one_iff, Int.le_ediv_iff_mul_le hpos]
  omega

/-- The time does not go backward. -/
lemma CronLine.OnTime.rewind (h : line.OnTime last) (hlast : last ≤ now) :
    line.rewind now = line := by
  refine if_neg ?_
  rintro ⟨hstart, hback⟩
  have hcycle := h.nextcycle.trans (line.toEntry.cycleAfter_mono hlast)
  have hbegun := (line.toEntry.lt_cycleAfter_iff hstart (k := line.nextcycle - 10)).mp (by omega)
  omega

/-- A line that is armed is armed for its cycle, and is due. -/
lemma CronLine.verdict_of_isArmed (h : (line.verdict now).isArmed = true) :
    line.verdict now = .armed line.nextcycle ∧ line.due ≤ now ∧ line.inTime now = true := by
  unfold CronLine.verdict at h ⊢
  split_ifs at h ⊢ with hdue hpid htime
  · exact ⟨rfl, hdue⟩
  · cases h
  · cases h
  · cases h

/-- What a pass does to a line: it stays, or it is armed for its cycle and goes on. -/
lemma CronLine.OnTime.test (h : line.OnTime last) (hlast : last ≤ now) :
    (line.test now 0).OnTime now ∧
      (line.armedFor now = none ∧ line.nextcycle ≤ (line.test now 0).nextcycle ∨
        line.armedFor now = some line.nextcycle ∧
          line.nextcycle < (line.test now 0).nextcycle) := by
  have hcycle := h.nextcycle.trans (line.toEntry.cycleAfter_mono hlast)
  have htest : line.test now 0 =
      if (line.verdict now).isArmed then line.arm now 0 else line := by
    unfold CronLine.test
    rw [h.rewind hlast]
  rw [htest]
  unfold CronLine.armedFor
  rw [h.rewind hlast]
  by_cases harmed : (line.verdict now).isArmed = true
  · obtain ⟨hverdict, hdue, htime⟩ := CronLine.verdict_of_isArmed harmed
    have hstart : line.startTime ≤ now := (of_decide_eq_true htime).1
    have hbegun : line.nextcycle < line.cycleAfter now := by
      unfold CronLine.due at hdue
      rw [h.distrOffset, add_zero] at hdue
      exact (line.toEntry.lt_cycleAfter_iff hstart).mpr hdue
    have hnext : line.nextcycle < (line.arm now 0).nextcycle ∧
        (line.arm now 0).nextcycle ≤ line.cycleAfter now := by
      dsimp only [CronLine.arm]
      split
      · exact ⟨hbegun, le_rfl⟩
      · exact ⟨by omega, by omega⟩
    have hdistr : line.distr 0 = 0 := by
      unfold Entry.distr
      rw [h.distribution]
    rw [hverdict]
    exact ⟨⟨h.distribution, hdistr, hnext.2⟩, .inr ⟨rfl, hnext.1⟩⟩
  · rw [if_neg harmed]
    refine ⟨⟨h.distribution, h.distrOffset, hcycle⟩, .inl ⟨?_, le_rfl⟩⟩
    cases hverdict : line.verdict now with
    | armed cycle =>
      rw [hverdict] at harmed
      exact absurd rfl harmed
    | busy | later time | outside => rfl

/-- If the clock does not go back, then the cycles for which a line is armed increase. -/
lemma CronLine.OnTime.armings (h : line.OnTime last) {events : List Event}
    (hlast : ∀ t ∈ events.flatMap Event.times, last ≤ t)
    (hclock : (events.flatMap Event.times).Pairwise (· ≤ ·)) :
    (CronLine.armings events line).reduceOption.Pairwise (· < ·) ∧
      ∀ c ∈ (CronLine.armings events line).reduceOption, line.nextcycle ≤ c := by
  induction events generalizing line last with
  | nil => exact ⟨List.Pairwise.nil, nofun⟩
  | cons e events ih =>
    have hclock' := (pairwise_append.mp hclock).2.1
    have hlast' : ∀ t ∈ events.flatMap Event.times, last ≤ t := fun t ht =>
      hlast t (mem_append_right _ ht)
    cases e with
    | testJobs now random =>
      have hnow : ∀ t ∈ events.flatMap Event.times, now ≤ t := fun t ht =>
        (pairwise_append.mp hclock).2.2 now (mem_singleton_self now) t ht
      obtain ⟨htest, hcases⟩ := h.test (hlast now (mem_append_left _ mem_cons_self))
      obtain ⟨hpairwise, hmem⟩ := ih htest hnow hclock'
      change (line.armedFor now :: CronLine.armings events (line.test now 0)).reduceOption.Pairwise
        (· < ·) ∧ ∀ c ∈ (line.armedFor now ::
          CronLine.armings events (line.test now 0)).reduceOption, line.nextcycle ≤ c
      rcases hcases with ⟨hnone, hle⟩ | ⟨hsome, hlt⟩
      · rw [hnone]
        exact ⟨hpairwise, fun c hc => hle.trans (hmem c hc)⟩
      · rw [hsome]
        refine ⟨pairwise_cons.mpr ⟨fun c hc => hlt.trans_le (hmem c hc), hpairwise⟩, ?_⟩
        intro c hc
        rcases mem_cons.mp hc with rfl | hc
        · exact le_rfl
        · exact hlt.le.trans (hmem c hc)
    | runJobs =>
      have hrun : line.runJob.OnTime last := ⟨h.distribution, h.distrOffset, h.nextcycle⟩
      exact ih hrun hlast' hclock'
    | checkUpdates readings => exact ih h hlast' hclock'
    | synchronizeDir readings => exact ih h hlast' hclock'

end Clock

/-! ### Runs -/

/-- The files behind the first call of `SynchronizeDir`. -/
def start (dir : Dir) (first : List Reading) : Option (List CronFile) := synchronizeDir dir [] first

section Runs

variable {dir : Dir} {first : List Reading}

lemma Scanned.start (hfirst : Scanned dir first) (hdir : dir.Loadable) :
    start dir first = some (first.map (newFile dir)).reverse :=
  synchronizeDir_eq hdir nofun hfirst

/-- At first, a line is on time. -/
lemma Scanned.onTime (hfirst : Scanned dir first) {user : Bytes} {i : ℕ} {line : CronLine}
    (hline : Perd.lineAt (first.map (newFile dir)).reverse user i = some line)
    (hnone : line.distribution = .none) : ∃ r ∈ first, line.OnTime r.now := by
  obtain ⟨f, hf, rfl, -⟩ := mem_of_lineAt hline
  obtain ⟨r, hr, rfl⟩ := mem_map.mp (mem_reverse.mp hf)
  have huser : (newFile dir r).user = r.fileName := rfl
  rw [huser, hfirst.lineAt hr i] at hline
  obtain ⟨e, -, rfl⟩ := Option.map_eq_some_iff.mp hline
  have hdistr : e.distr (r.random i) = 0 := by
    have hnone : e.distribution = .none := hnone
    unfold Entry.distr
    rw [hnone]
  exact ⟨r, hr, hnone, hdistr, le_rfl⟩

/-- A reload between the passes keeps the cycle and the offset of a line if and only if
`CheckUpdates` makes it, or the line is just as if it were read for the first time.  As long as this
is so, a line without a distribution is armed in the same passes for the same cycles as without the
reloads, and for no cycle twice if the clock does not go back. -/
theorem reload_keeps_line_iff (hdir : dir.Loadable) (hfirst : Scanned dir first)
    (events : List Event) (hevents : Along (step dir) (Regular dir) events (start dir first)) :
    (∃ files, run (step dir) events (start dir first) = some files ∧
      ∀ e : Event, e.isReload = true → Regular dir (some files) e →
        ∃ after, step dir (some files) e = some after ∧
          ∀ user i line, lineAt files user i = some line →
            ∃ line', lineAt after user i = some line' ∧ line'.toEntry = line.toEntry ∧
              (line'.nextcycle = line.nextcycle ∧ line'.distrOffset = line.distrOffset ↔
                Unmoved user i (some files) e)) ∧
      ∀ user i, ∀ files ∈ start dir first, ∀ line ∈ lineAt files user i,
        line.distribution = .none →
        (first.map Reading.now ++ events.flatMap Event.times).Pairwise (· ≤ ·) →
        Along (step dir) (Unmoved user i) events (start dir first) →
          armings dir user i events (start dir first) =
              armings dir user i (events.filter fun e => !e.isReload) (start dir first) ∧
            (armings dir user i events (start dir first)).reduceOption.Pairwise (· < ·) := by
  obtain ⟨hloaded, -⟩ := hfirst.loaded
  rw [hfirst.start hdir] at hevents ⊢
  constructor
  · obtain ⟨files, hrun, hfiles⟩ := hloaded.run hdir hevents
    refine ⟨files, hrun, fun e hreload he => ?_⟩
    obtain ⟨after, hafter, -, hlines⟩ := hfiles.reload hdir hreload he
    refine ⟨after, hafter, fun user i line hline => ?_⟩
    obtain ⟨line', hline', hentry, -, hsame⟩ := hlines user i line hline
    exact ⟨line', hline', hentry, hsame⟩
  · rintro user i files hstart line hline hnone hclock hunmoved
    obtain rfl := Option.some.inj hstart
    have hwith := hloaded.armings_eq hdir hline hnone (hevents.and hunmoved)
    have hpasses : ∀ e ∈ events.filter (fun e => !e.isReload), ∀ s,
        Regular dir s e ∧ Unmoved user i s e := by
      intro e he s
      have hpass : (!e.isReload) = true := (mem_filter.mp he).2
      cases e with
      | testJobs now random | runJobs => exact ⟨trivial, trivial⟩
      | checkUpdates readings | synchronizeDir readings => cases hpass
    have hwithout := hloaded.armings_eq hdir hline hnone (along_of_forall hpasses _)
    rw [armings_filter] at hwithout
    refine ⟨hwith.trans hwithout.symm, ?_⟩
    obtain ⟨r, hr, htime⟩ := hfirst.onTime hline hnone
    obtain ⟨-, hpairwise, hlast⟩ := pairwise_append.mp hclock
    rw [hwith]
    exact (htime.armings (fun t ht => hlast r.now (mem_map_of_mem hr) t ht) hpairwise).1

end Runs

/-- A directory with one file that has one line, which is run every minute. -/
def minuteDir : Dir := fun user =>
  if user = ascii "root" then
    some [["60", "0", "1000000", "NONE", "0", "ping 192.0.2.1"].map ascii]
  else none

local instance neZeroRandom : NeZero (2 ^ 31) := ⟨by decide⟩

/-- The file is read. -/
def minuteReading (now : ℤ) : Reading := ⟨ascii "root", now, fun _ => 0⟩

lemma scanned_minute (now : ℤ) : Scanned minuteDir [minuteReading now] := by
  refine ⟨nodup_singleton _, fun user => ?_⟩
  unfold minuteDir
  rw [map_singleton, mem_singleton]
  by_cases huser : user = ascii "root"
  · rw [if_pos huser]
    exact iff_of_true huser rfl
  · rw [if_neg huser]
    exact iff_of_false huser Bool.false_ne_true

lemma loadable_minute : minuteDir.Loadable := by
  intro user text htext
  unfold minuteDir at htext
  split at htext
  · next huser =>
    rw [huser, ← Option.some.inj htext]
    decide +kernel
  · cases htext

instance (files : List CronFile) : Decidable (Idle files) :=
  inferInstanceAs (Decidable (∀ f ∈ files, ∀ line ∈ f.lines, line.pid = 0))

/-- The files are read again when the line is due and has not been tested, and when it is not
due. -/
def minuteEvents : List Event :=
  [.testJobs 110 fun _ _ => 0, .checkUpdates [minuteReading 130], .testJobs 131 fun _ _ => 0,
    .runJobs, .synchronizeDir [minuteReading 140], .testJobs 150 fun _ _ => 0]

theorem reload_keeps_line_minute :
    armings minuteDir (ascii "root") 0 minuteEvents (start minuteDir [minuteReading 100]) =
        [none, some 2, none] ∧
      armings minuteDir (ascii "root") 0 minuteEvents (start minuteDir [minuteReading 100]) =
        armings minuteDir (ascii "root") 0 (minuteEvents.filter fun e => !e.isReload)
          (start minuteDir [minuteReading 100]) := by
  have hregular : Along (step minuteDir) (Regular minuteDir) minuteEvents
      (start minuteDir [minuteReading 100]) := by
    refine ⟨trivial, ?_, trivial, trivial, ⟨?_, scanned_minute 140⟩, trivial, trivial⟩
    · change ∀ fs ∈ _, Idle fs
      decide +kernel
    · decide +kernel
  have hstart := (scanned_minute 100).start loadable_minute
  have hnone : ∀ line ∈ lineAt ([minuteReading 100].map (newFile minuteDir)).reverse
      (ascii "root") 0, line.distribution = .none := by decide +kernel
  obtain ⟨line, hline⟩ : ∃ line, lineAt ([minuteReading 100].map (newFile minuteDir)).reverse
      (ascii "root") 0 = some line := Option.isSome_iff_exists.mp (by decide +kernel)
  have hunmoved : Along (step minuteDir) (Unmoved (ascii "root") 0) minuteEvents
      (start minuteDir [minuteReading 100]) := by
    refine ⟨trivial, trivial, trivial, trivial, ?_, trivial, trivial⟩
    unfold Unmoved
    decide +kernel
  have hruns := (reload_keeps_line_iff loadable_minute (scanned_minute 100) minuteEvents
    hregular).2 (ascii "root") 0 _ hstart line hline (hnone line hline) (by decide) hunmoved
  exact ⟨by decide +kernel, hruns.1⟩

/-- If `SynchronizeDir` comes when the line is due and has not been tested, then the line is never
armed for the cycle, though no job is armed and the clock does not go back. -/
theorem synchronizeDir_skips_cycle :
    Along (step minuteDir) (Regular minuteDir)
        [.testJobs 110 fun _ _ => 0, .synchronizeDir [minuteReading 130],
          .testJobs 131 fun _ _ => 0] (start minuteDir [minuteReading 100]) ∧
      armings minuteDir (ascii "root") 0
          [.testJobs 110 fun _ _ => 0, .synchronizeDir [minuteReading 130],
            .testJobs 131 fun _ _ => 0] (start minuteDir [minuteReading 100]) = [none, none] ∧
      armings minuteDir (ascii "root") 0
          [.testJobs 110 fun _ _ => 0, .testJobs 131 fun _ _ => 0]
          (start minuteDir [minuteReading 100]) = [none, some 2] := by
  refine ⟨⟨trivial, ⟨?_, scanned_minute 130⟩, trivial, trivial⟩, ?_, ?_⟩
  all_goals decide +kernel

end AtlasProbe.Perd
