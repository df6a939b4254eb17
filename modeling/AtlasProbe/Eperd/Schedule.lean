import Mathlib.Algebra.Order.Group.Abs
import Mathlib.Algebra.Order.Ring.Int
import AtlasProbe.Eperd.CronLine

/-!
# The cycles in which an entry is measured

Between the time an entry is started and the time it is deleted, its timer fires, the crontab is
loaded again and matches the entry, or a crontab without the entry marks it (`Scheduled`).  If the
clock does not go back and the timer does not fire early, then no cycle is measured twice:
`nextcycle` is always above the cycles that have been measured (`Past`, `Scheduled.past`).
-/

namespace AtlasProbe.Eperd

open List

/-! ### What the functions do -/

/-- The entries of the theorem below: the distribution is `NONE`, or half of its parameter is at
most the interval. -/
structure CronLine.Fits (line : CronLine) : Prop where
  interval_pos : 0 < line.interval
  distr : line.distribution = .none ∨ line.distrParam.tdiv 2 ≤ line.interval

/-- The offset goes back by no more than an interval. -/
structure CronLine.OffsetOk (line : CronLine) : Prop where
  sec : -(line.interval : ℤ) ≤ line.offsetSec
  usec : 0 ≤ line.offsetUsec

section Functions

variable {line line' : CronLine} {random : Random} {now : TimeVal}

/-- `do_distr` changes the offset only, and does not let it go back too far. -/
lemma doDistr_spec (h : line.doDistr random = some line') (hfits : line.Fits) :
    ∃ sec usec, line' = { line with offsetSec := sec, offsetUsec := usec } ∧ line'.OffsetOk := by
  unfold CronLine.doDistr at h
  cases hdistr : line.distribution with
  | none =>
    simp only [hdistr, Option.some.injEq] at h
    refine ⟨0, 0, h.symm, ?_⟩
    rw [← h]
    exact ⟨by simp, le_rfl⟩
  | uniform =>
    simp only [hdistr, Option.ite_none_left_eq_some, Option.some.injEq] at h
    have hhalf : line.distrParam.tdiv 2 ≤ line.interval :=
      hfits.distr.resolve_left fun hnone => by simp [hnone] at hdistr
    refine ⟨_, _, h.2.symm, ?_⟩
    rw [← h.2]
    have hoffset := Int.tmod_nonneg (modulus line.distrParam) (Int.natCast_nonneg random.offset)
    have husec := Int.tmod_nonneg 1000000 (Int.natCast_nonneg random.usec)
    refine ⟨?_, husec⟩
    change -(line.interval : ℤ) ≤ (random.offset : ℤ).tmod _ - line.distrParam.tdiv 2
    omega

/-- The timer is not armed for a time before `nexttime`. -/
lemma nexttime_le_event_arm (h : 0 ≤ line.offsetUsec) {t : ℤ} (ht : (line.arm now).event = some t) :
    (line.arm now).nexttime * 1000000 ≤ t := by
  have hnonneg := now.usec_nonneg
  simp only [CronLine.arm, TimeVal.us, Option.some.injEq] at ht ⊢
  split_ifs at ht <;> simp only at ht <;> omega

/-- A cycle that has begun is before the one that comes next. -/
lemma lt_cycleAfter (hfits : line.Fits) {k : ℤ} (hstart : line.startTime ≤ now.sec)
    (hk : line.startTime + k * line.interval ≤ now.sec) : k < line.cycleAfter now := by
  have hpos : (0 : ℤ) < line.interval := Int.natCast_pos.mpr hfits.interval_pos
  have hle : k ≤ (now.sec - line.startTime) / line.interval := Int.le_ediv_of_mul_le hpos (by omega)
  unfold CronLine.cycleAfter
  rw [Int.tdiv_eq_ediv_of_nonneg (by omega)]
  omega

end Functions

/-! ### The runs of an entry -/

/-- A call of `start`: the cycle, the time, and the fields of the entry it is compared with. -/
structure Measured where
  cycle : ℤ
  now : TimeVal
  nexttime : ℤ
  endTime : ℤ

/-- An entry that has just been read from the crontab. -/
structure CronLine.New (line : CronLine) : Prop where
  fits : line.Fits
  nextcycle : line.nextcycle = 0
  offsetSec : line.offsetSec = 0
  offsetUsec : line.offsetUsec = 0
  event : line.event = none

/-- What can happen to an entry, with the last time in microseconds that was read from the clock and
the measurements so far. -/
inductive Scheduled : CronLine → ℤ → List Measured → Prop
  /-- `atlas_init` fails, and the timer is not armed. -/
  | idle {line : CronLine} {last : ℤ} : line.New → Scheduled line last []
  /-- `Start` arms the timer. -/
  | start {line line' : CronLine} {now : TimeVal} {random : Random} : line.New →
      line.setTimeout true now random = some line' → Scheduled line' now.us []
  /-- The timer fires, not before the time it is armed for. -/
  | fire {line line' : CronLine} {last t : ℤ} {ms : List Measured} {now later : TimeVal}
      {random : Random} {started : Bool} : Scheduled line last ms → line.event = some t →
      t ≤ now.us → last ≤ now.us → now.us ≤ later.us →
      line.runJob now later random = some (line', started) →
      Scheduled line' later.us
        (if started then ms ++ [⟨line.nextcycle, now, line.nexttime, line.endTime⟩] else ms)
  /-- `Insert` finds the entry for a line of the crontab with the given end. -/
  | reload {line line' : CronLine} {last endTime : ℤ} {ms : List Measured} {now : TimeVal}
      {random : Random} : Scheduled line last ms → last ≤ now.us →
      { line with endTime := endTime, needsDelete := false }.setTimeout false now random =
        some line' → Scheduled line' now.us ms
  /-- `SynchronizeFile` marks the entry. -/
  | mark {line : CronLine} {last : ℤ} {ms : List Measured} : Scheduled line last ms →
      Scheduled { line with needsDelete := true } last ms

/-! ### The invariant -/

/-- What does not depend on the timer: all measurements are of cycles below `nextcycle`, in order,
and were made in time. -/
structure Past (line : CronLine) (ms : List Measured) : Prop where
  fits : line.Fits
  offset : line.OffsetOk
  nonneg : 0 ≤ line.nextcycle
  below : ∀ m ∈ ms, m.cycle < line.nextcycle
  sorted : ms.Pairwise fun m m' => m.cycle < m'.cycle
  inTime : ∀ m ∈ ms, m.nexttime - 10 ≤ m.now.sec ∧ m.now.sec ≤ m.nexttime + 10 ∧
    m.now.sec ≤ m.endTime

/-- If the timer is armed, then `nexttime` is when the next cycle is due, and the timer does not
fire before. -/
def CronLine.Armed (line : CronLine) : Prop :=
  ∀ t, line.event = some t → line.nexttime = line.due ∧ line.nexttime * 1000000 ≤ t

section Invariant

variable {line line' : CronLine} {ms : List Measured} {now : TimeVal} {random : Random}

section Steps

variable (h : Past line ms)

include h

/-- The timer, the end and the mark of an entry do not matter for its past. -/
lemma Past.congr (hinterval : line'.interval = line.interval)
    (hdistribution : line'.distribution = line.distribution)
    (hparam : line'.distrParam = line.distrParam) (hsec : line'.offsetSec = line.offsetSec)
    (husec : line'.offsetUsec = line.offsetUsec) (hcycle : line'.nextcycle = line.nextcycle) :
    Past line' ms where
  fits := ⟨hinterval ▸ h.fits.1, by rw [hdistribution, hparam, hinterval]; exact h.fits.2⟩
  offset := ⟨by rw [hinterval, hsec]; exact h.offset.1, husec ▸ h.offset.2⟩
  nonneg := hcycle ▸ h.nonneg
  below := hcycle ▸ h.below
  sorted := h.sorted
  inTime := h.inTime

lemma Past.arm (now : TimeVal) : Past (line.arm now) ms ∧ (line.arm now).Armed :=
  ⟨h.congr rfl rfl rfl rfl rfl rfl, fun _ ht => ⟨rfl, nexttime_le_event_arm h.offset.usec ht⟩⟩

/-- `set_timeout` that keeps the cycle. -/
lemma Past.setTimeout_false (harmed : line.Armed)
    (hset : line.setTimeout false now random = some line') : Past line' ms ∧ line'.Armed := by
  unfold CronLine.setTimeout at hset
  rw [if_neg Bool.false_ne_true] at hset
  split_ifs at hset
  · cases hset
    exact ⟨h, harmed⟩
  · cases hset
    exact h.arm now

/-- A new offset. -/
lemma Past.doDistr (hdistr : line.doDistr random = some line') : Past line' ms := by
  obtain ⟨sec, usec, rfl, hoffset⟩ := doDistr_spec hdistr h.fits
  exact ⟨⟨h.fits.1, h.fits.2⟩, hoffset, h.nonneg, h.below, h.sorted, h.inTime⟩

/-- The computed cycle is above all cycles that had begun with the last one. -/
lemma Past.initNextCycle
    (hlater : 0 < line.nextcycle →
      line.startTime + (line.nextcycle - 1) * line.interval ≤ now.sec) :
    Past (line.initNextCycle now) ms := by
  have hle : line.nextcycle ≤ (line.initNextCycle now).nextcycle := by
    change line.nextcycle ≤ if now.sec < line.startTime then 0 else line.cycleAfter now
    rcases h.nonneg.eq_or_lt with hzero | hpos
    · rw [← hzero]
      split_ifs with hstart
      · exact le_rfl
      · exact (lt_cycleAfter h.fits (not_lt.mp hstart) (by simpa using hstart)).le
    · have hbegun := Int.mul_nonneg (show 0 ≤ line.nextcycle - 1 by omega)
        (Int.natCast_nonneg line.interval)
      have hle := hlater hpos
      have hlt := lt_cycleAfter h.fits (by omega) hle
      omega
  refine ⟨⟨h.fits.1, h.fits.2⟩, ⟨h.offset.1, h.offset.2⟩, h.nonneg.trans hle, fun m hm => ?_,
    h.sorted, h.inTime⟩
  exact (h.below m hm).trans_le hle

/-- `set_timeout` that computes the cycle. -/
lemma Past.setTimeout_true (harmed : line.Armed)
    (hlater : 0 < line.nextcycle → line.startTime + (line.nextcycle - 1) * line.interval ≤ now.sec)
    (hset : line.setTimeout true now random = some line') : Past line' ms ∧ line'.Armed := by
  unfold CronLine.setTimeout at hset
  rw [if_pos rfl] at hset
  split_ifs at hset
  · cases hset
    exact ⟨h, harmed⟩
  · obtain ⟨line₁, hdistr, rfl⟩ := Option.map_eq_some_iff.mp hset
    exact ((h.initNextCycle hlater).doDistr hdistr).arm now

/-- After a measurement `nextcycle` is above its cycle. -/
lemma Past.advance (hfrom : line.nexttime - 10 ≤ now.sec)
    (hto : now.sec ≤ line.nexttime + 10) (hend : now.sec ≤ line.endTime) :
    Past (line.advance now) (ms ++ [⟨line.nextcycle, now, line.nexttime, line.endTime⟩]) := by
  have hnonneg := h.nonneg
  have hlt : line.nextcycle < (line.advance now).nextcycle := by
    unfold CronLine.advance
    dsimp only
    split_ifs with hlate
    · have hpos := Int.mul_nonneg (show 0 ≤ line.nextcycle + 1 by omega)
        (Int.natCast_nonneg line.interval)
      have hcycle : line.nextcycle + 1 < line.cycleAfter now :=
        lt_cycleAfter h.fits (by omega) hlate.le
      change line.nextcycle < line.cycleAfter now
      omega
    · exact Int.lt_add_one_iff.mpr le_rfl
  have hsame : line.advance now = { line with nextcycle := (line.advance now).nextcycle } := by
    unfold CronLine.advance
    dsimp only
    split_ifs <;> rfl
  rw [hsame]
  refine ⟨⟨h.fits.1, h.fits.2⟩, ⟨h.offset.1, h.offset.2⟩, h.nonneg.trans hlt.le, ?_, ?_, ?_⟩
  · intro m hm
    rcases mem_append.mp hm with hm | hm
    · exact (h.below m hm).trans hlt
    · rw [mem_singleton.mp hm]
      exact hlt
  · refine pairwise_append.mpr ⟨h.sorted, pairwise_singleton .., ?_⟩
    intro m hm m' hm'
    rw [mem_singleton.mp hm']
    exact h.below m hm
  · intro m hm
    rcases mem_append.mp hm with hm | hm
    · exact h.inTime m hm
    · rw [mem_singleton.mp hm]
      exact ⟨hfrom, hto, hend⟩

end Steps

lemma CronLine.armed_of_event_eq_none (h : line.event = none) : line.Armed := by
  intro t ht
  rw [h] at ht
  cases ht

/-- The timer fires. -/
lemma Past.runJob {later : TimeVal} {t : ℤ} {started : Bool} (h : Past line ms)
    (harmed : line.Armed) (hevent : line.event = some t) (hfire : t ≤ now.us)
    (hlater : now.us ≤ later.us) (hrun : line.runJob now later random = some (line', started)) :
    Past line'
        (if started then ms ++ [⟨line.nextcycle, now, line.nexttime, line.endTime⟩] else ms) ∧
      line'.Armed := by
  obtain ⟨hdue, hnexttime⟩ := harmed t hevent
  have hfired : Past { line with event := none } ms := h.congr rfl rfl rfl rfl rfl rfl
  have hidle : CronLine.Armed { line with event := none } := CronLine.armed_of_event_eq_none rfl
  -- The clock has passed `nexttime`.
  have hnow : line.nexttime ≤ now.sec := by
    have hlt := now.usec_lt
    unfold TimeVal.us at hfire
    omega
  have hlaterSec : now.sec ≤ later.sec := by
    have hlt := later.usec_lt
    have hnonneg := now.usec_nonneg
    unfold TimeVal.us at hlater
    omega
  unfold CronLine.runJob at hrun
  dsimp only at hrun
  split_ifs at hrun with hdelete htime hend hstate
  · cases hrun
    exact ⟨hfired, hidle⟩
  · obtain ⟨line₁, hset, heq⟩ := Option.bind_eq_some_iff.mp hrun
    cases heq
    refine hfired.setTimeout_true hidle (fun _ => ?_) hset
    have hoffset := h.offset.sec
    change line.startTime + (line.nextcycle - 1) * line.interval ≤ later.sec
    rw [Int.sub_mul]
    unfold CronLine.due at hdue
    omega
  · cases hrun
    exact ⟨hfired, hidle⟩
  · cases hrun
    exact ⟨hfired, hidle⟩
  · obtain ⟨line₁, hdistr, hrest⟩ := Option.bind_eq_some_iff.mp hrun
    obtain ⟨line₂, hset, heq⟩ := Option.bind_eq_some_iff.mp hrest
    cases heq
    rw [not_or, not_lt, not_lt] at htime
    have hadvanced := hfired.advance htime.1 htime.2 (not_lt.mp hend)
    refine (hadvanced.doDistr hdistr).setTimeout_false (CronLine.armed_of_event_eq_none ?_) hset
    obtain ⟨sec, usec, rfl, -⟩ := doDistr_spec hdistr hadvanced.fits
    unfold CronLine.advance
    dsimp only
    split_ifs <;> rfl

end Invariant

lemma CronLine.New.past {line : CronLine} (h : line.New) : Past line [] where
  fits := h.fits
  offset := ⟨by rw [h.offsetSec]; simp, by rw [h.offsetUsec]⟩
  nonneg := by rw [h.nextcycle]
  below := by simp
  sorted := List.Pairwise.nil
  inTime := by simp

lemma Scheduled.past {line : CronLine} {last : ℤ} {ms : List Measured}
    (h : Scheduled line last ms) : Past line ms ∧ line.Armed := by
  induction h with
  | idle hnew => exact ⟨hnew.past, CronLine.armed_of_event_eq_none hnew.event⟩
  | start hnew hset =>
    refine hnew.past.setTimeout_true (CronLine.armed_of_event_eq_none hnew.event) ?_ hset
    rw [hnew.nextcycle]
    exact fun h => absurd h (Int.lt_irrefl 0)
  | fire _ hevent hfire _ hlater hrun ih => exact ih.1.runJob ih.2 hevent hfire hlater hrun
  | @reload line _ _ endTime _ _ _ _ _ hset ih =>
    have hpast : Past { line with endTime := endTime, needsDelete := false } _ :=
      ih.1.congr rfl rfl rfl rfl rfl rfl
    exact hpast.setTimeout_false ih.2 hset
  | mark _ ih => exact ⟨ih.1.congr rfl rfl rfl rfl rfl rfl, ih.2⟩

/-- If the clock does not go back and the timer does not fire early, then the cycles in which an
entry is measured strictly increase, whatever the order of firings and reloads of the crontab, and
each measurement is within ten seconds of `nexttime` and not after the end of the entry. -/
theorem cycles_strictly_increase {line : CronLine} {last : ℤ} {ms : List Measured}
    (h : Scheduled line last ms) :
    (ms.map Measured.cycle).Pairwise (· < ·) ∧
      ∀ m ∈ ms, |m.now.sec - m.nexttime| ≤ 10 ∧ m.now.sec ≤ m.endTime := by
  have hpast := h.past.1
  refine ⟨pairwise_map.mpr hpast.sorted, fun m hm => ?_⟩
  obtain ⟨hfrom, hto, hend⟩ := hpast.inTime m hm
  exact ⟨abs_le.mpr ⟨by omega, by omega⟩, hend⟩

/-- An entry that is measured every minute. -/
def minuteLine : CronLine where
  command := ascii "evping 192.0.2.1"
  interval := 60
  startTime := 0
  endTime := 1000000
  distribution := .none
  distrParam := 0
  testops := true
  teststate := some 1

/-- The entry when its timer is armed for a cycle. -/
def minuteArmed (cycle : ℤ) : CronLine :=
  { minuteLine with
    nextcycle := cycle, nexttime := 60 * cycle, event := some (60 * cycle * 1000000) }

/-- The entry is started at 100 seconds, measured at 120, read again at 150 and measured at 180. -/
theorem cycles_strictly_increase_minute :
    ∃ line last m m', Scheduled line last [m, m'] ∧ m.cycle < m'.cycle := by
  let clock (sec : ℤ) : TimeVal := ⟨sec, 0, by decide, by decide⟩
  have hnew : minuteLine.New := ⟨⟨by decide, .inl rfl⟩, rfl, rfl, rfl, rfl⟩
  have hset : minuteLine.setTimeout true (clock 100) ⟨0, 0⟩ = some (minuteArmed 2) := by
    decide +kernel
  have hrun : (minuteArmed 2).runJob (clock 120) (clock 120) ⟨0, 0⟩ =
      some (minuteArmed 3, true) := by decide +kernel
  have hreload : { minuteArmed 3 with endTime := 1000000, needsDelete := false }.setTimeout false
      (clock 150) ⟨0, 0⟩ = some (minuteArmed 3) := by decide +kernel
  have hrun' : (minuteArmed 3).runJob (clock 180) (clock 180) ⟨0, 0⟩ =
      some (minuteArmed 4, true) := by decide +kernel
  have hfired := Scheduled.fire (.start hnew hset) rfl (by decide) (by decide) le_rfl hrun
  have h := Scheduled.fire (.reload hfired (by decide) hreload) rfl (by decide) (by decide) le_rfl
    hrun'
  exact ⟨_, _, _, _, h, (pairwise_pair.mp (cycles_strictly_increase h).1)⟩

end AtlasProbe.Eperd
