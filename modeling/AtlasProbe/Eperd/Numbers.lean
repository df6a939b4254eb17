import AtlasProbe.Eperd.Crontab

/-!
# The numbers in a crontab

The interval and the parameter of `UNIFORM` pass through `strtoul` and are cut to 32 bits before
they are checked.
-/

namespace AtlasProbe.Eperd

open List

/-- The entry of a line in which the numbers `interval` and `p` are written has that interval, and
`do_distr` neither overflows nor divides by zero, and stays around zero. -/
structure CronLine.Sound (line : CronLine) (interval p : ℕ) : Prop where
  interval : line.interval = interval ∧ 1 ≤ interval ∧ interval ≤ maxInterval
  modulus : line.distribution = .uniform →
    modulus line.distrParam = line.distrParam + 1 ∧ 0 < modulus line.distrParam
  offset : ∀ random, ∃ t : CronLine, line.doDistr random = some t ∧
    -((p : ℤ) / 2) ≤ t.offsetSec ∧ t.offsetSec ≤ p - (p : ℤ) / 2

variable {line : CronLine} {w₀ w₁ w₂ w₃ w₄ w₅ : Bytes} {more : List Bytes}

/-- The parameter of a line with `UNIFORM`, as an `int`; zero means no distribution. -/
lemma parseDistribution_cases {d : Distribution} {p : ℤ}
    (h : parseDistribution w₃ w₄ = some (d, p)) :
    if w₃ = ascii "UNIFORM" then
      p = ((strtoul w₄).1 : ℤ).bmod (2 ^ 32) ∧ (d = .uniform ↔ p ≠ 0)
    else d = .none := by
  have hdiv {p : ℤ} (hp : p ≠ 0) (hle : p.natAbs ≤ 2 ^ 31) : (2 ^ 63 - 1 : ℤ).tdiv p ≠ 0 := by
    rw [ne_eq, ← Int.natAbs_eq_zero, Int.natAbs_tdiv]
    exact (Nat.div_pos (hle.trans (by decide)) (by omega)).ne'
  have hle := Int.le_bmod (x := ((strtoul w₄).1 : ℤ)) (m := 2 ^ 32) (by decide)
  have hlt := Int.bmod_lt (x := ((strtoul w₄).1 : ℤ)) (m := 2 ^ 32) (by decide)
  unfold parseDistribution at h
  split_ifs with huniform
  · subst huniform
    rw [if_neg (by decide), if_pos rfl] at h
    dsimp only at h
    split_ifs at h with hrest hzero
    · cases h
      refine ⟨rfl, nofun, fun hp => ?_⟩
      exact absurd hzero (not_or.mpr ⟨hp, hdiv hp (by omega)⟩)
    · cases h
      exact ⟨rfl, by simp_all⟩
  · split_ifs at h <;> cases h <;> rfl

/-- With a parameter that is not negative and less than `INT_MAX`, `do_distr` stays in range. -/
lemma doDistr_bounds (h : 0 ≤ line.distrParam) (hlt : line.distrParam < 2 ^ 31 - 1) {p : ℕ}
    (hp : line.distrParam ≤ p) (random : Random) :
    ∃ t : CronLine, line.doDistr random = some t ∧ -((p : ℤ) / 2) ≤ t.offsetSec ∧
      t.offsetSec ≤ p - (p : ℤ) / 2 := by
  have hmodulus : modulus line.distrParam = line.distrParam + 1 :=
    Int.bmod_eq_of_le (by omega) (by omega)
  have hlow := Int.tmod_nonneg (line.distrParam + 1) (Int.natCast_nonneg random.offset)
  have hhigh := Int.tmod_lt_of_pos (random.offset : ℤ) (by omega : 0 < line.distrParam + 1)
  unfold CronLine.doDistr
  split
  · exact ⟨_, rfl, by dsimp only; omega, by dsimp only; omega⟩
  · rw [hmodulus, if_neg (by omega), Int.tdiv_eq_ediv_of_nonneg h]
    exact ⟨_, rfl, by dsimp only; omega, by dsimp only; omega⟩

/-- Which parameters are stored as an `int` that can be incremented. -/
lemma param_bounds {n : ℕ} {p : ℤ}
    (hp : p = ((if 2 ^ 64 ≤ n then 2 ^ 64 - 1 else n : ℕ) : ℤ).bmod (2 ^ 32)) :
    ((p ≠ 0 → modulus p = p + 1 ∧ 0 < modulus p) ↔ n < 2 ^ 64 ∧ n % 2 ^ 32 < 2 ^ 31 - 1) ∧
      (n < 2 ^ 64 ∧ n % 2 ^ 32 < 2 ^ 31 - 1 → 0 ≤ p ∧ p < 2 ^ 31 - 1 ∧ p ≤ n) := by
  unfold modulus
  rw [Int.bmod_def] at hp ⊢
  split_ifs at hp ⊢ <;> omega

/-- **The schedule of an accepted line is sound if and only if its numbers fit**: the interval has
32 bits, and the parameter of `UNIFORM` is less than `INT_MAX` in its low 32 bits and has 64. -/
theorem parseLine_sound_iff (h : parseLine (w₀ :: w₁ :: w₂ :: w₃ :: w₄ :: w₅ :: more) = some line)
    (h₀ : ∀ b ∈ w₀, isdigit b = true) (h₄ : w₃ = ascii "UNIFORM" → ∀ b ∈ w₄, isdigit b = true) :
    line.Sound (decimal w₀) (decimal w₄) ↔
      decimal w₀ < 2 ^ 32 ∧ (w₃ = ascii "UNIFORM" →
        decimal w₄ < 2 ^ 64 ∧ decimal w₄ % 2 ^ 32 < 2 ^ 31 - 1) := by
  unfold parseLine at h
  dsimp only at h
  split_ifs at h with hmail hbad
  obtain ⟨⟨d, p⟩, hp, hline⟩ := Option.bind_eq_some_iff.mp h
  cases hline
  simp only [not_or, strtoul_digits h₀] at hbad
  have hcases := parseDistribution_cases hp
  constructor
  · rintro ⟨hinterval, hmodulus, -⟩
    simp only [strtoul_digits h₀] at hinterval
    refine ⟨hinterval.1 ▸ Nat.mod_lt _ (by decide), fun huniform => ?_⟩
    rw [if_pos huniform, strtoul_digits (h₄ huniform)] at hcases
    exact (param_bounds hcases.1).1.mp fun hne => hmodulus (hcases.2.mpr hne)
  · rintro ⟨hlt, hfits⟩
    rw [if_neg (by omega), Nat.mod_eq_of_lt hlt] at hbad
    have hinterval : (strtoul w₀).1 % 2 ^ 32 = decimal w₀ := by
      rw [strtoul_digits h₀, if_neg (by omega), Nat.mod_eq_of_lt hlt]
    split_ifs at hcases with huniform
    · rw [strtoul_digits (h₄ huniform)] at hcases
      obtain ⟨hiff, hbounds⟩ := param_bounds hcases.1
      obtain ⟨hnonneg, hsmall, hle⟩ := hbounds (hfits huniform)
      refine ⟨⟨hinterval, by omega⟩, fun hd => ?_, doDistr_bounds hnonneg hsmall hle⟩
      exact hiff.mpr (hfits huniform) (hcases.2.mp hd)
    · subst hcases
      refine ⟨⟨hinterval, by omega⟩, nofun, fun random => ⟨_, rfl, ?_⟩⟩
      dsimp only
      omega

/-- A crontab line with the distribution `UNIFORM`. -/
def scheduled (interval param : String) : List Bytes :=
  [ascii interval, ascii "0", ascii "4000", ascii "UNIFORM", ascii param, ascii "evping"]

/-- The entry for such a line. -/
def stored (interval : ℕ) (param : ℤ) : CronLine :=
  ⟨ascii "evping", interval, 0, 4000, .uniform, param, 0, 0, 0, 0, none, false, none, false⟩

theorem parseLine_sound_plain :
    parseLine (scheduled "240" "30") = some (stored 240 30) ∧
      (stored 240 30).Sound (decimal (ascii "240")) (decimal (ascii "30")) := by
  have h : parseLine (scheduled "240" "30") = some (stored 240 30) := by decide +kernel
  exact ⟨h, (parseLine_sound_iff h (by decide +kernel) (by decide +kernel)).mpr (by decide)⟩

/-- The interval 2³² + 1 is accepted as one second, and the parameter 2³² - 1 divides by zero. -/
theorem parseLine_unsound :
    parseLine (scheduled "4294967297" "30") = some (stored 1 30) ∧
      parseLine (scheduled "240" "4294967295") = some (stored 240 (-1)) ∧
      ∀ random, (stored 240 (-1)).doDistr random = none := by
  refine ⟨by decide +kernel, by decide +kernel, fun random => ?_⟩
  unfold CronLine.doDistr
  exact if_pos (by decide)

end AtlasProbe.Eperd
