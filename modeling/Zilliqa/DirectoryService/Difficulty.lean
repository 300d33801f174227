import Zilliqa.Utils.SafeMathTypes

/-!
# `DirectoryService.Difficulty` — the proof-of-work difficulty of the next DS block

`DirectoryService::CalculateNewDifficultyCore` moves the difficulty by the difference between the
PoW submissions and the expected number of nodes, divided by `powChangeoAdj` in `int64_t` with
`SafeMath`, clamped to `MAX_ADJUST_STEP` (an `int8_t`: `2`, or `POW_BOUNDARY_N_DIVIDED` from
`POW_BOUNDARY_N_DIVIDED_START` on, where the minimum becomes `POW_BOUNDARY_N_DIVIDED_START - 2`). The
sum is kept in `int16_t`, capped at `255`, and cast to `uint8_t` before the maximum with the minimum.

When the sum stays non-negative the result lies between the minimum and `255`, within the step of
the current difficulty unless it is the minimum, and grows with the submissions
(`calculateNewDifficultyCore_spec`, `calculateNewDifficultyCore_mono`). Below a difficulty of `2` a
downward step makes the sum negative, and the cast turns `-1` into `255`
(`difficulty_wraps_below_zero`).

## Contents
- `PowConfig`, `powConfig` (the values of `constants.xml`), `toUInt8`, `toInt8`.
- `submissionsAdjustment`, `clampStep`, `calculateNewDifficultyCore`.
- Their specifications where nothing wraps.
-/

namespace Zilliqa

open SafeMath

/-- The proof-of-work constants `CalculateNewDifficultyCore` reads. -/
structure PowConfig where
  /-- `POW_BOUNDARY_N_DIVIDED_START`. -/
  powBoundaryNDividedStart : ℕ
  /-- `POW_BOUNDARY_N_DIVIDED`. -/
  powBoundaryNDivided : ℕ

/-- The values of `constants.xml`. -/
def powConfig : PowConfig := ⟨32, 8⟩

/-- A conversion to `uint8_t`: modulo `256`. -/
def toUInt8 (x : ℤ) : ℕ := (x % 256).toNat

/-- A conversion to `int8_t`: modulo `256`, into `[-128, 127]`. -/
def toInt8 (x : ℤ) : ℤ := (x + 128) % 256 - 128

/-- The adjustment before the clamp: `0` unless `expectedNodes` is positive and differs from the
    submissions; then `(powSubmissions - expectedNodes) / powChangeoAdj` in `int64_t`, each failed
    `SafeMath` step counting as `0`. -/
def submissionsAdjustment (powSubmissions expectedNodes : ℤ) (powChangeoAdj : ℕ) : ℤ :=
  if 0 < expectedNodes ∧ expectedNodes ≠ powSubmissions then
    let submissionsDiff := (subOf .int64 powSubmissions expectedNodes).getD 0
    (divOf .int64 submissionsDiff powChangeoAdj).getD 0
  else 0

/-- The adjustment restricted to `[-MAX_ADJUST_STEP, MAX_ADJUST_STEP]`. -/
def clampStep (maxAdjustStep adjustment : ℤ) : ℤ :=
  if adjustment > maxAdjustStep then maxAdjustStep
  else if adjustment < -maxAdjustStep then -maxAdjustStep
  else adjustment

/-- `MAX_ADJUST_STEP` for a current difficulty. -/
def difficultyStep (cfg : PowConfig) (currentDifficulty : ℕ) : ℤ :=
  if cfg.powBoundaryNDividedStart ≤ currentDifficulty then toInt8 cfg.powBoundaryNDivided else 2

/-- The minimum for a current difficulty: `POW_BOUNDARY_N_DIVIDED_START - 2`, an `unsigned int`
    stored in a `uint8_t`, from the boundary on. -/
def difficultyFloor (cfg : PowConfig) (currentDifficulty minDifficulty : ℕ) : ℕ :=
  if cfg.powBoundaryNDividedStart ≤ currentDifficulty then
    toUInt8 (((cfg.powBoundaryNDividedStart : ℤ) - 2) % 2 ^ 32)
  else minDifficulty

/-- **`DirectoryService::CalculateNewDifficultyCore`**. The clamped adjustment and the difficulty
    fit in `int16_t`, so their sum does too. -/
def calculateNewDifficultyCore (cfg : PowConfig) (currentDifficulty minDifficulty : ℕ)
    (powSubmissions expectedNodes : ℤ) (powChangeoAdj : ℕ) : ℕ :=
  if powChangeoAdj = 0 then minDifficulty
  else
    let adjustment := clampStep (difficultyStep cfg currentDifficulty)
      (submissionsAdjustment powSubmissions expectedNodes powChangeoAdj)
    let newDifficulty : ℤ := min (adjustment + currentDifficulty) 255
    max (toUInt8 newDifficulty) (difficultyFloor cfg currentDifficulty minDifficulty)

/-! ## Where nothing wraps -/

theorem clampStep_bounds {step : ℤ} (hstep : 0 ≤ step) (adjustment : ℤ) :
    -step ≤ clampStep step adjustment ∧ clampStep step adjustment ≤ step := by
  unfold clampStep
  split_ifs <;> omega

theorem clampStep_mono {step a b : ℤ} (hstep : 0 ≤ step) (hab : a ≤ b) :
    clampStep step a ≤ clampStep step b := by
  unfold clampStep
  split_ifs <;> omega

theorem toUInt8_of_lt {x : ℤ} (h0 : 0 ≤ x) (h : x < 256) : (toUInt8 x : ℤ) = x := by
  unfold toUInt8
  rw [Int.emod_eq_of_lt h0 h, Int.toNat_of_nonneg h0]

/-- The deployed step and floor: `2` and the minimum below `32`, `8` and `30` from it on. -/
theorem powConfig_step_floor (currentDifficulty minDifficulty : ℕ) :
    (currentDifficulty < 32 → difficultyStep powConfig currentDifficulty = 2 ∧
      difficultyFloor powConfig currentDifficulty minDifficulty = minDifficulty) ∧
    (32 ≤ currentDifficulty → difficultyStep powConfig currentDifficulty = 8 ∧
      difficultyFloor powConfig currentDifficulty minDifficulty = 30) := by
  unfold difficultyStep difficultyFloor powConfig
  dsimp only
  refine ⟨fun h => ?_, fun h => ?_⟩
  · rw [if_neg (by omega), if_neg (by omega)]
    exact ⟨rfl, rfl⟩
  · rw [if_pos h, if_pos h]
    exact ⟨by decide, by decide⟩

/-- The deployed step is non-negative and, from a difficulty of `2` on, at most the difficulty. -/
theorem powConfig_step_le {currentDifficulty : ℕ} (minDifficulty : ℕ) (h2 : 2 ≤ currentDifficulty) :
    0 ≤ difficultyStep powConfig currentDifficulty ∧
      difficultyStep powConfig currentDifficulty ≤ currentDifficulty := by
  obtain ⟨hlow, hhigh⟩ := powConfig_step_floor currentDifficulty minDifficulty
  by_cases hb : currentDifficulty < 32
  · rw [(hlow hb).1]
    omega
  · rw [(hhigh (by omega)).1]
    omega

/-- The deployed floor is a `uint8_t` when the minimum is one. -/
theorem powConfig_floor_lt (currentDifficulty : ℕ) {minDifficulty : ℕ} (hm : minDifficulty < 256) :
    difficultyFloor powConfig currentDifficulty minDifficulty < 256 := by
  obtain ⟨hlow, hhigh⟩ := powConfig_step_floor currentDifficulty minDifficulty
  by_cases hb : currentDifficulty < 32
  · rw [(hlow hb).2]
    exact hm
  · rw [(hhigh (by omega)).2]
    omega

/-- Where `powSubmissions - expectedNodes` fits in `int64_t` and the divisor is a positive `uint32_t`,
    neither `SafeMath` step fails, and the adjustment is the truncated quotient (which is `0` when
    the submissions meet the expectation). -/
theorem submissionsAdjustment_eq {powSubmissions expectedNodes : ℤ} {powChangeoAdj : ℕ}
    (hk : 0 < powChangeoAdj) (hk32 : powChangeoAdj < 2 ^ 32)
    (hs : IntType.int64.Contains powSubmissions) (he : IntType.int64.Contains expectedNodes)
    (hdiff : IntType.int64.Contains (powSubmissions - expectedNodes)) :
    submissionsAdjustment powSubmissions expectedNodes powChangeoAdj =
      if 0 < expectedNodes then (powSubmissions - expectedNodes).tdiv powChangeoAdj else 0 := by
  have hmax : IntType.int64.maxValue = 2 ^ 63 - 1 := rfl
  have hkC : IntType.int64.Contains powChangeoAdj := by
    refine IntType.contains_of_natAbs_le _ ?_ (Or.inl rfl)
    rw [Int.natAbs_natCast, hmax]
    omega
  unfold submissionsAdjustment
  by_cases he0 : 0 < expectedNodes
  · rw [if_pos he0]
    by_cases hse : expectedNodes = powSubmissions
    · -- no adjustment when the submissions meet the expectation, as the quotient of `0`
      rw [if_neg (fun h => h.2 hse), hse, Int.sub_self, Int.zero_tdiv]
    · rw [if_pos ⟨he0, hse⟩]
      dsimp only
      have hsub : subOf .int64 powSubmissions expectedNodes = some (powSubmissions - expectedNodes) :=
        (subOf_eq_some_iff .int64 hs he).2 ⟨hdiff, rfl⟩
      have hdiv : divOf .int64 (powSubmissions - expectedNodes) powChangeoAdj =
          some ((powSubmissions - expectedNodes).tdiv powChangeoAdj) :=
        (divOf_eq_some_iff .int64 hdiff hkC).2 ⟨⟨by omega, fun h => by omega⟩, rfl⟩
      rw [hsub, Option.getD_some, hdiv, Option.getD_some]
  · rw [if_neg (fun h => he0 h.1), if_neg he0]

section Deployed

variable {currentDifficulty minDifficulty : ℕ} {powChangeoAdj : ℕ}

/-- Under the deployed constants, from a difficulty of `2` on, the adjusted difficulty is never
    negative, and the result is the capped sum or the floor. -/
theorem calculateNewDifficultyCore_eq (minDifficulty : ℕ) (hk : 0 < powChangeoAdj)
    (h2 : 2 ≤ currentDifficulty) (powSubmissions expectedNodes : ℤ) :
    (calculateNewDifficultyCore powConfig currentDifficulty minDifficulty powSubmissions expectedNodes
        powChangeoAdj : ℤ) =
      max (min (clampStep (difficultyStep powConfig currentDifficulty)
          (submissionsAdjustment powSubmissions expectedNodes powChangeoAdj) + currentDifficulty) 255)
        (difficultyFloor powConfig currentDifficulty minDifficulty) := by
  have hstep := powConfig_step_le minDifficulty h2
  have hclamp := clampStep_bounds hstep.1
    (submissionsAdjustment powSubmissions expectedNodes powChangeoAdj)
  unfold calculateNewDifficultyCore
  rw [if_neg (by omega)]
  dsimp only
  rw [Nat.cast_max, toUInt8_of_lt (by omega) (by omega)]

/-- **The bounds where nothing wraps.** From a difficulty of `2` on, the result lies between the
    floor and `255`, and is the floor or within the step of the current difficulty. -/
theorem calculateNewDifficultyCore_spec (hk : 0 < powChangeoAdj) (hd : currentDifficulty < 256)
    (hm : minDifficulty < 256) (h2 : 2 ≤ currentDifficulty) (powSubmissions expectedNodes : ℤ)
    {r : ℕ} (hr : calculateNewDifficultyCore powConfig currentDifficulty minDifficulty powSubmissions
      expectedNodes powChangeoAdj = r) :
    difficultyFloor powConfig currentDifficulty minDifficulty ≤ r ∧ r ≤ 255 ∧
      (|(r : ℤ) - currentDifficulty| ≤ difficultyStep powConfig currentDifficulty ∨
        r = difficultyFloor powConfig currentDifficulty minDifficulty) := by
  have heq := calculateNewDifficultyCore_eq minDifficulty hk h2
    powSubmissions expectedNodes
  rw [hr] at heq
  have hclamp := clampStep_bounds (powConfig_step_le minDifficulty h2).1
    (submissionsAdjustment powSubmissions expectedNodes powChangeoAdj)
  have hfloor := powConfig_floor_lt currentDifficulty hm
  refine ⟨by omega, by omega, ?_⟩
  -- the floor wins, or the capped sum does and stays within the step
  by_cases hwin : r = difficultyFloor powConfig currentDifficulty minDifficulty
  · exact Or.inr hwin
  · left
    rw [abs_le]
    omega

/-- **Monotone in the submissions where nothing wraps.** From a difficulty of `2` on, while the
    differences to the expected nodes fit in `int64_t`, more submissions never lower the result. -/
theorem calculateNewDifficultyCore_mono (hk : 0 < powChangeoAdj) (hk32 : powChangeoAdj < 2 ^ 32)
    (h2 : 2 ≤ currentDifficulty) {s s' expectedNodes : ℤ}
    (hs : IntType.int64.Contains s) (hs' : IntType.int64.Contains s')
    (he : IntType.int64.Contains expectedNodes) (hdiff : IntType.int64.Contains (s - expectedNodes))
    (hdiff' : IntType.int64.Contains (s' - expectedNodes)) (hle : s ≤ s') :
    calculateNewDifficultyCore powConfig currentDifficulty minDifficulty s expectedNodes powChangeoAdj ≤
      calculateNewDifficultyCore powConfig currentDifficulty minDifficulty s' expectedNodes
        powChangeoAdj := by
  have hadj : submissionsAdjustment s expectedNodes powChangeoAdj ≤
      submissionsAdjustment s' expectedNodes powChangeoAdj := by
    rw [submissionsAdjustment_eq hk hk32 hs he hdiff, submissionsAdjustment_eq hk hk32 hs' he hdiff']
    split_ifs
    · exact Int.tdiv_le_tdiv (by omega) (by omega)
    · exact le_rfl
  have hclamp := clampStep_mono (powConfig_step_le minDifficulty h2).1 hadj
  have heq := calculateNewDifficultyCore_eq minDifficulty hk h2 s expectedNodes
  have heq' := calculateNewDifficultyCore_eq minDifficulty hk h2 s'
    expectedNodes
  have hcast : (calculateNewDifficultyCore powConfig currentDifficulty minDifficulty s expectedNodes
      powChangeoAdj : ℤ) ≤ calculateNewDifficultyCore powConfig currentDifficulty minDifficulty s'
        expectedNodes powChangeoAdj := by
    rw [heq, heq']
    omega
  exact_mod_cast hcast

end Deployed

/-- At difficulty `10` with a minimum of `5`, three submissions for one expected node. -/
theorem calculateNewDifficultyCore_spec_ten :
    difficultyFloor powConfig 10 5 ≤ calculateNewDifficultyCore powConfig 10 5 3 1 1 ∧
      calculateNewDifficultyCore powConfig 10 5 3 1 1 ≤ 255 ∧
      (|((calculateNewDifficultyCore powConfig 10 5 3 1 1 : ℕ) : ℤ) - (10 : ℕ)| ≤
          difficultyStep powConfig 10 ∨
        calculateNewDifficultyCore powConfig 10 5 3 1 1 = difficultyFloor powConfig 10 5) :=
  calculateNewDifficultyCore_spec (by decide) (by decide) (by decide) (by decide) 3 1 rfl

/-- At difficulty `0`, one submission short of one expected node moves the difficulty to `-1`, which
    the `uint8_t` cast makes `255`: a jump of `255` past the step, to a difficulty above the one a
    full round of submissions gives. -/
theorem difficulty_wraps_below_zero :
    calculateNewDifficultyCore powConfig 0 0 0 1 1 = 255 ∧
      calculateNewDifficultyCore powConfig 0 0 1 1 1 = 0 := by
  decide

end Zilliqa
