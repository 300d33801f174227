import Mathlib.Data.List.Sort
import Zilliqa.Utils.SafeMath

/-!
# `DirectoryService.GasPricer` — the gas price of the next DS block

`DirectoryService::GetNewGasPrice` counts the Tx blocks since the last DS block that used at least
`GAS_CONGESTION_PERCENT` of their gas limit, and picks one of three branches by that count. Fewer
than `UNFILLED_PERCENT_LOW` percent full lowers the historical mean by `GAS_PRICE_DROP_RATIO` parts
in `PRECISION_MIN_VALUE` (`GetDecreasedGasPrice`). More than `UNFILLED_PERCENT_HIGH` percent full
takes the median of the DS PoW submissions' gas prices up to an upper bound, clamped between a
lower and the upper bound (`GetIncreasedGasPrice`). Otherwise the last DS block's price is kept.
The historical mean (`GetHistoricalMeanGasPrice`) is the truncated mean of the gas prices of the
DS blocks from `max(1, cur - MEAN_GAS_PRICE_DS_NUM)` to `cur`; its `SafeMath` sum aliases its
out-parameter, so it wraps instead of skipping a block.

Where the products fit in `uint128_t`, the mean is the window's sum over its length
(`getHistoricalMeanGasPrice_eq`), the decrease is `m (P - D) / P` above the minimum
(`getDecreasedGasPrice_eq`), and the increase lies between the lower bound and the upper bound or
the minimum (`getIncreasedGasPrice_bounds`); the increase does not depend on the order of the
submissions (`getIncreasedGasPrice_perm`). The lower bound is `(P + L) / P * m`, divided before it
is multiplied, as the code writes it: with the deployed `P = 100` and `L = 5` it is the mean itself
(`gasConfig_lowerbound_eq_mean`), so a congested network need not raise its price
(`increasedGasPrice_misses_raise`).

## Contents
- `GasConfig`, `gasConfig` (the values of `constants.xml`), `GasPricerInputs`.
- `meanLoop` and `getHistoricalMeanGasPrice`; `countFullBlocks`, `gasPriceBranch`;
  `getDecreasedGasPrice`; `increaseBounds`, `medianOf`, `getIncreasedGasPrice`; `getNewGasPrice`.
- The mean as a sum over `meanWindow`, each branch where nothing overflows, and the deployed
  lower bound.
-/

namespace Zilliqa

/-- The `node.gas` constants the gas pricer reads. -/
structure GasConfig where
  gasCongestionPercent : ℕ
  unfilledPercentLow : ℕ
  unfilledPercentHigh : ℕ
  gasPriceMinValue : ℕ
  /-- `PRECISION_MIN_VALUE`, `10 ^ GAS_PRICE_PRECISION`. -/
  precisionMinValue : ℕ
  gasPriceDropRatio : ℕ
  gasPriceRaiseRatioLower : ℕ
  gasPriceRaiseRatioUpper : ℕ
  meanGasPriceDsNum : ℕ
deriving DecidableEq, Repr

/-- The values of `constants.xml`, with a `GAS_PRICE_PRECISION` of `2`. -/
def gasConfig : GasConfig where
  gasCongestionPercent := 80
  unfilledPercentLow := 10
  unfilledPercentHigh := 70
  gasPriceMinValue := 2000000000
  precisionMinValue := 10 ^ 2
  gasPriceDropRatio := 10
  gasPriceRaiseRatioLower := 5
  gasPriceRaiseRatioUpper := 15
  meanGasPriceDsNum := 5

/-- What the gas pricer reads of the mediator and the DS node: the gas price of each DS block, the
    number and epoch of the last DS block, the gas used and the gas limit of each Tx block, the
    number of the last Tx block, and the `m_gasPrice` of every entry of `m_allDSPoWs`. -/
structure GasPricerInputs where
  dsBlockGasPrice : ℕ → ℕ
  curDSBlockNum : ℕ
  lastDSEpochNum : ℕ
  txBlockGas : ℕ → ℕ × ℕ
  lastTxBlockNum : ℕ
  dsPoWGasPrices : List ℕ

/-! ## `GetHistoricalMeanGasPrice` -/

/-- One block of the mean: `SafeMath<uint128_t>::add(totalGasPrice, price, totalGasPrice)`, whose
    out-parameter is its first operand, so it never fails; the block is counted. -/
def addGasPrice (acc : ℕ × ℕ) (gasPrice : ℕ) : ℕ × ℕ :=
  match SafeMath.addInPlace 128 acc.1 gasPrice with
  | some totalGasPrice => (totalGasPrice, acc.2 + 1)
  | none => acc

/-- The loop `for (i = curDSBlockNum; i >= lowDSBlockNum; --i)`, which breaks at block `0` before
    reading it. -/
def meanLoop (dsBlockGasPrice : ℕ → ℕ) (lowDSBlockNum : ℕ) : ℕ → ℕ × ℕ → ℕ × ℕ
  | 0, acc => acc
  | i + 1, acc =>
    if i + 1 < lowDSBlockNum then acc
    else meanLoop dsBlockGasPrice lowDSBlockNum i (addGasPrice acc (dsBlockGasPrice (i + 1)))

/-- `lowDSBlockNum`: `MEAN_GAS_PRICE_DS_NUM` blocks below the current one, or `0`. -/
def lowDSBlockNum (cfg : GasConfig) (curDSBlockNum : ℕ) : ℕ :=
  if curDSBlockNum > cfg.meanGasPriceDsNum then curDSBlockNum - cfg.meanGasPriceDsNum else 0

/-- **`DirectoryService::GetHistoricalMeanGasPrice`**: the sum over the count, or the last DS
    block's price when no block was counted. -/
def getHistoricalMeanGasPrice (cfg : GasConfig) (inp : GasPricerInputs) : ℕ :=
  let acc := meanLoop inp.dsBlockGasPrice (lowDSBlockNum cfg inp.curDSBlockNum) inp.curDSBlockNum
    (0, 0)
  (SafeMath.div acc.1 acc.2).getD (inp.dsBlockGasPrice inp.curDSBlockNum)

/-! ## `GetNewGasPrice` -/

/-- A Tx block is full when `gasUsed >= gasLimit * GAS_CONGESTION_PERCENT / 100` in `uint128_t`. -/
def isFullBlock (cfg : GasConfig) (gas : ℕ × ℕ) : Bool :=
  decide (gas.2 * cfg.gasCongestionPercent % 2 ^ 128 / 100 ≤ gas.1)

/-- `(fullBlockNum, totalBlockNum)` over the Tx blocks from the last DS block's epoch to the last
    Tx block. -/
def countFullBlocks (cfg : GasConfig) (inp : GasPricerInputs) : ℕ × ℕ :=
  (List.range' inp.lastDSEpochNum (inp.lastTxBlockNum + 1 - inp.lastDSEpochNum)).foldl
    (fun acc i => (if isFullBlock cfg (inp.txBlockGas i) then acc.1 + 1 else acc.1, acc.2 + 1))
    (0, 0)

/-- The three ways `GetNewGasPrice` can go. -/
inductive GasPriceBranch
  | decreased
  | increased
  | kept
deriving DecidableEq, Repr

/-- The branch of `GetNewGasPrice`, with `totalBlockNum * UNFILLED_PERCENT_*` in `uint64_t`. -/
def gasPriceBranch (cfg : GasConfig) (inp : GasPricerInputs) : GasPriceBranch :=
  let counts := countFullBlocks cfg inp
  if counts.1 < counts.2 * cfg.unfilledPercentLow % 2 ^ 64 / 100 then .decreased
  else if counts.1 > counts.2 * cfg.unfilledPercentHigh % 2 ^ 64 / 100 then .increased
  else .kept

/-- `max(PRECISION_MIN_VALUE, GAS_PRICE_MIN_VALUE)`, the floor of two of the branches. -/
def GasConfig.minGasPrice (cfg : GasConfig) : ℕ := max cfg.precisionMinValue cfg.gasPriceMinValue

/-- **`DirectoryService::GetDecreasedGasPrice`**: the checked `mean * (P - D) / P`, with `P - D` in
    `uint128_t`, or the mean when a step fails; at least the floor. -/
def getDecreasedGasPrice (cfg : GasConfig) (inp : GasPricerInputs) : ℕ :=
  let meanVal := getHistoricalMeanGasPrice cfg inp
  let P := cfg.precisionMinValue
  let decreasedVal :=
    ((SafeMath.mul 128 meanVal ((P + 2 ^ 128 - cfg.gasPriceDropRatio) % 2 ^ 128)).bind
      (fun v => SafeMath.div v P)).getD meanVal
  max (max P cfg.gasPriceMinValue) decreasedVal

/-- The raise of the lower bound: `GAS_PRICE_RAISE_RATIO_LOWER`, or half the upper ratio when the
    lower one exceeds it. -/
def raiseRatioLower (cfg : GasConfig) : ℕ :=
  if cfg.gasPriceRaiseRatioLower ≤ cfg.gasPriceRaiseRatioUpper then cfg.gasPriceRaiseRatioLower
  else cfg.gasPriceRaiseRatioUpper / 2

/-- `(lowerbound, upperbound)` of `GetIncreasedGasPrice`: the checked `mean * (P + U) / P` above,
    and the unchecked `(P + L) / P * mean` below; both the mean when a checked step fails. -/
def increaseBounds (cfg : GasConfig) (meanVal : ℕ) : ℕ × ℕ :=
  let P := cfg.precisionMinValue
  match (SafeMath.mul 128 meanVal ((P + cfg.gasPriceRaiseRatioUpper) % 2 ^ 128)).bind
      (fun v => SafeMath.div v P) with
  | some upperbound => ((P + raiseRatioLower cfg) % 2 ^ 128 / P * meanVal % 2 ^ 128, upperbound)
  | none => (meanVal, meanVal)

/-- The median of the sorted proposals: the middle one, or the `uint128_t` mean of the two middle
    ones when there is an even number of them. -/
def medianOf (gasProposals : List ℕ) : ℕ :=
  let n := gasProposals.length
  if n % 2 = 0 then (gasProposals.getD (n / 2 - 1) 0 + gasProposals.getD (n / 2) 0) % 2 ^ 128 / 2
  else gasProposals.getD (n / 2) 0

/-- The `multiset` of the submitted gas prices up to the upper bound, in order. -/
def gasProposalsOf (dsPoWGasPrices : List ℕ) (upperbound : ℕ) : List ℕ :=
  (dsPoWGasPrices.filter fun gasPrice => decide (gasPrice ≤ upperbound)).insertionSort (· ≤ ·)

/-- **`DirectoryService::GetIncreasedGasPrice`**: the mean when no submission is within the upper
    bound, and otherwise their median clamped between the bounds, at least the floor. -/
def getIncreasedGasPrice (cfg : GasConfig) (inp : GasPricerInputs) : ℕ :=
  let bounds := increaseBounds cfg (getHistoricalMeanGasPrice cfg inp)
  let gasProposals := gasProposalsOf inp.dsPoWGasPrices bounds.2
  if gasProposals.isEmpty then getHistoricalMeanGasPrice cfg inp
  else max (max bounds.1 (min (medianOf gasProposals) bounds.2))
    (max cfg.precisionMinValue cfg.gasPriceMinValue)

/-- **`DirectoryService::GetNewGasPrice`**. -/
def getNewGasPrice (cfg : GasConfig) (inp : GasPricerInputs) : ℕ :=
  match gasPriceBranch cfg inp with
  | .decreased => getDecreasedGasPrice cfg inp
  | .increased => getIncreasedGasPrice cfg inp
  | .kept => max (inp.dsBlockGasPrice inp.curDSBlockNum)
      (max cfg.precisionMinValue cfg.gasPriceMinValue)

/-! ## The mean -/

/-- The DS blocks the mean reads: from `max lowDSBlockNum 1` up to the current one. -/
def meanWindow (lowDSBlockNum curDSBlockNum : ℕ) : List ℕ :=
  List.range' (max lowDSBlockNum 1) (curDSBlockNum + 1 - max lowDSBlockNum 1)

theorem meanWindow_zero (lowDSBlockNum : ℕ) : meanWindow lowDSBlockNum 0 = [] := by
  unfold meanWindow
  rw [show 0 + 1 - max lowDSBlockNum 1 = 0 by omega, List.range'_zero]

theorem meanWindow_of_lt {lowDSBlockNum i : ℕ} (h : i + 1 < lowDSBlockNum) :
    meanWindow lowDSBlockNum (i + 1) = [] := by
  unfold meanWindow
  rw [show i + 1 + 1 - max lowDSBlockNum 1 = 0 by omega, List.range'_zero]

theorem meanWindow_succ {lowDSBlockNum i : ℕ} (h : lowDSBlockNum ≤ i + 1) :
    meanWindow lowDSBlockNum (i + 1) = meanWindow lowDSBlockNum i ++ [i + 1] := by
  unfold meanWindow
  rw [show i + 1 + 1 - max lowDSBlockNum 1 = (i + 1 - max lowDSBlockNum 1) + 1 by omega,
    List.range'_concat]
  congr 2
  omega

/-- **The run of the mean loop**: from a total below `2 ^ 128`, the loop adds the window's prices
    modulo `2 ^ 128` and counts every block of the window. -/
theorem meanLoop_eq (dsBlockGasPrice : ℕ → ℕ) (lowDSBlockNum : ℕ) :
    ∀ (i total count : ℕ), total < 2 ^ 128 →
      meanLoop dsBlockGasPrice lowDSBlockNum i (total, count) =
        ((total + ((meanWindow lowDSBlockNum i).map dsBlockGasPrice).sum) % 2 ^ 128,
          count + (meanWindow lowDSBlockNum i).length) := by
  intro i
  induction i with
  | zero =>
    intro total count htotal
    simp only [meanWindow_zero, List.map_nil, List.sum_nil, List.length_nil, Nat.add_zero]
    rw [Nat.mod_eq_of_lt htotal]
    rfl
  | succ i ih =>
    intro total count htotal
    by_cases hlow : i + 1 < lowDSBlockNum
    · simp only [meanWindow_of_lt hlow, List.map_nil, List.sum_nil, List.length_nil, Nat.add_zero]
      rw [Nat.mod_eq_of_lt htotal]
      exact if_pos hlow
    · -- block `i + 1` is read first and is the last of the window
      have hstep : meanLoop dsBlockGasPrice lowDSBlockNum (i + 1) (total, count) =
          meanLoop dsBlockGasPrice lowDSBlockNum i
            ((total + dsBlockGasPrice (i + 1)) % 2 ^ 128, count + 1) := by
        simp only [meanLoop, if_neg hlow, addGasPrice, SafeMath.addInPlace_eq]
      rw [hstep, ih _ _ (Nat.mod_lt _ (by positivity)), Nat.mod_add_mod,
        meanWindow_succ (by omega), List.map_append, List.sum_append, List.length_append]
      simp only [List.map_cons, List.map_nil, List.sum_cons, List.sum_nil, List.length_singleton]
      refine Prod.ext ?_ ?_
      · dsimp only
        congr 1
        omega
      · dsimp only
        omega

/-- **The historical mean**: the window's sum modulo `2 ^ 128` over its length, the window being
    the DS blocks from `max(1, cur - MEAN_GAS_PRICE_DS_NUM)` to `cur`; at the genesis block, its own
    price. -/
theorem getHistoricalMeanGasPrice_eq (cfg : GasConfig) (inp : GasPricerInputs) :
    getHistoricalMeanGasPrice cfg inp =
      if inp.curDSBlockNum = 0 then inp.dsBlockGasPrice 0
      else ((meanWindow (lowDSBlockNum cfg inp.curDSBlockNum) inp.curDSBlockNum).map
          inp.dsBlockGasPrice).sum % 2 ^ 128 /
        (meanWindow (lowDSBlockNum cfg inp.curDSBlockNum) inp.curDSBlockNum).length := by
  unfold getHistoricalMeanGasPrice
  rw [meanLoop_eq _ _ _ _ _ (by positivity), Nat.zero_add, Nat.zero_add]
  have hlen : (meanWindow (lowDSBlockNum cfg inp.curDSBlockNum) inp.curDSBlockNum).length =
      inp.curDSBlockNum + 1 - max (lowDSBlockNum cfg inp.curDSBlockNum) 1 := by
    unfold meanWindow
    rw [List.length_range']
  by_cases hcur : inp.curDSBlockNum = 0
  · rw [if_pos hcur, hlen, hcur]
    simp [SafeMath.div]
  · rw [if_neg hcur]
    have hmax : max (lowDSBlockNum cfg inp.curDSBlockNum) 1 ≤ inp.curDSBlockNum := by
      refine max_le ?_ (by omega)
      unfold lowDSBlockNum
      split_ifs <;> omega
    have hpos : (meanWindow (lowDSBlockNum cfg inp.curDSBlockNum) inp.curDSBlockNum).length ≠ 0 := by
      rw [hlen]
      omega
    dsimp only
    rw [SafeMath.div_eq_some_iff.2 ⟨hpos, rfl⟩, Option.getD_some]

/-! ## The branches where nothing overflows -/

section Branches

variable (cfg : GasConfig) (inp : GasPricerInputs)

/-- The `uint128_t` difference `P - D` is the difference when the drop ratio is at most `P`. -/
theorem drop_sub_eq {P D : ℕ} (hD : D ≤ P) (hP128 : P < 2 ^ 128) :
    (P + 2 ^ 128 - D) % 2 ^ 128 = P - D := by
  rw [show P + 2 ^ 128 - D = P - D + 2 ^ 128 by omega, Nat.add_mod_right,
    Nat.mod_eq_of_lt (by omega)]

/-- **The decrease**: `⌊m (P - D) / P⌋`, at least the floor. -/
theorem getDecreasedGasPrice_eq {meanVal : ℕ} (hmean : getHistoricalMeanGasPrice cfg inp = meanVal)
    (hP : 0 < cfg.precisionMinValue) (hD : cfg.gasPriceDropRatio ≤ cfg.precisionMinValue)
    (hP128 : cfg.precisionMinValue < 2 ^ 128)
    (hm : meanVal * (cfg.precisionMinValue - cfg.gasPriceDropRatio) < 2 ^ 128) :
    getDecreasedGasPrice cfg inp =
      max cfg.minGasPrice (meanVal * (cfg.precisionMinValue - cfg.gasPriceDropRatio) /
        cfg.precisionMinValue) := by
  have hmul := SafeMath.mul_eq_some_iff.2 ⟨hm, rfl⟩
  have hdiv : SafeMath.div (meanVal * (cfg.precisionMinValue - cfg.gasPriceDropRatio))
      cfg.precisionMinValue = some (meanVal * (cfg.precisionMinValue - cfg.gasPriceDropRatio) /
        cfg.precisionMinValue) :=
    SafeMath.div_eq_some_iff.2 ⟨by omega, rfl⟩
  unfold getDecreasedGasPrice
  dsimp only
  rw [hmean, drop_sub_eq hD hP128, hmul, Option.bind_some, hdiv, Option.getD_some]
  rfl

theorem raiseRatioLower_le : raiseRatioLower cfg ≤ cfg.gasPriceRaiseRatioUpper := by
  unfold raiseRatioLower
  split_ifs <;> omega

/-- Dividing first never gives more: `⌊a / c⌋ b ≤ ⌊a b / c⌋`. -/
theorem div_mul_le_mul_div_of_pos {a b c : ℕ} (hc : 0 < c) : a / c * b ≤ a * b / c := by
  rw [Nat.le_div_iff_mul_le hc]
  calc a / c * b * c = a / c * c * b := by ring
    _ ≤ a * b := Nat.mul_le_mul_right b (Nat.div_mul_le_self a c)

/-- The lower bound, divided first, is at most the upper bound. -/
theorem lowerbound_le_upperbound (meanVal : ℕ) (hP : 0 < cfg.precisionMinValue) :
    (cfg.precisionMinValue + raiseRatioLower cfg) / cfg.precisionMinValue * meanVal ≤
      meanVal * (cfg.precisionMinValue + cfg.gasPriceRaiseRatioUpper) / cfg.precisionMinValue :=
  calc (cfg.precisionMinValue + raiseRatioLower cfg) / cfg.precisionMinValue * meanVal
      ≤ (cfg.precisionMinValue + cfg.gasPriceRaiseRatioUpper) / cfg.precisionMinValue * meanVal :=
        Nat.mul_le_mul_right meanVal
          (Nat.div_le_div_right (Nat.add_le_add_left (raiseRatioLower_le cfg) _))
    _ ≤ (cfg.precisionMinValue + cfg.gasPriceRaiseRatioUpper) * meanVal / cfg.precisionMinValue :=
        div_mul_le_mul_div_of_pos hP
    _ = meanVal * (cfg.precisionMinValue + cfg.gasPriceRaiseRatioUpper) / cfg.precisionMinValue := by
        rw [Nat.mul_comm]

/-- **The bounds of the increase**: where `m (P + U)` fits, the checked upper bound goes through,
    and the lower bound, below it, does not wrap. -/
theorem increaseBounds_eq {meanVal : ℕ} (hP : 0 < cfg.precisionMinValue)
    (hPU : cfg.precisionMinValue + cfg.gasPriceRaiseRatioUpper < 2 ^ 128)
    (hm : meanVal * (cfg.precisionMinValue + cfg.gasPriceRaiseRatioUpper) < 2 ^ 128) :
    increaseBounds cfg meanVal =
      ((cfg.precisionMinValue + raiseRatioLower cfg) / cfg.precisionMinValue * meanVal,
        meanVal * (cfg.precisionMinValue + cfg.gasPriceRaiseRatioUpper) / cfg.precisionMinValue) := by
  have hmul := SafeMath.mul_eq_some_iff.2 ⟨hm, rfl⟩
  have hdiv : SafeMath.div (meanVal * (cfg.precisionMinValue + cfg.gasPriceRaiseRatioUpper))
      cfg.precisionMinValue = some (meanVal * (cfg.precisionMinValue + cfg.gasPriceRaiseRatioUpper) /
        cfg.precisionMinValue) :=
    SafeMath.div_eq_some_iff.2 ⟨by omega, rfl⟩
  have hlow := lowerbound_le_upperbound cfg meanVal hP
  have hup : meanVal * (cfg.precisionMinValue + cfg.gasPriceRaiseRatioUpper) / cfg.precisionMinValue
      < 2 ^ 128 := lt_of_le_of_lt (Nat.div_le_self _ _) hm
  have hL := raiseRatioLower_le cfg
  unfold increaseBounds
  dsimp only
  rw [Nat.mod_eq_of_lt hPU, hmul, Option.bind_some, hdiv,
    Nat.mod_eq_of_lt (show cfg.precisionMinValue + raiseRatioLower cfg < 2 ^ 128 by omega),
    Nat.mod_eq_of_lt (by omega)]

/-- **The increase where `m (P + U)` fits**: the mean when no submission is within the upper
    bound, and otherwise the median clamped between the bounds, at least the floor. -/
theorem getIncreasedGasPrice_eq {meanVal : ℕ} (hmean : getHistoricalMeanGasPrice cfg inp = meanVal)
    (hP : 0 < cfg.precisionMinValue)
    (hPU : cfg.precisionMinValue + cfg.gasPriceRaiseRatioUpper < 2 ^ 128)
    (hm : meanVal * (cfg.precisionMinValue + cfg.gasPriceRaiseRatioUpper) < 2 ^ 128) :
    getIncreasedGasPrice cfg inp =
      if gasProposalsOf inp.dsPoWGasPrices (meanVal *
          (cfg.precisionMinValue + cfg.gasPriceRaiseRatioUpper) / cfg.precisionMinValue) = [] then
        meanVal
      else max (max ((cfg.precisionMinValue + raiseRatioLower cfg) / cfg.precisionMinValue * meanVal)
          (min (medianOf (gasProposalsOf inp.dsPoWGasPrices (meanVal *
            (cfg.precisionMinValue + cfg.gasPriceRaiseRatioUpper) / cfg.precisionMinValue)))
            (meanVal * (cfg.precisionMinValue + cfg.gasPriceRaiseRatioUpper) /
              cfg.precisionMinValue))) cfg.minGasPrice := by
  unfold getIncreasedGasPrice
  dsimp only
  rw [hmean, increaseBounds_eq cfg hP hPU hm]
  dsimp only
  by_cases hempty : gasProposalsOf inp.dsPoWGasPrices (meanVal *
      (cfg.precisionMinValue + cfg.gasPriceRaiseRatioUpper) / cfg.precisionMinValue) = []
  · rw [if_pos hempty, hempty]
    rfl
  · rw [if_neg hempty, if_neg (by simpa only [List.isEmpty_iff] using hempty)]
    rfl

/-- **The increase lies between the bounds**: at least the lower bound `(P + L) / P * m`, and at
    most the upper bound `⌊m (P + U) / P⌋` or the floor, whenever a submission is within the upper
    bound. -/
theorem getIncreasedGasPrice_bounds {meanVal : ℕ} (hmean : getHistoricalMeanGasPrice cfg inp = meanVal)
    (hP : 0 < cfg.precisionMinValue)
    (hPU : cfg.precisionMinValue + cfg.gasPriceRaiseRatioUpper < 2 ^ 128)
    (hm : meanVal * (cfg.precisionMinValue + cfg.gasPriceRaiseRatioUpper) < 2 ^ 128)
    (hprop : gasProposalsOf inp.dsPoWGasPrices (meanVal *
      (cfg.precisionMinValue + cfg.gasPriceRaiseRatioUpper) / cfg.precisionMinValue) ≠ []) :
    (cfg.precisionMinValue + raiseRatioLower cfg) / cfg.precisionMinValue * meanVal ≤
        getIncreasedGasPrice cfg inp ∧
      getIncreasedGasPrice cfg inp ≤ max (meanVal *
        (cfg.precisionMinValue + cfg.gasPriceRaiseRatioUpper) / cfg.precisionMinValue)
        cfg.minGasPrice := by
  have hlow := lowerbound_le_upperbound cfg meanVal hP
  rw [getIncreasedGasPrice_eq cfg inp hmean hP hPU hm, if_neg hprop]
  constructor <;> omega

/-- **`GetNewGasPrice` where `m (P + U)` fits**, branch by branch: the decrease, the increase between
    its bounds when a submission is within the upper bound, and the kept price, each at least the
    floor. -/
theorem getNewGasPrice_spec {meanVal : ℕ} (hmean : getHistoricalMeanGasPrice cfg inp = meanVal)
    (hP : 0 < cfg.precisionMinValue) (hD : cfg.gasPriceDropRatio ≤ cfg.precisionMinValue)
    (hPU : cfg.precisionMinValue + cfg.gasPriceRaiseRatioUpper < 2 ^ 128)
    (hm : meanVal * (cfg.precisionMinValue + cfg.gasPriceRaiseRatioUpper) < 2 ^ 128) :
    (gasPriceBranch cfg inp = .decreased → getNewGasPrice cfg inp =
      max cfg.minGasPrice (meanVal * (cfg.precisionMinValue - cfg.gasPriceDropRatio) /
        cfg.precisionMinValue)) ∧
    (gasPriceBranch cfg inp = .increased →
      gasProposalsOf inp.dsPoWGasPrices (meanVal *
        (cfg.precisionMinValue + cfg.gasPriceRaiseRatioUpper) / cfg.precisionMinValue) ≠ [] →
      (cfg.precisionMinValue + raiseRatioLower cfg) / cfg.precisionMinValue * meanVal ≤
          getNewGasPrice cfg inp ∧
        getNewGasPrice cfg inp ≤ max (meanVal *
          (cfg.precisionMinValue + cfg.gasPriceRaiseRatioUpper) / cfg.precisionMinValue)
          cfg.minGasPrice) ∧
    (gasPriceBranch cfg inp = .kept →
      getNewGasPrice cfg inp = max (inp.dsBlockGasPrice inp.curDSBlockNum) cfg.minGasPrice) := by
  -- `P - D ≤ P + U`, so the decrease's product fits too
  have hdrop : meanVal * (cfg.precisionMinValue - cfg.gasPriceDropRatio) < 2 ^ 128 :=
    lt_of_le_of_lt (Nat.mul_le_mul_left _ (by omega)) hm
  refine ⟨fun hb => ?_, fun hb hprop => ?_, fun hb => ?_⟩
  · unfold getNewGasPrice
    rw [hb]
    exact getDecreasedGasPrice_eq cfg inp hmean hP hD (by omega) hdrop
  · unfold getNewGasPrice
    rw [hb]
    exact getIncreasedGasPrice_bounds cfg inp hmean hP hPU hm hprop
  · unfold getNewGasPrice
    rw [hb]
    rfl

end Branches

/-! ## The order of the submissions -/

/-- The sorted proposals depend only on the multiset of the submitted prices. -/
theorem gasProposalsOf_perm {l l' : List ℕ} (h : l.Perm l') (upperbound : ℕ) :
    gasProposalsOf l upperbound = gasProposalsOf l' upperbound := by
  unfold gasProposalsOf
  have hperm := (List.perm_insertionSort (· ≤ ·) _).trans
    ((h.filter fun gasPrice => decide (gasPrice ≤ upperbound)).trans
      (List.perm_insertionSort (· ≤ ·) _).symm)
  exact hperm.eq_of_sortedLE List.sortedLE_insertionSort List.sortedLE_insertionSort

/-- **The increase does not depend on the order in which `m_allDSPoWs` is walked.** -/
theorem getIncreasedGasPrice_perm (cfg : GasConfig) (inp : GasPricerInputs) {l : List ℕ}
    (h : inp.dsPoWGasPrices.Perm l) :
    getIncreasedGasPrice cfg { inp with dsPoWGasPrices := l } = getIncreasedGasPrice cfg inp := by
  unfold getIncreasedGasPrice
  dsimp only
  rw [gasProposalsOf_perm h.symm]
  rfl

/-! ## The deployed constants -/

/-- **The deployed lower bound is the mean**: `(100 + 5) / 100 = 1`, so the division before the
    multiplication drops the intended raise of `5` in `100`. -/
theorem gasConfig_lowerbound_eq_mean (meanVal : ℕ) :
    (gasConfig.precisionMinValue + raiseRatioLower gasConfig) / gasConfig.precisionMinValue *
      meanVal = meanVal := by
  have hone : (gasConfig.precisionMinValue + raiseRatioLower gasConfig) /
      gasConfig.precisionMinValue = 1 := by decide
  rw [hone, Nat.one_mul]

/-- A congested history under the deployed constants: every DS block priced `10 ^ 10`, one full
    Tx block since the last DS block, and one submission at the mean. -/
def congestedHistory : GasPricerInputs where
  dsBlockGasPrice _ := 10 ^ 10
  curDSBlockNum := 1
  lastDSEpochNum := 0
  txBlockGas _ := (1, 1)
  lastTxBlockNum := 0
  dsPoWGasPrices := [10 ^ 10]

/-- On a congested history with mean `10 ^ 10`, far below the overflow bound, the increase keeps
    the mean, below the raise `⌊m (P + L) / P⌋ = 1.05 * 10 ^ 10` it was meant to guarantee. -/
theorem increasedGasPrice_misses_raise :
    gasPriceBranch gasConfig congestedHistory = .increased ∧
      getHistoricalMeanGasPrice gasConfig congestedHistory = 10 ^ 10 ∧
      10 ^ 10 * (gasConfig.precisionMinValue + gasConfig.gasPriceRaiseRatioUpper) < 2 ^ 128 ∧
      getNewGasPrice gasConfig congestedHistory = 10 ^ 10 ∧
      10 ^ 10 < 10 ^ 10 * (gasConfig.precisionMinValue + raiseRatioLower gasConfig) /
        gasConfig.precisionMinValue := by
  decide

/-- On the congested history the increase lies between the bounds the specification gives. -/
theorem getNewGasPrice_spec_congested :
    (gasConfig.precisionMinValue + raiseRatioLower gasConfig) / gasConfig.precisionMinValue * 10 ^ 10 ≤
        getNewGasPrice gasConfig congestedHistory ∧
      getNewGasPrice gasConfig congestedHistory ≤
        max (10 ^ 10 * (gasConfig.precisionMinValue + gasConfig.gasPriceRaiseRatioUpper) /
          gasConfig.precisionMinValue) gasConfig.minGasPrice := by
  have hmean : getHistoricalMeanGasPrice gasConfig congestedHistory = 10 ^ 10 := by decide
  have hspec := getNewGasPrice_spec gasConfig congestedHistory hmean (by decide) (by decide)
    (by decide) (by decide)
  exact hspec.2.1 (by decide) (by decide)

end Zilliqa
