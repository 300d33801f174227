import Zilliqa.Utils.SafeMath
import Mathlib.Tactic.Linarith

/-!
# `Cps.Gas` — amounts, gas units and the shared gas tracker of the CPS executor

Balances are kept in Qa (`uint128`), EVM values in Wei (`uint256`), and a `libCps::Amount` holds
Wei: `fromQa` multiplies by `EVM_ZIL_SCALING_FACTOR`, `toQa` divides and narrows to `uint128`.
Gas comes in core units (Zilliqa) and Eth units, `GasConv::GetScalingFactor()` Eth units to a
core unit. The `GasTracker` of `CpsContext.h` holds the remaining gas as whole core units plus an
Eth remainder, and every run of one transaction charges the same tracker.

Machine words are `ℕ` with the wrap-around the C++ performs written out (`% 2 ^ 64`); the
configuration values are those of `constants.xml`.

## Contents
- The gas constants, `Amount`, and `GasConv`.
- `GasTracker` with its operations, and their specifications on the exact Eth amount
  `core * s + remainder`: every operation but the increases can only lower it
  (`exactEth_decreaseByEth`, `gasCore_decreaseByCore`, ...).
- `GasOp`, the calls a run makes on the tracker, with `intendedEth`, the Eth amount a call is meant
  to leave, and `Moves`, how it moves `GetEthGas` and `GetCoreGas`; the step lemmas
  `GasOp.exactEth_apply`, `GasOp.moves_apply` and the run lemma `GasTracker.along_of_fitsRun`.
-/

namespace Zilliqa

/-! ## Configuration (`constants.xml`) -/

/-- `MIN_ETH_GAS`: the Eth gas of a plain transfer. -/
def minEthGas : ℕ := 21000
/-- `NORMAL_TRAN_GAS`: the core gas of a plain transfer. -/
def normalTranGas : ℕ := 50
/-- `CONTRACT_CREATE_GAS`. -/
def contractCreateGas : ℕ := 50
/-- `CONTRACT_INVOKE_GAS`: charged per message a Scilla contract sends. -/
def contractInvokeGas : ℕ := 10
/-- `SCILLA_CHECKER_INVOKE_GAS`. -/
def scillaCheckerInvokeGas : ℕ := 100
/-- `SCILLA_RUNNER_INVOKE_GAS`. -/
def scillaRunnerInvokeGas : ℕ := 300
/-- `EVM_ZIL_SCALING_FACTOR`: Wei per Qa. -/
def evmZilScalingFactor : ℕ := 1000000
/-- `MAX_CONTRACT_EDGES`. -/
def maxContractEdges : ℕ := 20
/-- `DISABLE_SCILLA_LIB`. -/
def disableScillaLib : Bool := false

/-! ## `libCps::Amount` -/

/-- A `libCps::Amount`: a `uint256` number of Wei. -/
structure Amount where
  wei : ℕ
deriving DecidableEq, Repr

namespace Amount

/-- The default-constructed amount. -/
def zero : Amount := ⟨0⟩

/-- `Amount::fromWei`. -/
def fromWei (wei : ℕ) : Amount := ⟨wei⟩

/-- `Amount::fromQa`: the `uint256` product with `EVM_ZIL_SCALING_FACTOR`. -/
def fromQa (qa : ℕ) : Amount := ⟨qa * evmZilScalingFactor % 2 ^ 256⟩

/-- `Amount::toWei`. -/
def toWei (a : Amount) : ℕ := a.wei

/-- `Amount::toQa`: the quotient by `EVM_ZIL_SCALING_FACTOR`, narrowed to `uint128`. -/
def toQa (a : Amount) : ℕ := a.wei / evmZilScalingFactor % 2 ^ 128

/-- `Amount::operator<=` compares in Qa. -/
def le (a b : Amount) : Bool := decide (a.toQa ≤ b.toQa)

/-- `Amount::operator>`. -/
def gt (a b : Amount) : Bool := !a.le b

/-- A `uint128` number of Qa survives the round trip through Wei. -/
@[simp] theorem toQa_fromQa {qa : ℕ} (h : qa < 2 ^ 128) : (fromQa qa).toQa = qa := by
  have hfit : qa * evmZilScalingFactor < 2 ^ 256 := by
    unfold evmZilScalingFactor
    have : (2 : ℕ) ^ 128 * 1000000 < 2 ^ 256 := by norm_num
    nlinarith
  unfold fromQa toQa
  rw [Nat.mod_eq_of_lt hfit, Nat.mul_div_cancel _ (by decide), Nat.mod_eq_of_lt h]

@[simp] theorem toQa_zero : zero.toQa = 0 := rfl

theorem gt_iff (a b : Amount) : a.gt b = true ↔ b.toQa < a.toQa := by
  simp [gt, le]

end Amount

/-! ## `GasConv` -/

/-- `GasConv::GetScalingFactor()`: Eth gas units per core unit. -/
def getScalingFactor : ℕ := minEthGas / normalTranGas

theorem getScalingFactor_eq : getScalingFactor = 420 := by decide

theorem getScalingFactor_pos : 0 < getScalingFactor := by decide

/-- `GasConv::GasUnitsFromEthToCore`. -/
def gasUnitsFromEthToCore (gas : ℕ) : ℕ := gas / getScalingFactor

/-- `GasConv::GasUnitsFromCoreToEth`, a `uint64` product. -/
def gasUnitsFromCoreToEth (gas : ℕ) : ℕ := gas * getScalingFactor % 2 ^ 64

/-- `uint64` subtraction, for operands below `2 ^ 64`. -/
def sub64 (a b : ℕ) : ℕ := (a + (2 ^ 64 - b % 2 ^ 64)) % 2 ^ 64

theorem sub64_lt (a b : ℕ) : sub64 a b < 2 ^ 64 := Nat.mod_lt _ (by norm_num)

theorem sub64_of_le {a b : ℕ} (ha : a < 2 ^ 64) (h : b ≤ a) : sub64 a b = a - b := by
  have hb : b % 2 ^ 64 = b := Nat.mod_eq_of_lt (by omega)
  unfold sub64
  rw [hb, show a + (2 ^ 64 - b) = (a - b) + 2 ^ 64 by omega, Nat.add_mod_right,
    Nat.mod_eq_of_lt (by omega)]

/-! ## `libCps::GasTracker` -/

/-- The gas left to a transaction: whole core units and an Eth remainder (both `uint64`). -/
structure GasTracker where
  gasCore : ℕ
  ethRemainder : ℕ
deriving DecidableEq, Repr

namespace GasTracker

/-- `GasTracker::CreateFromEth`. -/
def createFromEth (ethGas : ℕ) : GasTracker :=
  ⟨gasUnitsFromEthToCore ethGas, ethGas % getScalingFactor⟩

/-- `GasTracker::CreateFromCore`. -/
def createFromCore (coreGas : ℕ) : GasTracker := ⟨coreGas, 0⟩

/-- `GasTracker::DecreaseByCore`: saturates at zero. -/
def decreaseByCore (t : GasTracker) (coreVal : ℕ) : GasTracker :=
  { t with gasCore := if t.gasCore > coreVal then t.gasCore - coreVal else 0 }

/-- `GasTracker::DecreaseByEth`: recombine into Eth units (in `uint64`), subtract saturating, and
    split again. -/
def decreaseByEth (t : GasTracker) (ethVal : ℕ) : GasTracker :=
  let absolute := (gasUnitsFromCoreToEth t.gasCore + t.ethRemainder) % 2 ^ 64
  let absolute := if absolute > ethVal then absolute - ethVal else 0
  ⟨gasUnitsFromEthToCore absolute, absolute % getScalingFactor⟩

/-- `GasTracker::IncreaseByCore`. -/
def increaseByCore (t : GasTracker) (coreVal : ℕ) : GasTracker :=
  { t with gasCore := (t.gasCore + coreVal) % 2 ^ 64 }

/-- `GasTracker::SetGasCore`. -/
def setGasCore (t : GasTracker) (coreVal : ℕ) : GasTracker := { t with gasCore := coreVal }

/-- `GasTracker::IncreaseByEth`. -/
def increaseByEth (t : GasTracker) (ethVal : ℕ) : GasTracker :=
  let absolute := (gasUnitsFromCoreToEth t.gasCore + t.ethRemainder) % 2 ^ 64
  let absolute := (absolute + ethVal) % 2 ^ 64
  ⟨gasUnitsFromEthToCore absolute, absolute % getScalingFactor⟩

/-- `GasTracker::GetEthGas`. -/
def getEthGas (t : GasTracker) : ℕ := (gasUnitsFromCoreToEth t.gasCore + t.ethRemainder) % 2 ^ 64

/-- `GasTracker::GetCoreGas`. -/
def getCoreGas (t : GasTracker) : ℕ := t.gasCore

/-- The remaining gas in Eth units, computed without wrap-around. -/
def exactEth (t : GasTracker) : ℕ := t.gasCore * getScalingFactor + t.ethRemainder

/-- The tracker's representation invariant: the remainder is below one core unit. -/
def WF (t : GasTracker) : Prop := t.ethRemainder < getScalingFactor

theorem wf_createFromEth (g : ℕ) : (createFromEth g).WF :=
  Nat.mod_lt _ getScalingFactor_pos

theorem wf_createFromCore (c : ℕ) : (createFromCore c).WF := getScalingFactor_pos

theorem exactEth_createFromEth (g : ℕ) : (createFromEth g).exactEth = g := by
  simp only [exactEth, createFromEth, gasUnitsFromEthToCore]
  exact Nat.div_add_mod' g getScalingFactor

theorem exactEth_createFromCore (c : ℕ) : (createFromCore c).exactEth = c * getScalingFactor := by
  simp [exactEth, createFromCore]

@[simp] theorem gasCore_decreaseByCore (t : GasTracker) (v : ℕ) :
    (t.decreaseByCore v).gasCore = t.gasCore - v := by
  unfold decreaseByCore
  split
  · simp only
  · simp only
    omega

@[simp] theorem ethRemainder_decreaseByCore (t : GasTracker) (v : ℕ) :
    (t.decreaseByCore v).ethRemainder = t.ethRemainder := rfl

@[simp] theorem gasCore_setGasCore (t : GasTracker) (v : ℕ) : (t.setGasCore v).gasCore = v := rfl

@[simp] theorem ethRemainder_setGasCore (t : GasTracker) (v : ℕ) :
    (t.setGasCore v).ethRemainder = t.ethRemainder := rfl

theorem wf_decreaseByCore {t : GasTracker} (h : t.WF) (v : ℕ) : (t.decreaseByCore v).WF := h

theorem wf_setGasCore {t : GasTracker} (h : t.WF) (v : ℕ) : (t.setGasCore v).WF := h

/-- Without wrap-around, `GetEthGas` is the exact Eth amount. -/
theorem getEthGas_eq {t : GasTracker} (h : t.exactEth < 2 ^ 64) : t.getEthGas = t.exactEth := by
  have hmul : t.gasCore * getScalingFactor < 2 ^ 64 := by unfold exactEth at h; omega
  unfold getEthGas gasUnitsFromCoreToEth
  rw [Nat.mod_eq_of_lt hmul]
  exact Nat.mod_eq_of_lt h

theorem exactEth_split (a : ℕ) :
    a / getScalingFactor * getScalingFactor + a % getScalingFactor = a :=
  Nat.div_add_mod' a getScalingFactor

theorem wf_decreaseByEth (t : GasTracker) (v : ℕ) : (t.decreaseByEth v).WF :=
  Nat.mod_lt _ getScalingFactor_pos

/-- **`DecreaseByEth` subtracts in Eth units**, saturating at zero, as long as the tracker's
    Eth amount fits a `uint64`. -/
theorem exactEth_decreaseByEth {t : GasTracker} (h : t.exactEth < 2 ^ 64) (v : ℕ) :
    (t.decreaseByEth v).exactEth = t.exactEth - v := by
  have habs : (gasUnitsFromCoreToEth t.gasCore + t.ethRemainder) % 2 ^ 64 = t.exactEth :=
    getEthGas_eq h
  simp only [decreaseByEth, habs, exactEth, gasUnitsFromEthToCore]
  split
  · exact exactEth_split _
  · simp only [Nat.zero_div, Nat.zero_mul, Nat.zero_mod, Nat.add_zero]
    unfold exactEth at *
    omega

/-- `GetEthGas` wraps, so it never exceeds the exact amount. -/
theorem getEthGas_le_exactEth (t : GasTracker) : t.getEthGas ≤ t.exactEth := by
  unfold getEthGas gasUnitsFromCoreToEth exactEth
  calc (t.gasCore * getScalingFactor % 2 ^ 64 + t.ethRemainder) % 2 ^ 64
      ≤ t.gasCore * getScalingFactor % 2 ^ 64 + t.ethRemainder := Nat.mod_le _ _
    _ ≤ t.gasCore * getScalingFactor + t.ethRemainder := by
        have := Nat.mod_le (t.gasCore * getScalingFactor) (2 ^ 64)
        omega

theorem getEthGas_lt (t : GasTracker) : t.getEthGas < 2 ^ 64 := Nat.mod_lt _ (by norm_num)

/-- **`DecreaseByEth` subtracts from `GetEthGas`**, saturating at zero: the tracker afterwards
    holds exactly the difference. -/
theorem exactEth_decreaseByEth_eq (t : GasTracker) (v : ℕ) :
    (t.decreaseByEth v).exactEth = t.getEthGas - v := by
  simp only [decreaseByEth, exactEth, gasUnitsFromEthToCore]
  split
  · exact exactEth_split _
  · simp only [Nat.zero_div, Nat.zero_mul, Nat.zero_mod, Nat.add_zero]
    unfold getEthGas
    omega

/-- The same read back through `GetEthGas`. -/
theorem getEthGas_decreaseByEth (t : GasTracker) (v : ℕ) :
    (t.decreaseByEth v).getEthGas = t.getEthGas - v := by
  have hlt : (t.decreaseByEth v).exactEth < 2 ^ 64 := by
    rw [exactEth_decreaseByEth_eq]
    exact lt_of_le_of_lt (Nat.sub_le _ _) (getEthGas_lt t)
  rw [getEthGas_eq hlt, exactEth_decreaseByEth_eq]

theorem exactEth_decreaseByEth_le (t : GasTracker) (v : ℕ) :
    (t.decreaseByEth v).exactEth ≤ t.exactEth := by
  rw [exactEth_decreaseByEth_eq]
  exact (Nat.sub_le _ _).trans (getEthGas_le_exactEth t)

/-- Charging the gas an EVM call used, as `uint64` difference of the gas it was given and the gas
    it reports left, leaves at most the reported remainder. -/
theorem exactEth_decreaseByEth_sub64_le (t : GasTracker) (remaining : ℕ) :
    (t.decreaseByEth (sub64 t.getEthGas remaining)).exactEth ≤ remaining := by
  rw [exactEth_decreaseByEth_eq]
  have hg := getEthGas_lt t
  have hm : remaining % 2 ^ 64 ≤ remaining := Nat.mod_le _ _
  have hm' : remaining % 2 ^ 64 < 2 ^ 64 := Nat.mod_lt _ (by norm_num)
  unfold sub64
  rcases Nat.lt_or_ge t.getEthGas (remaining % 2 ^ 64) with hlt | hge
  · -- the difference wraps to a value at least the gas given: nothing is left
    rw [Nat.mod_eq_of_lt (by omega)]
    omega
  · rw [show t.getEthGas + (2 ^ 64 - remaining % 2 ^ 64)
        = (t.getEthGas - remaining % 2 ^ 64) + 2 ^ 64 by omega, Nat.add_mod_right,
      Nat.mod_eq_of_lt (by omega)]
    omega

theorem exactEth_decreaseByCore (t : GasTracker) (v : ℕ) :
    (t.decreaseByCore v).exactEth = (t.gasCore - v) * getScalingFactor + t.ethRemainder := by
  simp [exactEth]

theorem exactEth_decreaseByCore_le (t : GasTracker) (v : ℕ) :
    (t.decreaseByCore v).exactEth ≤ t.exactEth := by
  rw [exactEth_decreaseByCore]
  unfold exactEth
  have := Nat.mul_le_mul_right getScalingFactor (Nat.sub_le t.gasCore v)
  omega

/-- With enough core gas, `DecreaseByCore` takes exactly its amount, in Eth units. -/
theorem exactEth_decreaseByCore_add {t : GasTracker} {v : ℕ} (h : v ≤ t.gasCore) :
    (t.decreaseByCore v).exactEth + v * getScalingFactor = t.exactEth := by
  rw [exactEth_decreaseByCore]
  unfold exactEth
  rw [Nat.sub_mul]
  have := Nat.mul_le_mul_right getScalingFactor h
  omega

theorem exactEth_setGasCore_le {t : GasTracker} {v : ℕ} (h : v ≤ t.gasCore) :
    (t.setGasCore v).exactEth ≤ t.exactEth := by
  simp only [exactEth, gasCore_setGasCore, ethRemainder_setGasCore]
  have := Nat.mul_le_mul_right getScalingFactor h
  omega

/-- Without wrap-around, `GetEthGas` keeps its remainder modulo the scaling factor when
    `DecreaseByCore` takes core units away. -/
theorem getEthGas_decreaseByCore_mod {t : GasTracker} (h : t.exactEth < 2 ^ 64) (v : ℕ) :
    (t.decreaseByCore v).getEthGas % getScalingFactor = t.getEthGas % getScalingFactor := by
  have h' : (t.decreaseByCore v).exactEth < 2 ^ 64 :=
    lt_of_le_of_lt (exactEth_decreaseByCore_le t v) h
  rw [getEthGas_eq h', getEthGas_eq h]
  unfold exactEth
  rw [ethRemainder_decreaseByCore, Nat.add_comm, Nat.add_mul_mod_self_right, Nat.add_comm,
    Nat.add_mul_mod_self_right]

@[simp] theorem gasCore_increaseByCore (t : GasTracker) (v : ℕ) :
    (t.increaseByCore v).gasCore = (t.gasCore + v) % 2 ^ 64 := rfl

@[simp] theorem ethRemainder_increaseByCore (t : GasTracker) (v : ℕ) :
    (t.increaseByCore v).ethRemainder = t.ethRemainder := rfl

theorem wf_increaseByCore {t : GasTracker} (h : t.WF) (v : ℕ) : (t.increaseByCore v).WF := h

theorem wf_increaseByEth (t : GasTracker) (v : ℕ) : (t.increaseByEth v).WF :=
  Nat.mod_lt _ getScalingFactor_pos

/-- **`IncreaseByEth` adds in Eth units**, in `uint64`: the tracker afterwards holds the wrapped
    sum of `GetEthGas` and the amount. -/
theorem exactEth_increaseByEth (t : GasTracker) (v : ℕ) :
    (t.increaseByEth v).exactEth = (t.getEthGas + v) % 2 ^ 64 := by
  simp only [increaseByEth, exactEth, gasUnitsFromEthToCore]
  exact exactEth_split _

/-- The same read back through `GetEthGas`. -/
theorem getEthGas_increaseByEth (t : GasTracker) (v : ℕ) :
    (t.increaseByEth v).getEthGas = (t.getEthGas + v) % 2 ^ 64 := by
  have hlt : (t.increaseByEth v).exactEth < 2 ^ 64 := by
    rw [exactEth_increaseByEth]
    exact Nat.mod_lt _ (by norm_num)
  rw [getEthGas_eq hlt, exactEth_increaseByEth]

/-- Core units whose Eth amount fits a `uint64` fit one themselves. -/
theorem lt_of_mul_scaling_add_lt {n r : ℕ} (h : n * getScalingFactor + r < 2 ^ 64) :
    n < 2 ^ 64 := by
  have := Nat.le_mul_of_pos_right n getScalingFactor_pos
  omega

/-- Without wrap-around, `IncreaseByCore` adds whole core units to the exact amount. -/
theorem exactEth_increaseByCore {t : GasTracker} {v : ℕ}
    (h : (t.gasCore + v) * getScalingFactor + t.ethRemainder < 2 ^ 64) :
    (t.increaseByCore v).exactEth = (t.gasCore + v) * getScalingFactor + t.ethRemainder := by
  simp only [exactEth, gasCore_increaseByCore, ethRemainder_increaseByCore,
    Nat.mod_eq_of_lt (lt_of_mul_scaling_add_lt h)]

end GasTracker

/-! ## Runs of the tracker

Every run of one transaction calls the five operations below on the same tracker, in any order.
`GasOp.intendedEth` is what a call is meant to leave, in Eth units and without wrap-around. While
that amount fits a `uint64` at every call (`GasTracker.FitsRun`), each call computes it exactly
(`GasOp.exactEth_apply`), the remainder stays below one core unit (`GasOp.wf_apply`), and
`GetEthGas` and `GetCoreGas` move as the call says (`GasOp.Moves`). -/

/-- A call a run makes on the tracker, with its argument. -/
inductive GasOp where
  | decreaseByEth (v : ℕ)
  | increaseByEth (v : ℕ)
  | decreaseByCore (v : ℕ)
  | increaseByCore (v : ℕ)
  | setGasCore (v : ℕ)
deriving DecidableEq, Repr

namespace GasOp

/-- The call itself. -/
def apply (t : GasTracker) : GasOp → GasTracker
  | decreaseByEth v => t.decreaseByEth v
  | increaseByEth v => t.increaseByEth v
  | decreaseByCore v => t.decreaseByCore v
  | increaseByCore v => t.increaseByCore v
  | setGasCore v => t.setGasCore v

/-- The Eth gas a call is meant to leave: the Eth calls subtract, saturating, or add in Eth units;
    the core calls change the whole core units and keep the remainder. -/
def intendedEth (t : GasTracker) : GasOp → ℕ
  | decreaseByEth v => t.exactEth - v
  | increaseByEth v => t.exactEth + v
  | decreaseByCore v => (t.gasCore - v) * getScalingFactor + t.ethRemainder
  | increaseByCore v => (t.gasCore + v) * getScalingFactor + t.ethRemainder
  | setGasCore v => v * getScalingFactor + t.ethRemainder

/-- How the two views of the tracker move across a call, from `t` to `t'`. -/
def Moves (t : GasTracker) : GasOp → GasTracker → Prop
  | decreaseByEth v, t' => t'.getEthGas = t.getEthGas - v
  | increaseByEth v, t' => t'.getEthGas = t.getEthGas + v
  | decreaseByCore v, t' => t'.getCoreGas = t.getCoreGas - v ∧
      t'.getEthGas % getScalingFactor = t.getEthGas % getScalingFactor
  | increaseByCore v, t' => t'.getCoreGas = t.getCoreGas + v
  | setGasCore v, t' => t'.getCoreGas = v

/-- Every call keeps the remainder below one core unit. -/
theorem wf_apply {t : GasTracker} (h : t.WF) (op : GasOp) : (op.apply t).WF := by
  cases op with
  | decreaseByEth v => exact GasTracker.wf_decreaseByEth t v
  | increaseByEth v => exact GasTracker.wf_increaseByEth t v
  | decreaseByCore v => exact GasTracker.wf_decreaseByCore h v
  | increaseByCore v => exact GasTracker.wf_increaseByCore h v
  | setGasCore v => exact GasTracker.wf_setGasCore h v

/-- **A call that fits computes its intended amount exactly.** -/
theorem exactEth_apply {t : GasTracker} (h : t.exactEth < 2 ^ 64) {op : GasOp}
    (hfit : op.intendedEth t < 2 ^ 64) : (op.apply t).exactEth = op.intendedEth t := by
  cases op with
  | decreaseByEth v => exact GasTracker.exactEth_decreaseByEth h v
  | increaseByEth v =>
    -- the sum fits, so the `uint64` addition does not wrap
    show (t.increaseByEth v).exactEth = t.exactEth + v
    rw [GasTracker.exactEth_increaseByEth, GasTracker.getEthGas_eq h]
    exact Nat.mod_eq_of_lt hfit
  | decreaseByCore v => exact GasTracker.exactEth_decreaseByCore t v
  | increaseByCore v => exact GasTracker.exactEth_increaseByCore hfit
  | setGasCore v => rfl

/-- **What one call does to the two views**, when it fits. -/
theorem moves_apply {t : GasTracker} (h : t.exactEth < 2 ^ 64) {op : GasOp}
    (hfit : op.intendedEth t < 2 ^ 64) : op.Moves t (op.apply t) := by
  cases op with
  | decreaseByEth v => exact GasTracker.getEthGas_decreaseByEth t v
  | increaseByEth v =>
    show (t.increaseByEth v).getEthGas = t.getEthGas + v
    rw [GasTracker.getEthGas_increaseByEth, GasTracker.getEthGas_eq h]
    exact Nat.mod_eq_of_lt hfit
  | decreaseByCore v =>
    exact ⟨GasTracker.gasCore_decreaseByCore t v, GasTracker.getEthGas_decreaseByCore_mod h v⟩
  | increaseByCore v =>
    -- the new core units fit, as their Eth amount does
    exact Nat.mod_eq_of_lt (GasTracker.lt_of_mul_scaling_add_lt hfit)
  | setGasCore v => rfl

end GasOp

namespace GasTracker

/-- A run during which the Eth gas never leaves `uint64`: every call's intended amount fits.
    `GetEthGas` itself is computed in `uint64` and is always below `2 ^ 64`; the condition is on
    the amount it stands for, computed without wrap-around. -/
def FitsRun : GasTracker → List GasOp → Prop
  | _, [] => True
  | t, op :: ops => op.intendedEth t < 2 ^ 64 ∧ FitsRun (op.apply t) ops

instance decidableFitsRun : ∀ (t : GasTracker) (ops : List GasOp), Decidable (FitsRun t ops)
  | _, [] => isTrue trivial
  | t, op :: ops =>
    haveI := decidableFitsRun (op.apply t) ops
    inferInstanceAs (Decidable (op.intendedEth t < 2 ^ 64 ∧ FitsRun (op.apply t) ops))

/-- Every call of a run, with the tracker before and after it, satisfies `P`. -/
def Along (P : GasTracker → GasOp → GasTracker → Prop) : GasTracker → List GasOp → Prop
  | _, [] => True
  | t, op :: ops => P t op (op.apply t) ∧ Along P (op.apply t) ops

/-- **The run lemma**: from a well-formed tracker whose Eth amount fits, along a run that fits,
    every call leaves a well-formed tracker and moves the two views as it says. The induction is
    on the calls; the amount fitting before each call is carried by `exactEth_apply`. -/
theorem along_of_fitsRun :
    ∀ (ops : List GasOp) (t : GasTracker), t.WF → t.exactEth < 2 ^ 64 → FitsRun t ops →
      Along (fun t op t' => t'.WF ∧ op.Moves t t') t ops := by
  intro ops
  induction ops with
  | nil => exact fun _ _ _ _ => trivial
  | cons op ops ih =>
    intro t hwf hlt hfits
    obtain ⟨hfit, hrest⟩ := hfits
    have hlt' : (op.apply t).exactEth < 2 ^ 64 := by
      rw [GasOp.exactEth_apply hlt hfit]
      exact hfit
    exact ⟨⟨GasOp.wf_apply hwf op, GasOp.moves_apply hlt hfit⟩,
      ih (op.apply t) (GasOp.wf_apply hwf op) hlt' hrest⟩

/-- **The tracker's two views stay consistent**: from a tracker created from Eth or core gas,
    along any run of calls during which the Eth gas stays below `2 ^ 64`, the remainder stays
    below the scaling factor; `DecreaseByEth` and `IncreaseByEth` subtract (saturating) and add in
    `GetEthGas`; `DecreaseByCore` subtracts (saturating) in `GetCoreGas` and keeps `GetEthGas`
    modulo the scaling factor. `CreateFromEth` splits its amount into the quotient and the
    remainder. -/
theorem gasTracker_views_consistent (t₀ : GasTracker) (ops : List GasOp)
    (hinit : (∃ g < 2 ^ 64, t₀ = createFromEth g) ∨
      ∃ c, c * getScalingFactor < 2 ^ 64 ∧ t₀ = createFromCore c)
    (hfits : FitsRun t₀ ops) :
    0 < getScalingFactor ∧ t₀.ethRemainder < getScalingFactor ∧
      Along (fun t op t' => t'.ethRemainder < getScalingFactor ∧ op.Moves t t') t₀ ops ∧
      ∀ g < 2 ^ 64, (createFromEth g).getEthGas = g ∧
        (createFromEth g).getCoreGas = g / getScalingFactor := by
  -- both creations give a well-formed tracker whose Eth amount fits
  have hstart : t₀.WF ∧ t₀.exactEth < 2 ^ 64 := by
    rcases hinit with ⟨g, hg, rfl⟩ | ⟨c, hc, rfl⟩
    · exact ⟨wf_createFromEth g, (exactEth_createFromEth g).symm ▸ hg⟩
    · exact ⟨wf_createFromCore c, (exactEth_createFromCore c).symm ▸ hc⟩
  refine ⟨getScalingFactor_pos, hstart.1, along_of_fitsRun ops t₀ hstart.1 hstart.2 hfits, ?_⟩
  intro g hg
  have hfit : (createFromEth g).exactEth < 2 ^ 64 := (exactEth_createFromEth g).symm ▸ hg
  exact ⟨(getEthGas_eq hfit).trans (exactEth_createFromEth g), rfl⟩

/-- One call of each kind, on the gas of a plain transfer. -/
def transferGasRun : List GasOp :=
  [.decreaseByEth 1000, .increaseByEth 500, .decreaseByCore 10, .increaseByCore 3, .setGasCore 40]

theorem gasTracker_views_consistent_transfer :
    FitsRun (createFromEth minEthGas) transferGasRun ∧
      0 < getScalingFactor ∧ (createFromEth minEthGas).ethRemainder < getScalingFactor ∧
      Along (fun t op t' => t'.ethRemainder < getScalingFactor ∧ op.Moves t t')
        (createFromEth minEthGas) transferGasRun ∧
      ∀ g < 2 ^ 64, (createFromEth g).getEthGas = g ∧
        (createFromEth g).getCoreGas = g / getScalingFactor := by
  have hfits : FitsRun (createFromEth minEthGas) transferGasRun := by decide
  exact ⟨hfits, gasTracker_views_consistent _ _ (.inl ⟨minEthGas, by decide, rfl⟩) hfits⟩

end GasTracker

end Zilliqa
