import Zilliqa.Cps.RunEvm

/-!
# `Cps.Correctness.TrapGas` — the gas a call trap and a create trap charge

A trap asks the executor for a child run with a `target_gas`, where `0` and the `uint64_t` maximum
stand for all the gas left. The gas made available to the child is then the target capped by the
gas left, or the gas left itself for those two values (`availableGas`). A trap should fail with
`INSUFFICIENT_GAS_LIMIT` exactly when that figure is below the fees it charges (`MIN_ETH_GAS` for a
value transfer, and for a create the deployment charge of its init code), and otherwise take the
fees from the tracker.

`HandleCallTrap` computes `availableGas` and does exactly that
(`handleCallTrap_insufficientGas_iff`, `handleCallTrap_ethGas`). `HandleCreateTrap` checks
`min(target_gas, targetGas)` instead (`createInputGas`): a target of `0` makes it `0`, so a create
with a zero target always fails, and a target above the gas left passes the check whatever is
left, the tracker's `DecreaseByEth` then saturating at zero (`handleCreateTrap_insufficientGas_iff`,
`handleCreateTrap_ethGas`).

## Contents
- `availableGas`, `createInputGas`, `callTrapFee`, `createTrapFee`.
- The two handlers' gas checks and charges.
- `createTrap_gas_check_diverges`: a create trap refused with all the gas it needs, and one
  accepted without it.
-/

namespace Zilliqa

namespace CpsRunEvm

/-- The gas a trap makes available to its child: its target capped by the gas left, or the gas left
    for a target of `0` or the `uint64_t` maximum. -/
def availableGas (targetGas ethGas : ℕ) : ℕ := min (targetGasOf targetGas ethGas) ethGas

/-- The figure `HandleCreateTrap` checks: the trap's own `target_gas` capped by `targetGas`. -/
def createInputGas (targetGas ethGas : ℕ) : ℕ := min targetGas (targetGasOf targetGas ethGas)

/-- What a call trap charges: `MIN_ETH_GAS` when a non-static call transfers value. -/
def callTrapFee (c : TrapCall) : ℕ :=
  if !c.isStatic && decide (0 < c.transferValue) then minEthGas else 0

/-- What a create trap charges: `MIN_ETH_GAS` when it transfers value, and the deployment charge of
    its init code. -/
def createTrapFee (c : TrapCreate) : ℕ :=
  (if 0 < c.value then minEthGas else 0) + getGasUnitsForContractDeployment [] c.callData

/-- For the targets that mean "all the gas left" and for targets within the gas left, the create
    trap's figure is `availableGas`. -/
theorem createInputGas_eq_availableGas {targetGas ethGas : ℕ}
    (h : targetGas = uint64Max ∨ (targetGas ≠ 0 ∧ targetGas ≤ ethGas)) (hg : ethGas < 2 ^ 64) :
    createInputGas targetGas ethGas = availableGas targetGas ethGas := by
  unfold createInputGas availableGas targetGasOf uint64Max at *
  rcases h with h | ⟨h0, hle⟩
  · subst h
    simp only [ne_eq, not_true_eq_false, false_and, if_false]
    omega
  · by_cases hmax : targetGas = 2 ^ 64 - 1
    · simp only [hmax, ne_eq, not_true_eq_false, false_and, if_false]
      omega
    · rw [if_pos ⟨hmax, h0⟩]
      omega

variable (env : CpsEnv) (args : EvmArgs) (type : RunType) (r : EvmResult)

/-! ## `HandleCallTrap` -/

section CallTrap

variable (c : TrapCall) (st : CpsState)

/-- **A call trap is refused for gas exactly when `availableGas` is below its fee**, once the static
    test has passed. -/
theorem handleCallTrap_insufficientGas_iff (hst : ¬(args.isStaticCall = true ∧ c.isStatic = false)) :
    (handleCallTrap env args type r c st).1.txnStatus = .insufficientGasLimit ↔
      availableGas c.targetGas st.tracker.getEthGas < callTrapFee c := by
  unfold handleCallTrap availableGas callTrapFee
  simp only [CpsState.tracker_withStore]
  rw [if_neg (by simpa using hst)]
  by_cases hv : (!c.isStatic && decide (0 < c.transferValue)) = true
  · rw [if_pos hv]
    by_cases hlt : min (targetGasOf c.targetGas st.tracker.getEthGas) st.tracker.getEthGas < minEthGas
    · simp [hv, hlt, CpsExecuteResult.fail]
    · simp only [hv, hlt, decide_false, Bool.and_false, Bool.false_eq_true, if_false, if_true,
        iff_false]
      split_ifs <;> simp [CpsExecuteResult.fail, CpsExecuteResult.ok]
  · simp only [hv, Bool.false_and, Bool.false_eq_true, if_false]
    simp [CpsExecuteResult.ok]

/-- **A call trap that passes its gas check takes exactly its fee.** -/
theorem handleCallTrap_ethGas (hst : ¬(args.isStaticCall = true ∧ c.isStatic = false))
    (hfee : callTrapFee c ≤ availableGas c.targetGas st.tracker.getEthGas) :
    (handleCallTrap env args type r c st).2.tracker.getEthGas + callTrapFee c =
      st.tracker.getEthGas := by
  have hle : availableGas c.targetGas st.tracker.getEthGas ≤ st.tracker.getEthGas :=
    min_le_right _ _
  unfold availableGas at hfee hle
  unfold callTrapFee at hfee
  unfold handleCallTrap callTrapFee
  simp only [CpsState.tracker_withStore]
  rw [if_neg (by simpa using hst)]
  by_cases hv : (!c.isStatic && decide (0 < c.transferValue)) = true
  · -- the transfer pays `MIN_ETH_GAS`, which the figure covers
    rw [if_pos hv] at hfee
    have hcharge := GasTracker.getEthGas_decreaseByEth st.tracker minEthGas
    have hpass : ¬min (targetGasOf c.targetGas st.tracker.getEthGas) st.tracker.getEthGas <
        minEthGas := by omega
    simp only [hv, hpass, decide_false, Bool.and_false, Bool.false_eq_true, if_false, if_true]
    split_ifs <;> simp [hcharge] <;> omega
  · simp only [hv, Bool.false_and, Bool.false_eq_true, if_false]
    simp

end CallTrap

/-! ## `HandleCreateTrap` -/

section CreateTrap

variable (c : TrapCreate) (st : CpsState)

/-- **A create trap is refused for gas exactly when `createInputGas` is below its fees**, once the
    static test has passed and the contract's account was added. -/
theorem handleCreateTrap_insufficientGas_iff (hst : args.isStaticCall = false)
    (hadd : (st.store.addAccountAtomic (createAddresses env args c.scheme st.store).1).1 = true) :
    (handleCreateTrap env args type r c st).1.txnStatus = .insufficientGasLimit ↔
      createInputGas c.targetGas st.tracker.getEthGas < createTrapFee c := by
  unfold handleCreateTrap createInputGas createTrapFee
  rcases hca : createAddresses env args c.scheme st.store with ⟨contractAddress, fromAddress⟩
  rw [hca] at hadd
  obtain ⟨s, hs⟩ : ∃ s, st.store.addAccountAtomic contractAddress = (true, s) :=
    ⟨_, Prod.ext hadd rfl⟩
  -- the figure and the deployment charge, named before the case split on the value transfer
  obtain ⟨g, hg⟩ : ∃ g, min c.targetGas (targetGasOf c.targetGas st.tracker.getEthGas) = g :=
    ⟨_, rfl⟩
  obtain ⟨baseFee, hbase⟩ : ∃ b, getGasUnitsForContractDeployment [] c.callData = b := ⟨_, rfl⟩
  simp only [hs, hst, Bool.false_eq_true, if_false, CpsState.tracker_withStore, hg, hbase]
  by_cases hv : 0 < c.value
  · simp only [hv, decide_true, Bool.true_and, if_true]
    by_cases hlt : g < minEthGas
    · simp only [hlt, decide_true, if_true, CpsExecuteResult.fail, true_iff]
      omega
    simp only [hlt, decide_false, Bool.false_eq_true, if_false]
    by_cases hb : baseFee > g - minEthGas
    · rw [if_pos hb]
      simp only [CpsExecuteResult.fail, true_iff]
      omega
    rw [if_neg hb, iff_false_intro (show ¬g < minEthGas + baseFee by omega), iff_false]
    -- the transfer checks that follow fail, if at all, with other statuses
    split_ifs <;> simp [CpsExecuteResult.fail, CpsExecuteResult.ok]
  · simp only [hv, decide_false, Bool.false_and, Bool.false_eq_true, if_false, Nat.zero_add]
    by_cases hb : baseFee > g
    · rw [if_pos hb]
      simp only [CpsExecuteResult.fail, true_iff]
      omega
    rw [if_neg hb, iff_false_intro (show ¬g < baseFee by omega)]
    simp [CpsExecuteResult.ok]

/-- **A create trap that passes its gas checks takes its fees from the tracker, saturating at
    zero**: the tracker's Eth gas afterwards is the gas left less the fees, or `0`. -/
theorem handleCreateTrap_ethGas (hst : args.isStaticCall = false)
    (hadd : (st.store.addAccountAtomic (createAddresses env args c.scheme st.store).1).1 = true)
    (hpass : createTrapFee c ≤ createInputGas c.targetGas st.tracker.getEthGas) :
    (handleCreateTrap env args type r c st).2.tracker.getEthGas =
      st.tracker.getEthGas - createTrapFee c := by
  unfold createInputGas createTrapFee at hpass
  unfold handleCreateTrap createTrapFee
  rcases hca : createAddresses env args c.scheme st.store with ⟨contractAddress, fromAddress⟩
  rw [hca] at hadd
  obtain ⟨s, hs⟩ : ∃ s, st.store.addAccountAtomic contractAddress = (true, s) :=
    ⟨_, Prod.ext hadd rfl⟩
  obtain ⟨g, hg⟩ : ∃ g, min c.targetGas (targetGasOf c.targetGas st.tracker.getEthGas) = g :=
    ⟨_, rfl⟩
  obtain ⟨baseFee, hbase⟩ : ∃ b, getGasUnitsForContractDeployment [] c.callData = b := ⟨_, rfl⟩
  rw [hg, hbase] at hpass
  simp only [hs, hst, Bool.false_eq_true, if_false, CpsState.tracker_withStore, hg, hbase]
  by_cases hv : 0 < c.value
  · rw [if_pos hv] at hpass
    simp only [hv, decide_true, Bool.true_and, if_true, show ¬g < minEthGas by omega, decide_false, Bool.false_eq_true, if_false,
      if_neg (show ¬baseFee > g - minEthGas by omega)]
    -- both charges go through `DecreaseByEth`
    have hcharge : ((st.tracker.decreaseByEth minEthGas).decreaseByEth baseFee).getEthGas =
        st.tracker.getEthGas - (minEthGas + baseFee) := by
      rw [GasTracker.getEthGas_decreaseByEth, GasTracker.getEthGas_decreaseByEth, Nat.sub_sub]
    split_ifs <;> simp [hcharge]
  · rw [if_neg hv, Nat.zero_add] at hpass
    simp only [hv, decide_false, Bool.false_and, Bool.false_eq_true, if_false, Nat.zero_add,
      if_neg (show ¬baseFee > g by omega)]
    simp [GasTracker.getEthGas_decreaseByEth]

end CreateTrap

end CpsRunEvm

/-! ## Create traps the figure misjudges -/

/-- A run of the contract at `0x..01`, neither static nor an estimate. -/
def trapProbeArgs : EvmArgs := ⟨⟨1⟩, ⟨1⟩, ⟨1⟩, [], [], 0, 0, false, "", false, none⟩

/-- The executor's context of that run. -/
def trapProbeEnv : CpsEnv :=
  ⟨CpsOracles.idle, ⟨1⟩, false, false, ⟨⟨1⟩, ⟨1⟩, [], [], 0, 0, 0, 0, .error⟩⟩

/-- The run's state with `ethGas` gas left, its contract's account empty, nothing queued. -/
def trapProbeState (ethGas : ℕ) : CpsState :=
  ⟨AccountStoreSC.ofAccounts [(⟨1⟩, Account.new 0 0)], GasTracker.createFromEth ethGas,
    TransactionReceipt.empty, []⟩

/-- A create at `0x..05` with no value and no init code, whose target is `0`. -/
def zeroTargetCreate : TrapCreate := ⟨.fixed ⟨5⟩, 0, [], 0⟩

/-- The same create with a target of `100000`. -/
def farTargetCreate : TrapCreate := ⟨.fixed ⟨5⟩, 0, [], 100000⟩

theorem createTrap_gas_check_diverges :
    CpsRunEvm.createTrapFee zeroTargetCreate ≤
      CpsRunEvm.availableGas zeroTargetCreate.targetGas 1000000 ∧
    (CpsRunEvm.handleCreateTrap trapProbeEnv trapProbeArgs .call EvmResult.empty zeroTargetCreate
      (trapProbeState 1000000)).1.txnStatus = .insufficientGasLimit ∧
    CpsRunEvm.availableGas farTargetCreate.targetGas 1000 < CpsRunEvm.createTrapFee farTargetCreate ∧
    (CpsRunEvm.handleCreateTrap trapProbeEnv trapProbeArgs .call EvmResult.empty farTargetCreate
      (trapProbeState 1000)).1.isSuccess = true ∧
    (CpsRunEvm.handleCreateTrap trapProbeEnv trapProbeArgs .call EvmResult.empty farTargetCreate
      (trapProbeState 1000)).2.tracker.getEthGas = 0 := by
  refine ⟨by decide, by decide, by decide, by decide, by decide⟩

end Zilliqa
