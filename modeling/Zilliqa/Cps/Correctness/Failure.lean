import Zilliqa.Cps.Invariants

/-!
# `Cps.Correctness.Failure` — what a failed transaction leaves behind

A transaction that fails leaves nothing of its runs: the executor reverts the contract storage and
discards the atomic layer, and the runs never wrote anywhere else (`processLoop_frame`). What stays
is what the executor does afterwards on the parent store: the sender's nonce is bumped, and the
used gas is charged, by a `DecreaseBalance` that silently does nothing when the balance does not
cover it, and not at all when the fee overflows its integer type. `FailedTransaction` states this
as a property of the two stores; `runFromScilla_failed` and `runFromEvm_failed` prove it for every
failing path of the two entry points, for every behaviour of the interpreters.

An estimate or a direct call (`eth_call`) of `RunFromEvm` discards everything and bumps no nonce
(`runFromEvm_readOnly`), except on the path where the pre-validation fails: that path bumps the
sender's nonce whatever the mode.

## Contents
- `Account.chargeFailure`, `FailedTransaction`: the specification.
- `AccountStoreSC.Unchanged` and the operations that keep it; the parent-layer lemmas
  `find_increaseNonceForAccount`, `find_decreaseBalance`; `failed_nonce`, `failed_charge`.
- `finishScilla_failure`, `finishScilla_failed`, `finishEvm_failed`, `finishEvm_readOnly`.
- `runFromScilla_failed`, `runFromEvm_failed`, `runFromEvm_readOnly`.
-/

namespace Zilliqa

/-! ## The specification -/

/-- The sender's account after a failed transaction: the nonce bumped in `uint64_t`, and the fee,
    when there is one, taken from the balance if the balance covers it. -/
def Account.chargeFailure (fee : Option ℕ) (acc : Account) : Account :=
  { acc with
    nonce := (acc.nonce + 1) % 2 ^ 64
    balance := match fee with
      | some f => if f ≤ acc.balance then acc.balance - f else acc.balance
      | none => acc.balance }

/-- No fee and a fee of zero charge the same. -/
@[simp] theorem Account.chargeFailure_zero :
    Account.chargeFailure (some 0) = Account.chargeFailure none := by
  funext acc
  simp [Account.chargeFailure]

/-- **What a failed transaction may leave**: of the parent layer only the sender's account changes,
    by `chargeFailure`; the contract storage and the committed update buffer are as before. -/
structure FailedTransaction (s s' : AccountStoreSC) (origin : Address) (fee : Option ℕ) : Prop where
  accounts : ∀ a, s'.accounts.parent.find a =
    if a = origin then (s.accounts.parent.find a).map (Account.chargeFailure fee)
    else s.accounts.parent.find a
  storage : s'.contractStorage.temp = s.contractStorage.temp
  buffer : s'.storageRootUpdateBuffer = s.storageRootUpdateBuffer

theorem FailedTransaction.fee_zero {s s' : AccountStoreSC} {origin : Address}
    (h : FailedTransaction s s' origin none) : FailedTransaction s s' origin (some 0) := by
  refine { h with accounts := fun a => ?_ }
  rw [h.accounts a]
  simp only [Account.chargeFailure_zero]

namespace AccountStoreSC

/-! ## The parts of the store a failed transaction keeps -/

/-- The parent layer, the contract storage's temporary layer and the committed update buffer are
    as they were. -/
structure Unchanged (s s' : AccountStoreSC) : Prop where
  parent : s'.accounts.parent = s.accounts.parent
  storage : s'.contractStorage.temp = s.contractStorage.temp
  buffer : s'.storageRootUpdateBuffer = s.storageRootUpdateBuffer

variable {s s₁ s₂ : AccountStoreSC}

theorem Unchanged.refl (s : AccountStoreSC) : Unchanged s s := ⟨rfl, rfl, rfl⟩

theorem Unchanged.trans (h₁ : Unchanged s s₁) (h₂ : Unchanged s₁ s₂) : Unchanged s s₂ :=
  ⟨h₂.parent.trans h₁.parent, h₂.storage.trans h₁.storage, h₂.buffer.trans h₁.buffer⟩

theorem unchanged_discardAtomics (s : AccountStoreSC) : Unchanged s s.discardAtomics :=
  ⟨rfl, rfl, rfl⟩

theorem unchanged_writeAtomic (s : AccountStoreSC) (a : Address) (acc : Account) :
    Unchanged s (s.writeAtomic a acc) := ⟨rfl, rfl, rfl⟩

theorem unchanged_updateAtomic (s : AccountStoreSC) (a : Address) (f : Account → Option Account) :
    Unchanged s (s.updateAtomic a f).2 := by
  rcases updateAtomic_cases s a f with h | ⟨_, acc', -, -, h⟩
  · rw [h]
    exact Unchanged.refl s
  · rw [h]
    exact unchanged_writeAtomic s a acc'

theorem unchanged_addAccountBase (s : AccountStoreSC) (a : Address) (acc : Account) :
    Unchanged s (s.addAccountBase a acc).2 := by
  unfold addAccountBase
  split
  · exact Unchanged.refl s
  · exact unchanged_writeAtomic s a acc

theorem unchanged_increaseBalanceBase (s : AccountStoreSC) (a : Address) (delta : ℕ) :
    Unchanged s (s.increaseBalanceBase a delta).2 := by
  unfold increaseBalanceBase
  split
  · exact Unchanged.refl s
  split
  · split
    · exact unchanged_writeAtomic s a _
    · exact Unchanged.refl s
  · exact unchanged_addAccountBase s a _

theorem unchanged_decreaseBalanceBase (s : AccountStoreSC) (a : Address) (delta : ℕ) :
    Unchanged s (s.decreaseBalanceBase a delta).2 := by
  unfold decreaseBalanceBase
  split
  · exact Unchanged.refl s
  · exact unchanged_updateAtomic s a _

theorem unchanged_transferBalanceAtomic (s : AccountStoreSC) (src dst : Address)
    (amount : Amount) : Unchanged s (s.transferBalanceAtomic src dst amount).2 := by
  unfold transferBalanceAtomic transferBalanceBase
  have h₁ := unchanged_decreaseBalanceBase s src amount.toQa
  split
  · next s₁ heq =>
    rw [heq] at h₁
    exact h₁
  · next s₁ heq =>
    rw [heq] at h₁
    have h₂ := h₁.trans (unchanged_increaseBalanceBase s₁ dst amount.toQa)
    split
    · next s₂ heq₂ =>
      rw [heq₂] at h₂
      exact h₂
    · next s₂ heq₂ =>
      rw [heq₂] at h₂
      exact h₂.trans (unchanged_increaseBalanceBase s₂ src amount.toQa)

/-- Reverting the storage and discarding the atomic layer after a loop restores what the loop
    started from. -/
theorem unchanged_revert (hu : Unchanged s s₁)
    (hf : AtomicFrame s₁.bufferCurrentContractStorageState s₂) :
    Unchanged s s₂.revertContractStorageState.discardAtomics :=
  ⟨hf.parent.trans hu.parent, hf.saved.trans hu.storage, hf.buffer.trans hu.buffer⟩

/-! ## The parent layer -/

theorem find_increaseNonceForAccount (s : AccountStoreSC) (origin a : Address) :
    (s.increaseNonceForAccount origin).accounts.parent.find a =
      if a = origin then
        (s.accounts.parent.find a).map fun acc => { acc with nonce := (acc.nonce + 1) % 2 ^ 64 }
      else s.accounts.parent.find a := by
  unfold increaseNonceForAccount updateParent getAccount
  cases h : s.accounts.parent.find origin with
  | none =>
    split_ifs with hao
    · rw [hao, h]
      rfl
    · rfl
  | some acc =>
    simp only [Account.increaseNonce_eq, writeParent, FinStore.find_insert]
    split_ifs with hao
    · rw [hao, h]
      rfl
    · rfl

theorem find_decreaseBalance (s : AccountStoreSC) (origin a : Address) (amount : Amount) :
    (s.decreaseBalance origin amount).2.accounts.parent.find a =
      if a = origin then
        (s.accounts.parent.find a).map fun acc =>
          if amount.toQa ≤ acc.balance then { acc with balance := acc.balance - amount.toQa }
          else acc
      else s.accounts.parent.find a := by
  unfold decreaseBalance updateParent getAccount
  cases h : s.accounts.parent.find origin with
  | none =>
    split_ifs with hao
    · rw [hao, h]
      rfl
    · rfl
  | some acc =>
    by_cases hcov : amount.toQa ≤ acc.balance
    · have hdec : acc.decreaseBalance amount.toQa =
          some { acc with balance := acc.balance - amount.toQa } :=
        Account.decreaseBalance_eq_some_iff.mpr ⟨hcov, rfl⟩
      simp only [hdec, writeParent, FinStore.find_insert]
      split_ifs with hao
      · rw [hao, h]
        simp [hcov]
      · rfl
    · -- the balance does not cover the amount: `DecreaseBalance` fails and changes nothing
      have hdec : acc.decreaseBalance amount.toQa = none := by
        unfold Account.decreaseBalance
        rw [if_pos (by omega)]
      simp only [hdec]
      split_ifs with hao
      · rw [hao, h]
        simp [hcov]
      · rfl

/-- The parent-store operations leave the contract storage and the committed update buffer. -/
theorem updateParent_keeps (s : AccountStoreSC) (a : Address) (f : Account → Option Account) :
    (s.updateParent a f).2.contractStorage = s.contractStorage ∧
      (s.updateParent a f).2.storageRootUpdateBuffer = s.storageRootUpdateBuffer := by
  unfold updateParent
  split
  · exact ⟨rfl, rfl⟩
  · split
    · exact ⟨rfl, rfl⟩
    · exact ⟨rfl, rfl⟩

theorem failed_nonce (hu : Unchanged s s₁) (origin : Address) :
    FailedTransaction s (s₁.increaseNonceForAccount origin) origin none where
  accounts a := by
    rw [find_increaseNonceForAccount, hu.parent]
    split_ifs
    · rfl
    · rfl
  storage := by
    rw [increaseNonceForAccount, (updateParent_keeps _ _ _).1]
    exact hu.storage
  buffer := by
    rw [increaseNonceForAccount, (updateParent_keeps _ _ _).2]
    exact hu.buffer

theorem failed_charge (hu : Unchanged s s₁) (origin : Address) (amount : Amount) :
    FailedTransaction s ((s₁.increaseNonceForAccount origin).decreaseBalance origin amount).2
      origin (some amount.toQa) where
  accounts a := by
    rw [find_decreaseBalance, find_increaseNonceForAccount, hu.parent]
    split_ifs
    · -- the nonce is bumped first; the balance test reads the same balance
      rw [Option.map_map]
      congr 1
      funext acc
      simp only [Function.comp, Account.chargeFailure]
      split_ifs <;> rfl
    · rfl
  storage := by
    rw [decreaseBalance, (updateParent_keeps _ _ _).1, increaseNonceForAccount,
      (updateParent_keeps _ _ _).1]
    exact hu.storage
  buffer := by
    rw [decreaseBalance, (updateParent_keeps _ _ _).2, increaseNonceForAccount,
      (updateParent_keeps _ _ _).2]
    exact hu.buffer

end AccountStoreSC

open AccountStoreSC

theorem unchanged_takeGasFromAccountScilla (ctx : ScillaProcessContext) (s : AccountStoreSC) :
    Unchanged s (takeGasFromAccountScilla ctx s) := by
  unfold takeGasFromAccountScilla
  split
  · exact Unchanged.refl s
  · exact unchanged_updateAtomic s _ _

theorem unchanged_takeGasFromAccountEvm (ctx : EvmProcessContext) (s : AccountStoreSC) :
    Unchanged s (takeGasFromAccountEvm ctx s) := by
  unfold takeGasFromAccountEvm
  split
  · exact Unchanged.refl s
  · exact unchanged_updateAtomic s _ _

/-! ## After the loop -/

variable {s : AccountStoreSC} {res res' : CpsExecuteResult} {st : CpsState}
  {s' : AccountStoreSC} {receipt' : TransactionReceipt}

/-- **The failure branch of `RunFromScilla`'s end**, taken when runs are left on the stack or the
    last result failed. -/
theorem finishScilla_failure {ctx : ScillaProcessContext}
    (hrev : Unchanged s st.store.revertContractStorageState.discardAtomics)
    (hfl : (!st.queue.isEmpty || !res.isSuccess) = true)
    (h : finishScilla ctx res st = .returned res' s' receipt') :
    FailedTransaction s s' ctx.origin (SafeMath.mul 128 receipt'.cumGas ctx.gasPrice) := by
  unfold finishScilla at h
  dsimp only at h
  simp only [hfl, if_true] at h
  have hused : (sub64 ctx.gasLimit (getRemainedGasCore res.result)) % 2 ^ 64 =
      sub64 ctx.gasLimit (getRemainedGasCore res.result) :=
    Nat.mod_eq_of_lt (sub64_lt _ _)
  split at h
  · next hmul =>
    -- the fee overflows `uint128_t`: only the nonce is bumped
    simp only [ExecOutcome.returned.injEq] at h
    obtain ⟨-, rfl, rfl⟩ := h
    simp only [TransactionReceipt.cumGas_setResult, TransactionReceipt.cumGas_setCumGas, hused,
      hmul]
    exact failed_nonce hrev ctx.origin
  · next gasCost hmul =>
    simp only [ExecOutcome.returned.injEq] at h
    obtain ⟨-, rfl, rfl⟩ := h
    have hfit : gasCost < 2 ^ 128 := by
      obtain ⟨hlt, rfl⟩ := SafeMath.mul_eq_some_iff.mp hmul
      exact hlt
    simp only [TransactionReceipt.cumGas_setResult, TransactionReceipt.cumGas_setCumGas, hused,
      hmul]
    have hcharge := failed_charge hrev ctx.origin (Amount.fromQa gasCost)
    rw [Amount.toQa_fromQa hfit] at hcharge
    exact hcharge

/-- A failed result of `RunFromScilla`'s end comes from its failure branch. -/
theorem finishScilla_failed {ctx : ScillaProcessContext}
    (hrev : Unchanged s st.store.revertContractStorageState.discardAtomics)
    (h : finishScilla ctx res st = .returned res' s' receipt') (hfail : res'.isSuccess = false) :
    FailedTransaction s s' ctx.origin (SafeMath.mul 128 receipt'.cumGas ctx.gasPrice) := by
  by_cases hfl : (!st.queue.isEmpty || !res.isSuccess) = true
  · exact finishScilla_failure hrev hfl h
  · -- a success returns the loop's successful result
    unfold finishScilla at h
    dsimp only at h
    simp only [Bool.not_eq_true, Bool.or_eq_false_iff, Bool.not_eq_false'] at hfl
    simp only [hfl.1, hfl.2, Bool.not_true, Bool.or_self, Bool.false_eq_true, if_false,
      ExecOutcome.returned.injEq] at h
    rw [← h.1, hfl.2] at hfail
    cases hfail

/-- The fee `RunFromEvm` charges for a failure of `cumGas` core units, in Qa: the Wei product in
    `uint256_t`, when it does not overflow. -/
def evmFailureFee (ctx : EvmProcessContext) (cumGas : ℕ) : Option ℕ :=
  (SafeMath.mul 256 (gasUnitsFromCoreToEth cumGas) (getGasPriceWei ctx)).map fun w =>
    (Amount.fromWei w).toQa

/-- **The failure branch of `RunFromEvm`'s end**, for a committed transaction. -/
theorem finishEvm_failed {ctx : EvmProcessContext} (hcommit : ctx.commit = true)
    (hdirect : ctx.direct = false)
    (hrev : Unchanged s st.store.revertContractStorageState.discardAtomics)
    (h : finishEvm ctx res st = .returned res' s' receipt') (hfail : res'.isSuccess = false) :
    FailedTransaction s s' ctx.args.origin (evmFailureFee ctx receipt'.cumGas) := by
  unfold finishEvm at h
  dsimp only at h
  simp only [hcommit, hdirect, Bool.not_true, Bool.not_false, Bool.or_false, Bool.and_self,
    Bool.false_eq_true, if_true, if_false] at h
  by_cases hfl : (!st.queue.isEmpty || !res.isSuccess) = true
  · simp only [hfl, Bool.not_true, Bool.false_eq_true, if_true, if_false] at h
    have hused : (sub64 (gasUnitsFromEthToCore ctx.args.gasLimit) st.tracker.getCoreGas) % 2 ^ 64 =
        sub64 (gasUnitsFromEthToCore ctx.args.gasLimit) st.tracker.getCoreGas :=
      Nat.mod_eq_of_lt (sub64_lt _ _)
    split at h
    · next hcharged =>
      -- the Wei fee overflows `uint256_t`: only the nonce is bumped
      rw [Option.map_eq_none_iff] at hcharged
      simp only [ExecOutcome.returned.injEq] at h
      obtain ⟨-, rfl, rfl⟩ := h
      simp only [evmFailureFee, TransactionReceipt.cumGas_setResult,
        TransactionReceipt.cumGas_setCumGas, hused, hcharged, Option.map_none]
      exact failed_nonce hrev ctx.args.origin
    · next s₂ hcharged =>
      obtain ⟨gasCost, hmul, rfl⟩ := Option.map_eq_some_iff.mp hcharged
      simp only [ExecOutcome.returned.injEq] at h
      obtain ⟨-, rfl, rfl⟩ := h
      simp only [evmFailureFee, TransactionReceipt.cumGas_setResult,
        TransactionReceipt.cumGas_setCumGas, hused, hmul, Option.map_some]
      exact failed_charge hrev ctx.args.origin _
  · -- a success returns the loop's successful result
    simp only [Bool.not_eq_true, Bool.or_eq_false_iff, Bool.not_eq_false'] at hfl
    simp only [hfl.1, hfl.2, Bool.not_true, Bool.or_self, Bool.false_eq_true, if_false,
      ExecOutcome.returned.injEq] at h
    rw [← h.1, hfl.2] at hfail
    cases hfail

/-- **An estimate or a direct call keeps the store**, whatever the loop did. -/
theorem finishEvm_readOnly {ctx : EvmProcessContext} (hmode : ctx.commit = false ∨ ctx.direct = true)
    (hrev : Unchanged s st.store.revertContractStorageState.discardAtomics)
    (h : finishEvm ctx res st = .returned res' s' receipt') : Unchanged s s' := by
  unfold finishEvm at h
  dsimp only at h
  have hnot : (!!ctx.commit && !ctx.direct) = false := by
    rcases hmode with hm | hm <;> simp [hm]
  have hdisc : (!st.queue.isEmpty || !res.isSuccess || !ctx.commit || ctx.direct) = true := by
    rcases hmode with hm | hm <;> simp [hm]
  simp only [hnot, hdisc, Bool.false_eq_true, if_true, if_false] at h
  -- the fee is never charged: an estimate and a direct call both return the reverted store
  split at h <;>
  · obtain ⟨-, rfl, -⟩ := ExecOutcome.returned.inj h
    exact hrev

/-! ## The entry points -/

/-- What `RunFromScilla` can return: the pre-validation exit with the nonce bumped and no gas
    reported, the plain transfer, or the runs finished by `finishScilla`. -/
theorem runFromScilla_returned_cases {o : CpsOracles} {fuel : ℕ} {ctx : ScillaProcessContext}
    {receipt : TransactionReceipt}
    (h : runFromScilla o fuel ctx s receipt = some (.returned res' s' receipt')) :
    ((preValidateScillaRun ctx s.discardAtomics).isSuccess = false ∧
        res' = preValidateScillaRun ctx s.discardAtomics ∧
        s' = s.discardAtomics.increaseNonceForAccount ctx.origin ∧
        receipt' = ((receipt.removeAllTransitions).setCumGas 0).setResult false) ∨
    ((preValidateScillaRun ctx s.discardAtomics).isSuccess = true ∧
        ctx.contractType = .nonContract ∧
        runPlainTransfer ctx (GasTracker.createFromCore ctx.gasLimit) receipt
          ((takeGasFromAccountScilla ctx s.discardAtomics).transferBalanceAtomic ctx.origin
            ctx.recipient (Amount.fromQa ctx.amount)) = some (.returned res' s' receipt')) ∨
    ((preValidateScillaRun ctx s.discardAtomics).isSuccess = true ∧
        ctx.contractType ≠ .nonContract ∧
        ∃ res st, processLoop (scillaEnv o ctx) fuel
            ⟨takeGasFromAccountScilla ctx s.discardAtomics, GasTracker.createFromCore ctx.gasLimit,
              receipt, [scillaFirstRun ctx]⟩ = some (.done res st) ∧
          finishScilla ctx res st = .returned res' s' receipt') := by
  unfold runFromScilla at h
  dsimp only at h
  split at h
  · next hpre =>
    simp only [Option.some.injEq, ExecOutcome.returned.injEq] at h
    obtain ⟨rfl, rfl, rfl⟩ := h
    exact .inl ⟨by simpa using hpre, rfl, rfl, rfl⟩
  next hpre =>
  have hok : (preValidateScillaRun ctx s.discardAtomics).isSuccess = true := by simpa using hpre
  split at h
  · next hnc => exact .inr (.inl ⟨hok, hnc, h⟩)
  · next hnc => exact .inr (.inr ⟨hok, hnc, ExecOutcome.ofLoop_eq_returned h⟩)

/-- **A failed `RunFromScilla`** leaves only the nonce and the fee the receipt reports. The receipt
    it is given is a fresh one, as the node gives it: the plain-transfer failure returns it as it
    is. -/
theorem runFromScilla_failed {o : CpsOracles} {fuel : ℕ} {ctx : ScillaProcessContext}
    {receipt : TransactionReceipt} (hfresh : receipt.cumGas = 0)
    (h : runFromScilla o fuel ctx s receipt = some (.returned res' s' receipt'))
    (hfail : res'.isSuccess = false) :
    FailedTransaction s s' ctx.origin (SafeMath.mul 128 receipt'.cumGas ctx.gasPrice) := by
  have hu₀ := unchanged_discardAtomics s
  have hu₁ := hu₀.trans (unchanged_takeGasFromAccountScilla ctx s.discardAtomics)
  rcases runFromScilla_returned_cases h with ⟨-, -, rfl, rfl⟩ | ⟨-, -, h⟩ | ⟨-, -, res, st, hloop, h⟩
  · -- rejected by the pre-validation, with no gas reported
    simp only [TransactionReceipt.cumGas_setResult, TransactionReceipt.cumGas_setCumGas,
      Nat.zero_mod, SafeMath.mul_zero_left]
    exact (failed_nonce hu₀ ctx.origin).fee_zero
  · -- a plain transfer
    rcases htr : (takeGasFromAccountScilla ctx s.discardAtomics).transferBalanceAtomic ctx.origin
      ctx.recipient (Amount.fromQa ctx.amount) with ⟨_ | _, s₂⟩ <;> rw [htr] at h
    · simp only [runPlainTransfer, Option.some.injEq, ExecOutcome.returned.injEq] at h
      obtain ⟨-, rfl, rfl⟩ := h
      have hu₂ := hu₁.trans (unchanged_transferBalanceAtomic _ ctx.origin ctx.recipient
        (Amount.fromQa ctx.amount))
      rw [htr] at hu₂
      rw [hfresh, SafeMath.mul_zero_left]
      exact (failed_nonce hu₂ ctx.origin).fee_zero
    · simp only [runPlainTransfer, Option.some.injEq, ExecOutcome.returned.injEq] at h
      rw [← h.1] at hfail
      cases hfail
  · exact finishScilla_failed (unchanged_revert hu₁ (processLoop_frame hloop)) h hfail

/-- **A failed committed `RunFromEvm`** leaves only the nonce and the fee the receipt reports. -/
theorem runFromEvm_failed {o : CpsOracles} {fuel : ℕ} {ctx : EvmProcessContext}
    {receipt : TransactionReceipt} (hcommit : ctx.commit = true) (hdirect : ctx.direct = false)
    (h : runFromEvm o fuel ctx s receipt = some (.returned res' s' receipt'))
    (hfail : res'.isSuccess = false) :
    FailedTransaction s s' ctx.args.origin (evmFailureFee ctx receipt'.cumGas) := by
  unfold runFromEvm at h
  dsimp only at h
  have hu₀ := unchanged_discardAtomics s
  split at h
  · simp only [Option.some.injEq, ExecOutcome.returned.injEq] at h
    obtain ⟨-, rfl, rfl⟩ := h
    simp only [evmFailureFee, TransactionReceipt.cumGas_setCumGas, Nat.zero_mod,
      gasUnitsFromCoreToEth, Nat.zero_mul, SafeMath.mul_zero_left, Option.map_some]
    have hzero : (Amount.fromWei 0).toQa = 0 := rfl
    rw [hzero]
    exact (failed_nonce hu₀ ctx.args.origin).fee_zero
  have hu₁ := hu₀.trans (unchanged_takeGasFromAccountEvm ctx s.discardAtomics)
  obtain ⟨res, st, hloop, h⟩ := ExecOutcome.ofLoop_eq_returned h
  exact finishEvm_failed hcommit hdirect (unchanged_revert hu₁ (processLoop_frame hloop)) h hfail

/-- **A failed transaction leaves only the sender's nonce and the reported fee**, on both entry
    points: a Scilla transaction given a fresh receipt, and a committed EVM transaction that is not
    a direct call. -/
theorem failed_transaction_charges_origin :
    (∀ (o : CpsOracles) (fuel : ℕ) (ctx : ScillaProcessContext) (s : AccountStoreSC)
        (receipt : TransactionReceipt) (res' : CpsExecuteResult) (s' : AccountStoreSC)
        (receipt' : TransactionReceipt), receipt.cumGas = 0 →
        runFromScilla o fuel ctx s receipt = some (.returned res' s' receipt') →
        res'.isSuccess = false →
        FailedTransaction s s' ctx.origin (SafeMath.mul 128 receipt'.cumGas ctx.gasPrice)) ∧
    (∀ (o : CpsOracles) (fuel : ℕ) (ctx : EvmProcessContext) (s : AccountStoreSC)
        (receipt : TransactionReceipt) (res' : CpsExecuteResult) (s' : AccountStoreSC)
        (receipt' : TransactionReceipt), ctx.commit = true → ctx.direct = false →
        runFromEvm o fuel ctx s receipt = some (.returned res' s' receipt') →
        res'.isSuccess = false →
        FailedTransaction s s' ctx.args.origin (evmFailureFee ctx receipt'.cumGas)) := by
  constructor
  · intro o fuel ctx s receipt res' s' receipt' hfresh h hfail
    exact runFromScilla_failed hfresh h hfail
  · intro o fuel ctx s receipt res' s' receipt' hcommit hdirect h hfail
    exact runFromEvm_failed hcommit hdirect h hfail

/-- **An estimate or a direct call that passes the pre-validation keeps the store.** -/
theorem runFromEvm_readOnly {o : CpsOracles} {fuel : ℕ} {ctx : EvmProcessContext}
    {receipt : TransactionReceipt} (hmode : ctx.commit = false ∨ ctx.direct = true)
    (hpre : (preValidateEvmRun ctx s.discardAtomics).isSuccess = true)
    (h : runFromEvm o fuel ctx s receipt = some (.returned res' s' receipt')) : Unchanged s s' := by
  unfold runFromEvm at h
  dsimp only at h
  rw [hpre] at h
  simp only [Bool.not_true, Bool.false_eq_true, if_false] at h
  have hu₁ := (unchanged_discardAtomics s).trans (unchanged_takeGasFromAccountEvm ctx s.discardAtomics)
  obtain ⟨res, st, hloop, h⟩ := ExecOutcome.ofLoop_eq_returned h
  exact finishEvm_readOnly hmode (unchanged_revert hu₁ (processLoop_frame hloop)) h

/-- An estimate below the minimum gas. -/
def lowGasEstimateCtx : EvmProcessContext :=
  EvmProcessContext.ofCall ⟨1⟩ ⟨2⟩ [] [] 100 0 "eth_estimateGas" true false

/-- **The pre-validation exit bumps the nonce of an estimate.** -/
theorem estimate_rejection_bumps_nonce :
    ∃ res' s' receipt', runFromEvm CpsOracles.idle 1 lowGasEstimateCtx
        (AccountStoreSC.ofAccounts [(⟨1⟩, Account.new 5 5)])
        TransactionReceipt.empty = some (.returned res' s' receipt') ∧
      res'.isSuccess = false ∧ s'.getAccount ⟨1⟩ = some (Account.new 5 6) := by
  refine ⟨_, _, _, rfl, ?_⟩
  decide

end Zilliqa
