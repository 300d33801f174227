import Zilliqa.Cps.Correctness.Failure

/-!
# `Cps.Correctness.Admission` — what `PreValidateScillaRun` and `PreValidateEvmRun` let through

`CpsExecutor` admits a transaction with `CpsExecuteValidator` and then takes the gas deposit with
`TakeGasFromAccount`, whose `DecreaseBalanceAtomic` result is ignored: admission is the only guard
on the deposit. The validator compares the sender's balance with the claimed sum in the widths of
the source. For Scilla the deposit and the amount are added in `uint128_t`; for the EVM they are
added in `uint256_t` and compared in Qa through `Amount::toQa`, which narrows the quotient to
`uint128_t`.

Each check is characterised exactly (`checkAmountScilla_isSuccess_iff`,
`checkAmountEvm_isSuccess_iff`, `checkGasLimitEvm_isSuccess_iff`, and the two pre-validations).
Read off them: when the narrowed quotient does not wrap, an admitted EVM transaction has the gas
its type requires and a sender who holds its deposit and amount up to the Wei below one Qa that
`toQa` drops (`covers_of_preValidateEvmRun`), so the deposit is taken
(`decreaseBalanceAtomic_of_preValidateEvmRun`). `PreValidateScillaRun` calls no gas-limit check,
and a claimed sum that wraps admits a sender who cannot pay. When the run of such a transaction
fails, the executor's charge on the committed store is a `DecreaseBalance` the balance does not
cover, so the fee the receipt reports is never paid.

## Contents
- `minimumGasEvm`, the least gas limit the EVM `CheckGasLimit` accepts.
- The characterisations of the checks and of the two pre-validations.
- `covers_of_preValidateEvmRun`, `decreaseBalanceAtomic_of_preValidateEvmRun`.
- `preValidate_admits_unpaid_deposit`: admissions the sender cannot pay;
  `failed_call_leaves_fee_unpaid`: such a call that fails never pays its fee.
-/

namespace Zilliqa

namespace CpsExecuteResult

@[simp] theorem isSuccess_fail (status : TxnStatus) : (fail status).isSuccess = false := rfl

@[simp] theorem isSuccess_ok : ok.isSuccess = true := rfl

end CpsExecuteResult

/-- The least gas limit the EVM `CheckGasLimit` accepts: the deployment charge of the code and the
    data for a creation, `MIN_ETH_GAS` for anything else. -/
def minimumGasEvm (ctx : EvmProcessContext) : ℕ :=
  if ctx.getContractType = .contractCreation then
    getGasUnitsForContractDeployment ctx.args.code ctx.data
  else minEthGas

/-! ## The checks -/

/-- **The Scilla `CheckAmount`**: the deposit is a `uint128_t` product, and the deposit plus the
    amount, added in `uint128_t`, is at most what the sender owns. -/
theorem checkAmountScilla_isSuccess_iff (ctx : ScillaProcessContext) (owned : Amount) :
    (checkAmountScilla ctx owned).isSuccess = true ↔
      ctx.gasLimit * ctx.gasPrice < 2 ^ 128 ∧
        (ctx.gasLimit * ctx.gasPrice + ctx.amount) % 2 ^ 128 ≤ owned.toQa := by
  unfold checkAmountScilla
  cases hmul : SafeMath.mul 128 ctx.gasLimit ctx.gasPrice with
  | none =>
    have hov := SafeMath.mul_eq_none_iff.1 hmul
    simp only [CpsExecuteResult.isSuccess_fail, Bool.false_eq_true, false_iff, not_and]
    intro hfit
    omega
  | some deposit =>
    obtain ⟨hfit, rfl⟩ := SafeMath.mul_eq_some_iff.1 hmul
    -- the claimed sum is below `2 ^ 128`, so it survives the round trip through Wei
    have hclaim : (Amount.fromQa ((ctx.gasLimit * ctx.gasPrice + ctx.amount) % 2 ^ 128)).toQa =
        (ctx.gasLimit * ctx.gasPrice + ctx.amount) % 2 ^ 128 :=
      Amount.toQa_fromQa (Nat.mod_lt _ (by positivity))
    dsimp only
    by_cases hgt : (Amount.fromQa ((ctx.gasLimit * ctx.gasPrice + ctx.amount) % 2 ^ 128)).gt owned
    · rw [if_pos hgt]
      rw [Amount.gt_iff, hclaim] at hgt
      simp only [CpsExecuteResult.isSuccess_fail, Bool.false_eq_true, false_iff, not_and]
      intro _
      omega
    · rw [if_neg hgt]
      rw [Amount.gt_iff, hclaim] at hgt
      simp only [CpsExecuteResult.isSuccess_ok, true_iff]
      exact ⟨hfit, by omega⟩

/-- **The EVM `CheckAmount`**: the deposit of the rounded gas limit at the Wei gas price is a
    `uint256_t` product, and the deposit plus the amount, added in `uint256_t` and taken to Qa
    through `toQa`, is at most what the sender owns. -/
theorem checkAmountEvm_isSuccess_iff (ctx : EvmProcessContext) (owned : Amount) :
    (checkAmountEvm ctx owned).isSuccess = true ↔
      gasLimitRounded ctx * getGasPriceWei ctx < 2 ^ 256 ∧
        (gasLimitRounded ctx * getGasPriceWei ctx + ctx.transaction.getAmountWei) % 2 ^ 256 /
          evmZilScalingFactor % 2 ^ 128 ≤ owned.toQa := by
  unfold checkAmountEvm
  cases hmul : SafeMath.mul 256 (gasLimitRounded ctx) (getGasPriceWei ctx) with
  | none =>
    have hov := SafeMath.mul_eq_none_iff.1 hmul
    simp only [CpsExecuteResult.isSuccess_fail, Bool.false_eq_true, false_iff, not_and]
    intro hfit
    omega
  | some deposit =>
    obtain ⟨hfit, rfl⟩ := SafeMath.mul_eq_some_iff.1 hmul
    dsimp only
    by_cases hgt : (Amount.fromWei ((gasLimitRounded ctx * getGasPriceWei ctx +
        ctx.transaction.getAmountWei) % 2 ^ 256)).gt owned
    · rw [if_pos hgt]
      rw [Amount.gt_iff] at hgt
      simp only [CpsExecuteResult.isSuccess_fail, Bool.false_eq_true, false_iff, not_and]
      intro _
      exact Nat.not_le.2 hgt
    · rw [if_neg hgt]
      rw [Amount.gt_iff] at hgt
      simp only [CpsExecuteResult.isSuccess_ok, true_iff]
      exact ⟨hfit, Nat.not_lt.1 hgt⟩

/-- **The EVM `CheckGasLimit`** accepts exactly the gas limits from `minimumGasEvm` up. -/
theorem checkGasLimitEvm_isSuccess_iff (ctx : EvmProcessContext) :
    (checkGasLimitEvm ctx).isSuccess = true ↔ minimumGasEvm ctx ≤ ctx.args.gasLimit := by
  unfold checkGasLimitEvm minimumGasEvm
  dsimp only
  by_cases hc : ctx.getContractType = .contractCreation
  · rw [if_pos hc, if_pos hc]
    by_cases hlt : ctx.args.gasLimit < getGasUnitsForContractDeployment ctx.args.code ctx.data
    · simp [hlt]
    · simp only [hlt, if_false, CpsExecuteResult.isSuccess_ok, true_iff]
      omega
  · rw [if_neg hc, if_neg hc]
    by_cases hlt : ctx.args.gasLimit < minEthGas
    · simp [hlt]
    · simp only [hlt, if_false, CpsExecuteResult.isSuccess_ok, true_iff]
      omega

/-! ## The two pre-validations -/

/-- **`PreValidateScillaRun`** is the sender's existence and the Scilla `CheckAmount`: no gas-limit
    check. -/
theorem preValidateScillaRun_isSuccess_iff (ctx : ScillaProcessContext) (s : AccountStoreSC) :
    (preValidateScillaRun ctx s).isSuccess = true ↔
      s.accountExistsAtomic ctx.origin = true ∧
        (checkAmountScilla ctx (s.getBalanceForAccountAtomic ctx.origin)).isSuccess = true := by
  unfold preValidateScillaRun
  by_cases hex : s.accountExistsAtomic ctx.origin = true
  · simp [hex]
  · simp [hex]

/-- **`PreValidateEvmRun`** is the EVM `CheckAmount` and `CheckGasLimit`; it does not ask whether
    the sender exists. -/
theorem preValidateEvmRun_isSuccess_iff (ctx : EvmProcessContext) (s : AccountStoreSC) :
    (preValidateEvmRun ctx s).isSuccess = true ↔
      (checkAmountEvm ctx (s.getBalanceForAccountAtomic ctx.args.origin)).isSuccess = true ∧
        minimumGasEvm ctx ≤ ctx.args.gasLimit := by
  rw [← checkGasLimitEvm_isSuccess_iff]
  unfold preValidateEvmRun
  dsimp only
  by_cases ha : (checkAmountEvm ctx (s.getBalanceForAccountAtomic ctx.args.origin)).isSuccess = true
  · by_cases hg : (checkGasLimitEvm ctx).isSuccess = true
    · simp [ha, hg]
    · simp [ha, hg]
  · simp [ha]

/-! ## What an admitted EVM transaction pays -/

section Evm

variable {ctx : EvmProcessContext} {s : AccountStoreSC}

/-- The rounded gas limit is a `uint64_t`. -/
theorem gasLimitRounded_lt (ctx : EvmProcessContext) : gasLimitRounded ctx < 2 ^ 64 :=
  Nat.mod_lt _ (by positivity)

/-- **An admitted EVM transaction has the gas its type requires, and a sender who holds its deposit
    and amount up to less than one Qa**, when the gas price and the amount are `uint128_t` values
    and the claimed sum's quotient fits in `uint128_t`. -/
theorem covers_of_preValidateEvmRun (h : (preValidateEvmRun ctx s).isSuccess = true)
    (hP : getGasPriceWei ctx < 2 ^ 128) (hA : ctx.transaction.getAmountWei < 2 ^ 128)
    (hq : (gasLimitRounded ctx * getGasPriceWei ctx + ctx.transaction.getAmountWei) /
      evmZilScalingFactor < 2 ^ 128) :
    gasLimitRounded ctx * getGasPriceWei ctx + ctx.transaction.getAmountWei <
        ((s.getBalanceForAccountAtomic ctx.args.origin).toQa + 1) * evmZilScalingFactor ∧
      minimumGasEvm ctx ≤ ctx.args.gasLimit := by
  obtain ⟨hamount, hgas⟩ := (preValidateEvmRun_isSuccess_iff ctx s).1 h
  obtain ⟨-, hle⟩ := (checkAmountEvm_isSuccess_iff ctx _).1 hamount
  -- with a price and an amount below `2 ^ 128` the `uint256_t` sum cannot wrap
  have hD : gasLimitRounded ctx * getGasPriceWei ctx < 2 ^ 192 :=
    calc gasLimitRounded ctx * getGasPriceWei ctx
        < 2 ^ 64 * 2 ^ 128 := Nat.mul_lt_mul'' (gasLimitRounded_lt ctx) hP
      _ = 2 ^ 192 := by norm_num
  have hsum : gasLimitRounded ctx * getGasPriceWei ctx + ctx.transaction.getAmountWei < 2 ^ 256 := by
    omega
  rw [Nat.mod_eq_of_lt hsum, Nat.mod_eq_of_lt hq] at hle
  refine ⟨?_, hgas⟩
  exact (Nat.div_lt_iff_lt_mul (by decide)).1 (Nat.lt_succ_of_le hle)

/-- **The deposit of an admitted EVM transaction is taken**: `DecreaseBalanceAtomic`, whose result
    `TakeGasFromAccount` ignores, succeeds for an existing sender with a `uint128_t` balance. -/
theorem decreaseBalanceAtomic_of_preValidateEvmRun {acc : Account}
    (h : (preValidateEvmRun ctx s).isSuccess = true)
    (hacc : s.getAccountAtomic ctx.args.origin = some acc) (hbal : acc.balance < 2 ^ 128)
    (hP : getGasPriceWei ctx < 2 ^ 128) (hA : ctx.transaction.getAmountWei < 2 ^ 128)
    (hq : (gasLimitRounded ctx * getGasPriceWei ctx + ctx.transaction.getAmountWei) /
      evmZilScalingFactor < 2 ^ 128) :
    (s.decreaseBalanceAtomic ctx.args.origin
      (Amount.fromWei (gasLimitRounded ctx * getGasPriceWei ctx))).1 = true := by
  have hcov := (covers_of_preValidateEvmRun h hP hA hq).1
  rw [AccountStoreSC.getBalanceForAccountAtomic, hacc] at hcov
  dsimp only at hcov
  rw [Amount.toQa_fromQa hbal] at hcov
  -- the deposit alone, in Qa, is at most the balance
  have hdep : gasLimitRounded ctx * getGasPriceWei ctx / evmZilScalingFactor ≤ acc.balance := by
    have := (Nat.div_lt_iff_lt_mul (by decide : 0 < evmZilScalingFactor)).2
      (lt_of_le_of_lt (Nat.le_add_right _ ctx.transaction.getAmountWei) hcov)
    omega
  have htoQa : (Amount.fromWei (gasLimitRounded ctx * getGasPriceWei ctx)).toQa =
      gasLimitRounded ctx * getGasPriceWei ctx / evmZilScalingFactor :=
    Nat.mod_eq_of_lt
      (show gasLimitRounded ctx * getGasPriceWei ctx / evmZilScalingFactor < 2 ^ 128 by omega)
  have hdec : acc.decreaseBalance (gasLimitRounded ctx * getGasPriceWei ctx / evmZilScalingFactor) =
      some { acc with balance := acc.balance -
        gasLimitRounded ctx * getGasPriceWei ctx / evmZilScalingFactor } :=
    Account.decreaseBalance_eq_some_iff.2 ⟨hdep, rfl⟩
  simp [AccountStoreSC.decreaseBalanceAtomic, AccountStoreSC.updateAtomic, hacc, htoQa, hdec]

end Evm

/-! ## Admissions the sender cannot pay -/

/-- A store whose one account, the sender, holds nothing. -/
def emptySender : AccountStoreSC := AccountStoreSC.ofAccounts [(⟨1⟩, Account.new 0 0)]

/-- A Scilla call whose deposit of one Qa and amount of `2 ^ 128 - 1` Qa add up to `2 ^ 128`. -/
def wrappingScillaCall : ScillaProcessContext :=
  ⟨⟨1⟩, ⟨2⟩, [], [1], 2 ^ 128 - 1, 1, 1, 0, .contractCall⟩

/-- A plain Scilla transfer with no gas. -/
def gaslessTransfer : ScillaProcessContext := ⟨⟨1⟩, ⟨2⟩, [], [], 0, 1, 0, 0, .nonContract⟩

/-- An Ethereum transfer of `1008000` gas at the least Wei price that makes its deposit
    `2 ^ 128` Qa. -/
def wrappingEvmTransfer : EvmProcessContext :=
  EvmProcessContext.ofTransaction
    ⟨true, 0, ⟨1⟩, ⟨2⟩, 0, (2 ^ 128 * 125 + 125) / 126, 1008000, [], []⟩ "" true

theorem preValidate_admits_unpaid_deposit :
    (preValidateScillaRun wrappingScillaCall emptySender).isSuccess = true ∧
    wrappingScillaCall.gasLimit * wrappingScillaCall.gasPrice + wrappingScillaCall.amount = 2 ^ 128 ∧
    (takeGasFromAccountScilla wrappingScillaCall emptySender).getAccountAtomic ⟨1⟩ =
      some (Account.new 0 0) ∧
    (preValidateScillaRun gaslessTransfer emptySender).isSuccess = true ∧
    gaslessTransfer.gasLimit < normalTranGas ∧
    (preValidateEvmRun wrappingEvmTransfer emptySender).isSuccess = true ∧
    2 ^ 128 * evmZilScalingFactor ≤
      gasLimitRounded wrappingEvmTransfer * getGasPriceWei wrappingEvmTransfer ∧
    (takeGasFromAccountEvm wrappingEvmTransfer emptySender).getAccountAtomic ⟨1⟩ =
      some (Account.new 0 0) := by
  refine ⟨by decide, by decide, by decide, by decide, by decide, by decide, by decide, by decide⟩

/-- **A failed call whose deposit was never taken leaves its fee unpaid.** The wrapping call above
    passes the pre-validation and its run fails, with one unit of gas reported; the charge on the
    committed store cannot take that fee from a sender who holds nothing, so only the nonce moves. -/
theorem failed_call_leaves_fee_unpaid : ∃ res' s' receipt',
    runFromScilla CpsOracles.idle 1 wrappingScillaCall emptySender TransactionReceipt.empty =
      some (.returned res' s' receipt') ∧ res'.isSuccess = false ∧
    receipt'.cumGas * wrappingScillaCall.gasPrice = 1 ∧
    s'.accounts.parent.find ⟨1⟩ = some (Account.new 0 1) := by
  obtain ⟨res', s', receipt', h, hfail, hcum⟩ : ∃ res' s' receipt',
      runFromScilla CpsOracles.idle 1 wrappingScillaCall emptySender TransactionReceipt.empty =
        some (.returned res' s' receipt') ∧ res'.isSuccess = false ∧ receipt'.cumGas = 1 :=
    ⟨_, _, _, rfl, rfl, rfl⟩
  -- a failed run charges the sender the reported fee only where its balance covers it
  have hft := failed_transaction_charges_origin.1 _ _ _ _ _ _ _ _ rfl h hfail
  refine ⟨res', s', receipt', h, hfail, by rw [hcum]; rfl, ?_⟩
  rw [hft.accounts ⟨1⟩, hcum]
  decide

end Zilliqa
