import Zilliqa.Cps.RunScilla
import Zilliqa.Lib.Loop
import Zilliqa.Utils.SafeMath

/-!
# `Cps.Executor` — `CpsExecutor`: the run loop and the two entry points

`RunFromScilla` and `RunFromEvm` drop any leftover atomic state, validate the sender's funds, take
the gas deposit from the sender in the atomic layer, push the first run and call `processLoop`. The
loop pops the top run, runs it, stops at the first failure, and otherwise hands the result to the
next run when that one is a resumable EVM run. Afterwards the executor either commits the atomic
layer, with a refund of the remaining gas, or reverts contract storage and discards the atomic
layer; it then bumps the sender's nonce and, on failure, charges the used gas directly on the
parent store.

`processLoop` is `Loop.runFuel` of `processStep`, with one unit of fuel per iteration; an
exception thrown by a run ends the loop as `LoopEnd.thrown`. The entry points answer `none` when
the fuel runs out, and `thrown` when an exception escapes.

## Contents
- `CpsRunTransfer.run`, `CpsRun.run`, `CpsRunEvm.provideFeedback`, `CpsRun.provideFeedback`.
- `LoopEnd`, `processStep`, `processLoop`.
- `CpsExecuteValidator`: `checkAmountScilla`, `checkGasLimitScilla`, `checkAmountEvm`,
  `checkGasLimitEvm`, `getGasPriceWei`; `preValidateScillaRun`, `preValidateEvmRun`.
- `takeGasFromAccountScilla`/`Evm`, `refundGasScilla`/`Evm`, `getRemainedGasCore`.
- `scillaEnv`, `scillaFirstRun`, `finishScilla` and `runFromScilla`; `fromEvmContext`,
  `estimateResult`, `evmEnv`, `evmFirstRun`, `finishEvm` and `runFromEvm`.
-/

namespace Zilliqa

namespace CpsRunTransfer

/-- **`CpsRunTransfer::Run`**: the transfer, and the result the run was created with. -/
def run (prev : ResultType) (fromAddr toAddr : Address) (amount : Amount) (st : CpsState) :
    CpsExecuteResult × CpsState :=
  match st.store.transferBalanceAtomic fromAddr toAddr amount with
  | (false, s) => (CpsExecuteResult.fail .insufficientBalance, st.withStore s)
  | (true, s) =>
    (⟨.notPresent, true, prev⟩,
      st.withStore ((s.addAddressToUpdateBufferAtomic fromAddr).addAddressToUpdateBufferAtomic toAddr))

end CpsRunTransfer

namespace CpsRunEvm

/-- `CpsRunEvm::ProvideFeedback`: tell a resumed run how the run before it ended. -/
def provideFeedback (prev : CpsRun) (res : CpsExecuteResult) (args : EvmArgs) : EvmArgs :=
  let c := args.continuation.getD defaultContinuation
  if !prev.hasFeedback then { args with continuation := some { c with succeeded := true } }
  else
    match res.result with
    | .evm r =>
      let c := { c with succeeded := r.exitReason == .succeed, logs := r.logs }
      let c := match prev with
        | .evm prevArgs _ =>
          if c.feedbackType = .create then
            { c with feedbackData := .address (if res.isSuccess then prevArgs.address
              else Address.null) }
          else
            match c.feedbackData with
            | .calldata _ mo ol => { c with feedbackData := .calldata r.returnValue mo ol }
            | _ => { c with feedbackData := .calldata r.returnValue 0 0 }
        | _ => c
      { args with continuation := some c }
    | .scilla r =>
      if c.feedbackType = .call then
        { args with continuation := some { c with succeeded := r.isSuccess } }
      else args

end CpsRunEvm

namespace CpsRun

/-- `CpsRun::Run`, dispatched on the kind of run; `none` when it throws. -/
def run (env : CpsEnv) : CpsRun → CpsState → Option (CpsExecuteResult × CpsState)
  | .evm args type, st => some (CpsRunEvm.run env args type st)
  | .scilla args type, st => CpsRunScilla.run env args type st
  | .transfer prev f t a, st => some (CpsRunTransfer.run prev f t a st)

/-- `ProvideFeedback`; only EVM runs take feedback. -/
def provideFeedback (prev : CpsRun) (res : CpsExecuteResult) : CpsRun → CpsRun
  | .evm args type => .evm (CpsRunEvm.provideFeedback prev res args) type
  | r => r

end CpsRun

/-! ## The loop -/

/-- How `processLoop` ends: with the last result and the state, or by an exception. -/
inductive LoopEnd where
  | done (res : CpsExecuteResult) (st : CpsState)
  | thrown

/-- One iteration of `processLoop`'s `while`: the state carries the last result. -/
def processStep (env : CpsEnv) (ls : CpsExecuteResult × CpsState) :
    LoopEnd ⊕ (CpsExecuteResult × CpsState) :=
  match ls.2.queue with
  | [] => .inl (.done ls.1 ls.2)
  | r :: rest =>
    match r.run env { ls.2 with queue := rest } with
    | none => .inl .thrown
    | some (res, st) =>
      if !res.isSuccess then .inl (.done res st)
      else
        match st.queue with
        | next :: rest' =>
          if next.isResumable then .inr (res, { st with queue := r.provideFeedback res next :: rest' })
          else .inr (res, st)
        | [] => .inr (res, st)

/-- Where `processLoop` starts: the contract storage is saved, and the last result is
    `CpsExecuteResult{}`. -/
def processLoopStart (st : CpsState) : CpsExecuteResult × CpsState :=
  (CpsExecuteResult.fail .notPresent, st.withStore st.store.bufferCurrentContractStorageState)

/-- **`CpsExecutor::processLoop`**, allowed `fuel` iterations. -/
def processLoop (env : CpsEnv) (fuel : ℕ) (st : CpsState) : Option LoopEnd :=
  Loop.runFuel (processStep env) fuel (processLoopStart st)

/-! ## `CpsExecuteValidator` and the gas deposit -/

/-- `CpsExecuteValidator::CheckAmount` for Scilla: deposit plus amount, added in `uint128_t`,
    against the balance. -/
def checkAmountScilla (ctx : ScillaProcessContext) (owned : Amount) : CpsExecuteResult :=
  match SafeMath.mul 128 ctx.gasLimit ctx.gasPrice with
  | none => CpsExecuteResult.fail .mathError
  | some deposit =>
    if (Amount.fromQa ((deposit + ctx.amount) % 2 ^ 128)).gt owned then
      CpsExecuteResult.fail .insufficientBalance
    else CpsExecuteResult.ok

/-- `CpsExecuteValidator::CheckGasLimit` for Scilla (not called by `PreValidateScillaRun`). -/
def checkGasLimitScilla (ctx : ScillaProcessContext) : CpsExecuteResult :=
  match ctx.contractType with
  | .nonContract =>
    if ctx.gasLimit < normalTranGas then CpsExecuteResult.fail .insufficientGas
    else CpsExecuteResult.ok
  | .contractCreation =>
    let createPenalty := max contractCreateGas ((ctx.code.length + ctx.data.length) % 2 ^ 32)
    if ctx.gasLimit < max (scillaCheckerInvokeGas + scillaRunnerInvokeGas) createPenalty then
      CpsExecuteResult.fail .insufficientGasLimit
    else CpsExecuteResult.ok
  | .contractCall =>
    let requiredGas := max contractInvokeGas (ctx.data.length % 2 ^ 32) + scillaRunnerInvokeGas
    if ctx.gasLimit < requiredGas then CpsExecuteResult.fail .insufficientGasLimit
    else CpsExecuteResult.ok
  | .error => CpsExecuteResult.fail .incorrectTxnType

/-- `CpsExecuteValidator::GetGasPriceWei`: zero when estimating. -/
def getGasPriceWei (ctx : EvmProcessContext) : ℕ :=
  if ctx.getEstimateOnly then 0 else ctx.transaction.getGasPriceWei

/-- The gas limit of the deposit: the transaction's, rounded down to whole core units. -/
def gasLimitRounded (ctx : EvmProcessContext) : ℕ :=
  gasUnitsFromCoreToEth (gasUnitsFromEthToCore ctx.transaction.getGasLimitEth)

/-- `CpsExecuteValidator::CheckAmount` for the EVM, in Wei and `uint256_t`. -/
def checkAmountEvm (ctx : EvmProcessContext) (owned : Amount) : CpsExecuteResult :=
  match SafeMath.mul 256 (gasLimitRounded ctx) (getGasPriceWei ctx) with
  | none => CpsExecuteResult.fail .mathError
  | some deposit =>
    if (Amount.fromWei ((deposit + ctx.transaction.getAmountWei) % 2 ^ 256)).gt owned then
      CpsExecuteResult.fail .insufficientBalance
    else CpsExecuteResult.ok

/-- `CpsExecuteValidator::CheckGasLimit` for the EVM. -/
def checkGasLimitEvm (ctx : EvmProcessContext) : CpsExecuteResult :=
  let requested := ctx.args.gasLimit
  if ctx.getContractType = .contractCreation then
    if requested < getGasUnitsForContractDeployment ctx.args.code ctx.data then
      CpsExecuteResult.fail .insufficientGasLimit
    else CpsExecuteResult.ok
  else if requested < minEthGas then CpsExecuteResult.fail .insufficientGasLimit
  else CpsExecuteResult.ok

/-- `CpsExecutor::PreValidateScillaRun`. -/
def preValidateScillaRun (ctx : ScillaProcessContext) (s : AccountStoreSC) : CpsExecuteResult :=
  if !s.accountExistsAtomic ctx.origin then CpsExecuteResult.fail .invalidFromAccount
  else checkAmountScilla ctx (s.getBalanceForAccountAtomic ctx.origin)

/-- `CpsExecutor::PreValidateEvmRun`. -/
def preValidateEvmRun (ctx : EvmProcessContext) (s : AccountStoreSC) : CpsExecuteResult :=
  let amountResult := checkAmountEvm ctx (s.getBalanceForAccountAtomic ctx.args.origin)
  if !amountResult.isSuccess then amountResult
  else
    let gasResult := checkGasLimitEvm ctx
    if !gasResult.isSuccess then gasResult else CpsExecuteResult.ok

/-- `TakeGasFromAccount` for Scilla: the deposit, unless its product overflows. -/
def takeGasFromAccountScilla (ctx : ScillaProcessContext) (s : AccountStoreSC) : AccountStoreSC :=
  match SafeMath.mul 128 ctx.gasLimit ctx.gasPrice with
  | none => s
  | some deposit => (s.decreaseBalanceAtomic ctx.origin (Amount.fromQa deposit)).2

/-- `TakeGasFromAccount` for the EVM. -/
def takeGasFromAccountEvm (ctx : EvmProcessContext) (s : AccountStoreSC) : AccountStoreSC :=
  match SafeMath.mul 256 (gasLimitRounded ctx) (getGasPriceWei ctx) with
  | none => s
  | some deposit => (s.decreaseBalanceAtomic ctx.args.origin (Amount.fromWei deposit)).2

/-- `RefundGas` for Scilla. -/
def refundGasScilla (ctx : ScillaProcessContext) (t : GasTracker) (s : AccountStoreSC) :
    AccountStoreSC :=
  match SafeMath.mul 128 t.getCoreGas ctx.gasPrice with
  | none => s
  | some refund => (s.increaseBalanceAtomic ctx.origin (Amount.fromQa refund)).2

/-- `RefundGas` for the EVM, in `uint128_t`. -/
def refundGasEvm (ctx : EvmProcessContext) (t : GasTracker) (s : AccountStoreSC) :
    AccountStoreSC :=
  match SafeMath.mul 128 t.getEthGas (getGasPriceWei ctx) with
  | none => s
  | some refund => (s.increaseBalanceAtomic ctx.args.origin (Amount.fromWei refund)).2

/-- `GetRemainedGasCore`: taken from whichever run was last. -/
def getRemainedGasCore : ResultType → ℕ
  | .evm r => gasUnitsFromEthToCore r.remainingGas
  | .scilla r => r.gasRemained

/-! ## The entry points -/

/-- How an entry point ends: it returns its result with the store and the receipt, or an
    exception escapes it. -/
inductive ExecOutcome where
  | returned (res : CpsExecuteResult) (s : AccountStoreSC) (receipt : TransactionReceipt)
  | thrown

/-- What an entry point makes of `processLoop`'s end: an exception escapes it, a loop that ended is
    handed to `finish`. -/
def ExecOutcome.ofLoop (finish : CpsExecuteResult → CpsState → ExecOutcome) :
    Option LoopEnd → Option ExecOutcome
  | none => none
  | some .thrown => some .thrown
  | some (.done res st) => some (finish res st)

/-- An entry point returned only if the loop ended and `finish` returned. -/
theorem ExecOutcome.ofLoop_eq_returned {finish : CpsExecuteResult → CpsState → ExecOutcome}
    {out : Option LoopEnd} {res' : CpsExecuteResult} {s' : AccountStoreSC}
    {receipt' : TransactionReceipt} (h : ofLoop finish out = some (.returned res' s' receipt')) :
    ∃ res st, out = some (.done res st) ∧ finish res st = .returned res' s' receipt' := by
  rcases out with _ | ⟨res, st⟩ | _
  · cases h
  · exact ⟨res, st, rfl, Option.some.inj h⟩
  · cases h

/-- The `CpsContext` of a transaction `RunFromScilla` runs. -/
def scillaEnv (o : CpsOracles) (ctx : ScillaProcessContext) : CpsEnv :=
  ⟨o, ctx.origin, false, false, ctx⟩

/-- The run `RunFromScilla` pushes for a contract deployment or call. -/
def scillaFirstRun (ctx : ScillaProcessContext) : CpsRun :=
  let type := if ctx.contractType = .contractCall then RunType.call else .create
  .scilla ⟨ctx.origin, ctx.recipient, ctx.origin, Amount.fromQa ctx.amount,
    .codeData ⟨ctx.code, ctx.data⟩, 0, 0, none⟩ type

/-- The end of `RunFromScilla`, once `processLoop` returned `res` in the state `st`: commit with a
    refund, or revert and discard; bump the nonce; on failure charge the used gas on the parent
    store. -/
def finishScilla (ctx : ScillaProcessContext) (res : CpsExecuteResult) (st : CpsState) :
    ExecOutcome :=
  let gasRemainedCore := getRemainedGasCore res.result
  let isFailure := !st.queue.isEmpty || !res.isSuccess
  let usedGasCore := sub64 ctx.gasLimit gasRemainedCore
  let s := if isFailure then st.store.revertContractStorageState.discardAtomics
    else (refundGasScilla ctx (GasTracker.createFromCore gasRemainedCore) st.store).commitAtomics
  let receipt := if isFailure then ((st.receipt.removeAllTransitions).setCumGas usedGasCore).setResult false
    else (st.receipt.setCumGas usedGasCore).setResult true
  let s := s.increaseNonceForAccount ctx.origin
  if isFailure then
    match SafeMath.mul 128 usedGasCore ctx.gasPrice with
    | none => .returned (CpsExecuteResult.fail .error) s receipt
    | some gasCost => .returned res (s.decreaseBalance ctx.origin (Amount.fromQa gasCost)).2 receipt
  else .returned res s receipt

/-- The plain-transfer branch of `RunFromScilla`, given what `TransferBalanceAtomic` returned. A
    failure returns without touching the atomic layer, and with the receipt it was given. -/
def runPlainTransfer (ctx : ScillaProcessContext) (tracker : GasTracker)
    (receipt : TransactionReceipt) : Bool × AccountStoreSC → Option ExecOutcome
  | (false, s) =>
    some (.returned (CpsExecuteResult.fail .insufficientBalance)
      (s.increaseNonceForAccount ctx.origin) receipt)
  | (true, s) =>
    let receipt := (receipt.setCumGas normalTranGas).setResult true
    let s := (refundGasScilla ctx (tracker.decreaseByCore normalTranGas) s).commitAtomics
    some (.returned CpsExecuteResult.ok (s.increaseNonceForAccount ctx.origin) receipt)

/-- **`CpsExecutor::RunFromScilla`.** -/
def runFromScilla (o : CpsOracles) (fuel : ℕ) (ctx : ScillaProcessContext) (s : AccountStoreSC)
    (receipt : TransactionReceipt) : Option ExecOutcome :=
  let s := s.discardAtomics
  let pre := preValidateScillaRun ctx s
  if !pre.isSuccess then
    some (.returned pre (s.increaseNonceForAccount ctx.origin)
      (((receipt.removeAllTransitions).setCumGas 0).setResult false))
  else
  let tracker := GasTracker.createFromCore ctx.gasLimit
  let s := takeGasFromAccountScilla ctx s
  if ctx.contractType = .nonContract then
    runPlainTransfer ctx tracker receipt
      (s.transferBalanceAtomic ctx.origin ctx.recipient (Amount.fromQa ctx.amount))
  else
  ExecOutcome.ofLoop (finishScilla ctx)
    (processLoop (scillaEnv o ctx) fuel ⟨s, tracker, receipt, [scillaFirstRun ctx]⟩)

/-- `CpsUtils::FromEvmContext`. The gas price it takes from the EVM extras is read by no run and
    is left at zero. -/
def fromEvmContext (ctx : EvmProcessContext) : ScillaProcessContext :=
  ⟨ctx.args.origin, ctx.args.address, stripEvm ctx.args.code, ctx.args.data,
    ctx.args.apparentValue / evmZilScalingFactor % 2 ^ 128, 0,
    gasUnitsFromEthToCore ctx.args.gasLimit, 0, .error⟩

/-- The result an estimate returns: always a success, reporting the tracker's gas. -/
def estimateResult (res : CpsExecuteResult) (isFailure : Bool) (t : GasTracker) :
    CpsExecuteResult :=
  match res.result with
  | .evm r =>
    let r := { r with remainingGas := t.getEthGas }
    let r := if isFailure && r.exitReason == .notSet then { r with exitReason := .revert } else r
    ⟨.notPresent, true, .evm r⟩
  | .scilla r =>
    let reason := if r.isSuccess then ExitReason.succeed else .revert
    let r : EvmResult := { EvmResult.empty with exitReason := reason, remainingGas := t.getCoreGas }
    ⟨.notPresent, true, .evm r⟩

/-- The `CpsContext` of a transaction `RunFromEvm` runs: a direct call (`eth_call`) is static. -/
def evmEnv (o : CpsOracles) (ctx : EvmProcessContext) : CpsEnv :=
  ⟨o, ctx.args.origin, ctx.direct, ctx.args.estimate, fromEvmContext ctx⟩

/-- The run `RunFromEvm` pushes: a deployment when the destination is the null address. -/
def evmFirstRun (ctx : EvmProcessContext) : CpsRun :=
  .evm ctx.args (if isNullAddress ctx.args.address then RunType.create else .call)

/-- The end of `RunFromEvm`, once `processLoop` returned `res` in the state `st`. An estimate or a
    direct call discards everything and charges nothing; otherwise the nonce is bumped, and a failure
    is charged the used gas on the parent store. -/
def finishEvm (ctx : EvmProcessContext) (res : CpsExecuteResult) (st : CpsState) : ExecOutcome :=
  let givenGasCore := gasUnitsFromEthToCore ctx.args.gasLimit
  let gasRemainingCore := st.tracker.getCoreGas
  let isFailure := !st.queue.isEmpty || !res.isSuccess
  let isEstimate := !ctx.commit
  let isEthCall := ctx.direct
  let usedGasCore := sub64 givenGasCore gasRemainingCore
  let discard := isFailure || isEstimate || isEthCall
  let s := if discard then st.store.revertContractStorageState.discardAtomics
    else (refundGasEvm ctx (GasTracker.createFromCore gasRemainingCore) st.store).commitAtomics
  let receipt := if !discard then (st.receipt.setCumGas usedGasCore).setResult true
    else if isFailure then (st.receipt.setCumGas usedGasCore).setResult false
    else ((st.receipt.setCumGas usedGasCore).setResult true).clear
  let charged : Option AccountStoreSC :=
    if !isEstimate && !isEthCall then
      let s := s.increaseNonceForAccount ctx.args.origin
      if isFailure then
        (SafeMath.mul 256 (gasUnitsFromCoreToEth usedGasCore) (getGasPriceWei ctx)).map
          fun gasCost => (s.decreaseBalance ctx.args.origin (Amount.fromWei gasCost)).2
      else some s
    else some s
  match charged with
  | none =>
    .returned (CpsExecuteResult.fail .error) (s.increaseNonceForAccount ctx.args.origin) receipt
  | some s =>
    if isEstimate then .returned (estimateResult res isFailure st.tracker) s receipt
    else .returned res s receipt

/-- **`CpsExecutor::RunFromEvm`.** -/
def runFromEvm (o : CpsOracles) (fuel : ℕ) (ctx : EvmProcessContext) (s : AccountStoreSC)
    (receipt : TransactionReceipt) : Option ExecOutcome :=
  let s := s.discardAtomics
  let pre := preValidateEvmRun ctx s
  if !pre.isSuccess then
    -- the sender's nonce is bumped here whatever the mode
    some (.returned pre (s.increaseNonceForAccount ctx.args.origin)
      ((receipt.setResult false).setCumGas 0))
  else
  let s := takeGasFromAccountEvm ctx s
  ExecOutcome.ofLoop (finishEvm ctx)
    (processLoop (evmEnv o ctx) fuel
      ⟨s, GasTracker.createFromEth ctx.args.gasLimit, receipt, [evmFirstRun ctx]⟩)

end Zilliqa
