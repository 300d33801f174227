import Zilliqa.Cps.Context

/-!
# `Cps.RunEvm` — `CpsRunEvm`: one EVM run and its trap handlers

`CpsRunEvm::Run` charges the entry fee of a fresh `Create` or `Call` run and moves its value,
invokes the EVM with the tracker's gas, charges what the EVM reports as used, and then dispatches
on the exit reason: a successful run's `apply` list is carried out by `HandleApply`; a trap pushes
the run itself back (to be resumed), the child run the trap asks for and, for a value transfer, a
`CpsRunTransfer` that runs first.

Every definition keeps the order of the source's statements: several handlers return a failure
after they have already pushed runs or changed the atomic store, and the executor's behaviour after
such a failure depends on exactly what was done before it.

## Contents
- `setCallContinuation`, `setCreateContinuation`: the continuation written before a run is pushed
  back.
- `applyModify` and `processApplies`: the `apply` loop shared by `HandleCallTrap` and
  `HandleApply`.
- `handleApply` (with `installCode`), `handleCallTrap`, `handlePrecompileTrap`,
  `handleCreateTrap`, `handleTrap`.
- `runPreamble`, `invoke` and `run`: `CpsRunEvm::Run`.
-/

namespace Zilliqa

/-- `Address::asBytes`: the 20 bytes of the address, most significant first. -/
def Address.asBytes (a : Address) : Bytes :=
  (List.range 20).reverse.map fun i => UInt8.ofNat (a.val / 256 ^ i)

/-- `CONTRACT_ADDR_INDICATOR`. -/
def contractAddrIndicator : String := "_addr"

/-- The largest `uint64_t`, which a trap's `target_gas` uses for "all remaining gas". -/
def uint64Max : ℕ := 2 ^ 64 - 1

namespace CpsRunEvm

/-- The continuation `mutable_continuation()` creates when the arguments have none. -/
def defaultContinuation : Continuation := ⟨0, .call, .none, [], false⟩

/-- The continuation a call or precompile trap stores before the run is pushed back: type `CALL`,
    the trap's id, offsets and logs. Fields it does not set, and the call data already held, are
    kept. -/
def setCallContinuation (args : EvmArgs) (id memoryOffset offsetLen : ℕ) (logs : List EvmLog) :
    EvmArgs :=
  let c := args.continuation.getD defaultContinuation
  let data : Bytes := match c.feedbackData with
    | .calldata d _ _ => d
    | _ => []
  let c' : Continuation := { c with
    feedbackType := .call, id := id, feedbackData := .calldata data memoryOffset offsetLen,
    logs := logs }
  { args with continuation := some c' }

/-- The continuation a create trap stores: type `CREATE` and the trap's id. -/
def setCreateContinuation (args : EvmArgs) (id : ℕ) : EvmArgs :=
  let c := args.continuation.getD defaultContinuation
  { args with continuation := some { c with feedbackType := .create, id := id } }

/-- The gas a trap asks for: its `target_gas`, unless that is `0` or the `uint64_t` maximum. -/
def targetGasOf (targetGas ethGas : ℕ) : ℕ :=
  if targetGas ≠ uint64Max ∧ targetGas ≠ 0 then targetGas else ethGas

/-- What the `apply` loop remembers: the deleted account and the recipient of its funds. -/
structure ApplyAcc where
  accountToRemove : Address
  fundsRecipient : Address
  funds : Amount
deriving DecidableEq, Repr

/-- The loop's initial values: default-constructed addresses and amount. -/
def ApplyAcc.init : ApplyAcc := ⟨Address.null, Address.null, Amount.zero⟩

variable (env : CpsEnv)

/-- A `kModify` entry. The account of the running contract is created when missing, whatever
    the entry's address; storage is reset and written only for that contract and only outside a
    static call. -/
def applyModify (args : EvmArgs) (address : Address) (resetStorage : Bool)
    (storage : List (Bytes × Bytes)) (s : AccountStoreSC) : AccountStoreSC :=
  let this := args.address
  let s := if s.accountExistsAtomic this then s else (s.addAccountAtomic this).2
  let s := if resetStorage && address == this && !args.isStaticCall then
      (s.updateStates this [] (env.fetchStateKeys s this)).2
    else s
  -- the storage loop breaks on its first entry exactly when this test holds, which is the same
  -- for every entry
  let s := if address != this || args.isStaticCall then s
    else storage.foldl (fun s kv => s.updateStateValue this kv.1 kv.2) s
  s.addAddressToUpdateBufferAtomic this

/-- The `apply` loop of `HandleCallTrap` and `HandleApply`. -/
def processApplies (args : EvmArgs) : List EvmApply → ApplyAcc × AccountStoreSC →
    ApplyAcc × AccountStoreSC
  | [], p => p
  | .delete a :: rest, (acc, s) => processApplies args rest ({ acc with accountToRemove := a }, s)
  | .modify a balance reset storage :: rest, (acc, s) =>
    let acc := match balance with
      | some b => { acc with fundsRecipient := a, funds := Amount.fromQa b }
      | none => acc
    processApplies args rest (acc, applyModify env args a reset storage s)
  | .notSet :: rest, p => processApplies args rest p

/-- `InstallCode`: record the address in the contract's metadata and set its code. -/
def installCode (s : AccountStoreSC) (address : Address) (code : Bytes) : AccountStoreSC :=
  let s := (s.updateStates address [(⟨address, contractAddrIndicator, []⟩, address.asBytes)] []).2
  s.setImmutableAtomic address (evmPrefix ++ code) []

/-- `HandleApply`: the `apply` loop, then the self-destruct sweep of a non-static run (the
    contract's funds go to the recipient and its balance is set to zero), then the code of a
    created contract. -/
def handleApply (args : EvmArgs) (type : RunType) (result : EvmResult) (st : CpsState) :
    CpsState :=
  let this := args.address
  let (acc, s) := processApplies env args result.apply (ApplyAcc.init, st.store)
  let s := if acc.accountToRemove == this && !args.isStaticCall then
      let funds := s.getBalanceForAccountAtomic acc.accountToRemove
      let s := (s.transferBalanceAtomic acc.accountToRemove acc.fundsRecipient funds).2
      let s := s.setBalanceAtomic acc.accountToRemove (Amount.fromQa 0)
      (s.addAddressToUpdateBufferAtomic acc.accountToRemove).addAddressToUpdateBufferAtomic
        acc.fundsRecipient
    else s
  let s := if type == .create || type == .trapCreate then installCode s this result.returnValue
    else s
  st.withStore s

/-- `HandleCallTrap`. -/
def handleCallTrap (args : EvmArgs) (type : RunType) (r : EvmResult) (c : TrapCall)
    (st : CpsState) : CpsExecuteResult × CpsState :=
  let st := st.withStore (processApplies env args r.apply (ApplyAcc.init, st.store)).2
  let targetGas := targetGasOf c.targetGas st.tracker.getEthGas
  let inputGas := min targetGas st.tracker.getEthGas
  if args.isStaticCall && !c.isStatic then (CpsExecuteResult.fail .incorrectTxnType, st)
  else
  let valueTransfer := !c.isStatic && decide (0 < c.transferValue)
  if valueTransfer && decide (inputGas < minEthGas) then
    (CpsExecuteResult.fail .insufficientGasLimit, st)
  else
  let st := if valueTransfer then st.decreaseByEth minEthGas else st
  let inputGas := if valueTransfer then inputGas - minEthGas else inputGas
  let st := st.pushRun
    (.evm (setCallContinuation args r.continuationId c.memoryOffset c.offsetLen r.logs) type)
  let callArgs : EvmArgs := ⟨c.destination, args.origin, c.caller,
    stripEvm (st.store.getContractCode c.calleeAddress), c.callData, c.apparentValue, inputGas,
    env.estimate, "TrapCall", c.isStatic, none⟩
  let st := st.pushRun (.evm callArgs .trapCall)
  -- the transfer is checked only after the continuation and the call have been pushed
  if valueTransfer then
    if c.transferSource ≠ env.origSender ∧ c.transferSource ≠ args.address then
      (CpsExecuteResult.fail .incorrectTxnType, st)
    else if (Amount.fromWei c.transferValue).gt
        (st.store.getBalanceForAccountAtomic c.transferSource) then
      (CpsExecuteResult.fail .insufficientBalance, st)
    else
      (CpsExecuteResult.ok, st.pushRun (.transfer (.evm EvmResult.empty) c.transferSource
        c.transferDestination (Amount.fromWei c.transferValue)))
  else (CpsExecuteResult.ok, st)

/-- `HandlePrecompileTrap`: the call goes to a Scilla contract, as a `TrapScillaCall` run. -/
def handlePrecompileTrap (args : EvmArgs) (type : RunType) (r : EvmResult) (c : TrapCall)
    (st : CpsState) : CpsExecuteResult × CpsState :=
  match env.parsePrecompile c.callData with
  | none => (CpsExecuteResult.fail .incorrectTxnType, st)
  | some p =>
    let sender := if p.keepOrigin == some true then args.caller else args.address
    let st := st.decreaseByCore (scillaRunnerInvokeGas + contractInvokeGas)
    if args.isStaticCall && !c.isStatic then (CpsExecuteResult.fail .incorrectTxnType, st)
    else
    let st := st.pushRun
      (.evm (setCallContinuation args r.continuationId c.memoryOffset c.offsetLen r.logs) type)
    let scillaArgs : ScillaArgs := ⟨args.address, p.address, env.origSender,
      Amount.fromWei c.transferValue, .json ⟨some sender, some env.origSender, .ok 0, p.tag, p.params⟩, 0, 0,
      some Address.null⟩
    (CpsExecuteResult.ok, st.pushRun (.scilla scillaArgs .trapScillaCall))

/-- The created contract's address and its creator, by the trap's scheme. -/
def createAddresses (args : EvmArgs) (scheme : CreateScheme) (s : AccountStoreSC) :
    Address × Address :=
  match scheme with
  | .legacy caller =>
    (env.getAddressForContract caller (s.getNonceForAccountAtomic caller) .ethLegacy, caller)
  | .create2 caller a => (a, caller)
  | .fixed a => (a, args.address)
  | .notSet => (Address.null, Address.null)

/-- `HandleCreateTrap`. -/
def handleCreateTrap (args : EvmArgs) (type : RunType) (r : EvmResult) (c : TrapCreate)
    (st : CpsState) : CpsExecuteResult × CpsState :=
  let (contractAddress, fromAddress) := createAddresses env args c.scheme st.store
  if args.isStaticCall then (CpsExecuteResult.fail .incorrectTxnType, st)
  else
  match st.store.addAccountAtomic contractAddress with
  | (false, s) => (CpsExecuteResult.fail .failContractAccountCreation, st.withStore s)
  | (true, s) =>
    let st := st.withStore (s.increaseNonceForAccountAtomic fromAddress)
    let targetGas := targetGasOf c.targetGas st.tracker.getEthGas
    let inputGas := min c.targetGas targetGas
    let valueTransfer := decide (0 < c.value)
    if valueTransfer && decide (inputGas < minEthGas) then
      (CpsExecuteResult.fail .insufficientGasLimit, st)
    else
    let inputGas := if valueTransfer then inputGas - minEthGas else inputGas
    let st := if valueTransfer then st.decreaseByEth minEthGas else st
    let st := st.pushRun (.evm (setCreateContinuation args r.continuationId) type)
    let baseFee := getGasUnitsForContractDeployment [] c.callData
    if baseFee > inputGas then (CpsExecuteResult.fail .insufficientGasLimit, st)
    else
    let inputGas := sub64 inputGas (sub64 targetGas baseFee)
    let st := st.decreaseByEth baseFee
    let createArgs : EvmArgs := ⟨contractAddress, args.origin, fromAddress, c.callData, [], c.value,
      inputGas, env.estimate, "TrapCreate", false, none⟩
    let st := st.pushRun (.evm createArgs .trapCreate)
    if valueTransfer then
      if fromAddress ≠ args.address ∧ fromAddress ≠ env.origSender then
        (CpsExecuteResult.fail .invalidFromAccount, st)
      else if (Amount.fromWei c.value).gt (st.store.getBalanceForAccountAtomic fromAddress) then
        (CpsExecuteResult.fail .insufficientBalance, st)
      else
        (CpsExecuteResult.ok, st.pushRun
          (.transfer (.evm EvmResult.empty) fromAddress contractAddress (Amount.fromWei c.value)))
    else (CpsExecuteResult.ok, st)

/-- `HandleTrap`. -/
def handleTrap (args : EvmArgs) (type : RunType) (r : EvmResult) (st : CpsState) :
    CpsExecuteResult × CpsState :=
  match r.trapData with
  | .create c => handleCreateTrap env args type r c st
  | .call c =>
    if c.isPrecompile then handlePrecompileTrap env args type r c st
    else handleCallTrap env args type r c st

/-- The part of `Run` before the EVM is invoked: a fresh `Create` run creates its contract's
    account, pays the deployment fee and moves its value; a fresh `Call` run loads the code, pays
    `MIN_ETH_GAS` and moves its value. A resumed run, and any other type, go straight on. -/
def runPreamble (args : EvmArgs) (type : RunType) (contractAddress : Address) (st : CpsState) :
    (CpsExecuteResult × CpsState) ⊕ (EvmArgs × CpsState) :=
  if (CpsRun.evm args type).isResumable then .inr (args, st)
  else if type = .create then
    let st := st.withStore (st.store.addAccountAtomic contractAddress).2
    let args := { args with address := contractAddress }
    let st := st.decreaseByEth (getGasUnitsForContractDeployment [] args.code)
    match st.store.transferBalanceAtomic args.origin args.address (Amount.fromWei args.apparentValue)
    with
    | (false, s) => .inl (CpsExecuteResult.fail .insufficientBalance, st.withStore s)
    | (true, s) => .inr (args, st.withStore s)
  else if type = .call then
    let args := { args with code := stripEvm (st.store.getContractCode args.address) }
    let st := st.decreaseByEth minEthGas
    match st.store.transferBalanceAtomic args.origin args.address (Amount.fromWei args.apparentValue)
    with
    | (false, s) => .inl (CpsExecuteResult.fail .insufficientBalance, st.withStore s)
    | (true, s) => .inr (args, st.withStore s)
  else .inr (args, st)

/-- The EVM invocation and what follows it. A timeout ends the run with the default result;
    otherwise the used gas is charged and the exit reason decides. -/
def invoke (args : EvmArgs) (type : RunType) (st : CpsState) : CpsExecuteResult × CpsState :=
  let args := { args with gasLimit := st.tracker.getEthGas }
  let st := st.withStore (st.store.addAddressToUpdateBufferAtomic args.address)
  match env.invokeEvm st.store args with
  | none => (CpsExecuteResult.fail .notPresent, { st with receipt := st.receipt.setResult false })
  | some r =>
    let st := st.decreaseByEth (sub64 args.gasLimit r.remainingGas)
    match r.exitReason with
    | .trap => handleTrap env args type r st
    | .succeed => (⟨.notPresent, true, .evm r⟩, handleApply env args type r st)
    | _ =>
      -- a failed child lets the executor go on: its caller is told through the feedback
      if type = .trapCall ∨ type = .trapCreate then (⟨.notPresent, true, .evm r⟩, st)
      else (⟨.notPresent, false, .evm r⟩, st)

/-- **`CpsRunEvm::Run`.** -/
def run (args : EvmArgs) (type : RunType) (st : CpsState) : CpsExecuteResult × CpsState :=
  let contractAddress := env.getAddressForContract args.origin
    (st.store.getNonceForAccountAtomic args.origin) .ethLegacy
  match runPreamble args type contractAddress st with
  | .inl res => res
  | .inr (args, st) => invoke env args type st

end CpsRunEvm

end Zilliqa
