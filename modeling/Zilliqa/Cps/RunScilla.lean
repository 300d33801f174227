import Zilliqa.Cps.RunEvm

/-!
# `Cps.RunScilla` — `CpsRunScilla` and the parsers of the Scilla interpreter's output

A Scilla run either deploys a contract (`runCreate`: checker, then runner) or calls one
(`runCall`). A call's output lists the messages the contract sends; each becomes a run pushed on
the stack, in reverse so that they execute in order: a `CpsRunTransfer` for a message to an account,
a further `CpsRunScilla` for a message to a contract. A transfer run carries the `ScillaResult`
computed when it was pushed.

The three output parsers share the handling of `gas_remaining` (`gasRemainingStep`, with the
penalty each passes). `ProbeERC165Interface` invokes the EVM three times; its last call reads the
EVM's answer without testing it, which throws when the EVM timed out, so it and everything that
calls it return an `Option` whose `none` is that exception.

## Contents
- `checkGas`; `gasRemainingStep`; `parseContractCheckerOutput`, `parseCreateContract`.
- `probeErc165Interface`, `parseMessages`, `parseCallContractJsonOutput`, `parseCallContract`.
- `invokeScillaInterpreter`, `runCreate`, `pushEntries`, `runCall` and `run`.
-/

namespace Zilliqa

/-- `SCILLA_VERSION_INDICATOR`. -/
def scillaVersionIndicator : String := "_version"

/-- `MAP_DEPTH_INDICATOR`. -/
def mapDepthIndicator : String := "_depth"

/-- `TYPE_INDICATOR`. -/
def typeIndicator : String := "_type"

/-- `DataConversion::StringToCharArray`. -/
def stringToCharArray (s : String) : Bytes := s.toUTF8.toList

/-- `std::map::emplace`: an entry whose key is present already is not added. -/
def emplace {κ ν : Type} [DecidableEq κ] (m : List (κ × ν)) (e : κ × ν) : List (κ × ν) :=
  if m.any (·.1 == e.1) then m else m ++ [e]

/-- `boost::lexical_cast` to an unsigned `w`-bit integer: fails on a non-number and on overflow. -/
def parseUint (w : ℕ) : Field ℕ → Option ℕ
  | .ok n => if n < 2 ^ w then some n else none
  | _ => none

namespace ScillaHelpers

/-- The `gas_remaining` handling of the three output parsers. A missing member costs `penalty`, or
    all the remaining gas when that is not more; a malformed one fails; a value caps the tracker. -/
def gasRemainingStep (penalty : ℕ) (gasRemaining : Field ℕ) (t : GasTracker) : Bool × GasTracker :=
  match gasRemaining with
  | .missing =>
    (false, if t.getCoreGas > penalty then t.decreaseByCore penalty
      else t.decreaseByCore t.getCoreGas)
  | .malformed => (false, t)
  | .ok g => if g < 2 ^ 64 then (true, t.setGasCore (min t.getCoreGas g)) else (false, t)

/-- The metadata the checker's `contract_info.fields` produce: depth and type of each field. A
    field without `vname`, a numeric `depth` or `type` fails the parse. -/
def checkerFieldsMetadata (addr : Address) :
    List CheckerField → List (StorageKey × Bytes) → Option (List (StorageKey × Bytes))
  | [], m => some m
  | f :: rest, m =>
    match f.vname, f.depth, f.type with
    | some v, .ok d, some ty =>
      let m := emplace m (⟨addr, mapDepthIndicator, [v]⟩, stringToCharArray (toString d))
      checkerFieldsMetadata addr rest (emplace m (⟨addr, typeIndicator, [v]⟩, stringToCharArray ty))
    | _, _, _ => none

/-- `ScillaHelpers::ParseContractCheckerOutput`: success, the metadata, and the tracker. -/
def parseContractCheckerOutput (addr : Address) (out : Option ScillaOutput)
    (metadata : List (StorageKey × Bytes)) (t : GasTracker) (isLibrary : Bool) :
    Bool × List (StorageKey × Bytes) × GasTracker :=
  match out with
  | none => (false, metadata, t)
  | some o =>
    match gasRemainingStep contractCreateGas o.gasRemaining t with
    | (false, t) => (false, metadata, t)
    | (true, t) =>
      if isLibrary then (!o.errors, metadata, t)
      else
        match o.contractInfo with
        | none => (false, metadata, t)
        | some fields =>
          if !fields.isMember then (true, metadata, t)
          else if !fields.isArray then (false, metadata, t)
          else
            match checkerFieldsMetadata addr fields.elems metadata with
            | none => (false, metadata, t)
            | some m => (true, m, t)

/-- `ScillaHelpersCreate::ParseCreateContract`: the runner output of a deployment. -/
def parseCreateContract (t : GasTracker) (out : Option ScillaOutput) (isLibrary : Bool) :
    Bool × GasTracker :=
  match out with
  | none => (false, t)
  | some o =>
    match gasRemainingStep contractCreateGas o.gasRemaining t with
    | (false, t) => (false, t)
    | (true, t) =>
      if isLibrary then (true, t)
      else if !o.messages.isMember || !o.events.isMember then (false, t)
      else (o.messages.isNull && o.states.isArray && o.events.isArray, t)

end ScillaHelpers

namespace CpsRunScilla

open ScillaHelpers

variable (env : CpsEnv)

/-- `CpsRunScilla::checkGas`. Sizes are cast to `unsigned int`. -/
def checkGas (args : ScillaArgs) (type : RunType) (t : GasTracker) : Bool :=
  match args.calldata with
  | .json _ => decide (scillaRunnerInvokeGas ≤ t.getCoreGas)
  | .codeData cd =>
    if type = .create then
      let createPenalty := max contractCreateGas ((cd.code.length + cd.data.length) % 2 ^ 32)
      decide (max (scillaCheckerInvokeGas + scillaRunnerInvokeGas) createPenalty ≤ t.getCoreGas)
    else if type = .call then
      let callPenalty := max contractInvokeGas (cd.data.length % 2 ^ 32)
      decide (max scillaRunnerInvokeGas callPenalty ≤ t.getCoreGas)
    else true

/-- The call data of an ERC-165 `supportsInterface` query for the given selector. -/
def erc165Data (selector : Bytes) : Bytes := [1, 255, 201, 167] ++ selector ++ List.replicate 28 0

/-- The arguments of a probe call. -/
def probeArgs (s : AccountStoreSC) (caller dest : Address) (data : Bytes) : EvmArgs :=
  ⟨dest, env.origSender, caller, stripEvm (s.getContractCode dest), data, 0, 30000, false,
    "ScillaCall", false, none⟩

/-- Whether an EVM return value encodes `true`: non-empty, last byte `1`. -/
def endsWithOne (b : Bytes) : Bool := b.getLast? == some 1

/-- `CpsRunEvm::ProbeERC165Interface`: whether the EVM contract implements the Scilla receiver
    interface. `none` is the exception of the third probe's unchecked `value()`. -/
def probeErc165Interface (s : AccountStoreSC) (caller dest : Address) : Option Bool :=
  match env.invokeEvm s (probeArgs env s caller dest (erc165Data [1, 255, 201, 167])) with
  | none => some false
  | some r1 =>
    if !endsWithOne r1.returnValue then some false
    else
      match env.invokeEvm s (probeArgs env s caller dest (erc165Data [255, 255, 255, 255])) with
      | none => some false
      | some r2 =>
        if endsWithOne r2.returnValue then some false
        else
          match env.invokeEvm s (probeArgs env s caller dest (erc165Data [235, 200, 162, 127])) with
          | none => none
          | some r3 => some (endsWithOne r3.returnValue)

/-- `ScillaCallParseResult::SingleResult`. -/
structure SingleResult where
  nextInputMessage : CallJson
  nextAddress : Address
  amount : Amount
  isNextContract : Bool
deriving DecidableEq, Repr

/-- A successful `ScillaCallParseResult`. -/
structure CallParse where
  accepted : Bool
  entries : List SingleResult
deriving DecidableEq, Repr

/-- Prepend an entry to the rest of the message loop's outcome. -/
def consEntry (e : SingleResult) :
    Option (Option (List SingleResult) × TransactionReceipt) →
      Option (Option (List SingleResult) × TransactionReceipt)
  | some (some es, r) => some (some (e :: es), r)
  | other => other

/-- The message loop of `ParseCallContractJsonOutput`. The outcome is `none` when the probe
    throws, `some (none, r)` when the parse fails, and otherwise the entries. -/
def parseMessages (s : AccountStoreSC) (args : ScillaArgs) (preVersion : ℕ) :
    List ScillaMessage → TransactionReceipt →
      Option (Option (List SingleResult) × TransactionReceipt)
  | [], r => some (some [], r)
  | msg :: rest, r =>
    match msg.tag, msg.recipient with
    | some tag, some recipient =>
      if msg.amount = .missing ∨ !msg.params.isMember then some (none, r)
      else
      match parseUint 128 msg.amount with
      | none => some (none, r)
      | some qa =>
        let amount := Amount.fromQa qa
        let toAccount : SingleResult := ⟨CallJson.empty, recipient, amount, false⟩
        if msg.params.elems.any (·.vname == some "_EvmCall") then some (none, r)
        else if tag.isEmpty then consEntry toAccount (parseMessages s args preVersion rest r)
        else
        let r := r.addTransition args.dest args.depth
        match s.getAccountType recipient with
        | .doesNotExist | .eoa => consEntry toAccount (parseMessages s args preVersion rest r)
        | _ =>
          if s.isAccountEvmContract recipient then
            match probeErc165Interface env s args.dest recipient with
            | none => none
            | some true => some (none, r)
            | some false =>
              if args.extras ≠ some Address.null then some (none, r)
              else consEntry toAccount (parseMessages s args preVersion rest r)
          else if args.edge > maxContractEdges then some (none, r)
          else
            match s.getContractAuxiliaries recipient with
            | none => some (none, r)
            | some (_, version, _) =>
              if version ≠ preVersion then some (none, r)
              else
                let message : CallJson :=
                  ⟨some args.dest, some args.origin, msg.amount, msg.tag, msg.params⟩
                consEntry ⟨message, recipient, amount, true⟩
                  (parseMessages s args preVersion rest r)
    | _, _ => some (none, r)

/-- `ScillaHelpersCall::ParseCallContractJsonOutput`: the parse, the tracker and the receipt;
    `none` when the probe throws. -/
def parseCallContractJsonOutput (s : AccountStoreSC) (args : ScillaArgs) (out : ScillaOutput)
    (t : GasTracker) (r : TransactionReceipt) (preVersion : ℕ) :
    Option (Option CallParse × GasTracker × TransactionReceipt) :=
  match gasRemainingStep contractInvokeGas out.gasRemaining t with
  | (false, t) => some (none, t, r)
  | (true, t) =>
    if !out.messages.isMember || !out.events.isMember then some (none, t, r)
    else
      match out.accepted with
      | none => some (none, t, r)
      | some a =>
        let accepted := a == "true"
        let r? := if args.depth = 0 then some (r.addAccepted accepted)
          else r.addAcceptedForLastTransition accepted
        match r? with
        | none => some (none, t, r)
        | some r =>
          if out.events.elems.any (! ·) then some (none, t, r)
          else if !out.messages.isArray then some (none, t, r)
          else
            (parseMessages env s args preVersion out.messages.elems r).map fun (es, r) =>
              (es.map (⟨accepted, ·⟩), t, r)

/-- `ScillaHelpersCall::ParseCallContract`: output that is not JSON fails. -/
def parseCallContract (s : AccountStoreSC) (args : ScillaArgs) (out : Option ScillaOutput)
    (t : GasTracker) (r : TransactionReceipt) (preVersion : ℕ) :
    Option (Option CallParse × GasTracker × TransactionReceipt) :=
  match out with
  | none => some (none, t, r)
  | some o => parseCallContractJsonOutput env s args o t r preVersion

/-- `InvokeScillaInterpreter`: refused for an account without contract auxiliaries. -/
def invokeScillaInterpreter (type : InvokeType) (s : AccountStoreSC) (args : ScillaArgs)
    (t : GasTracker) : ScillaInvokeResult :=
  match s.getContractAuxiliaries args.dest with
  | none => ⟨false, none⟩
  | some _ => env.invokeScilla type s args t.getCoreGas

/-- A failed Scilla run's result, carrying the gas figure of the moment. -/
def failWith (status : TxnStatus) (gas : ℕ) : CpsExecuteResult :=
  ⟨status, false, .scilla ⟨gas, false⟩⟩

/-- The checks and file exports shared by both kinds of run before the interpreter is called:
    the status of the first that fails. -/
def prepareRun (s : AccountStoreSC) (args : ScillaArgs) (isLibrary : Bool) (version : ℕ)
    (extlibs : List Address) (exportFiles : Bool) : Option TxnStatus :=
  if disableScillaLib && isLibrary then some .failScillaLib
  else if !env.populateExtlibsExports s version extlibs then some .failScillaLib
  else if !exportFiles then some .failScillaLib
  else if !(s.accountExistsAtomic args.dest && env.hasScillaIpcServer) then some .error
  else none

/-- **`CpsRunScilla::runCreate`.** The failure results report the gas figure computed at the last
    checkpoint, not the tracker's current value. -/
def runCreate (args : ScillaArgs) (st : CpsState) : CpsExecuteResult × CpsState :=
  match args.calldata with
  | .json _ => (CpsExecuteResult.fail .error, st)
  | .codeData cd =>
  let createPenalty := max contractCreateGas ((cd.code.length + cd.data.length) % 2 ^ 32)
  let failedRet := sub64 env.scillaExtras.gasLimit createPenalty
  let dest := env.getAddressForContract args.fromAddr
    (st.store.getNonceForAccountAtomic args.fromAddr) .zil
  let args := { args with dest := dest }
  match st.store.addAccountAtomic dest with
  | (false, s) => (failWith .failContractAccountCreation failedRet, st.withStore s)
  | (true, s) =>
  match s.transferBalanceAtomic args.fromAddr dest args.value with
  | (false, s) => (failWith .insufficientBalance failedRet, st.withStore s)
  | (true, s) =>
  match s.initContract env.prepareInitDataJson dest cd.code cd.data env.scillaExtras.blockNum with
  | (false, s) => (failWith .failContractInit failedRet, st.withStore s)
  | (true, s) =>
  let st := st.withStore s
  match s.getContractAuxiliaries dest with
  | none => (failWith .failScillaLib failedRet, st)
  | some (isLibrary, version, extlibs) =>
  match prepareRun env s args isLibrary version extlibs (env.exportCreateContractFiles s dest) with
  | some status => (failWith status failedRet, st)
  | none =>
  let st := st.decreaseByCore scillaCheckerInvokeGas
  let failedRet := min st.tracker.getCoreGas (sub64 env.scillaExtras.gasLimit createPenalty)
  let checker := invokeScillaInterpreter env .checker st.store args st.tracker
  if !checker.isSuccess then (failWith .notPresent failedRet, st)
  else
  let metadata := [(⟨dest, scillaVersionIndicator, []⟩, stringToCharArray (toString version))]
  match parseContractCheckerOutput dest checker.returnVal metadata st.tracker isLibrary with
  | (false, _, t) => (failWith .notPresent failedRet, { st with tracker := t })
  | (true, metadata, t) =>
  let st := ({ st with tracker := t } : CpsState).decreaseByCore scillaRunnerInvokeGas
  let failedRet := min st.tracker.getCoreGas (sub64 env.scillaExtras.gasLimit createPenalty)
  let runner := invokeScillaInterpreter env .runnerCreate st.store args st.tracker
  if !runner.isSuccess then (failWith .notPresent failedRet, st)
  else
  match parseCreateContract st.tracker runner.returnVal isLibrary with
  | (false, t) => (failWith .notPresent failedRet, { st with tracker := t })
  | (true, t) =>
  let st : CpsState := { st with tracker := t }
  let metadata := emplace metadata (⟨dest, contractAddrIndicator, []⟩, dest.asBytes)
  match st.store.updateStates dest metadata [] with
  | (false, s) => (failWith .error failedRet, st.withStore s)
  | (true, s) =>
  let s := (s.addAddressToUpdateBufferAtomic args.fromAddr).addAddressToUpdateBufferAtomic dest
  (⟨.notPresent, true, .scilla ⟨st.tracker.getCoreGas, false⟩⟩, st.withStore s)

/-- The loop of `runCall` over the parsed entries, in reverse: each costs `CONTRACT_INVOKE_GAS`,
    creates its recipient's account when missing and pushes its run. The gas figure is carried
    along; `.inl` is the early return for lack of gas. -/
def pushEntries (args : ScillaArgs) (callPenalty : ℕ) :
    List SingleResult → ℕ → CpsState → (ℕ × CpsState) ⊕ (ℕ × CpsState)
  | [], ret, st => .inr (ret, st)
  | e :: rest, ret, st =>
    if st.tracker.getCoreGas < contractInvokeGas then .inl (ret, st)
    else
    let st := st.decreaseByCore contractInvokeGas
    let st := if st.store.accountExistsAtomic e.nextAddress then st
      else st.withStore (st.store.addAccountAtomic e.nextAddress).2
    let ret := min (sub64 env.scillaExtras.gasLimit callPenalty) st.tracker.getCoreGas
    let next : CpsRun :=
      if !e.isNextContract then .transfer (.scilla ⟨ret, false⟩) args.dest e.nextAddress e.amount
      else .scilla ⟨args.dest, e.nextAddress, args.origin, e.amount, .json e.nextInputMessage,
        args.edge + 1, args.depth + 1, args.extras⟩ .call
    pushEntries args callPenalty rest ret (st.pushRun next)

/-- **`CpsRunScilla::runCall`**; `none` when the output parse throws. -/
def runCall (args : ScillaArgs) (st : CpsState) : Option (CpsExecuteResult × CpsState) :=
  let callPenalty := max contractInvokeGas (env.scillaExtras.data.length % 2 ^ 32)
  let retOf (st : CpsState) : ℕ :=
    min (sub64 env.scillaExtras.gasLimit callPenalty) st.tracker.getCoreGas
  let ret := retOf st
  if !st.store.accountExistsAtomic args.dest then some (failWith .invalidToAccount ret, st)
  else if args.value.gt (st.store.getBalanceForAccountAtomic args.fromAddr) then
    some (failWith .insufficientBalance ret, st)
  else
  let st := st.decreaseByCore scillaRunnerInvokeGas
  let ret := retOf st
  match st.store.getContractAuxiliaries args.dest with
  | none => some (failWith .failScillaLib ret, st)
  | some (isLibrary, version, extlibs) =>
  match prepareRun env st.store args isLibrary version extlibs
    (env.exportCallContractFiles st.store args) with
  | some status => some (failWith status ret, st)
  | none =>
  let runner := invokeScillaInterpreter env .runnerCall st.store args st.tracker
  if !runner.isSuccess then some (failWith .notPresent ret, st)
  else
  match parseCallContract env st.store args runner.returnVal st.tracker st.receipt version with
  | none => none
  | some (none, t, r) => some (failWith .notPresent ret, { st with tracker := t, receipt := r })
  | some (some p, t, r) =>
  let st : CpsState := { st with tracker := t, receipt := r }
  let moved := if p.accepted then st.store.transferBalanceAtomic args.fromAddr args.dest args.value
    else (true, st.store)
  match moved with
  | (false, s) => some (failWith .insufficientBalance ret, st.withStore s)
  | (true, s) =>
  let st := st.withStore s
  let st : CpsState := if p.entries.isEmpty then st else { st with receipt := st.receipt.addEdge }
  match pushEntries env args callPenalty p.entries.reverse ret st with
  | .inl (ret, st) => some (failWith .insufficientGasLimit ret, st)
  | .inr (ret, st) =>
    let s := (st.store.addAddressToUpdateBufferAtomic args.fromAddr).addAddressToUpdateBufferAtomic
      args.dest
    some (⟨.notPresent, true, .scilla ⟨ret, true⟩⟩, st.withStore s)

/-- **`CpsRunScilla::Run`.** -/
def run (args : ScillaArgs) (type : RunType) (st : CpsState) :
    Option (CpsExecuteResult × CpsState) :=
  if type ≠ .call ∧ type ≠ .create ∧ type ≠ .trapScillaCall then
    some (CpsExecuteResult.fail .incorrectTxnType, st)
  else if !checkGas args type st.tracker then
    some (CpsExecuteResult.fail .insufficientGasLimit, st)
  else if type = .create then some (runCreate env args st)
  else runCall env args st

end CpsRunScilla

end Zilliqa
