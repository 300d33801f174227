import Zilliqa.Cps.Types

/-!
# `Cps.Context` — the shared context of a transaction's runs, and the run stack

`CpsContext` is shared by every run of one transaction; only its `GasTracker` changes, and it is
kept with the other mutable parts in `CpsState`. The fixed parts are collected in `CpsEnv`,
together with every piece of code the runs call that lies outside the executor: the two
interpreters, the address hash, the file exports for Scilla and the contract storage reader. Each
is an arbitrary function of its inputs, so every theorem quantifies over all of them.

A run (`CpsRun`) is the data of a `CpsRunEvm`, `CpsRunScilla` or `CpsRunTransfer` object. The
executor's `m_queue` is a `std::vector` used as a stack through `back`, `push_back` and `pop_back`;
here it is a list whose head is the back.

## Contents
- `TxnVersion`, `CpsOracles`, `CpsEnv`, `RunType`, `CpsRun` with `isResumable` and `hasFeedback`.
- `CpsState` and the store, tracker and stack operations the runs perform on it.
-/

namespace Zilliqa

/-- The address schemes of `Account::GetAddressForContract`. -/
inductive TxnVersion where
  /-- `TRANSACTION_VERSION`: Zilliqa transactions. -/
  | zil
  /-- `TRANSACTION_VERSION_ETH_LEGACY`. -/
  | ethLegacy
deriving DecidableEq, Repr

/-- The code outside the executor that the runs call. -/
structure CpsOracles where
  /-- `CpsRunEvm::InvokeEvm`: the EVM's answer, `none` on a timeout. -/
  invokeEvm : AccountStoreSC → EvmArgs → Option EvmResult
  /-- The Scilla interpreter call of `InvokeScillaInterpreter`, past its auxiliaries check. -/
  invokeScilla : InvokeType → AccountStoreSC → ScillaArgs → ℕ → ScillaInvokeResult
  /-- `Account::GetAddressForContract`: a hash of the sender and its nonce. -/
  getAddressForContract : Address → ℕ → TxnVersion → Address
  /-- `Account::PrepareInitDataJson`: the stored init data, version, library flag and libraries. -/
  prepareInitDataJson : Bytes → Address → ℕ → Option (Bytes × ℕ × Bool × List Address)
  /-- The keys `FetchStateDataForContract(states, addr, "", {}, true)` returns. -/
  fetchStateKeys : AccountStoreSC → Address → List StorageKey
  /-- The precompile call data, parsed as JSON. -/
  parsePrecompile : Bytes → Option PrecompileCall
  /-- `ScillaHelpers::PopulateExtlibsExports`. -/
  populateExtlibsExports : AccountStoreSC → ℕ → List Address → Bool
  /-- `ScillaHelpers::ExportCreateContractFiles`. -/
  exportCreateContractFiles : AccountStoreSC → Address → Bool
  /-- `ScillaHelpers::ExportCallContractFiles` (both overloads). -/
  exportCallContractFiles : AccountStoreSC → ScillaArgs → Bool
  /-- Whether `m_scillaIPCServer` is set, which `SetBCInfoProvider` requires. -/
  hasScillaIpcServer : Bool

/-- The external code of a node with no interpreter behind it: every invocation fails, every
    export and lookup finds nothing. -/
def CpsOracles.idle : CpsOracles where
  invokeEvm := fun _ _ => none
  invokeScilla := fun _ _ _ _ => ⟨false, none⟩
  getAddressForContract := fun a _ _ => a
  prepareInitDataJson := fun _ _ _ => none
  fetchStateKeys := fun _ _ => []
  parsePrecompile := fun _ => none
  populateExtlibsExports := fun _ _ _ => false
  exportCreateContractFiles := fun _ _ => false
  exportCallContractFiles := fun _ _ => false
  hasScillaIpcServer := false

/-- The fixed part of `CpsContext`, with the external code. -/
structure CpsEnv extends CpsOracles where
  /-- `CpsContext::origSender`. -/
  origSender : Address
  /-- `CpsContext::isStatic`, set for direct (`eth_call`) contexts. -/
  isStatic : Bool
  /-- `CpsContext::estimate`. -/
  estimate : Bool
  /-- `CpsContext::scillaExtras`. -/
  scillaExtras : ScillaProcessContext

/-- `CpsRun::Type`. -/
inductive RunType where
  | call
  | create
  | transfer
  | trapCreate
  | trapCall
  | trapScillaCall
deriving DecidableEq, Repr

/-- A queued run: a `CpsRunEvm`, a `CpsRunScilla`, or a `CpsRunTransfer` with the result it
    was created with. -/
inductive CpsRun where
  | evm (args : EvmArgs) (type : RunType)
  | scilla (args : ScillaArgs) (type : RunType)
  | transfer (prev : ResultType) (fromAddr toAddr : Address) (amount : Amount)
deriving DecidableEq, Repr

namespace CpsRun

/-- `IsResumable`: only an EVM run with a continuation of non-zero id. -/
def isResumable : CpsRun → Bool
  | .evm args _ =>
    match args.continuation with
    | some c => decide (0 < c.id)
    | none => false
  | _ => false

/-- `HasFeedback`. -/
def hasFeedback : CpsRun → Bool
  | .evm _ type => type == .trapCall || type == .trapCreate
  | .scilla _ type => type == .trapScillaCall
  | .transfer .. => false

end CpsRun

/-- What the runs change: the account store, the `GasTracker` of the context, the receipt and the
    run stack (head first). -/
structure CpsState where
  store : AccountStoreSC
  tracker : GasTracker
  receipt : TransactionReceipt
  queue : List CpsRun

namespace CpsState

variable (st : CpsState)

/-- `CpsExecutor::PushRun`. -/
def pushRun (r : CpsRun) : CpsState := { st with queue := r :: st.queue }

/-- Replace the store. -/
def withStore (s : AccountStoreSC) : CpsState := { st with store := s }

/-- `gasTracker.DecreaseByEth`. -/
def decreaseByEth (v : ℕ) : CpsState := { st with tracker := st.tracker.decreaseByEth v }

/-- `gasTracker.DecreaseByCore`. -/
def decreaseByCore (v : ℕ) : CpsState := { st with tracker := st.tracker.decreaseByCore v }

@[simp] theorem queue_pushRun (r : CpsRun) : (st.pushRun r).queue = r :: st.queue := rfl

@[simp] theorem store_pushRun (r : CpsRun) : (st.pushRun r).store = st.store := rfl

@[simp] theorem tracker_pushRun (r : CpsRun) : (st.pushRun r).tracker = st.tracker := rfl

@[simp] theorem store_withStore (s : AccountStoreSC) : (st.withStore s).store = s := rfl

@[simp] theorem queue_withStore (s : AccountStoreSC) : (st.withStore s).queue = st.queue := rfl

@[simp] theorem tracker_withStore (s : AccountStoreSC) : (st.withStore s).tracker = st.tracker :=
  rfl

@[simp] theorem store_decreaseByEth (v : ℕ) : (st.decreaseByEth v).store = st.store := rfl

@[simp] theorem queue_decreaseByEth (v : ℕ) : (st.decreaseByEth v).queue = st.queue := rfl

@[simp] theorem tracker_decreaseByEth (v : ℕ) :
    (st.decreaseByEth v).tracker = st.tracker.decreaseByEth v := rfl

@[simp] theorem store_decreaseByCore (v : ℕ) : (st.decreaseByCore v).store = st.store := rfl

@[simp] theorem queue_decreaseByCore (v : ℕ) : (st.decreaseByCore v).queue = st.queue := rfl

end CpsState

end Zilliqa
