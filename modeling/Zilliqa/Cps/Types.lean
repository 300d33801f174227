import Zilliqa.Data.Transaction

/-!
# `Cps.Types` — the data the CPS runs exchange

The executor talks to two interpreters it does not contain: the EVM (`evm-ds`, through the
`evm::EvmArgs` / `evm::EvmResult` protocol buffers) and the Scilla interpreter (through JSON files
and its printed JSON output). This module declares those messages as the executor reads them,
together with the executor's own records: `CpsExecuteResult`, the receipt and the two process
contexts.

JSON output is given in decoded form. A member the code tests with `isMember` is an `Option`, or a
`Field` when the code also parses it as a number; a member whose kind the code tests is a
`JsonList`, whose `elems` are what a range-`for` over it visits.

## Contents
- `TxnStatus`; the EVM messages `EvmArgs`, `EvmResult` with `ExitReason`, `EvmApply`, `TrapData`
  and `Continuation`.
- The Scilla side: `ScillaArgs`, the interpreter output `ScillaOutput` and `ScillaInvokeResult`.
- `CpsExecuteResult`, `TransactionReceipt`, `ScillaProcessContext`, `EvmProcessContext`.
- `getGasUnitsForContractDeployment`, the deployment fee of `EthUtils`.
-/

namespace Zilliqa

/-- The `TxnStatus` codes the executor, the block builder and the mempool produce. -/
inductive TxnStatus where
  | notPresent
  | mathError
  | failScillaLib
  | failContractInit
  | invalidFromAccount
  | incorrectTxnType
  | insufficientGasLimit
  | insufficientBalance
  | insufficientGas
  | mempoolAlreadyPresent
  | mempoolSameNonceLowerGas
  | invalidToAccount
  | failContractAccountCreation
  | error
deriving DecidableEq, Repr

/-! ## The EVM protocol -/

/-- Which case of `evm::ExitReason` is set. -/
inductive ExitReason where
  | succeed
  | revert
  | error
  | fatal
  | trap
  | notSet
deriving DecidableEq, Repr

/-- `evm::EvmLog`. -/
structure EvmLog where
  address : Address
  topics : List Bytes
  data : Bytes
deriving DecidableEq, Repr

/-- `evm::Apply`: the state changes an EVM run asks the node to make. -/
inductive EvmApply where
  | delete (address : Address)
  | modify (address : Address) (balance : Option ℕ) (resetStorage : Bool)
      (storage : List (Bytes × Bytes))
  | notSet
deriving DecidableEq, Repr

/-- `evm::TrapData_Scheme`: how a created contract's address is chosen. -/
inductive CreateScheme where
  | legacy (caller : Address)
  | create2 (caller create2Address : Address)
  | fixed (address : Address)
  | notSet
deriving DecidableEq, Repr

/-- `evm::TrapData_Create`. -/
structure TrapCreate where
  scheme : CreateScheme
  value : ℕ
  callData : Bytes
  targetGas : ℕ
deriving DecidableEq, Repr

/-- `evm::TrapData_Call` with its `context` and `transfer` messages flattened. -/
structure TrapCall where
  destination : Address
  caller : Address
  apparentValue : ℕ
  transferSource : Address
  transferDestination : Address
  transferValue : ℕ
  calleeAddress : Address
  callData : Bytes
  targetGas : ℕ
  isStatic : Bool
  isPrecompile : Bool
  memoryOffset : ℕ
  offsetLen : ℕ
deriving DecidableEq, Repr

/-- `evm::TrapData`; an unset one reads as an empty call. -/
inductive TrapData where
  | create (c : TrapCreate)
  | call (c : TrapCall)
deriving DecidableEq, Repr

/-- The empty `TrapData_Call`. -/
def TrapCall.empty : TrapCall :=
  ⟨Address.null, Address.null, 0, Address.null, Address.null, 0, Address.null, [], 0, false, false,
    0, 0⟩

/-- `evm::Continuation::Type`. -/
inductive ContinuationType where
  | call
  | create
deriving DecidableEq, Repr

/-- The `feedback_data` one-of of a continuation. -/
inductive FeedbackData where
  | none
  | address (a : Address)
  | calldata (data : Bytes) (memoryOffset offsetLen : ℕ)
deriving DecidableEq, Repr

/-- `evm::Continuation`: what a trapped EVM run needs to be resumed. -/
structure Continuation where
  id : ℕ
  feedbackType : ContinuationType
  feedbackData : FeedbackData
  logs : List EvmLog
  succeeded : Bool
deriving DecidableEq, Repr

/-- `evm::EvmArgs`, without the per-transaction `extras` and the trace fields. -/
structure EvmArgs where
  address : Address
  origin : Address
  caller : Address
  code : Bytes
  data : Bytes
  apparentValue : ℕ
  gasLimit : ℕ
  estimate : Bool
  context : String
  isStaticCall : Bool
  continuation : Option Continuation
deriving DecidableEq, Repr

/-- `evm::EvmResult`, without the trace. -/
structure EvmResult where
  exitReason : ExitReason
  returnValue : Bytes
  apply : List EvmApply
  logs : List EvmLog
  remainingGas : ℕ
  continuationId : ℕ
  trapData : TrapData
deriving DecidableEq, Repr

/-- `evm::EvmResult{}`. -/
def EvmResult.empty : EvmResult := ⟨.notSet, [], [], [], 0, 0, .call TrapCall.empty⟩

/-- `Eth::getGasUnitsForContractDeployment`: `MIN_ETH_GAS`, the deployment base fee, and 4 or 16
    per zero or non-zero byte of the stripped code and of the data, in `uint64_t`. -/
def getGasUnitsForContractDeployment (code data : Bytes) : ℕ :=
  let byteGas : UInt8 → ℕ := fun b => if b = 0 then 4 else 16
  (minEthGas + 32000 + ((stripEvm code).map byteGas).sum + (data.map byteGas).sum) % 2 ^ 64

/-! ## The Scilla interpreter's side -/

/-- A JSON member that is also parsed as a number: absent, present but not numeric, or a value. -/
inductive Field (α : Type) where
  | missing
  | malformed
  | ok (a : α)
deriving DecidableEq, Repr

/-- A JSON member whose kind the code tests. -/
inductive JsonList (α : Type) where
  | missing
  | null
  | array (xs : List α)
  | object (xs : List α)
  | scalar
deriving DecidableEq, Repr

namespace JsonList

variable {α : Type}

/-- `isMember`. -/
def isMember : JsonList α → Bool
  | .missing => false
  | _ => true

/-- `type() == Json::arrayValue`. -/
def isArray : JsonList α → Bool
  | .array _ => true
  | _ => false

/-- `type() == Json::nullValue` (an absent member reads as null). -/
def isNull : JsonList α → Bool
  | .missing | .null => true
  | _ => false

/-- The values a range-`for` visits. -/
def elems : JsonList α → List α
  | .array xs | .object xs => xs
  | _ => []

end JsonList

/-- A `params` entry of an output message: its `vname` member. -/
structure ScillaParam where
  vname : Option String
deriving DecidableEq, Repr

/-- An outgoing message of a Scilla transition. -/
structure ScillaMessage where
  tag : Option String
  amount : Field ℕ
  params : JsonList ScillaParam
  recipient : Option Address
deriving DecidableEq, Repr

/-- A `contract_info.fields` entry of the checker output. -/
structure CheckerField where
  vname : Option String
  depth : Field ℤ
  type : Option String
deriving DecidableEq, Repr

/-- The interpreter's printed JSON, decoded. `contractInfo` is the checker's `contract_info` with
    its `fields` member. -/
structure ScillaOutput where
  gasRemaining : Field ℕ
  messages : JsonList ScillaMessage
  events : JsonList Bool
  states : JsonList Unit
  accepted : Option String
  errors : Bool
  contractInfo : Option (JsonList CheckerField)
deriving DecidableEq, Repr

/-- `ScillaInvokeResult`: whether the interpreter answered in time, and its output, `none` when it
    is not JSON. -/
structure ScillaInvokeResult where
  isSuccess : Bool
  returnVal : Option ScillaOutput
deriving DecidableEq, Repr

/-- `CpsRunScilla::INVOKE_TYPE`. -/
inductive InvokeType where
  | checker
  | runnerCreate
  | runnerCall
deriving DecidableEq, Repr

/-- `ScillaArgs::CodeData`. -/
structure CodeData where
  code : Bytes
  data : Bytes
deriving DecidableEq, Repr

/-- The JSON message handed to a called contract: its `_sender`, `_origin`, `_amount`, `_tag` and
    `params` members. -/
structure CallJson where
  sender : Option Address
  origin : Option Address
  amount : Field ℕ
  tag : Option String
  params : JsonList ScillaParam
deriving DecidableEq, Repr

/-- The empty `Json::Value`. -/
def CallJson.empty : CallJson := ⟨none, none, .missing, none, .missing⟩

/-- The call data of a Scilla run. -/
inductive ScillaCalldata where
  | codeData (c : CodeData)
  | json (j : CallJson)
deriving DecidableEq, Repr

/-- `ScillaArgs`; `extras` is the optional `ScillaArgExtras.scillaReceiverAddress`. -/
structure ScillaArgs where
  fromAddr : Address
  dest : Address
  origin : Address
  value : Amount
  calldata : ScillaCalldata
  edge : ℕ
  depth : ℕ
  extras : Option Address
deriving DecidableEq, Repr

/-- The precompile call data, decoded: `keep_origin` when it is a boolean, `_address`, and the
    message's `_tag` and `params`. -/
structure PrecompileCall where
  keepOrigin : Option Bool
  address : Address
  tag : Option String
  params : JsonList ScillaParam
deriving DecidableEq, Repr

/-! ## Results, receipts and contexts -/

/-- `ScillaResult`. -/
structure ScillaResult where
  gasRemained : ℕ
  isSuccess : Bool
deriving DecidableEq, Repr

/-- `CpsExecuteResult::ResultType`, a variant whose default is an empty `EvmResult`. -/
inductive ResultType where
  | evm (r : EvmResult)
  | scilla (r : ScillaResult)
deriving DecidableEq, Repr

/-- `CpsExecuteResult`. -/
structure CpsExecuteResult where
  txnStatus : TxnStatus
  isSuccess : Bool
  result : ResultType
deriving DecidableEq, Repr

/-- `CpsExecuteResult{}`, and the `{status, false, {}}` every failing check returns. -/
def CpsExecuteResult.fail (status : TxnStatus) : CpsExecuteResult :=
  ⟨status, false, .evm EvmResult.empty⟩

/-- `{TxnStatus::NOT_PRESENT, true, {}}`. -/
def CpsExecuteResult.ok : CpsExecuteResult := ⟨.notPresent, true, .evm EvmResult.empty⟩

/-- A transition recorded in a receipt: its contract, depth and `accepted` flag. -/
structure ReceiptTransition where
  addr : Address
  depth : ℕ
  accepted : Option Bool
deriving DecidableEq, Repr

/-- The parts of a `TransactionReceipt` the executor sets: `m_cumGas`, the `success`,
    `transitions` and `accepted` members of its JSON, and `m_edge`. -/
structure TransactionReceipt where
  cumGas : ℕ
  success : Option Bool
  transitions : List ReceiptTransition
  accepted : Option Bool
  edge : ℕ
deriving DecidableEq, Repr

namespace TransactionReceipt

variable (r : TransactionReceipt)

/-- A fresh receipt. -/
def empty : TransactionReceipt := ⟨0, none, [], none, 0⟩

/-- `SetCumGas`, a `uint64_t`. -/
def setCumGas (g : ℕ) : TransactionReceipt := { r with cumGas := g % 2 ^ 64 }

/-- `SetResult`. -/
def setResult (b : Bool) : TransactionReceipt := { r with success := some b }

/-- `AddEdge`. -/
def addEdge : TransactionReceipt := { r with edge := r.edge + 1 }

/-- `AddTransition`. -/
def addTransition (addr : Address) (depth : ℕ) : TransactionReceipt :=
  { r with transitions := r.transitions ++ [⟨addr, depth, none⟩] }

/-- `AddAccepted`. -/
def addAccepted (b : Bool) : TransactionReceipt := { r with accepted := some b }

/-- `AddAcceptedForLastTransition`: fails when no transition was recorded. -/
def addAcceptedForLastTransition (b : Bool) : Option TransactionReceipt :=
  match r.transitions.getLast? with
  | none => none
  | some t => some { r with transitions := r.transitions.dropLast ++ [{ t with accepted := some b }] }

/-- `RemoveAllTransitions`. -/
def removeAllTransitions : TransactionReceipt := { r with transitions := [] }

/-- `clear`: the JSON and the edge counter are reset; `m_cumGas` is kept. -/
def clear : TransactionReceipt := ⟨r.cumGas, none, [], none, 0⟩

@[simp] theorem cumGas_setCumGas (g : ℕ) : (r.setCumGas g).cumGas = g % 2 ^ 64 := rfl

@[simp] theorem cumGas_setResult (b : Bool) : (r.setResult b).cumGas = r.cumGas := rfl

@[simp] theorem cumGas_removeAllTransitions : r.removeAllTransitions.cumGas = r.cumGas := rfl

@[simp] theorem cumGas_clear : r.clear.cumGas = r.cumGas := rfl

end TransactionReceipt

/-- The fields of `ScillaProcessContext` the executor reads. -/
structure ScillaProcessContext where
  origin : Address
  recipient : Address
  code : Bytes
  data : Bytes
  amount : ℕ
  gasPrice : ℕ
  gasLimit : ℕ
  blockNum : ℕ
  contractType : ContractType
deriving DecidableEq, Repr

/-- `AccountStoreSC::UpdateAccounts` builds this context from the transaction. -/
def ScillaProcessContext.ofTransaction (tx : Transaction) (blockNum : ℕ) : ScillaProcessContext :=
  ⟨tx.senderAddr, tx.toAddr, tx.code, tx.data, tx.getAmountQa, tx.getGasPriceQa, tx.getGasLimitZil,
    blockNum, tx.getTransactionType⟩

/-- `EvmProcessContext`: the EVM arguments, the transaction it was built from (a default one for a
    direct call), its data, and the `m_direct` and `m_commit` flags. -/
structure EvmProcessContext where
  args : EvmArgs
  transaction : Transaction
  data : Bytes
  direct : Bool
  commit : Bool
deriving DecidableEq, Repr

namespace EvmProcessContext

/-- The constructor from a transaction; `UpdateAccountsTemp` uses it with `commit` set. -/
def ofTransaction (tx : Transaction) (context : String) (commit : Bool) : EvmProcessContext where
  args := ⟨tx.toAddr, tx.senderAddr, tx.senderAddr, stripEvm tx.code, tx.data, tx.getAmountWei,
    tx.getGasLimitEth, false, context, false, none⟩
  transaction := tx
  data := tx.data
  direct := false
  commit := commit

/-- The direct-call and estimate constructor: a default transaction, `m_commit` left `false`. -/
def ofCall (caller contract : Address) (code data : Bytes) (gas amount : ℕ) (context : String)
    (estimate direct : Bool) : EvmProcessContext where
  args := ⟨contract, caller, caller, stripEvm code, data, amount, gas, estimate, context, false,
    none⟩
  transaction := Transaction.dummy
  data := data
  direct := direct
  commit := false

/-- `GetEstimateOnly`. -/
def getEstimateOnly (c : EvmProcessContext) : Bool := c.args.estimate

/-- `GetContractType`, of the held transaction. -/
def getContractType (c : EvmProcessContext) : ContractType := c.transaction.getTransactionType

end EvmProcessContext

end Zilliqa
