import Zilliqa.Cps.AccountStore

/-!
# `Data.Transaction` — the transaction fields the executors and the block builder read

A `Transaction` keeps its amount, gas price and gas limit in the raw units of its own format: an
Ethereum-format transaction (`IsEth`) stores Wei and Ethereum gas units, a Zilliqa one Qa and core
gas units. The getters convert, as `Transaction.cpp` does, in the integer widths of the source
(`uint128_t` amounts and prices, `uint64_t` gas limits).

## Contents
- `Transaction`, its `ContractType` (`getTransactionType`) and the unit-converting getters
  `getAmountQa`, `getAmountWei`, `getGasPriceQa`, `getGasPriceWei`, `getGasLimitZil`,
  `getGasLimitEth`.
-/

namespace Zilliqa

/-- `Transaction::ContractType`. -/
inductive ContractType where
  | nonContract
  | contractCreation
  | contractCall
  | error
deriving DecidableEq, Repr

/-- The fields of a `Transaction` (its `TxnCoreInfo`, with the sender's address in place of its
    public key). `isEth` is `IsEthTransactionVersion(version)`. -/
structure Transaction where
  isEth : Bool
  nonce : ℕ
  senderAddr : Address
  toAddr : Address
  amount : ℕ
  gasPrice : ℕ
  gasLimit : ℕ
  code : Bytes
  data : Bytes
deriving DecidableEq, Repr

namespace Transaction

/-- `Transaction::GetTransactionType`. -/
def getTransactionType (tx : Transaction) : ContractType :=
  let nullAddr := isNullAddress tx.toAddr
  if (!tx.data.isEmpty && !nullAddr) && tx.code.isEmpty then .contractCall
  else if !tx.code.isEmpty && nullAddr then .contractCreation
  else if (tx.data.isEmpty && !nullAddr) && tx.code.isEmpty then .nonContract
  else .error

/-- `GetAmountQa`. -/
def getAmountQa (tx : Transaction) : ℕ :=
  if tx.isEth then tx.amount / evmZilScalingFactor else tx.amount

/-- `GetAmountWei`, in `uint128_t`. -/
def getAmountWei (tx : Transaction) : ℕ :=
  if tx.isEth then tx.amount else tx.amount * evmZilScalingFactor % 2 ^ 128

/-- `GetGasPriceQa`, in `uint128_t`. -/
def getGasPriceQa (tx : Transaction) : ℕ :=
  if tx.isEth then tx.gasPrice / evmZilScalingFactor * getScalingFactor % 2 ^ 128
  else tx.gasPrice

/-- `GetGasPriceWei`, in `uint128_t`. -/
def getGasPriceWei (tx : Transaction) : ℕ :=
  if tx.isEth then tx.gasPrice
  else tx.gasPrice * evmZilScalingFactor % 2 ^ 128 / getScalingFactor

/-- `GetGasLimitZil`. -/
def getGasLimitZil (tx : Transaction) : ℕ :=
  if tx.isEth then gasUnitsFromEthToCore tx.gasLimit else tx.gasLimit

/-- `GetGasLimitEth`. -/
def getGasLimitEth (tx : Transaction) : ℕ :=
  if tx.isEth then tx.gasLimit else gasUnitsFromCoreToEth tx.gasLimit

/-- The default-constructed `Transaction` that a direct call's context holds. -/
def dummy : Transaction :=
  ⟨false, 0, Address.null, Address.null, 0, 0, 0, [], []⟩

end Transaction

end Zilliqa
