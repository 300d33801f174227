import Zilliqa.Lib.FinStore
import Zilliqa.Cps.Gas

/-!
# `Cps.AccountStore` — accounts and the account-store interface the CPS runs use

The CPS executor reaches the node's state only through `AccountStoreCpsInterface`, which forwards to
an `AccountStoreSC`. That store is modelled here as an `Overlay` of accounts: the parent is the
store its `GetAccount` reads (the main store, or the temporary one during block building), the top
layer is `m_accountStoreAtomic`. `AccountStoreAtomic::GetAccount` copies a parent entry into the top
layer on first read; nothing writes the parent while a top layer is live, so a read-through lookup
returns the same account and commits the same store, and the copy is not modelled.

Contract storage is kept at the level of the calls made to `ContractStorage`: the temporary layer is
the list of writes issued to it (`StorageWrite`), and `BufferCurrentState` / `RevertPrevState` save
and restore that layer as a whole.

## Contents
- `Account` and the `AccountBase` / `Account` operations the interface calls. `IncreaseBalance`
  and `IncreaseNonce` call `SafeMath::add` with an aliased out-parameter and so wrap
  (`increaseBalance_eq`).
- `AccountStoreSC` and the operations of `AccountStoreCpsInterface`, including
  `AccountStoreBase::TransferBalance` run on the atomic layer.
-/

namespace Zilliqa

/-- `zbytes`. -/
abbrev Bytes := List UInt8

/-- A 160-bit address; `Address{}` is the null address. -/
structure Address where
  val : ℕ
deriving DecidableEq, Repr

/-- `Address{}`. -/
def Address.null : Address := ⟨0⟩

/-- `IsNullAddress`. -/
def isNullAddress (a : Address) : Bool := a == Address.null

/-- The bytes `E`, `V`, `M` that prefix EVM code. -/
def evmPrefix : Bytes := [69, 86, 77]

/-- `EvmUtils::isEvm` (with `ENABLE_EVM` set): at least four bytes, starting with `EVM`. -/
def isEvm (code : Bytes) : Bool := decide (4 ≤ code.length) && code.take 3 == evmPrefix

/-- `StripEVM`: drop a leading `EVM`. -/
def stripEvm (code : Bytes) : Bytes :=
  if decide (3 ≤ code.length) && code.take 3 == evmPrefix then code.drop 3 else code

/-! ## Accounts -/

/-- The fields of an `Account` the executor reads or writes. `balance` is a `uint128` in Qa,
    `nonce` a `uint64`; `code` and `initData` are the immutable contract data; the last three are
    what `GetContractAuxiliaries` returns. -/
structure Account where
  balance : ℕ
  nonce : ℕ
  code : Bytes
  initData : Bytes
  isLibrary : Bool
  scillaVersion : ℕ
  extlibs : List Address
deriving DecidableEq, Repr

namespace Account

/-- `Account(balance, nonce)`. -/
def new (balance nonce : ℕ) : Account := ⟨balance, nonce, [], [], false, 0, []⟩

/-- `Account::isContract`: a code hash, and not a library. -/
def isContract (acc : Account) : Bool := !acc.isLibrary && !acc.code.isEmpty

/-- `Account::IsLibrary`. -/
def IsLibrary (acc : Account) : Bool := acc.isLibrary && !acc.code.isEmpty

/-- `AccountBase::IncreaseBalance`: `SafeMath<uint128_t>::add(m_balance, delta, m_balance)`. -/
def increaseBalance (acc : Account) (delta : ℕ) : Option Account :=
  (SafeMath.addInPlace 128 acc.balance delta).map fun b => { acc with balance := b }

/-- `AccountBase::DecreaseBalance`. -/
def decreaseBalance (acc : Account) (delta : ℕ) : Option Account :=
  if acc.balance < delta then none
  else (SafeMath.sub acc.balance delta).map fun b => { acc with balance := b }

/-- `AccountBase::SetBalance`. -/
def setBalance (acc : Account) (balance : ℕ) : Account := { acc with balance := balance }

/-- `AccountBase::IncreaseNonce`: `SafeMath<uint64_t>::add(m_nonce, 1, m_nonce)`. -/
def increaseNonce (acc : Account) : Option Account :=
  (SafeMath.addInPlace 64 acc.nonce 1).map fun n => { acc with nonce := n }

/-- `AccountBase::SetNonce`. -/
def setNonce (acc : Account) (nonce : ℕ) : Account := { acc with nonce := nonce }

/-- `Account::SetImmutable`: refuses empty code, otherwise sets code and init data. -/
def setImmutable (acc : Account) (code initData : Bytes) : Option Account :=
  if code.isEmpty then none else some { acc with code := code, initData := initData }

/-- `Account::GetCode`: empty unless the account holds a contract or a library. -/
def getCode (acc : Account) : Bytes := if !acc.isContract && !acc.IsLibrary then [] else acc.code

/-- `Account::GetContractAuxiliaries`. -/
def getContractAuxiliaries (acc : Account) : Option (Bool × ℕ × List Address) :=
  if !acc.isContract && !acc.IsLibrary then none
  else some (acc.isLibrary, acc.scillaVersion, acc.extlibs)

/-- `Account::InitContract`. `prepare` is `PrepareInitDataJson`, which parses the init data and
    yields the stored init-data JSON, the Scilla version, the library flag and the external
    libraries. A failed `SetImmutable` is only logged. -/
def initContract (prepare : Bytes → Address → ℕ → Option (Bytes × ℕ × Bool × List Address))
    (acc : Account) (code initData : Bytes) (addr : Address) (blockNum : ℕ) : Option Account :=
  if acc.isContract || acc.IsLibrary then none
  else if !isEvm code then
    match prepare initData addr blockNum with
    | none => none
    | some (json, version, library, extlibs) =>
      let acc := { acc with scillaVersion := version, isLibrary := library, extlibs := extlibs }
      some ((acc.setImmutable code json).getD acc)
  else some ((acc.setImmutable code initData).getD acc)

/-- **`IncreaseBalance` wraps**: the aliased `SafeMath::add` never reports the overflow. -/
theorem increaseBalance_eq (acc : Account) (delta : ℕ) :
    acc.increaseBalance delta = some { acc with balance := (acc.balance + delta) % 2 ^ 128 } := by
  simp [increaseBalance]

theorem decreaseBalance_eq_some_iff {acc acc' : Account} {delta : ℕ} :
    acc.decreaseBalance delta = some acc' ↔
      delta ≤ acc.balance ∧ acc' = { acc with balance := acc.balance - delta } := by
  unfold decreaseBalance
  by_cases h : acc.balance < delta
  · simp only [h, if_true, reduceCtorEq, false_iff, not_and]
    intro hle
    omega
  · have hsub : SafeMath.sub acc.balance delta = some (acc.balance - delta) :=
      SafeMath.sub_eq_some_iff.mpr ⟨by omega, rfl⟩
    simp only [h, if_false, hsub, Option.map_some, Option.some.injEq]
    exact ⟨fun e => ⟨by omega, e.symm⟩, fun e => e.2.symm⟩

theorem increaseNonce_eq (acc : Account) :
    acc.increaseNonce = some { acc with nonce := (acc.nonce + 1) % 2 ^ 64 } := by
  simp [increaseNonce]

end Account

/-! ## The store behind `AccountStoreCpsInterface` -/

/-- A key of contract storage, as `ContractStorage::GenerateStorageKey` encodes it: the contract,
    the variable name and the map indices. -/
structure StorageKey where
  addr : Address
  vname : String
  indices : List String
deriving DecidableEq, Repr

/-- A write issued to the temporary layer of `ContractStorage`. -/
inductive StorageWrite where
  /-- `UpdateStateDatasAndToDeletes(addr, ..., states, toDeleteIndices, temp = true)`. -/
  | updateStates (addr : Address) (states : List (StorageKey × Bytes)) (toDelete : List StorageKey)
  /-- `UpdateStateValue(addr, q, 0, v, 0)`. -/
  | updateStateValue (addr : Address) (q v : Bytes)
deriving DecidableEq, Repr

/-- `ContractStorage`'s temporary layer (`t_stateDataMap`, `t_indexToBeDeleted`) and the copy
    that `BufferCurrentState` saves of it (`p_stateDataMap`, `p_indexToBeDeleted`). -/
structure ContractStorage where
  temp : List StorageWrite
  prev : List StorageWrite
deriving DecidableEq, Repr

/-- The parts of `AccountStoreSC` the CPS interface touches. -/
structure AccountStoreSC where
  /-- The parent store and `m_accountStoreAtomic`. -/
  accounts : Overlay Address Account
  /-- `m_storageRootUpdateBuffer`. -/
  storageRootUpdateBuffer : Finset Address
  /-- `m_storageRootUpdateBufferAtomic`. -/
  storageRootUpdateBufferAtomic : Finset Address
  /-- The contract storage singleton. -/
  contractStorage : ContractStorage

namespace AccountStoreSC

/-- A store whose committed layer holds the given accounts, with nothing pending. -/
def ofAccounts (accs : List (Address × Account)) : AccountStoreSC :=
  ⟨⟨accs.foldr (fun p t => t.insert p.1 p.2) FinStore.empty, FinStore.empty⟩, ∅, ∅, ⟨[], []⟩⟩

variable (s : AccountStoreSC)

/-- `AccountStoreSC::GetAccountAtomic`. -/
def getAccountAtomic (a : Address) : Option Account := s.accounts.get a

/-- `GetAccount` of the parent store. -/
def getAccount (a : Address) : Option Account := s.accounts.parent.find a

/-- Store an account in the atomic layer. -/
def writeAtomic (a : Address) (acc : Account) : AccountStoreSC :=
  { s with accounts := s.accounts.write a acc }

/-- Store an account in the parent store. -/
def writeParent (a : Address) (acc : Account) : AccountStoreSC :=
  { s with accounts := { s.accounts with parent := s.accounts.parent.insert a acc } }

/-- Change an account of the atomic layer through its `Account*`: fails, changing nothing, when the
    account is missing or the operation fails. -/
def updateAtomic (a : Address) (f : Account → Option Account) : Bool × AccountStoreSC :=
  match s.getAccountAtomic a with
  | none => (false, s)
  | some acc =>
    match f acc with
    | none => (false, s)
    | some acc' => (true, s.writeAtomic a acc')

/-- The same through `GetAccount` of the parent store. -/
def updateParent (a : Address) (f : Account → Option Account) : Bool × AccountStoreSC :=
  match s.getAccount a with
  | none => (false, s)
  | some acc =>
    match f acc with
    | none => (false, s)
    | some acc' => (true, s.writeParent a acc')

/-! ### `AccountStoreBase` on the atomic layer -/

/-- `AccountStoreBase::AddAccount(address, account)` (no replacement) on the atomic store, whose
    existence test reads through to the parent. -/
def addAccountBase (a : Address) (acc : Account) : Bool × AccountStoreSC :=
  if (s.getAccountAtomic a).isSome then (false, s) else (true, s.writeAtomic a acc)

/-- `AccountStoreBase::DecreaseBalance` on the atomic store. -/
def decreaseBalanceBase (a : Address) (delta : ℕ) : Bool × AccountStoreSC :=
  if delta = 0 then (true, s) else s.updateAtomic a (·.decreaseBalance delta)

/-- `AccountStoreBase::IncreaseBalance` on the atomic store: a missing account is created
    holding `delta`. -/
def increaseBalanceBase (a : Address) (delta : ℕ) : Bool × AccountStoreSC :=
  if delta = 0 then (true, s)
  else
    match s.getAccountAtomic a with
    | some acc =>
      match acc.increaseBalance delta with
      | some acc' => (true, s.writeAtomic a acc')
      | none => (false, s)
    | none => s.addAccountBase a (Account.new delta 0)

/-- `AccountStoreBase::TransferBalance` on the atomic store: decrease, then increase, and give the
    amount back when the increase fails. -/
def transferBalanceBase (src dst : Address) (delta : ℕ) : Bool × AccountStoreSC :=
  match s.decreaseBalanceBase src delta with
  | (false, s1) => (false, s1)
  | (true, s1) =>
    match s1.increaseBalanceBase dst delta with
    | (true, s2) => (true, s2)
    | (false, s2) => (false, (s2.increaseBalanceBase src delta).2)

/-! ### `AccountStoreCpsInterface` -/

/-- `GetBalanceForAccountAtomic`. -/
def getBalanceForAccountAtomic (a : Address) : Amount :=
  match s.getAccountAtomic a with
  | some acc => Amount.fromQa acc.balance
  | none => Amount.zero

/-- `GetNonceForAccount` (parent store). -/
def getNonceForAccount (a : Address) : ℕ := ((s.getAccount a).map (·.nonce)).getD 0

/-- `AccountExistsAtomic`. -/
def accountExistsAtomic (a : Address) : Bool := (s.getAccountAtomic a).isSome

/-- `AddAccountAtomic`: a fresh account with balance and nonce `0`. -/
def addAccountAtomic (a : Address) : Bool × AccountStoreSC := s.addAccountBase a (Account.new 0 0)

/-- `GetNonceForAccountAtomic`. -/
def getNonceForAccountAtomic (a : Address) : ℕ := ((s.getAccountAtomic a).map (·.nonce)).getD 0

/-- `IncreaseBalanceAtomic`. -/
def increaseBalanceAtomic (a : Address) (amount : Amount) : Bool × AccountStoreSC :=
  s.updateAtomic a (·.increaseBalance amount.toQa)

/-- `DecreaseBalanceAtomic`. -/
def decreaseBalanceAtomic (a : Address) (amount : Amount) : Bool × AccountStoreSC :=
  s.updateAtomic a (·.decreaseBalance amount.toQa)

/-- `DecreaseBalance` (parent store). -/
def decreaseBalance (a : Address) (amount : Amount) : Bool × AccountStoreSC :=
  s.updateParent a (·.decreaseBalance amount.toQa)

/-- `SetBalanceAtomic`. -/
def setBalanceAtomic (a : Address) (amount : Amount) : AccountStoreSC :=
  (s.updateAtomic a fun acc => some (acc.setBalance amount.toQa)).2

/-- `TransferBalanceAtomic`. -/
def transferBalanceAtomic (src dst : Address) (amount : Amount) : Bool × AccountStoreSC :=
  s.transferBalanceBase src dst amount.toQa

/-- `DiscardAtomics`: clear the atomic update buffer and drop the atomic layer. -/
def discardAtomics : AccountStoreSC :=
  { s with accounts := s.accounts.discard, storageRootUpdateBufferAtomic := ∅ }

/-- `CommitAtomics`: publish the atomic layer and its update buffer. -/
def commitAtomics : AccountStoreSC :=
  { s with accounts := s.accounts.commit,
           storageRootUpdateBuffer := s.storageRootUpdateBuffer ∪ s.storageRootUpdateBufferAtomic }

/-- `UpdateStates`: a write to the contract storage, for an existing account. -/
def updateStates (a : Address) (states : List (StorageKey × Bytes)) (toDelete : List StorageKey) :
    Bool × AccountStoreSC :=
  if s.accountExistsAtomic a then
    (true, { s with contractStorage := { s.contractStorage with
      temp := s.contractStorage.temp ++ [.updateStates a states toDelete] } })
  else (false, s)

/-- `UpdateStateValue`. -/
def updateStateValue (a : Address) (q v : Bytes) : AccountStoreSC :=
  { s with contractStorage := { s.contractStorage with
    temp := s.contractStorage.temp ++ [.updateStateValue a q v] } }

/-- `AddAddressToUpdateBufferAtomic`. -/
def addAddressToUpdateBufferAtomic (a : Address) : AccountStoreSC :=
  { s with storageRootUpdateBufferAtomic := Insert.insert a s.storageRootUpdateBufferAtomic }

/-- `SetImmutableAtomic`; a refused `SetImmutable` changes nothing. -/
def setImmutableAtomic (a : Address) (code initData : Bytes) : AccountStoreSC :=
  (s.updateAtomic a (·.setImmutable code initData)).2

/-- `IncreaseNonceForAccountAtomic`: `SetNonce(nonce + 1)` in `uint64`. -/
def increaseNonceForAccountAtomic (a : Address) : AccountStoreSC :=
  let nonce := s.getNonceForAccountAtomic a
  (s.updateAtomic a fun acc => some (acc.setNonce ((nonce + 1) % 2 ^ 64))).2

/-- `IncreaseNonceForAccount` (parent store). -/
def increaseNonceForAccount (a : Address) : AccountStoreSC := (s.updateParent a (·.increaseNonce)).2

/-- `BufferCurrentContractStorageState`. -/
def bufferCurrentContractStorageState : AccountStoreSC :=
  { s with contractStorage := { s.contractStorage with prev := s.contractStorage.temp } }

/-- `RevertContractStorageState`: the saved layer is moved back, leaving the save empty. -/
def revertContractStorageState : AccountStoreSC :=
  { s with contractStorage := { temp := s.contractStorage.prev, prev := [] } }

/-- `GetContractCode`. -/
def getContractCode (a : Address) : Bytes := ((s.getAccountAtomic a).map (·.getCode)).getD []

/-- `GetContractAuxiliaries`. -/
def getContractAuxiliaries (a : Address) : Option (Bool × ℕ × List Address) :=
  (s.getAccountAtomic a).bind (·.getContractAuxiliaries)

/-- `GetContractInitData`. -/
def getContractInitData (a : Address) : Bytes :=
  ((s.getAccountAtomic a).map fun acc =>
    if !acc.isContract && !acc.IsLibrary then [] else acc.initData).getD []

/-- `InitContract`. -/
def initContract (prepare : Bytes → Address → ℕ → Option (Bytes × ℕ × Bool × List Address))
    (a : Address) (code initData : Bytes) (blockNum : ℕ) : Bool × AccountStoreSC :=
  s.updateAtomic a (·.initContract prepare code initData a blockNum)

/-- The `AccountType` of `CpsAccountStoreInterface`. -/
inductive AccountType where
  | doesNotExist
  | eoa
  | contract
  | library
deriving DecidableEq, Repr

/-- `GetAccountType`. -/
def getAccountType (a : Address) : AccountType :=
  match s.getAccountAtomic a with
  | none => .doesNotExist
  | some acc => if acc.isContract then .contract else if acc.IsLibrary then .library else .eoa

/-- `isAccountEvmContract`. -/
def isAccountEvmContract (a : Address) : Bool :=
  match s.getAccountAtomic a with
  | none => false
  | some acc => acc.isContract && isEvm acc.getCode

end AccountStoreSC

end Zilliqa
