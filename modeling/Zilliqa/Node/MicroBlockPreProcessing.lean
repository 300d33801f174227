import Zilliqa.Cps.Executor
import Zilliqa.Data.TxnPool
import Zilliqa.Lib.Loop

/-!
# `Node.MicroBlockPreProcessing` — how a shard leader fills a microblock

`Node::ProcessTransactionWhenShardLeader` takes the transactions of the pool one at a time and runs
each through `Validator::CheckCreatedTransaction`, which applies it to the temporary account store
with `AccountStore::UpdateAccountsTemp`. A transaction whose nonce is ahead of its sender's waits in
`t_addrNonceTxnMap` until the sender catches up; one whose nonce is behind is dropped; one whose gas
limit does not fit is set aside. What passes is appended to `m_TxnOrder`, the microblock's order.

## Contents
- `updateAccounts` / `updateAccountsEvm`: the CPS branches of `AccountStoreSC`, which decide from
  the executor's result whether the transaction is kept; `updateAccountsTemp` picks one of them.
- `checkCreatedTransaction`, `findOneFromAddrNonceTxnMap`, `parkHighNonce`, `appendOne`.
- `processTxn`, the block the loop repeats for a transaction of the expected nonce; `takeFromPool`,
  the branch of a transaction fresh from the pool; `selectionStep`, one iteration;
  `processTransactionWhenShardLeader` runs it with `Loop.runFuel`.
- `selectionStep_rank`: every iteration that goes on takes a transaction out of the pool or out of
  `t_addrNonceTxnMap`, so from a well-formed pool the loop ends
  (`processTransactionWhenShardLeader_terminates`).
- `processTxn_preValidate_fail`: a Scilla transaction that the executor's pre-validation rejects is
  dropped, yet the temporary store it leaves has its sender's nonce bumped.

The loop's timeout (`txnProcTimeout`, set by a timer thread) is not modelled: it only ends the loop
at an earlier iteration.
-/

namespace Zilliqa

namespace Node

/-! ## Applying one transaction to the temporary store -/

/-- What `UpdateAccountsTemp` reports: whether the transaction is kept, with the store and the
    receipt after it; or an exception out of the executor. -/
inductive UpdateOutcome where
  | done (kept : Bool) (s : AccountStoreSC) (receipt : TransactionReceipt)
  | thrown

/-- The executor's outcome, with `kept` deciding from its result whether the transaction stays.
    `none` is the executor running out of fuel. -/
def UpdateOutcome.ofExec (kept : CpsExecuteResult → Bool) :
    Option ExecOutcome → Option UpdateOutcome
  | none => none
  | some .thrown => some .thrown
  | some (.returned res s receipt) => some (.done (kept res) s receipt)

/-- `AccountStoreSC::UpdateAccounts` in CPS mode: `RunFromScilla` on the transaction's context; a
    failure reported as `NOT_PRESENT` (the Scilla runtime's) still counts as kept. -/
def updateAccounts (o : CpsOracles) (fuel blockNum : ℕ) (tx : Transaction) (s : AccountStoreSC)
    (receipt : TransactionReceipt) : Option UpdateOutcome :=
  UpdateOutcome.ofExec (fun res => res.isSuccess || res.txnStatus == .notPresent)
    (runFromScilla o fuel (ScillaProcessContext.ofTransaction tx blockNum) s receipt)

/-- `AccountStoreSC::UpdateAccountsEvm` in CPS mode: every outcome but a failure with status
    `ERROR` is kept, with a receipt that records the failure. -/
def updateAccountsEvm (o : CpsOracles) (fuel : ℕ) (ctx : EvmProcessContext) (s : AccountStoreSC)
    (receipt : TransactionReceipt) : Option UpdateOutcome :=
  UpdateOutcome.ofExec (fun res => res.isSuccess || res.txnStatus != .error)
    (runFromEvm o fuel ctx s receipt)

/-- `txnIdToString`, the context an EVM run is tagged with. The `TranID` stands for its hash here,
    so its text is its numeral. -/
def txnIdToString (th : ℕ) : String := toString th

/-- The engine `UpdateAccountsTemp` picks: a deployment by its code, any other transaction by the
    code of its recipient when the recipient exists, and otherwise by the transaction's version. -/
def isEvmTransaction (tx : Transaction) (s : AccountStoreSC) : Bool :=
  if tx.getTransactionType = .contractCreation then isEvm tx.code
  else
    match s.getAccount tx.toAddr with
    | some acc => isEvm acc.getCode
    | none => tx.isEth

/-- **`AccountStore::UpdateAccountsTemp`** on `m_accountStoreTemp`. `isEvm` holds only with
    `ENABLE_EVM` set, so the early return for an EVM transaction with the EVM disabled is never
    taken. -/
def updateAccountsTemp (o : CpsOracles) (fuel blockNum : ℕ) (t : SignedTxn) (s : AccountStoreSC)
    (receipt : TransactionReceipt) : Option UpdateOutcome :=
  if isEvmTransaction t.core s then
    updateAccountsEvm o fuel (EvmProcessContext.ofTransaction t.core (txnIdToString t.tranID) true)
      s receipt
  else updateAccounts o fuel blockNum t.core s receipt

/-- What the selection loop reads and never changes: the executor's oracles and fuel, the epoch
    number, the chain-id and version test of `CheckCreatedTransaction`, the main store's accounts
    (`AccountStore`'s own, which `CheckCreatedTransaction` reads), and `microblock_gas_limit`. -/
structure LeaderEnv where
  oracles : CpsOracles
  fuel : ℕ
  epochNum : ℕ
  versionCorrect : SignedTxn → Bool
  mainAccounts : FinStore Address Account
  microblockGasLimit : ℕ

/-- **`Validator::CheckCreatedTransaction`** on a shard node: the version, a non-null sender that
    exists in the main store with a balance of at least the amount, then `UpdateAccountsTemp`. A
    rejection before `UpdateAccountsTemp` leaves the temporary store as it was. -/
def checkCreatedTransaction (env : LeaderEnv) (t : SignedTxn) (s : AccountStoreSC)
    (receipt : TransactionReceipt) : Option UpdateOutcome :=
  if !env.versionCorrect t then some (.done false s receipt)
  else if isNullAddress t.core.senderAddr then some (.done false s receipt)
  else
    match env.mainAccounts.find t.core.senderAddr with
    | none => some (.done false s receipt)
    | some acc =>
      if acc.balance < t.core.getAmountQa then some (.done false s receipt)
      else updateAccountsTemp env.oracles env.fuel env.epochNum t s receipt

/-! ## The loop -/

/-- `t_addrNonceTxnMap`: per sender, the transactions waiting for their nonce. -/
abbrev AddrNonceTxnMap := FinStore Address (FinStore ℕ SignedTxn)

/-- The variables of the loop. -/
structure Selection where
  /-- `t_createdTxns`. -/
  createdTxns : TxnPool SignedTxn
  addrNonceTxnMap : AddrNonceTxnMap
  /-- `AccountStore::m_accountStoreTemp`. -/
  store : AccountStoreSC
  /-- `m_gasUsedTotal`, a `uint64_t`. -/
  gasUsedTotal : ℕ
  /-- `m_txnFees`, a `uint128_t`. -/
  txnFees : ℕ
  /-- `t_processedTransactions`. -/
  processedTransactions : FinStore ℕ (SignedTxn × TransactionReceipt)
  /-- `m_TxnOrder`. -/
  txnOrder : List ℕ
  /-- `gasLimitExceededTxnBuffer`. -/
  gasLimitExceeded : List SignedTxn
  /-- The `TranID`s of `droppedTxns`. -/
  droppedTxns : List ℕ

/-- How the loop ends: by its condition or a `break`, or by an exception out of the executor; or
    with the executor out of fuel, which enough fuel rules out. -/
inductive SelectionEnd where
  | finished (st : Selection)
  | thrown
  | outOfFuel

/-- `it->second.begin()`: the entry of a sender's lowest waiting nonce. -/
def lowest (inner : FinStore ℕ SignedTxn) : Option (ℕ × SignedTxn) :=
  if h : inner.keys.Nonempty then
    some (inner.keys.min' h, inner.get _ (inner.keys.min'_mem h))
  else none

/-- The senders, as the numbers that order them, whose lowest waiting nonce is
    `GetNonceTemp(sender) + 1`. -/
def readySenders (nonceTemp : Address → ℕ) (m : AddrNonceTxnMap) : Finset ℕ :=
  (m.keys.filter fun a =>
    ((m.find a).bind lowest).map Prod.fst = some (nonceTemp a + 1)).image Address.val

/-- **`findOneFromAddrNonceTxnMap`**: scanning the senders in address order, take out the first
    waiting transaction whose nonce is its sender's next; a sender left with none is erased. -/
def findOneFromAddrNonceTxnMap (nonceTemp : Address → ℕ) (m : AddrNonceTxnMap) :
    Option (SignedTxn × AddrNonceTxnMap) :=
  if h : (readySenders nonceTemp m).Nonempty then
    let a : Address := ⟨(readySenders nonceTemp m).min' h⟩
    let inner := (m.find a).getD .empty
    (lowest inner).map fun e =>
      let rest := inner.erase e.1
      (e.2, if rest.keys = ∅ then m.erase a else m.insert a rest)
  else none

/-- The high-nonce branch: park the transaction under its sender and nonce; when one is already
    parked there, keep the one of higher gas price. -/
def parkHighNonce (m : AddrNonceTxnMap) (t : SignedTxn) : AddrNonceTxnMap :=
  let inner := (m.find t.core.senderAddr).getD .empty
  match inner.find t.core.nonce with
  | some parked =>
    if parked.core.getGasPriceQa < t.core.getGasPriceQa then
      m.insert t.core.senderAddr (inner.insert t.core.nonce t)
    else m
  | none => m.insert t.core.senderAddr (inner.insert t.core.nonce t)

/-- `appendOne`: record the transaction with its receipt (a `std::map` insert, which keeps an
    entry already there) and append its `TranID` to `m_TxnOrder`. -/
def appendOne (st : Selection) (t : SignedTxn) (tr : TransactionReceipt) : Selection :=
  { st with
    processedTransactions :=
      if (st.processedTransactions.find t.tranID).isSome then st.processedTransactions
      else st.processedTransactions.insert t.tranID (t, tr)
    txnOrder := st.txnOrder ++ [t.tranID] }

/-- The success path: `SafeMath` adds the receipt's gas to `m_gasUsedTotal` and the fee to
    `m_txnFees`, each into its own first operand, and the transaction is appended. A fee whose
    product overflows skips the append, with the gas already counted. -/
def acceptTxn (st : Selection) (t : SignedTxn) (receipt : TransactionReceipt) :
    SelectionEnd ⊕ Selection :=
  match SafeMath.addInPlace 64 st.gasUsedTotal receipt.cumGas with
  | none => .inl (.finished st)
  | some gasUsedTotal =>
    let st := { st with gasUsedTotal := gasUsedTotal }
    match SafeMath.mul 128 receipt.cumGas t.core.getGasPriceQa with
    | none => .inr st
    | some txnFee =>
      match SafeMath.addInPlace 128 st.txnFees txnFee with
      | none => .inl (.finished st)
      | some txnFees => .inr (appendOne { st with txnFees := txnFees } t receipt)

/-- The block the loop runs for a transaction of the expected nonce (the source repeats it in both
    branches): set it aside when its gas limit does not fit, else run `CheckCreatedTransaction` on a
    fresh receipt. The `uint64_t` sum of the gas test wraps. Whatever `UpdateAccountsTemp` did to
    the temporary store stays, kept or not. -/
def processTxn (env : LeaderEnv) (st : Selection) (t : SignedTxn) : SelectionEnd ⊕ Selection :=
  if env.microblockGasLimit < (st.gasUsedTotal + t.core.getGasLimitZil) % 2 ^ 64 then
    .inr { st with gasLimitExceeded := st.gasLimitExceeded ++ [t] }
  else
    match checkCreatedTransaction env t st.store TransactionReceipt.empty with
    | none => .inl .outOfFuel
    | some .thrown => .inl .thrown
    | some (.done false s _) => .inr { st with store := s, droppedTxns := st.droppedTxns ++ [t.tranID] }
    | some (.done true s receipt) => acceptTxn { st with store := s } t receipt

/-- A transaction fresh from the pool: parked when its nonce is ahead of its sender's next, dropped
    when behind, processed when it is the next. -/
def takeFromPool (env : LeaderEnv) (st : Selection) (t : SignedTxn) : SelectionEnd ⊕ Selection :=
  let expected := st.store.getNonceForAccount t.core.senderAddr + 1
  if expected < t.core.nonce then
    .inr { st with addrNonceTxnMap := parkHighNonce st.addrNonceTxnMap t }
  else if t.core.nonce < expected then
    .inr { st with droppedTxns := st.droppedTxns ++ [t.tranID] }
  else processTxn env st t

/-- **One iteration of the loop of `ProcessTransactionWhenShardLeader`.** A waiting transaction
    whose turn has come goes first, replaced by one of the same sender and nonce at a higher gas
    price when the pool holds one; otherwise the pool's best transaction. -/
def selectionStep (env : LeaderEnv) (st : Selection) : SelectionEnd ⊕ Selection :=
  if env.microblockGasLimit ≤ st.gasUsedTotal then .inl (.finished st)
  else
    match findOneFromAddrNonceTxnMap st.store.getNonceForAccount st.addrNonceTxnMap with
    | some (t, m) =>
      let found := st.createdTxns.findSameNonceButHigherGas SignedTxn.keys t
      processTxn env { st with addrNonceTxnMap := m, createdTxns := found.2 } found.1
    | none =>
      match st.createdTxns.findOne SignedTxn.keys with
      | (some t, pool) => takeFromPool env { st with createdTxns := pool } t
      | (none, _) => .inl (.finished st)

/-- The loop's variables at its start: the pool copied, nothing waiting or selected, and
    `CleanStorageRootUpdateBufferTemp` applied to the temporary store. -/
def Selection.init (createdTxns : TxnPool SignedTxn) (store : AccountStoreSC) : Selection :=
  ⟨createdTxns, .empty, { store with storageRootUpdateBuffer := ∅ }, 0, 0, .empty, [], [], []⟩

/-- **`Node::ProcessTransactionWhenShardLeader`** up to the end of its loop, from the pool
    `m_createdTxns` and the temporary store (its accounts: the main store's, under the temporary
    ones), running at most `iterations` iterations. -/
def processTransactionWhenShardLeader (env : LeaderEnv) (createdTxns : TxnPool SignedTxn)
    (store : AccountStoreSC) (iterations : ℕ) : Option SelectionEnd :=
  Loop.runFuel (selectionStep env) iterations (Selection.init createdTxns store)

/-- The loop's variables when it finished, if it did. -/
def SelectionEnd.finishedState : SelectionEnd → Option Selection
  | .finished st => some st
  | _ => none

/-- Apply `txns` in order to the temporary store through `UpdateAccountsTemp`, as a node replaying a
    microblock's order would; `none` when one of them throws or runs out of fuel. -/
def replayTxns (env : LeaderEnv) : AccountStoreSC → List SignedTxn → Option AccountStoreSC
  | s, [] => some s
  | s, t :: txns =>
    match updateAccountsTemp env.oracles env.fuel env.epochNum t s TransactionReceipt.empty with
    | some (.done _ s' _) => replayTxns env s' txns
    | _ => none

/-! ## What one iteration does -/

variable {env : LeaderEnv} {st st' : Selection} {t : SignedTxn}

/-- A lowest entry is stored. -/
theorem lowest_mem {inner : FinStore ℕ SignedTxn} {e : ℕ × SignedTxn} (h : lowest inner = some e) :
    e.1 ∈ inner.keys := by
  unfold lowest at h
  split at h
  · rename_i hne
    cases h
    exact Finset.min'_mem _ hne
  · cases h

/-- **What `findOneFromAddrNonceTxnMap` takes out**: the lowest entry of some sender's map, whose
    nonce is that sender's next; the entry leaves the map, and the sender too when it was its
    last. -/
theorem findOneFromAddrNonceTxnMap_eq_some {f : Address → ℕ} {m m' : AddrNonceTxnMap}
    (h : findOneFromAddrNonceTxnMap f m = some (t, m')) :
    ∃ a inner n, m.find a = some inner ∧ lowest inner = some (n, t) ∧ n = f a + 1 ∧
      m' = if (inner.erase n).keys = ∅ then m.erase a else m.insert a (inner.erase n) := by
  unfold findOneFromAddrNonceTxnMap at h
  split at h
  · rename_i hne
    -- the sender scanned first is one of the ready ones
    obtain ⟨a, ha, hval⟩ := Finset.mem_image.1 ((readySenders f m).min'_mem hne)
    have hready := (Finset.mem_filter.1 ha).2
    have haddr : (⟨(readySenders f m).min' hne⟩ : Address) = a := by rw [← hval]
    simp only [haddr] at h
    cases hfind : m.find a with
    | none => simp [hfind] at hready
    | some inner =>
      cases hlow : lowest inner with
      | none => simp [hfind, hlow] at h
      | some e =>
        obtain ⟨n, u⟩ := e
        simp only [hfind, hlow, Option.getD_some, Option.map_some, Option.bind_some,
          Option.some.injEq, Prod.mk.injEq] at h hready
        obtain ⟨rfl, rfl⟩ := h
        exact ⟨a, inner, n, hfind, hlow, hready, rfl⟩
  · cases h

/-- The success path changes neither the pool nor the waiting transactions. -/
theorem acceptTxn_queues {receipt : TransactionReceipt} (h : acceptTxn st t receipt = .inr st') :
    st'.createdTxns = st.createdTxns ∧ st'.addrNonceTxnMap = st.addrNonceTxnMap := by
  dsimp only [acceptTxn] at h
  split at h
  · cases h
  · split at h
    · -- the fee overflowed: the transaction is not appended
      cases h
      exact ⟨rfl, rfl⟩
    · split at h
      · cases h
      · cases h
        exact ⟨rfl, rfl⟩

/-- `processTxn` changes neither the pool nor the waiting transactions. -/
theorem processTxn_queues (h : processTxn env st t = .inr st') :
    st'.createdTxns = st.createdTxns ∧ st'.addrNonceTxnMap = st.addrNonceTxnMap := by
  unfold processTxn at h
  split at h
  · -- set aside for the gas limit
    cases h
    exact ⟨rfl, rfl⟩
  · split at h
    · cases h
    · cases h
    · -- dropped
      cases h
      exact ⟨rfl, rfl⟩
    · have hq := acceptTxn_queues h
      exact hq

/-! ## The loop ends -/

/-- The transactions parked in `t_addrNonceTxnMap`. -/
def waiting (m : AddrNonceTxnMap) : ℕ := FinStore.total (fun inner => inner.keys.card) m

/-- The weight of a sender's entry is the size of its map, none when it has no map. -/
theorem weightOf_find (m : AddrNonceTxnMap) (a : Address) :
    FinStore.weightOf (fun inner => inner.keys.card) (m.find a) =
      ((m.find a).getD .empty).keys.card := by
  cases m.find a <;> rfl

theorem waiting_insert (m : AddrNonceTxnMap) (a : Address) (inner : FinStore ℕ SignedTxn) :
    waiting (m.insert a inner) + ((m.find a).getD .empty).keys.card =
      waiting m + inner.keys.card := by
  rw [← weightOf_find]
  exact FinStore.total_insert _ m a inner

theorem waiting_erase (m : AddrNonceTxnMap) (a : Address) :
    waiting (m.erase a) + ((m.find a).getD .empty).keys.card = waiting m := by
  rw [← weightOf_find]
  exact FinStore.total_erase _ m a

/-- Taking a waiting transaction out leaves one fewer waiting. -/
theorem waiting_findOneFromAddrNonceTxnMap {f : Address → ℕ} {m m' : AddrNonceTxnMap}
    (h : findOneFromAddrNonceTxnMap f m = some (t, m')) : waiting m' + 1 = waiting m := by
  obtain ⟨a, inner, n, hfind, hlow, -, rfl⟩ := findOneFromAddrNonceTxnMap_eq_some h
  have hcard : (inner.erase n).keys.card + 1 = inner.keys.card :=
    Finset.card_erase_add_one (lowest_mem hlow)
  split_ifs with hempty
  · -- the sender's last transaction: the sender goes
    have h0 : (inner.erase n).keys.card = 0 := by simp [hempty]
    have herase := waiting_erase m a
    rw [hfind, Option.getD_some] at herase
    omega
  · have hinsert := waiting_insert m a (inner.erase n)
    rw [hfind, Option.getD_some] at hinsert
    omega

/-- Parking a transaction adds at most one waiting. -/
theorem waiting_parkHighNonce (m : AddrNonceTxnMap) (t : SignedTxn) :
    waiting (parkHighNonce m t) ≤ waiting m + 1 := by
  have hgrow : ∀ inner : FinStore ℕ SignedTxn, inner = (m.find t.core.senderAddr).getD .empty →
      waiting (m.insert t.core.senderAddr (inner.insert t.core.nonce t)) ≤ waiting m + 1 := by
    rintro inner rfl
    have hinsert := waiting_insert m t.core.senderAddr
      (((m.find t.core.senderAddr).getD .empty).insert t.core.nonce t)
    have hcard : (((m.find t.core.senderAddr).getD .empty).insert t.core.nonce t).keys.card ≤
        ((m.find t.core.senderAddr).getD .empty).keys.card + 1 := Finset.card_insert_le _ _
    omega
  dsimp only [parkHighNonce]
  split
  · split_ifs
    · exact hgrow _ rfl
    · omega
  · exact hgrow _ rfl

/-- A transaction fresh from the pool adds at most one waiting, and leaves the pool alone. -/
theorem takeFromPool_queues (h : takeFromPool env st t = .inr st') :
    st'.createdTxns = st.createdTxns ∧
      waiting st'.addrNonceTxnMap ≤ waiting st.addrNonceTxnMap + 1 := by
  dsimp only [takeFromPool] at h
  split_ifs at h
  · cases h
    exact ⟨rfl, waiting_parkHighNonce _ _⟩
  · cases h
    exact ⟨rfl, Nat.le_succ _⟩
  · obtain ⟨hc, hm⟩ := processTxn_queues h
    rw [hm]
    exact ⟨hc, Nat.le_succ _⟩

/-- **What one iteration can do.** It goes on with a waiting transaction whose turn has come (or
    the pool's one of the same sender and nonce at a higher gas price), or with the pool's best. -/
theorem selectionStep_eq_inr (h : selectionStep env st = .inr st') :
    (∃ t m, findOneFromAddrNonceTxnMap st.store.getNonceForAccount st.addrNonceTxnMap =
        some (t, m) ∧
      processTxn env
          { st with
            addrNonceTxnMap := m
            createdTxns := (st.createdTxns.findSameNonceButHigherGas SignedTxn.keys t).2 }
          (st.createdTxns.findSameNonceButHigherGas SignedTxn.keys t).1 = .inr st') ∨
    (∃ t pool, st.createdTxns.findOne SignedTxn.keys = (some t, pool) ∧
      takeFromPool env { st with createdTxns := pool } t = .inr st') := by
  unfold selectionStep at h
  split_ifs at h
  split at h
  · rename_i t m hfind
    exact .inl ⟨t, m, hfind, h⟩
  · split at h
    · rename_i t pool hone
      exact .inr ⟨t, pool, hone, h⟩
    · cases h

/-- The rank of the loop's variables: a pool transaction counts twice, since taking it out may
    park it. -/
def Selection.rank (st : Selection) : ℕ := 2 * st.createdTxns.size + waiting st.addrNonceTxnMap

/-- **Every iteration that goes on lowers the rank** and keeps the pool well-formed. -/
theorem selectionStep_rank (hwf : st.createdTxns.WF SignedTxn.keys)
    (h : selectionStep env st = .inr st') :
    st'.createdTxns.WF SignedTxn.keys ∧ st'.rank < st.rank := by
  rcases selectionStep_eq_inr h with ⟨t, m, hfind, hproc⟩ | ⟨t, pool, hone, htake⟩
  · -- a waiting transaction: one fewer waiting, and the pool loses at most one
    obtain ⟨hc, hm⟩ := processTxn_queues hproc
    have hw := waiting_findOneFromAddrNonceTxnMap hfind
    have hs := hwf.size_findSameNonceButHigherGas_le t
    refine ⟨hc ▸ hwf.findSameNonceButHigherGas t, ?_⟩
    simp only [Selection.rank, hc, hm]
    omega
  · -- a pool transaction: one fewer in the pool, at most one more waiting
    obtain ⟨hc, hm⟩ := takeFromPool_queues htake
    have hs := hwf.size_findOne hone
    have hpool := hwf.findOne
    rw [hone] at hpool
    refine ⟨hc ▸ hpool, ?_⟩
    simp only [Selection.rank, hc] at hm ⊢
    omega

/-- **The loop ends.** From a well-formed pool, `2 * size + 1` iterations suffice for the loop of
    `ProcessTransactionWhenShardLeader` to end: by its condition or a `break`, by an exception, or
    with the executor out of fuel. -/
theorem processTransactionWhenShardLeader_terminates (env : LeaderEnv)
    (createdTxns : TxnPool SignedTxn) (store : AccountStoreSC)
    (hwf : createdTxns.WF SignedTxn.keys) :
    ∃ r, processTransactionWhenShardLeader env createdTxns store (2 * createdTxns.size + 1) =
      some r := by
  have hrank : (Selection.init createdTxns store).rank = 2 * createdTxns.size := by
    simp [Selection.rank, Selection.init, waiting, FinStore.total]
  apply Loop.runFuel_isSome_of_measure (selectionStep env)
    (fun st => st.createdTxns.WF SignedTxn.keys) Selection.rank
  · intro st st' hst h
    exact (selectionStep_rank hst h).1
  · intro st st' hst h
    exact (selectionStep_rank hst h).2
  · exact hwf
  · omega

/-! ## A rejected transaction that still moves its sender's nonce -/

/-- The executor's pre-validation never fails with `NOT_PRESENT`, the status `UpdateAccounts`
    forgives. -/
theorem preValidateScillaRun_txnStatus_ne {ctx : ScillaProcessContext} {s : AccountStoreSC}
    (h : (preValidateScillaRun ctx s).isSuccess = false) :
    (preValidateScillaRun ctx s).txnStatus ≠ .notPresent := by
  unfold preValidateScillaRun at h ⊢
  split_ifs at h ⊢
  · simp [CpsExecuteResult.fail]
  · unfold checkAmountScilla at h ⊢
    cases hmul : SafeMath.mul 128 ctx.gasLimit ctx.gasPrice with
    | none => simp [CpsExecuteResult.fail]
    | some deposit =>
      simp only [hmul] at h ⊢
      split_ifs at h ⊢
      · simp [CpsExecuteResult.fail]
      · simp [CpsExecuteResult.ok] at h

/-- **A transaction rejected by the executor's pre-validation still bumps its sender's nonce.** A
    Scilla transaction that fits the gas limit and passes the validator's own checks, but whose gas
    deposit and amount the executor's pre-validation rejects, is dropped; the temporary store it
    leaves has the sender's nonce increased, so `m_TxnOrder` stays as it was while the nonce the
    loop expects next of the sender moves on. -/
theorem processTxn_preValidate_fail {acc : Account}
    (hfit : (st.gasUsedTotal + t.core.getGasLimitZil) % 2 ^ 64 ≤ env.microblockGasLimit)
    (hversion : env.versionCorrect t = true) (hsender : isNullAddress t.core.senderAddr = false)
    (hacc : env.mainAccounts.find t.core.senderAddr = some acc)
    (hbalance : t.core.getAmountQa ≤ acc.balance)
    (hscilla : isEvmTransaction t.core st.store = false)
    (hpre : (preValidateScillaRun (ScillaProcessContext.ofTransaction t.core env.epochNum)
      st.store.discardAtomics).isSuccess = false) :
    processTxn env st t =
      .inr { st with
        store := st.store.discardAtomics.increaseNonceForAccount t.core.senderAddr
        droppedTxns := st.droppedTxns ++ [t.tranID] } := by
  have hstatus := preValidateScillaRun_txnStatus_ne hpre
  -- the executor leaves by its pre-validation exit, which bumps the nonce
  have hrun : runFromScilla env.oracles env.fuel (ScillaProcessContext.ofTransaction t.core env.epochNum)
      st.store TransactionReceipt.empty =
      some (.returned (preValidateScillaRun (ScillaProcessContext.ofTransaction t.core env.epochNum)
          st.store.discardAtomics)
        (st.store.discardAtomics.increaseNonceForAccount t.core.senderAddr)
        ((TransactionReceipt.empty.removeAllTransitions.setCumGas 0).setResult false)) := by
    simp only [runFromScilla, hpre, Bool.not_false, ↓reduceIte]
    rfl
  -- and `UpdateAccounts` does not forgive its status
  have hcheck : checkCreatedTransaction env t st.store TransactionReceipt.empty =
      some (.done false (st.store.discardAtomics.increaseNonceForAccount t.core.senderAddr)
        ((TransactionReceipt.empty.removeAllTransitions.setCumGas 0).setResult false)) := by
    simp [checkCreatedTransaction, hversion, hsender, hacc, Nat.not_lt.2 hbalance,
      updateAccountsTemp, hscilla, updateAccounts, hrun, UpdateOutcome.ofExec, hpre, hstatus]
  simp only [processTxn, Nat.not_lt.2 hfit, if_false, hcheck]

/-! ### The failing input -/

/-- The main store's accounts: sender `⟨1⟩` with balance 100 and nonce 0. -/
def dropProbeAccounts : FinStore Address Account := FinStore.empty.insert ⟨1⟩ (Account.new 100 0)

/-- The temporary store over those accounts. -/
def dropProbeStore : AccountStoreSC := AccountStoreSC.ofAccounts [(⟨1⟩, Account.new 100 0)]

/-- No interpreter, every version correct, and a microblock gas limit of 10. -/
def dropProbeEnv : LeaderEnv := ⟨CpsOracles.idle, 1, 1, fun _ => true, dropProbeAccounts, 10⟩

/-- Nonce 1: the whole balance to `⟨2⟩` with gas limit 1 at gas price 1, so that the deposit and
    the amount exceed the balance by one. -/
def overdrawingTxn : SignedTxn := ⟨1, 1, ⟨false, 1, ⟨1⟩, ⟨2⟩, 100, 1, 1, [], []⟩, 0⟩

/-- Nonce 2: a transfer of nothing to `⟨2⟩` with gas limit 1. -/
def lowGasTxn : SignedTxn := ⟨2, 1, ⟨false, 2, ⟨1⟩, ⟨2⟩, 0, 1, 1, [], []⟩, 0⟩

/-- The pool holding both. -/
def dropProbePool : TxnPool SignedTxn :=
  TxnPool.insertAll SignedTxn.keys [overdrawingTxn, lowGasTxn]

/-- The loop over the pool above ends within its bound. -/
theorem processTransactionWhenShardLeader_terminates_dropProbe :
    dropProbePool.WF SignedTxn.keys ∧
      ∃ r, processTransactionWhenShardLeader dropProbeEnv dropProbePool dropProbeStore
        (2 * dropProbePool.size + 1) = some r := by
  have hwf : dropProbePool.WF SignedTxn.keys := (TxnPool.insertAll_wf SignedTxn.keys (by decide)).1
  exact ⟨hwf, processTransactionWhenShardLeader_terminates dropProbeEnv dropProbePool dropProbeStore hwf⟩

/-- The first iteration over the pool above: the overdrawing transaction fits the gas limit and
    passes the validator, the executor's pre-validation rejects it, and the loop drops it with the
    sender's nonce bumped. -/
theorem processTxn_preValidate_fail_overdrawing :
    (preValidateScillaRun (ScillaProcessContext.ofTransaction overdrawingTxn.core dropProbeEnv.epochNum)
      (Selection.init dropProbePool dropProbeStore).store.discardAtomics).isSuccess = false ∧
    processTxn dropProbeEnv (Selection.init dropProbePool dropProbeStore) overdrawingTxn =
      .inr { Selection.init dropProbePool dropProbeStore with
        store := (Selection.init dropProbePool dropProbeStore).store.discardAtomics.increaseNonceForAccount
          overdrawingTxn.core.senderAddr
        droppedTxns := (Selection.init dropProbePool dropProbeStore).droppedTxns ++
          [overdrawingTxn.tranID] } := by
  have hpre : (preValidateScillaRun (ScillaProcessContext.ofTransaction overdrawingTxn.core
      dropProbeEnv.epochNum) (Selection.init dropProbePool dropProbeStore).store.discardAtomics).isSuccess =
      false := by decide
  exact ⟨hpre, @processTxn_preValidate_fail dropProbeEnv (Selection.init dropProbePool dropProbeStore)
    overdrawingTxn (Account.new 100 0) (by decide) rfl (by decide) (by decide) (by decide) (by decide)
    hpre⟩

/-- The loop drops the first transaction, which still bumps the sender's nonce, and then selects
    the second, whose nonce is two above the sender's; its plain transfer charges 50 gas against a
    gas limit of 1. Replaying the selected order on the initial store leaves the sender at nonce 1,
    the loop's store at 2, and the microblock's gas exceeds its limit. -/
theorem order_after_prevalidation_drop :
    ((processTransactionWhenShardLeader dropProbeEnv dropProbePool dropProbeStore 3).bind
        SelectionEnd.finishedState).map
      (fun st => (st.txnOrder, st.droppedTxns, st.store.getNonceForAccount ⟨1⟩, st.gasUsedTotal)) =
      some ([lowGasTxn.tranID], [overdrawingTxn.tranID], 2, 50) ∧
    (replayTxns dropProbeEnv dropProbeStore [lowGasTxn]).map (·.getNonceForAccount ⟨1⟩) = some 1 ∧
    lowGasTxn.core.nonce = dropProbeStore.getNonceForAccount ⟨1⟩ + 2 ∧
    dropProbeEnv.microblockGasLimit < 50 := by
  decide

end Node

end Zilliqa
