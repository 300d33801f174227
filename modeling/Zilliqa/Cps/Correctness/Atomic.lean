import Zilliqa.Cps.AccountStore

/-!
# `Cps.Correctness.Atomic` — the atomic layer refines direct updates of the parent store

`AccountStoreCpsInterface` runs a transaction's balance and nonce updates on `m_accountStoreAtomic`,
a layer over the parent store that `CommitAtomics` publishes and `DiscardAtomics` drops. What the
layer is for: a run of atomic calls returns what the same calls return when applied directly to the
parent, through `AccountStoreBase` and `Account`; `CommitAtomics` then leaves the parent equal to the
directly updated store, and `DiscardAtomics` leaves it as it was.

The simulation relates the layered store to one map, its view (`Overlay.view`): every call on the
atomic layer is the direct call on the view and never writes the parent (`atomicCall_matches`). The
copy that `AccountStoreAtomic::GetAccount` makes of a parent account on first read writes the value
the view already shows, so it changes neither the view nor what a commit publishes
(`writeAtomic_getAccountAtomic`).

## Contents
- `AccountStoreBase` on a plain map: `AddAccount`, `IncreaseBalance`, `DecreaseBalance`,
  `TransferBalance`, and `update` through an `Account*`.
- `AtomicCall`, `CallResult`, and the two semantics `AccountStoreSC.atomicCall` and
  `AccountStoreBase.directCall`, with their runs.
- `AccountStoreSC.Matches` and one matching lemma per operation, assembled into the step lemma
  `atomicCall_matches` and the run lemma `runAtomic_matches`.
-/

namespace Zilliqa

/-- An `AccountStoreBase` as a map from addresses to accounts (`m_addressToAccount`). -/
abbrev AccountStoreBase := FinStore Address Account

namespace AccountStoreBase

variable (m : AccountStoreBase)

/-- Change an account through its `Account*`: fails, changing nothing, when the account is missing
    or the operation fails. -/
def update (a : Address) (f : Account → Option Account) : Bool × AccountStoreBase :=
  match m.find a with
  | none => (false, m)
  | some acc =>
    match f acc with
    | none => (false, m)
    | some acc' => (true, m.insert a acc')

/-- `AccountStoreBase::AddAccount(address, account)`, without replacement. -/
def addAccount (a : Address) (acc : Account) : Bool × AccountStoreBase :=
  if (m.find a).isSome then (false, m) else (true, m.insert a acc)

/-- `AccountStoreBase::DecreaseBalance`. -/
def decreaseBalance (a : Address) (delta : ℕ) : Bool × AccountStoreBase :=
  if delta = 0 then (true, m) else m.update a (·.decreaseBalance delta)

/-- `AccountStoreBase::IncreaseBalance`: a missing account is created holding `delta`. -/
def increaseBalance (a : Address) (delta : ℕ) : Bool × AccountStoreBase :=
  if delta = 0 then (true, m)
  else
    match m.find a with
    | some acc =>
      match acc.increaseBalance delta with
      | some acc' => (true, m.insert a acc')
      | none => (false, m)
    | none => m.addAccount a (Account.new delta 0)

/-- `AccountStoreBase::TransferBalance`: decrease, then increase, and give the amount back when the
    increase fails. -/
def transferBalance (src dst : Address) (delta : ℕ) : Bool × AccountStoreBase :=
  match m.decreaseBalance src delta with
  | (false, m1) => (false, m1)
  | (true, m1) =>
    match m1.increaseBalance dst delta with
    | (true, m2) => (true, m2)
    | (false, m2) => (false, (m2.increaseBalance src delta).2)

end AccountStoreBase

/-- A call of `AccountStoreCpsInterface` on the atomic layer. -/
inductive AtomicCall where
  | getAccountAtomic (a : Address)
  | addAccountAtomic (a : Address)
  | transferBalanceAtomic (src dst : Address) (amount : Amount)
  | increaseBalanceAtomic (a : Address) (amount : Amount)
  | decreaseBalanceAtomic (a : Address) (amount : Amount)
  | setBalanceAtomic (a : Address) (amount : Amount)
  | increaseNonceForAccountAtomic (a : Address)

/-- What a call returns: the account `GetAccountAtomic` points to (or null), the `bool` of the
    others, nothing for the `void` ones. -/
inductive CallResult where
  | account (acc : Option Account)
  | success (ok : Bool)
  | done
deriving DecidableEq

/-- A call on the atomic layer, through the interface's definitions. -/
def AccountStoreSC.atomicCall (s : AccountStoreSC) : AtomicCall → CallResult × AccountStoreSC
  | .getAccountAtomic a => (.account (s.getAccountAtomic a), s)
  | .addAccountAtomic a =>
    let r := s.addAccountAtomic a
    (.success r.1, r.2)
  | .transferBalanceAtomic src dst amount =>
    let r := s.transferBalanceAtomic src dst amount
    (.success r.1, r.2)
  | .increaseBalanceAtomic a amount =>
    let r := s.increaseBalanceAtomic a amount
    (.success r.1, r.2)
  | .decreaseBalanceAtomic a amount =>
    let r := s.decreaseBalanceAtomic a amount
    (.success r.1, r.2)
  | .setBalanceAtomic a amount => (.done, s.setBalanceAtomic a amount)
  | .increaseNonceForAccountAtomic a => (.done, s.increaseNonceForAccountAtomic a)

/-- The same call applied directly to a store: `GetAccount`, `AddAccount(a, {0, 0})`,
    `TransferBalance`, and the `Account` updates of the interface on `GetAccount(a)`. -/
def AccountStoreBase.directCall (m : AccountStoreBase) : AtomicCall → CallResult × AccountStoreBase
  | .getAccountAtomic a => (.account (m.find a), m)
  | .addAccountAtomic a =>
    let r := m.addAccount a (Account.new 0 0)
    (.success r.1, r.2)
  | .transferBalanceAtomic src dst amount =>
    let r := m.transferBalance src dst amount.toQa
    (.success r.1, r.2)
  | .increaseBalanceAtomic a amount =>
    let r := m.update a (·.increaseBalance amount.toQa)
    (.success r.1, r.2)
  | .decreaseBalanceAtomic a amount =>
    let r := m.update a (·.decreaseBalance amount.toQa)
    (.success r.1, r.2)
  | .setBalanceAtomic a amount => (.done, (m.update a fun acc => some (acc.setBalance amount.toQa)).2)
  | .increaseNonceForAccountAtomic a =>
    let nonce := ((m.find a).map (·.nonce)).getD 0
    (.done, (m.update a fun acc => some (acc.setNonce ((nonce + 1) % 2 ^ 64))).2)

/-- A run of calls on the atomic layer, with what each returned. -/
def AccountStoreSC.runAtomic (s : AccountStoreSC) : List AtomicCall → List CallResult × AccountStoreSC
  | [] => ([], s)
  | c :: cs =>
    let r := s.atomicCall c
    let rs := r.2.runAtomic cs
    (r.1 :: rs.1, rs.2)

/-- A run of the same calls applied directly. -/
def AccountStoreBase.runDirect (m : AccountStoreBase) :
    List AtomicCall → List CallResult × AccountStoreBase
  | [] => ([], m)
  | c :: cs =>
    let r := m.directCall c
    let rs := r.2.runDirect cs
    (r.1 :: rs.1, rs.2)

namespace AccountStoreSC

/-- The store the atomic layer shows: what `GetAccountAtomic` reads and `CommitAtomics` publishes. -/
def atomicView (s : AccountStoreSC) : AccountStoreBase := s.accounts.view

/-- A result `r` of the atomic layer matches the direct result `d` on the view of `s`: the same
    returned value, the view is the directly updated store, and the parent is left alone. -/
def Matches {β : Type} (s : AccountStoreSC) (r : β × AccountStoreSC) (d : β × AccountStoreBase) :
    Prop :=
  r.1 = d.1 ∧ r.2.atomicView = d.2 ∧ r.2.accounts.parent = s.accounts.parent

variable (s : AccountStoreSC)

theorem getAccountAtomic_eq_view (a : Address) : s.getAccountAtomic a = s.atomicView.find a :=
  rfl

theorem view_writeAtomic (a : Address) (acc : Account) :
    (s.writeAtomic a acc).atomicView = s.atomicView.insert a acc :=
  Overlay.view_write _ _ _

/-! ## One matching lemma per operation -/

theorem updateAtomic_matches (a : Address) (f : Account → Option Account) :
    s.Matches (s.updateAtomic a f) (s.atomicView.update a f) := by
  unfold updateAtomic AccountStoreBase.update
  rw [getAccountAtomic_eq_view]
  cases s.atomicView.find a with
  | none => exact ⟨rfl, rfl, rfl⟩
  | some acc =>
    dsimp only
    cases f acc with
    | none => exact ⟨rfl, rfl, rfl⟩
    | some acc' => exact ⟨rfl, view_writeAtomic s a acc', rfl⟩

theorem addAccountBase_matches (a : Address) (acc : Account) :
    s.Matches (s.addAccountBase a acc) (s.atomicView.addAccount a acc) := by
  unfold addAccountBase AccountStoreBase.addAccount
  rw [getAccountAtomic_eq_view]
  split_ifs
  · exact ⟨rfl, rfl, rfl⟩
  · exact ⟨rfl, view_writeAtomic s a acc, rfl⟩

theorem decreaseBalanceBase_matches (a : Address) (delta : ℕ) :
    s.Matches (s.decreaseBalanceBase a delta) (s.atomicView.decreaseBalance a delta) := by
  unfold decreaseBalanceBase AccountStoreBase.decreaseBalance
  split_ifs
  · exact ⟨rfl, rfl, rfl⟩
  · exact s.updateAtomic_matches a _

theorem increaseBalanceBase_matches (a : Address) (delta : ℕ) :
    s.Matches (s.increaseBalanceBase a delta) (s.atomicView.increaseBalance a delta) := by
  unfold increaseBalanceBase AccountStoreBase.increaseBalance
  split_ifs
  · exact ⟨rfl, rfl, rfl⟩
  · rw [getAccountAtomic_eq_view]
    cases s.atomicView.find a with
    | some acc =>
      dsimp only
      cases acc.increaseBalance delta with
      | some acc' => exact ⟨rfl, view_writeAtomic s a acc', rfl⟩
      | none => exact ⟨rfl, rfl, rfl⟩
    | none => exact s.addAccountBase_matches a _

/-- The rollback of a failed transfer matches too: each of the three steps does. -/
theorem transferBalanceBase_matches (src dst : Address) (delta : ℕ) :
    s.Matches (s.transferBalanceBase src dst delta)
      (s.atomicView.transferBalance src dst delta) := by
  obtain ⟨h1, hv1, hp1⟩ := s.decreaseBalanceBase_matches src delta
  unfold transferBalanceBase AccountStoreBase.transferBalance
  rcases hd : s.decreaseBalanceBase src delta with ⟨b1, s1⟩
  rcases hm : s.atomicView.decreaseBalance src delta with ⟨c1, m1⟩
  rw [hd, hm] at h1 hv1
  rw [hd] at hp1
  dsimp only at h1 hv1 hp1
  subst h1 hv1
  cases b1 with
  | false => exact ⟨rfl, rfl, hp1⟩
  | true =>
    dsimp only
    obtain ⟨h2, hv2, hp2⟩ := s1.increaseBalanceBase_matches dst delta
    rcases hi : s1.increaseBalanceBase dst delta with ⟨b2, s2⟩
    rcases hn : s1.atomicView.increaseBalance dst delta with ⟨c2, m2⟩
    rw [hi, hn] at h2 hv2
    rw [hi] at hp2
    dsimp only at h2 hv2 hp2
    subst h2 hv2
    cases b2 with
    | true => exact ⟨rfl, rfl, hp2.trans hp1⟩
    | false =>
      obtain ⟨-, hv3, hp3⟩ := s2.increaseBalanceBase_matches src delta
      exact ⟨rfl, hv3, hp3.trans (hp2.trans hp1)⟩

/-- The step lemma: one call on the atomic layer is the direct call on its view, and leaves the
    parent alone. -/
theorem atomicCall_matches (c : AtomicCall) :
    s.Matches (s.atomicCall c) (s.atomicView.directCall c) := by
  cases c with
  | getAccountAtomic a => exact ⟨rfl, rfl, rfl⟩
  | addAccountAtomic a =>
    obtain ⟨h, hv, hp⟩ := s.addAccountBase_matches a (Account.new 0 0)
    exact ⟨congrArg CallResult.success h, hv, hp⟩
  | transferBalanceAtomic src dst amount =>
    obtain ⟨h, hv, hp⟩ := s.transferBalanceBase_matches src dst amount.toQa
    exact ⟨congrArg CallResult.success h, hv, hp⟩
  | increaseBalanceAtomic a amount =>
    obtain ⟨h, hv, hp⟩ := s.updateAtomic_matches a (·.increaseBalance amount.toQa)
    exact ⟨congrArg CallResult.success h, hv, hp⟩
  | decreaseBalanceAtomic a amount =>
    obtain ⟨h, hv, hp⟩ := s.updateAtomic_matches a (·.decreaseBalance amount.toQa)
    exact ⟨congrArg CallResult.success h, hv, hp⟩
  | setBalanceAtomic a amount =>
    obtain ⟨-, hv, hp⟩ := s.updateAtomic_matches a fun acc => some (acc.setBalance amount.toQa)
    exact ⟨rfl, hv, hp⟩
  | increaseNonceForAccountAtomic a =>
    -- the nonce is read through the layer, that is from the view
    obtain ⟨-, hv, hp⟩ := s.updateAtomic_matches a
      fun acc => some (acc.setNonce ((((s.atomicView.find a).map (·.nonce)).getD 0 + 1) % 2 ^ 64))
    exact ⟨rfl, hv, hp⟩

/-- The run lemma: a run of calls on the atomic layer returns what the direct run on its view
    returns, ends with the directly updated view, and leaves the parent alone. -/
theorem runAtomic_matches (cs : List AtomicCall) :
    s.Matches (s.runAtomic cs) (s.atomicView.runDirect cs) := by
  induction cs generalizing s with
  | nil => exact ⟨rfl, rfl, rfl⟩
  | cons c cs ih =>
    obtain ⟨h1, hv1, hp1⟩ := s.atomicCall_matches c
    obtain ⟨h2, hv2, hp2⟩ := ih (s.atomicCall c).2
    rw [hv1] at h2 hv2
    exact ⟨by simp only [runAtomic, AccountStoreBase.runDirect, h1, h2], hv2, hp2.trans hp1⟩

/-- Copying a parent account into the atomic layer on first read, as `AccountStoreAtomic::GetAccount`
    does, changes neither the view nor what a commit publishes. -/
theorem writeAtomic_getAccountAtomic {a : Address} {acc : Account}
    (h : s.getAccountAtomic a = some acc) :
    (s.writeAtomic a acc).atomicView = s.atomicView ∧
      (s.writeAtomic a acc).commitAtomics.accounts.parent = s.commitAtomics.accounts.parent := by
  have hv : (s.writeAtomic a acc).atomicView = s.atomicView := by
    rw [view_writeAtomic]
    exact FinStore.insert_find_self _ h
  exact ⟨hv, hv⟩

end AccountStoreSC

/-- For every parent store and every run of atomic calls on a fresh atomic layer over it, each call
    returns what it returns when applied directly to the parent; `CommitAtomics` leaves the parent
    equal to the directly updated store, and `DiscardAtomics` leaves it unchanged. -/
theorem atomic_layer_refines_parent (P : AccountStoreBase) (buf bufAtomic : Finset Address)
    (cst : ContractStorage) (cs : List AtomicCall) :
    let s : AccountStoreSC := ⟨⟨P, .empty⟩, buf, bufAtomic, cst⟩
    (s.runAtomic cs).1 = (P.runDirect cs).1 ∧
      (s.runAtomic cs).2.commitAtomics.accounts.parent = (P.runDirect cs).2 ∧
      (s.runAtomic cs).2.discardAtomics.accounts.parent = P := by
  intro s
  have hview : s.atomicView = P := FinStore.merge_empty P
  obtain ⟨h, hv, hp⟩ := s.runAtomic_matches cs
  rw [hview] at h hv
  exact ⟨h, hv, hp⟩

end Zilliqa
