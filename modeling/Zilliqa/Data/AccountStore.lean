import Zilliqa.Cps.AccountStore

/-!
# `Data.AccountStore` — committing a state delta revertibly, and reverting it

`AccountStore::CommitTempRevertible` applies a serialized state delta to the main store and records,
entry by entry, what `RevertCommitTemp` needs to undo it: the account an entry changed
(`m_addressToAccountRevChanged`) or the account it created (`m_addressToAccountRevCreated`). The
main store reads an account from its cache `m_addressToAccount`, else from the state trie, caching
it.

Both records are filled with `insert_or_assign`, and an entry whose decoding fails has already
created a zero account when the address was new. So the revert restores the store when every entry
decodes and names its own address (`revertCommitTemp_commitTempRevertible`), and not otherwise
(`revert_keeps_intermediate_and_created`). The deltas a shard sends are of the first kind:
`SetAccountStoreDelta` writes one entry per address of the temporary store, each of the current
version (`Message.AccountDelta`).

## Contents
- `AccountStore` with `getAccount`, `addAccount`, `addAccountDuringDeserialization`,
  `initRevertibles` and `revertCommitTemp`.
- `getAccountStoreDelta` over the parsed entries, with `ProtobufToAccountDelta` as a parameter, and
  `commitTempRevertible`; `protobufToAccountDeltaBase`, its version check, `ChangeBalance` and
  `IncreaseNonceBy` on an entry without code for an account that is not a contract.
- `Restores`, the invariant of a revertible commit in progress, with its step and run lemmas.
-/

namespace Zilliqa

namespace Account

/-- `AccountBase::IncreaseNonceBy`: `SafeMath<uint64_t>::add(m_nonce, nonceDelta, m_nonce)`. -/
def increaseNonceBy (acc : Account) (delta : ℕ) : Option Account :=
  (SafeMath.addInPlace 64 acc.nonce delta).map fun n => { acc with nonce := n }

/-- `AccountBase::ChangeBalance` for a delta given as a sign and a magnitude, with its `bool`
    dropped as `ProtobufToAccountDelta` drops it: a refused change leaves the account. -/
def changeBalance (acc : Account) (positive : Bool) (magnitude : ℕ) : Account :=
  if positive || magnitude = 0 then (acc.increaseBalance magnitude).getD acc
  else (acc.decreaseBalance magnitude).getD acc

/-- `IncreaseNonceBy` wraps: the aliased `SafeMath::add` never reports the overflow. -/
theorem increaseNonceBy_eq (acc : Account) (delta : ℕ) :
    acc.increaseNonceBy delta = some { acc with nonce := (acc.nonce + delta) % 2 ^ 64 } := by
  simp [increaseNonceBy]

/-- At the top of their ranges the increments of `AccountBase` return `true` and leave `0`, where
    `SafeMath::add` with an out-parameter of its own refuses the same sums. -/
theorem increments_wrap_at_max :
    (Account.new (2 ^ 128 - 1) (2 ^ 64 - 1)).increaseBalance 1 = some (Account.new 0 (2 ^ 64 - 1)) ∧
      (Account.new 0 (2 ^ 64 - 1)).increaseNonce = some (Account.new 0 0) ∧
      (Account.new 0 (2 ^ 64 - 1)).increaseNonceBy 1 = some (Account.new 0 0) ∧
      SafeMath.add 128 (2 ^ 128 - 1) 1 = none ∧ SafeMath.add 64 (2 ^ 64 - 1) 1 = none := by
  refine ⟨?_, ?_, ?_, by decide, by decide⟩
  · rw [increaseBalance_eq]
    rfl
  · rw [increaseNonce_eq]
    rfl
  · rw [increaseNonceBy_eq]
    rfl

end Account

/-- `Account::VERSION`. -/
def accountVersion : ℕ := 1

/-- The account fields of a `ProtoAccount` delta entry: its base's version, balance magnitude and
    nonce, and the sign bit `numbersign`. -/
structure ProtoAccountDelta where
  version : ℕ
  numberSign : Bool
  balance : ℕ
  nonce : ℕ

/-- `ProtobufToAccountDelta` on an entry without code for an account that is not a contract: the
    version check, `ChangeBalance` and `IncreaseNonceBy`. -/
def protobufToAccountDeltaBase (d : ProtoAccountDelta) (_ : Address) (acc : Account) (_ : Bool) :
    Option Account :=
  if d.version ≠ accountVersion then none
  else (acc.changeBalance d.numberSign d.balance).increaseNonceBy d.nonce

/-- The parts of `AccountStore` a revertible commit touches. -/
structure AccountStore where
  /-- `m_addressToAccount`, the accounts read or written so far. -/
  addressToAccount : FinStore Address Account
  /-- `m_state`, the state trie, by address. -/
  state : FinStore Address Account
  /-- `m_addressToAccountRevChanged`. -/
  revChanged : FinStore Address Account
  /-- `m_addressToAccountRevCreated`. -/
  revCreated : FinStore Address Account

namespace AccountStore

variable (s : AccountStore)

/-- `AccountStore::GetAccount`: the cached account, else the trie's, which is then cached. -/
def getAccount (a : Address) : Option Account × AccountStore :=
  match s.addressToAccount.find a with
  | some acc => (some acc, s)
  | none =>
    match s.state.find a with
    | some acc => (some acc, { s with addressToAccount := s.addressToAccount.insert a acc })
    | none => (none, s)

/-- `AccountStoreBase::AddAccount(address, account)`, whose existence test is the store's
    `GetAccount`. -/
def addAccount (a : Address) (acc : Account) : Bool × AccountStore :=
  match s.getAccount a with
  | (some _, s1) => (false, s1)
  | (none, s1) => (true, { s1 with addressToAccount := s1.addressToAccount.insert a acc })

/-- `AddAccountDuringDeserialization`: store the account, record the original (or the creation)
    when `revertible`, and update the trie. -/
def addAccountDuringDeserialization (a : Address) (acc oriAcc : Account)
    (fullCopy revertible : Bool) : AccountStore :=
  let s1 := { s with addressToAccount := s.addressToAccount.insert a acc }
  let s2 :=
    if revertible then
      if fullCopy then { s1 with revCreated := s1.revCreated.insert a acc }
      else { s1 with revChanged := s1.revChanged.insert a oriAcc }
    else s1
  { s2 with state := s2.state.insert a acc }

/-- `InitRevertibles`, for the accounts. -/
def initRevertibles : AccountStore := { s with revChanged := .empty, revCreated := .empty }

/-- `RevertCommitTemp`, for the accounts: every recorded original is written back to the cache and
    the trie, then every recorded creation is removed from both. The source loops over two
    `unordered_map`s; their entries have distinct addresses and commute, so each loop is the
    pointwise update below. -/
def revertCommitTemp : AccountStore :=
  { s with
    addressToAccount := (FinStore.merge s.revChanged s.addressToAccount).eraseKeys s.revCreated.keys
    state := (FinStore.merge s.revChanged s.state).eraseKeys s.revCreated.keys }

section Delta

variable {δ : Type} (protobufToAccountDelta : δ → Address → Account → Bool → Option Account)

/-- One entry of `Messenger::GetAccountStoreDelta`: a missing account is first created as
    `{0, 0}` and read back; the entry is decoded onto the original account and stored. -/
def getAccountStoreDeltaEntry (revertible : Bool) (s : AccountStore) (a : Address) (e : δ) :
    Bool × AccountStore :=
  match s.getAccount a with
  | (some ori, s1) =>
    match protobufToAccountDelta e a ori false with
    | none => (false, s1)
    | some acc => (true, s1.addAccountDuringDeserialization a acc ori false revertible)
  | (none, s1) =>
    let s2 := (s1.addAccount a (Account.new 0 0)).2
    match s2.getAccount a with
    | (none, s3) => (false, s3)
    | (some ori, s3) =>
      match protobufToAccountDelta e a ori true with
      | none => (false, s3)
      | some acc => (true, s3.addAccountDuringDeserialization a acc ori true revertible)

/-- `Messenger::GetAccountStoreDelta` into the main store, over the parsed entries: it stops at the
    first entry that fails, leaving what that entry did. -/
def getAccountStoreDelta (revertible : Bool) : AccountStore → List (Address × δ) → Bool × AccountStore
  | s, [] => (true, s)
  | s, (a, e) :: rest =>
    match getAccountStoreDeltaEntry protobufToAccountDelta revertible s a e with
    | (false, s') => (false, s')
    | (true, s') => getAccountStoreDelta revertible s' rest

/-- `CommitTempRevertible`: `InitRevertibles`, then `DeserializeDelta` of the serialized delta with
    `revertible` set. -/
def commitTempRevertible (s : AccountStore) (entries : List (Address × δ)) : AccountStore :=
  (getAccountStoreDelta protobufToAccountDelta true s.initRevertibles entries).2

end Delta

/-! ## Reading the store -/

/-- What `GetAccount` returns: the cached account, else the trie's. -/
theorem getAccount_fst (a : Address) :
    (s.getAccount a).1 = (s.addressToAccount.find a).or (s.state.find a) := by
  unfold getAccount
  cases s.addressToAccount.find a with
  | some acc => rfl
  | none =>
    dsimp only
    cases s.state.find a <;> rfl

/-- `AddAccountDuringDeserialization` stores the account in the cache and the trie, whatever it
    records. -/
theorem getAccount_addAccountDuringDeserialization (a : Address) (acc oriAcc : Account)
    (fullCopy revertible : Bool) (b : Address) :
    ((s.addAccountDuringDeserialization a acc oriAcc fullCopy revertible).getAccount b).1 =
      if b = a then some acc else (s.getAccount b).1 := by
  have hcache : (s.addAccountDuringDeserialization a acc oriAcc fullCopy revertible).addressToAccount =
      s.addressToAccount.insert a acc := by
    cases revertible <;> cases fullCopy <;> rfl
  have htrie : (s.addAccountDuringDeserialization a acc oriAcc fullCopy revertible).state =
      s.state.insert a acc := by
    cases revertible <;> cases fullCopy <;> rfl
  rw [getAccount_fst, getAccount_fst, hcache, htrie]
  by_cases hb : b = a
  · simp [hb]
  · simp [hb]

theorem find_revertCommitTemp_addressToAccount (a : Address) :
    s.revertCommitTemp.addressToAccount.find a =
      if a ∈ s.revCreated.keys then none else (s.revChanged.find a).or (s.addressToAccount.find a) :=
  rfl

theorem find_revertCommitTemp_state (a : Address) :
    s.revertCommitTemp.state.find a =
      if a ∈ s.revCreated.keys then none else (s.revChanged.find a).or (s.state.find a) :=
  rfl

/-- Two stores that agree at `a` in all four maps agree there after `RevertCommitTemp`. -/
theorem revertCommitTemp_congr {s t : AccountStore} {a : Address}
    (hm : t.addressToAccount.find a = s.addressToAccount.find a)
    (hs : t.state.find a = s.state.find a) (hc : t.revChanged.find a = s.revChanged.find a)
    (hk : t.revCreated.find a = s.revCreated.find a) :
    (t.revertCommitTemp.getAccount a).1 = (s.revertCommitTemp.getAccount a).1 ∧
      t.revertCommitTemp.state.find a = s.revertCommitTemp.state.find a := by
  have hkeys : a ∈ t.revCreated.keys ↔ a ∈ s.revCreated.keys := by
    rw [t.revCreated.mem_keys, s.revCreated.mem_keys, hk]
  simp only [getAccount_fst, find_revertCommitTemp_addressToAccount, find_revertCommitTemp_state,
    hm, hs, hc, hkeys, and_self]

/-- The cache agrees with the trie: every cached account is the trie's. -/
def Consistent : Prop := ∀ a acc, s.addressToAccount.find a = some acc → s.state.find a = some acc

/-- In a consistent store, the trie holds what `GetAccount` returns. -/
theorem Consistent.state_find {s : AccountStore} (h : s.Consistent) (a : Address) :
    s.state.find a = (s.getAccount a).1 := by
  rw [getAccount_fst]
  cases hm : s.addressToAccount.find a with
  | none => rfl
  | some acc => exact h a acc hm

/-! ## One entry of a revertible commit -/

section Entry

variable {δ : Type} {dec : δ → Address → Account → Bool → Option Account} {s t : AccountStore}
  {a : Address} {e : δ}

/-- Reading a present account changes at most the cache at `a`, which a later write there
    overwrites. -/
theorem getAccount_of_some {ori : Account} (h : (s.getAccount a).1 = some ori) :
    ∃ c, s.getAccount a = (some ori, { s with addressToAccount := c }) ∧
      ∀ acc, c.insert a acc = s.addressToAccount.insert a acc := by
  unfold getAccount at h ⊢
  cases hm : s.addressToAccount.find a with
  | some acc0 =>
    rw [hm] at h
    obtain rfl := Option.some.inj h
    exact ⟨s.addressToAccount, rfl, fun _ => rfl⟩
  | none =>
    rw [hm] at h
    cases hs : s.state.find a with
    | none => simp [hs] at h
    | some acc0 =>
      rw [hs] at h
      obtain rfl := Option.some.inj h
      -- the account read from the trie is cached
      exact ⟨s.addressToAccount.insert a acc0, rfl, fun acc => FinStore.insert_insert _ _ _ _⟩

/-- A decoded entry for an existing account stores the decoded account and records the original. -/
theorem getAccountStoreDeltaEntry_of_some {ori : Account} (h : (s.getAccount a).1 = some ori)
    (he : getAccountStoreDeltaEntry dec true s a e = (true, t)) :
    ∃ acc, t = ⟨s.addressToAccount.insert a acc, s.state.insert a acc,
      s.revChanged.insert a ori, s.revCreated⟩ := by
  obtain ⟨c, hget, hc⟩ := getAccount_of_some h
  unfold getAccountStoreDeltaEntry at he
  rw [hget] at he
  dsimp only at he
  cases hd : dec e a ori false with
  | none => simp [hd] at he
  | some acc =>
    simp only [hd, Prod.mk.injEq, true_and] at he
    exact ⟨acc, by simp [← he, addAccountDuringDeserialization, hc]⟩

/-- A decoded entry for a new account stores the decoded account and records the creation. -/
theorem getAccountStoreDeltaEntry_of_none (h : (s.getAccount a).1 = none)
    (he : getAccountStoreDeltaEntry dec true s a e = (true, t)) :
    ∃ acc, t = ⟨s.addressToAccount.insert a acc, s.state.insert a acc,
      s.revChanged, s.revCreated.insert a acc⟩ := by
  have hboth : s.addressToAccount.find a = none ∧ s.state.find a = none := by
    rw [getAccount_fst] at h
    cases hm : s.addressToAccount.find a <;> simp_all
  have hget : s.getAccount a = (none, s) := by
    simp [getAccount, hboth.1, hboth.2]
  have hadd : s.addAccount a (Account.new 0 0) =
      (true, { s with addressToAccount := s.addressToAccount.insert a (Account.new 0 0) }) := by
    simp [addAccount, hget]
  unfold getAccountStoreDeltaEntry at he
  rw [hget] at he
  dsimp only at he
  rw [hadd] at he
  dsimp only at he
  simp only [getAccount, FinStore.find_insert_self] at he
  cases hd : dec e a (Account.new 0 0) true with
  | none => simp [hd] at he
  | some acc =>
    simp only [hd, Prod.mk.injEq, true_and] at he
    exact ⟨acc, by simp [← he, addAccountDuringDeserialization, FinStore.insert_insert]⟩

/-- An entry that decodes makes `GetAccount` return the decoded account at its address and leaves
    every other address as it was: the decoder is given the account `GetAccount` returns, or a
    zero account with `fullCopy` for a new address. -/
theorem getAccount_getAccountStoreDeltaEntry (revertible : Bool) {acc : Account}
    (hd : dec e a ((s.getAccount a).1.getD (Account.new 0 0)) (s.getAccount a).1.isNone = some acc) :
    (getAccountStoreDeltaEntry dec revertible s a e).1 = true ∧
      ∀ b, ((getAccountStoreDeltaEntry dec revertible s a e).2.getAccount b).1 =
        if b = a then some acc else (s.getAccount b).1 := by
  cases hg : (s.getAccount a).1 with
  | some ori =>
    rw [hg, Option.getD_some, Option.isNone_some] at hd
    obtain ⟨c, hget, hc⟩ := getAccount_of_some hg
    unfold getAccountStoreDeltaEntry
    rw [hget]
    dsimp only
    rw [hd]
    refine ⟨rfl, fun b => ?_⟩
    rw [getAccount_addAccountDuringDeserialization]
    by_cases hb : b = a
    · rw [if_pos hb, if_pos hb]
    · -- the cache filled by the read is overwritten at `a`, so other addresses read as before
      rw [if_neg hb, if_neg hb, getAccount_fst, getAccount_fst]
      have hfind : c.find b = s.addressToAccount.find b := by
        have h := congrArg (fun st : FinStore Address Account => st.find b) (hc acc)
        simpa [hb] using h
      rw [hfind]
  | none =>
    rw [hg, Option.getD_none, Option.isNone_none] at hd
    have hboth : s.addressToAccount.find a = none ∧ s.state.find a = none := by
      rw [getAccount_fst] at hg
      cases hm : s.addressToAccount.find a <;> simp_all
    have hget : s.getAccount a = (none, s) := by
      simp [getAccount, hboth.1, hboth.2]
    have hadd : s.addAccount a (Account.new 0 0) =
        (true, { s with addressToAccount := s.addressToAccount.insert a (Account.new 0 0) }) := by
      simp [addAccount, hget]
    -- the zero account just added is read back from the cache
    have hget2 : ({ s with addressToAccount := s.addressToAccount.insert a (Account.new 0 0) } :
        AccountStore).getAccount a = (some (Account.new 0 0),
          { s with addressToAccount := s.addressToAccount.insert a (Account.new 0 0) }) := by
      simp [getAccount]
    unfold getAccountStoreDeltaEntry
    rw [hget]
    dsimp only
    rw [hadd]
    dsimp only
    rw [hget2]
    dsimp only
    rw [hd]
    refine ⟨rfl, fun b => ?_⟩
    rw [getAccount_addAccountDuringDeserialization]
    by_cases hb : b = a
    · rw [if_pos hb, if_pos hb]
    · rw [if_neg hb, if_neg hb, getAccount_fst, getAccount_fst]
      simp [hb]

end Entry

/-- **Deserializing a delta.** When the entries have distinct addresses and each decodes, every
    entry's address gets its decoded account and every other address keeps its account. -/
theorem getAccount_getAccountStoreDelta {δ : Type} (dec : δ → Address → Account → Bool → Option Account)
    (revertible : Bool) (f : Address → Account) (entries : List (Address × δ))
    (hnd : (entries.map Prod.fst).Nodup) (s : AccountStore)
    (hdec : ∀ a e, (a, e) ∈ entries →
      dec e a ((s.getAccount a).1.getD (Account.new 0 0)) (s.getAccount a).1.isNone = some (f a)) :
    (getAccountStoreDelta dec revertible s entries).1 = true ∧
      ∀ b, ((getAccountStoreDelta dec revertible s entries).2.getAccount b).1 =
        if b ∈ entries.map Prod.fst then some (f b) else (s.getAccount b).1 := by
  induction entries generalizing s with
  | nil => exact ⟨rfl, fun b => by simp [getAccountStoreDelta]⟩
  | cons ae rest ih =>
    obtain ⟨a, e⟩ := ae
    obtain ⟨ha, hrest⟩ := List.nodup_cons.1 hnd
    obtain ⟨hok, hread⟩ := getAccount_getAccountStoreDeltaEntry revertible
      (hdec a e List.mem_cons_self)
    set s' := (getAccountStoreDeltaEntry dec revertible s a e).2 with hs'
    -- the later entries read `s'` at addresses other than `a`, where it agrees with `s`
    have hdec' : ∀ a' e', (a', e') ∈ rest → dec e' a' ((s'.getAccount a').1.getD (Account.new 0 0))
        (s'.getAccount a').1.isNone = some (f a') := by
      intro a' e' hmem
      have hne : a' ≠ a := by
        rintro rfl
        exact ha (List.mem_map.2 ⟨(a', e'), hmem, rfl⟩)
      rw [hread a', if_neg hne]
      exact hdec a' e' (List.mem_cons_of_mem _ hmem)
    obtain ⟨hok', hread'⟩ := ih hrest s' hdec'
    have hstep : getAccountStoreDelta dec revertible s ((a, e) :: rest) =
        getAccountStoreDelta dec revertible s' rest := by
      rw [getAccountStoreDelta]
      rw [show getAccountStoreDeltaEntry dec revertible s a e = (true, s') from
        Prod.ext hok rfl]
    rw [hstep]
    refine ⟨hok', fun b => ?_⟩
    rw [hread' b, hread b]
    by_cases hb : b = a
    · subst hb
      simp [ha]
    · by_cases hm : b ∈ rest.map Prod.fst
      · simp [hm]
      · simp [hm, hb]

/-! ## The invariant of a revertible commit -/

/-- `t` is `S` after a revertible commit of entries for the addresses `done`, and holds what
    `RevertCommitTemp` needs to restore `S`: the other addresses are untouched, and reverting now
    would give back every account and trie entry of `S`. -/
structure Restores (S t : AccountStore) (done : List Address) : Prop where
  untouched : ∀ a, a ∉ done →
    t.addressToAccount.find a = S.addressToAccount.find a ∧ t.state.find a = S.state.find a ∧
      t.revChanged.find a = none ∧ t.revCreated.find a = none
  restored : ∀ a,
    (t.revertCommitTemp.getAccount a).1 = (S.getAccount a).1 ∧
      t.revertCommitTemp.state.find a = S.state.find a

theorem restores_initRevertibles (S : AccountStore) : Restores S S.initRevertibles [] where
  untouched _ _ := ⟨rfl, rfl, rfl, rfl⟩
  restored a := by
    simp only [getAccount_fst, find_revertCommitTemp_addressToAccount, find_revertCommitTemp_state]
    simp [initRevertibles]

section Run

variable {δ : Type} {dec : δ → Address → Account → Bool → Option Account} {S : AccountStore}

/-- The step lemma: a decoded entry for a new address keeps the invariant. -/
theorem Restores.entry (hcons : S.Consistent) {t t' : AccountStore} {done : List Address}
    (hr : Restores S t done) {a : Address} {e : δ} (ha : a ∉ done)
    (he : getAccountStoreDeltaEntry dec true t a e = (true, t')) : Restores S t' (a :: done) := by
  obtain ⟨hm, hs, hc, hk⟩ := hr.untouched a ha
  -- before the entry, `t` reads at `a` what `S` reads
  have hget : (t.getAccount a).1 = (S.getAccount a).1 := by
    rw [getAccount_fst, getAccount_fst, hm, hs]
  -- away from `a` the entry changes nothing, so the invariant carries over
  have hother : ∀ b, b ≠ a →
      t'.addressToAccount.find b = t.addressToAccount.find b ∧ t'.state.find b = t.state.find b ∧
        t'.revChanged.find b = t.revChanged.find b ∧ t'.revCreated.find b = t.revCreated.find b := by
    intro b hb
    cases hg : (t.getAccount a).1 with
    | some ori =>
      obtain ⟨acc, rfl⟩ := getAccountStoreDeltaEntry_of_some hg he
      exact ⟨FinStore.find_insert_ne _ _ hb, FinStore.find_insert_ne _ _ hb,
        FinStore.find_insert_ne _ _ hb, rfl⟩
    | none =>
      obtain ⟨acc, rfl⟩ := getAccountStoreDeltaEntry_of_none hg he
      exact ⟨FinStore.find_insert_ne _ _ hb, FinStore.find_insert_ne _ _ hb, rfl,
        FinStore.find_insert_ne _ _ hb⟩
  refine ⟨fun b hb => ?_, fun b => ?_⟩
  · have hba : b ≠ a := fun h => hb (h ▸ List.mem_cons_self)
    obtain ⟨h1, h2, h3, h4⟩ := hother b hba
    obtain ⟨h1', h2', h3', h4'⟩ := hr.untouched b (fun h => hb (List.mem_cons_of_mem _ h))
    exact ⟨h1.trans h1', h2.trans h2', h3.trans h3', h4.trans h4'⟩
  · by_cases hba : b = a
    · subst hba
      have hstate : S.state.find b = (S.getAccount b).1 := hcons.state_find b
      cases hg : (t.getAccount b).1 with
      | some ori =>
        -- the original is written back to the cache and the trie
        obtain ⟨acc, rfl⟩ := getAccountStoreDeltaEntry_of_some hg he
        have hnk : b ∉ t.revCreated.keys := by
          rw [t.revCreated.mem_keys, hk]
          simp
        rw [hget] at hg
        rw [getAccount_fst, find_revertCommitTemp_addressToAccount, find_revertCommitTemp_state,
          hstate, hg]
        simp [hnk]
      | none =>
        -- the creation is removed from the cache and the trie
        obtain ⟨acc, rfl⟩ := getAccountStoreDeltaEntry_of_none hg he
        rw [hget] at hg
        rw [getAccount_fst, find_revertCommitTemp_addressToAccount, find_revertCommitTemp_state,
          hstate, hg]
        simp [FinStore.mem_keys]
    · obtain ⟨h1, h2, h3, h4⟩ := hother b hba
      obtain ⟨r1, r2⟩ := revertCommitTemp_congr h1 h2 h3 h4
      exact ⟨r1.trans (hr.restored b).1, r2.trans (hr.restored b).2⟩

/-- The run lemma: decoded entries for distinct new addresses keep the invariant. -/
theorem Restores.run (hcons : S.Consistent) :
    ∀ (entries : List (Address × δ)) {t t' : AccountStore} {done : List Address},
      Restores S t done → (entries.map Prod.fst).Nodup → (∀ a ∈ entries.map Prod.fst, a ∉ done) →
      getAccountStoreDelta dec true t entries = (true, t') →
      Restores S t' ((entries.map Prod.fst).reverse ++ done)
  | [], _, _, _, hr, _, _, h => by
    simp only [getAccountStoreDelta, Prod.mk.injEq, true_and] at h
    subst h
    exact hr
  | (a, e) :: rest, t, t', done, hr, hnd, hfresh, h => by
    simp only [List.map_cons, List.nodup_cons] at hnd
    simp only [getAccountStoreDelta] at h
    cases he : getAccountStoreDeltaEntry dec true t a e with
    | mk ok t1 =>
      rw [he] at h
      cases ok with
      | false => simp at h
      | true =>
        have hr1 : Restores S t1 (a :: done) :=
          hr.entry hcons (hfresh a (by simp)) he
        have hfresh' : ∀ b ∈ rest.map Prod.fst, b ∉ a :: done := by
          intro b hb hmem
          rcases List.mem_cons.1 hmem with rfl | hmem
          · exact hnd.1 hb
          · exact hfresh b (List.mem_cons_of_mem _ hb) hmem
        have := Restores.run hcons rest hr1 hnd.2 hfresh' h
        simpa only [List.map_cons, List.reverse_cons, List.append_assoc, List.singleton_append]
          using this

end Run

/-- A main store holding one account, 0x..01 with 5 Qa, cached and in the trie. -/
def revertProbeStore : AccountStore :=
  ⟨FinStore.empty.insert ⟨1⟩ (Account.new 5 0), FinStore.empty.insert ⟨1⟩ (Account.new 5 0),
    .empty, .empty⟩

/-- A delta entry crediting 2 Qa. -/
def creditTwo : ProtoAccountDelta := ⟨accountVersion, true, 2, 0⟩

/-- A delta entry of version 0, which `ProtobufToAccountDelta` rejects. -/
def versionZero : ProtoAccountDelta := ⟨0, true, 2, 0⟩

/-- A delta crediting the existing 0x..01 and creating 0x..02, as `SetAccountStoreDelta` sends one:
    one entry per address, each of the current version. -/
def creditDelta : List (Address × ProtoAccountDelta) := [(⟨1⟩, creditTwo), (⟨2⟩, creditTwo)]

/-- With a consistent cache, entries of pairwise distinct addresses that all decode are undone by
    `RevertCommitTemp`: every account reads as before and the trie is as before. -/
theorem revertCommitTemp_commitTempRevertible {δ : Type}
    (dec : δ → Address → Account → Bool → Option Account) {S : AccountStore}
    {entries : List (Address × δ)} (hcons : S.Consistent) (hnd : (entries.map Prod.fst).Nodup)
    (hok : (getAccountStoreDelta dec true S.initRevertibles entries).1 = true) (a : Address) :
    ((S.commitTempRevertible dec entries).revertCommitTemp.getAccount a).1 = (S.getAccount a).1 ∧
      (S.commitTempRevertible dec entries).revertCommitTemp.state.find a = S.state.find a := by
  have hrun : getAccountStoreDelta dec true S.initRevertibles entries =
      (true, S.commitTempRevertible dec entries) :=
    Prod.ext hok rfl
  exact ((restores_initRevertibles S).run hcons entries hnd (by simp) hrun).restored a

/-- Reverting the delta above restores 0x..01. -/
theorem revertCommitTemp_commitTempRevertible_credit :
    revertProbeStore.Consistent ∧ (creditDelta.map Prod.fst).Nodup ∧
    (getAccountStoreDelta protobufToAccountDeltaBase true revertProbeStore.initRevertibles
      creditDelta).1 = true ∧
    ((revertProbeStore.commitTempRevertible protobufToAccountDeltaBase
        creditDelta).revertCommitTemp.getAccount ⟨1⟩).1 = (revertProbeStore.getAccount ⟨1⟩).1 ∧
    (revertProbeStore.commitTempRevertible protobufToAccountDeltaBase
        creditDelta).revertCommitTemp.state.find ⟨1⟩ = revertProbeStore.state.find ⟨1⟩ := by
  -- the cache and the trie of the probe store are the same map
  have hcons : revertProbeStore.Consistent := fun _ _ h => h
  have hnd : (creditDelta.map Prod.fst).Nodup := by decide
  have hok : (getAccountStoreDelta protobufToAccountDeltaBase true revertProbeStore.initRevertibles
      creditDelta).1 = true := by decide
  exact ⟨hcons, hnd, hok, revertCommitTemp_commitTempRevertible _ hcons hnd hok ⟨1⟩⟩

/-- Reverting a delta that credits 0x..01 twice leaves the first credit, since the second entry
    recorded the intermediate account as the original; reverting a delta whose only entry, for the
    new address 0x..02, fails to decode leaves the zero account its failed entry created. -/
theorem revert_keeps_intermediate_and_created :
    (revertProbeStore.getAccount ⟨1⟩).1 = some (Account.new 5 0) ∧
      ((revertProbeStore.commitTempRevertible protobufToAccountDeltaBase
          [(⟨1⟩, creditTwo), (⟨1⟩, creditTwo)]).revertCommitTemp.getAccount ⟨1⟩).1 =
        some (Account.new 7 0) ∧
      (revertProbeStore.getAccount ⟨2⟩).1 = none ∧
      ((revertProbeStore.commitTempRevertible protobufToAccountDeltaBase
          [(⟨2⟩, versionZero)]).revertCommitTemp.getAccount ⟨2⟩).1 = some (Account.new 0 0) := by
  decide

end AccountStore

end Zilliqa
