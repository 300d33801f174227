import Zilliqa.Data.AccountStore

/-!
# `Message.AccountDelta` — the state delta between two account stores

A shard sends the accounts its block changed as a delta against the main store:
`Messenger::SetAccountStoreDelta` encodes each account `T` of the temporary store against the main
store's account `M` at the same address (`AccountDeltaToProtobuf`): a sign bit and the magnitude of
the balance change, the nonce difference, and, only when the address is new to the main store
(`fullCopy`), the code hash, code and init data of a contract. `Messenger::GetAccountStoreDelta`
decodes each entry onto the receiver's account (`ProtobufToAccountDelta`), creating a zero account
for a new address and computing `fullCopy` again on its side.

Accounts of the model all have `Account::VERSION`, and their code hash is the SHA-256 that
`SetImmutable` computes from the code and the init data (`Account.codeHash`). Contract storage
entries travel through `ContractStorage` and are not modelled here.

## Contents
- `accountDeltaToProtobuf`, `protobufToAccountDelta` (the base part is
  `protobufToAccountDeltaBase`), `setAccountStoreDelta`.
- The decoding of an encoded delta gives back the balance, nonce, code and init data
  (`protobufToAccountDelta_accountDeltaToProtobuf`), provided an account the main store already
  holds has the code the temporary store gives it.
- A contract created at an address the main store holds without code loses its code in the delta
  (`delta_drops_contract_created_at_funded_address`): the encoder sends code only for new addresses.
-/

namespace Zilliqa

/-- The fields of a `ProtoAccount` that `AccountDeltaToProtobuf` fills besides the storage entries:
    the base, the code hash (`0` when unset), the code and the init data. -/
structure ProtoAccount where
  base : ProtoAccountDelta
  codeHash : ℕ
  code : Bytes
  initData : Bytes

section

variable (sha : Bytes → ℕ)

/-- `AccountBase::GetCodeHash`: set by `Account::SetImmutable` to the SHA-256 of the code without
    its `EVM` prefix followed by the init data; `h256()` for an account without code. -/
def Account.codeHash (acc : Account) : ℕ :=
  if acc.code.isEmpty then 0 else sha (stripEvm acc.code ++ acc.initData)

/-- The balance change from `old` to `new` as `AccountDeltaToProtobuf` sends it: the sign bit
    `balanceDelta > 0` and the magnitude `abs(balanceDelta)`. -/
def balanceDelta (old new : ℕ) : Bool × ℕ :=
  if old < new then (true, new - old) else (false, old - new)

/-- `AccountDeltaToProtobuf(oldAccount, newAccount, protoAccount)`, with `oldAccount` null for an
    address new to the main store; `none` when the nonce went down. -/
def accountDeltaToProtobuf (old : Option Account) (new : Account) : Option ProtoAccount :=
  let fullCopy := old.isNone
  let old := old.getD (Account.new 0 0)
  let (numberSign, magnitude) := balanceDelta old.balance new.balance
  (SafeMath.sub new.nonce old.nonce).map fun nonceDelta =>
    -- code, init data and code hash go only with a contract at a new address
    let copyCode := (new.isContract || new.IsLibrary) && fullCopy
    { base := ⟨accountVersion, numberSign, magnitude, nonceDelta⟩
      codeHash := if copyCode then new.codeHash sha else 0
      code := if copyCode then new.getCode else []
      initData := if copyCode then new.initData else [] }

variable (maxCodeSizeInBytes : ℕ)

/-- The code part of `ProtobufToAccountDelta`, after the base: for an entry with code or an account
    that is a contract, with `fullCopy`, install the code and init data (at most
    `MAX_CODE_SIZE_IN_BYTES`, and only when they differ) and check the code hash. -/
def protobufToAccountCode (p : ProtoAccount) (acc : Account) (fullCopy : Bool) : Option Account :=
  if !p.code.isEmpty || acc.isContract then
    if fullCopy then
      if maxCodeSizeInBytes < p.code.length then none
      else
        let installed := if p.code ≠ acc.getCode ∨ p.initData ≠ acc.initData then
            acc.setImmutable p.code p.initData
          else some acc
        installed.bind fun acc => if acc.codeHash sha ≠ p.codeHash then none else some acc
    else some acc
  else some acc

/-- `ProtobufToAccountDelta(protoAccount, account, addr, fullCopy, temp, revertible)`, without the
    storage entries. -/
def protobufToAccountDelta (p : ProtoAccount) (addr : Address) (acc : Account) (fullCopy : Bool) :
    Option Account :=
  (protobufToAccountDeltaBase p.base addr acc fullCopy).bind fun acc =>
    protobufToAccountCode sha maxCodeSizeInBytes p acc fullCopy

/-- `Messenger::SetAccountStoreDelta`: the delta of each account of the temporary store, given in
    address order, against the main store's account (`GetAccount(address, true)`, which outside
    lookup nodes reads as `GetAccount`). -/
def setAccountStoreDelta (M : AccountStore) (temp : List (Address × Account)) :
    Option (List (Address × ProtoAccount)) :=
  temp.mapM fun e => (accountDeltaToProtobuf sha (M.getAccount e.1).1 e.2).map fun p => (e.1, p)

/-! ## Decoding an encoded account -/

/-- `ChangeBalance` with the sign and magnitude of the change from the account's balance to `b`
    sets the balance to `b`. -/
theorem changeBalance_balanceDelta (acc : Account) {b : ℕ} (hb : b < 2 ^ 128) :
    acc.changeBalance (balanceDelta acc.balance b).1 (balanceDelta acc.balance b).2 =
      { acc with balance := b } := by
  unfold balanceDelta Account.changeBalance
  by_cases hlt : acc.balance < b
  · -- a credit of the difference, which does not wrap
    have hsum : (acc.balance + (b - acc.balance)) % 2 ^ 128 = b := by
      rw [Nat.add_sub_cancel' hlt.le]
      exact Nat.mod_eq_of_lt hb
    rw [if_pos hlt, if_pos (by simp), Account.increaseBalance_eq, hsum, Option.getD_some]
  · rw [if_neg hlt]
    by_cases hzero : acc.balance - b = 0
    · -- no change, sent as a credit of zero
      have hsum : (acc.balance + (acc.balance - b)) % 2 ^ 128 = b := by
        rw [hzero, Nat.add_zero, show acc.balance = b by omega]
        exact Nat.mod_eq_of_lt hb
      rw [if_pos (by simp [hzero]), Account.increaseBalance_eq, hsum, Option.getD_some]
    · have hdec : acc.decreaseBalance (acc.balance - b) = some { acc with balance := b } := by
        rw [Account.decreaseBalance_eq_some_iff]
        refine ⟨Nat.sub_le _ _, ?_⟩
        rw [Nat.sub_sub_self (by omega)]
      rw [if_neg (by simp [hzero]), hdec, Option.getD_some]

/-- `IncreaseNonceBy` with the difference up to `n` sets the nonce to `n`. -/
theorem increaseNonceBy_sub (acc : Account) {n : ℕ} (hn : n < 2 ^ 64) (hle : acc.nonce ≤ n) :
    acc.increaseNonceBy (n - acc.nonce) = some { acc with nonce := n } := by
  have hsum : (acc.nonce + (n - acc.nonce)) % 2 ^ 64 = n := by
    rw [Nat.add_sub_cancel' hle]
    exact Nat.mod_eq_of_lt hn
  rw [Account.increaseNonceBy, SafeMath.addInPlace_eq, hsum, Option.map_some]

/-- The base of a delta, decoded onto the account it was computed from, gives the new balance and
    nonce. -/
theorem protobufToAccountDeltaBase_of_delta (acc : Account) (addr : Address) (fullCopy : Bool)
    {b n : ℕ} (hb : b < 2 ^ 128) (hn : n < 2 ^ 64) (hle : acc.nonce ≤ n) :
    protobufToAccountDeltaBase
        ⟨accountVersion, (balanceDelta acc.balance b).1, (balanceDelta acc.balance b).2,
          n - acc.nonce⟩ addr acc fullCopy =
      some { acc with balance := b, nonce := n } := by
  have hbal := changeBalance_balanceDelta acc hb
  have hnonce := increaseNonceBy_sub { acc with balance := b } hn hle
  simp only [protobufToAccountDeltaBase, ne_eq, not_true_eq_false, if_false]
  rw [hbal, hnonce]

/-- A model account without code is neither a contract nor a library, and conversely. -/
theorem code_eq_nil_iff (acc : Account) :
    acc.code = [] ↔ (acc.isContract || acc.IsLibrary) = false := by
  cases acc.isLibrary <;> cases h : acc.code <;> simp [Account.isContract, Account.IsLibrary, h]

/-- What the round trip of an account needs: balance and nonce within their widths, a nonce that
    did not go down, the code an existing account already has, code within
    `MAX_CODE_SIZE_IN_BYTES`, and no init data without code. -/
structure DeltaFits (old : Option Account) (new : Account) : Prop where
  balance_lt : new.balance < 2 ^ 128
  nonce_lt : new.nonce < 2 ^ 64
  nonce_le : (old.getD (Account.new 0 0)).nonce ≤ new.nonce
  code_eq : ∀ o, old = some o → o.code = new.code ∧ o.initData = new.initData
  code_size : new.code.length ≤ maxCodeSizeInBytes
  initData_nil : new.code = [] → new.initData = []

/-- What decoding the delta of `new` gives: the receiver's account (a zero account for a new
    address) with `new`'s balance, nonce, code and init data. -/
def deltaResult (old : Option Account) (new : Account) : Account :=
  { old.getD (Account.new 0 0) with
    balance := new.balance, nonce := new.nonce, code := new.code, initData := new.initData }

/-- **Round trip of one account.** Decoding the delta of `new` against `old` onto `old` gives
    `new`'s balance, nonce, code and init data, provided an existing account already has `new`'s
    code: the encoder sends code only for new addresses. -/
theorem protobufToAccountDelta_accountDeltaToProtobuf (old : Option Account) (new : Account)
    (addr : Address) (h : DeltaFits maxCodeSizeInBytes old new) :
    (accountDeltaToProtobuf sha old new).bind (fun p =>
        protobufToAccountDelta sha maxCodeSizeInBytes p addr (old.getD (Account.new 0 0))
          old.isNone) =
      some (deltaResult old new) := by
  set base := old.getD (Account.new 0 0) with hbase
  have hsub : SafeMath.sub new.nonce base.nonce = some (new.nonce - base.nonce) :=
    SafeMath.sub_eq_some_iff.2 ⟨h.nonce_le, rfl⟩
  simp only [accountDeltaToProtobuf, ← hbase, hsub, Option.map_some, Option.bind_some,
    protobufToAccountDelta,
    protobufToAccountDeltaBase_of_delta base addr _ h.balance_lt h.nonce_lt h.nonce_le]
  cases old with
  | none =>
    -- a new address: the code travels with a contract or a library, and nothing travels without
    cases hkind : (new.isContract || new.IsLibrary) with
    | true =>
      have hne : new.code ≠ [] := fun hn => by simp [(code_eq_nil_iff new).1 hn] at hkind
      simp [protobufToAccountCode, deltaResult, hbase, hne, h.code_size, Account.new,
        Account.getCode, Account.isContract, Account.IsLibrary, Account.setImmutable,
        Account.codeHash]
    | false =>
      have hnil : new.code = [] := (code_eq_nil_iff new).2 hkind
      simp [protobufToAccountCode, deltaResult, hbase, hnil, h.initData_nil hnil, Account.new,
        Account.isContract]
  | some o =>
    -- a known address: no code travels and the decoder keeps the account's own
    obtain ⟨hc, hi⟩ := h.code_eq o rfl
    rw [deltaResult, ← hc, ← hi]
    simp [protobufToAccountCode, hbase]

/-- The encoded entries of `SetAccountStoreDelta` follow the temporary accounts, address by
    address. -/
theorem setAccountStoreDelta_eq_some (M : AccountStore) (temp : List (Address × Account))
    (henc : ∀ a t, (a, t) ∈ temp → (accountDeltaToProtobuf sha (M.getAccount a).1 t).isSome) :
    ∃ entries, setAccountStoreDelta sha M temp = some entries ∧
      entries.map Prod.fst = temp.map Prod.fst ∧
      ∀ a p, (a, p) ∈ entries → ∃ t, (a, t) ∈ temp ∧
        accountDeltaToProtobuf sha (M.getAccount a).1 t = some p := by
  induction temp with
  | nil => exact ⟨[], rfl, rfl, fun _ _ h => absurd h List.not_mem_nil⟩
  | cons entry rest ih =>
    obtain ⟨a, t⟩ := entry
    obtain ⟨p, hp⟩ := Option.isSome_iff_exists.1 (henc a t List.mem_cons_self)
    obtain ⟨entries, hrest, hfst, hmem⟩ :=
      ih fun a' t' h => henc a' t' (List.mem_cons_of_mem _ h)
    refine ⟨(a, p) :: entries, ?_, by simp [hfst], ?_⟩
    · simp only [setAccountStoreDelta, List.mapM_cons] at hrest ⊢
      simp [hp, hrest]
    · intro a' p' h
      rcases List.mem_cons.1 h with h | h
      · obtain ⟨rfl, rfl⟩ := Prod.mk.inj h
        exact ⟨t, List.mem_cons_self, hp⟩
      · obtain ⟨t', ht', hp'⟩ := hmem a' p' h
        exact ⟨t', List.mem_cons_of_mem _ ht', hp'⟩

/-- **Round trip of a store delta.** For temporary accounts at distinct addresses that each fit
    against the main store, serializing their delta and deserializing it into the main store
    succeeds, gives every address of the temporary store its balance, nonce, code and init data,
    and leaves every other address as it was. -/
theorem getAccountStoreDelta_setAccountStoreDelta (M : AccountStore)
    (temp : List (Address × Account)) (hnd : (temp.map Prod.fst).Nodup) (revertible : Bool)
    (hfit : ∀ a t, (a, t) ∈ temp → DeltaFits maxCodeSizeInBytes (M.getAccount a).1 t) :
    ∃ entries, setAccountStoreDelta sha M temp = some entries ∧
      let r := AccountStore.getAccountStoreDelta (protobufToAccountDelta sha maxCodeSizeInBytes)
        revertible M entries
      r.1 = true ∧
        (∀ a t, (a, t) ∈ temp → (r.2.getAccount a).1 = some (deltaResult (M.getAccount a).1 t)) ∧
        ∀ b, b ∉ temp.map Prod.fst → (r.2.getAccount b).1 = (M.getAccount b).1 := by
  -- each temporary account encodes, by the round trip
  have hround := fun a t (hm : (a, t) ∈ temp) =>
    protobufToAccountDelta_accountDeltaToProtobuf sha maxCodeSizeInBytes (M.getAccount a).1 t a
      (hfit a t hm)
  have henc : ∀ a t, (a, t) ∈ temp → (accountDeltaToProtobuf sha (M.getAccount a).1 t).isSome := by
    intro a t hm
    have h := hround a t hm
    cases he : accountDeltaToProtobuf sha (M.getAccount a).1 t with
    | none => simp [he] at h
    | some p => rfl
  obtain ⟨entries, hset, hfst, hmem⟩ := setAccountStoreDelta_eq_some sha M temp henc
  -- the decoded account of an address is determined by its temporary account
  let f : Address → Account := fun a =>
    (temp.lookup a).elim (Account.new 0 0) fun t => deltaResult (M.getAccount a).1 t
  have hlookup : ∀ a t, (a, t) ∈ temp → temp.lookup a = some t := by
    intro a t hm
    obtain ⟨l₁, l₂, rfl⟩ := List.append_of_mem hm
    rw [List.lookup_eq_some_iff]
    refine ⟨l₁, l₂, rfl, fun p hp => ?_⟩
    have hnot : a ∉ l₁.map Prod.fst := by
      simp only [List.map_append, List.map_cons] at hnd
      exact fun h => (List.nodup_append.1 hnd).2.2 a h a List.mem_cons_self rfl
    simp only [bne_iff_ne, ne_eq]
    rintro rfl
    exact hnot (List.mem_map_of_mem hp)
  have hdec : ∀ a p, (a, p) ∈ entries → protobufToAccountDelta sha maxCodeSizeInBytes p a
      ((M.getAccount a).1.getD (Account.new 0 0)) (M.getAccount a).1.isNone = some (f a) := by
    intro a p hm
    obtain ⟨t, ht, hp⟩ := hmem a p hm
    have h := hround a t ht
    rw [hp, Option.bind_some] at h
    simp only [f, hlookup a t ht, Option.elim_some]
    exact h
  obtain ⟨hok, hread⟩ := AccountStore.getAccount_getAccountStoreDelta
    (protobufToAccountDelta sha maxCodeSizeInBytes) revertible f entries (hfst ▸ hnd) M hdec
  refine ⟨entries, hset, hok, fun a t hm => ?_, fun b hb => ?_⟩
  · have ha : a ∈ entries.map Prod.fst := hfst ▸ List.mem_map_of_mem hm
    rw [hread a, if_pos ha]
    simp only [f, hlookup a t hm, Option.elim_some]
  · rw [hread b, if_neg (hfst ▸ hb)]

end

/-! ## A contract created at a funded address -/

/-- A main store whose trie holds 0x..01 with balance 5 and no code. -/
def fundedStore : AccountStore := ⟨.empty, FinStore.empty.insert ⟨1⟩ (Account.new 5 0), .empty, .empty⟩

/-- 0x..01 after an EVM contract was created at it: the same balance and nonce, and code. -/
def createdContract : Account := { Account.new 5 0 with code := evmPrefix ++ [96] }

/-- A stand-in for SHA-256 that gives distinct byte strings distinct numbers: the bytes read as
    base-256 digits under a leading one. -/
def byteNumbering (b : Bytes) : ℕ := b.foldr (fun x n => x.toNat + 256 * n) 1

/-- A shard's temporary accounts: 0x..01 credited and its nonce bumped, and the contract above
    created at the new address 0x..02. -/
def createdTemp : List (Address × Account) := [(⟨1⟩, Account.new 7 1), (⟨2⟩, createdContract)]

/-- The delta of those accounts against the funded store round-trips. -/
theorem getAccountStoreDelta_setAccountStoreDelta_created :
    (createdTemp.map Prod.fst).Nodup ∧
    (∀ a t, (a, t) ∈ createdTemp → DeltaFits 1024 (fundedStore.getAccount a).1 t) ∧
    ∃ entries, setAccountStoreDelta byteNumbering fundedStore createdTemp = some entries ∧
      let r := AccountStore.getAccountStoreDelta (protobufToAccountDelta byteNumbering 1024) true
        fundedStore entries
      r.1 = true ∧
        (∀ a t, (a, t) ∈ createdTemp →
          (r.2.getAccount a).1 = some (deltaResult (fundedStore.getAccount a).1 t)) ∧
        ∀ b, b ∉ createdTemp.map Prod.fst → (r.2.getAccount b).1 = (fundedStore.getAccount b).1 := by
  have hnd : (createdTemp.map Prod.fst).Nodup := by decide
  have hfit : ∀ a t, (a, t) ∈ createdTemp → DeltaFits 1024 (fundedStore.getAccount a).1 t := by
    intro a t hmem
    simp only [createdTemp, List.mem_cons, Prod.mk.injEq, List.not_mem_nil, or_false] at hmem
    rcases hmem with ⟨rfl, rfl⟩ | ⟨rfl, rfl⟩
    · -- the funded plain account: same empty code, nonce up from 0
      have hold : (fundedStore.getAccount ⟨1⟩).1 = some (Account.new 5 0) := by decide
      rw [hold]
      refine ⟨by decide, by decide, by decide, fun o ho => ?_, by decide, by decide⟩
      cases ho
      exact ⟨rfl, rfl⟩
    · -- the new address: no account to keep the code of
      have hold : (fundedStore.getAccount ⟨2⟩).1 = none := by decide
      rw [hold]
      exact ⟨by decide, by decide, by decide, fun o ho => absurd ho (by simp), by decide, by decide⟩
  exact ⟨hnd, hfit, getAccountStoreDelta_setAccountStoreDelta byteNumbering 1024 fundedStore createdTemp
    hnd true hfit⟩

theorem delta_drops_contract_created_at_funded_address (sha : Bytes → ℕ) (maxCodeSizeInBytes : ℕ) :
    createdContract.isContract = true ∧
      (setAccountStoreDelta sha fundedStore [(⟨1⟩, createdContract)]).map (fun entries =>
        let r := AccountStore.getAccountStoreDelta (protobufToAccountDelta sha maxCodeSizeInBytes) false
          fundedStore entries
        (r.1, (r.2.getAccount ⟨1⟩).1)) = some (true, some (Account.new 5 0)) ∧
      (Account.new 5 0).isContract = false :=
  ⟨rfl, rfl, rfl⟩

end Zilliqa
