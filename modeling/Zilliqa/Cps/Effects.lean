import Zilliqa.Cps.Executor

/-!
# `Cps.Effects` — the store changes a run can make

Every change a run makes to the account store goes through one of a handful of atomic interface
operations. `AtomicOp` lists them, one constructor per operation; a run's whole effect on the store
is a chain of them (`RunEffect`). The facts the executor's theorems need are then proved once per
operation:

- no operation touches the parent layer, the committed update buffer or the saved contract storage
  (`AtomicFrame`), so discarding the atomic layer and reverting the storage undoes a run;
- no operation raises the sum of the balances a reader sees, as long as that sum fits in
  `uint128_t`, and only `SetBalanceAtomic` (the self-destruct sweep) can lower it.

The `burns` index says whether `SetBalanceAtomic` may occur: Scilla runs and transfers never call
it.

## Contents
- `updateAtomic_cases`, the inversion lemma of every account operation, and the frame lemmas.
- `totalBalance`, `viewTotal` and how each operation changes it.
- `AtomicOp`, `RunEffect`, with `RunEffect.frame`, `RunEffect.viewTotal_le`,
  `RunEffect.viewTotal_eq`.
-/

namespace Zilliqa

namespace AccountStoreSC

variable {s s₁ s₂ s₃ : AccountStoreSC} {a b : Address} {acc : Account}

/-! ## The frame -/

/-- What the atomic operations leave alone: the parent layer, the committed update buffer and the
    contract storage saved by `BufferCurrentContractStorageState`. -/
structure AtomicFrame (s s' : AccountStoreSC) : Prop where
  parent : s'.accounts.parent = s.accounts.parent
  buffer : s'.storageRootUpdateBuffer = s.storageRootUpdateBuffer
  saved : s'.contractStorage.prev = s.contractStorage.prev

theorem AtomicFrame.refl (s : AccountStoreSC) : AtomicFrame s s := ⟨rfl, rfl, rfl⟩

theorem AtomicFrame.trans (h₁ : AtomicFrame s₁ s₂) (h₂ : AtomicFrame s₂ s₃) :
    AtomicFrame s₁ s₃ :=
  ⟨h₂.parent.trans h₁.parent, h₂.buffer.trans h₁.buffer, h₂.saved.trans h₁.saved⟩

theorem frame_writeAtomic (s : AccountStoreSC) (a : Address) (acc : Account) :
    AtomicFrame s (s.writeAtomic a acc) := ⟨rfl, rfl, rfl⟩

@[simp] theorem getAccountAtomic_writeAtomic (s : AccountStoreSC) (a b : Address) (acc : Account) :
    (s.writeAtomic a acc).getAccountAtomic b = if b = a then some acc else s.getAccountAtomic b := by
  simp [getAccountAtomic, writeAtomic, FinStore.find_insert]

/-- **The inversion lemma of `updateAtomic`.** It fails and changes nothing, or it stores what the
    operation made of the account it found. -/
theorem updateAtomic_cases (s : AccountStoreSC) (a : Address) (f : Account → Option Account) :
    s.updateAtomic a f = (false, s) ∨
      ∃ acc acc', s.getAccountAtomic a = some acc ∧ f acc = some acc' ∧
        s.updateAtomic a f = (true, s.writeAtomic a acc') := by
  unfold updateAtomic
  cases hget : s.getAccountAtomic a with
  | none => exact .inl rfl
  | some acc =>
    cases hf : f acc with
    | none => exact .inl (by simp only [hf])
    | some acc' => exact .inr ⟨acc, acc', rfl, hf, by simp only [hf]⟩

theorem frame_updateAtomic (s : AccountStoreSC) (a : Address) (f : Account → Option Account) :
    AtomicFrame s (s.updateAtomic a f).2 := by
  rcases updateAtomic_cases s a f with h | ⟨acc, acc', -, -, h⟩
  · rw [h]
    exact AtomicFrame.refl s
  · rw [h]
    exact frame_writeAtomic s a acc'

theorem frame_addAccountBase (s : AccountStoreSC) (a : Address) (acc : Account) :
    AtomicFrame s (s.addAccountBase a acc).2 := by
  unfold addAccountBase
  split
  · exact AtomicFrame.refl s
  · exact frame_writeAtomic s a acc

theorem frame_increaseBalanceBase (s : AccountStoreSC) (a : Address) (delta : ℕ) :
    AtomicFrame s (s.increaseBalanceBase a delta).2 := by
  unfold increaseBalanceBase
  split
  · exact AtomicFrame.refl s
  · split
    · split
      · exact frame_writeAtomic s a _
      · exact AtomicFrame.refl s
    · exact frame_addAccountBase s a _

theorem frame_transferBalanceBase (s : AccountStoreSC) (src dst : Address) (delta : ℕ) :
    AtomicFrame s (s.transferBalanceBase src dst delta).2 := by
  have hdec : AtomicFrame s (s.decreaseBalanceBase src delta).2 := by
    unfold decreaseBalanceBase
    split
    · exact AtomicFrame.refl s
    · exact frame_updateAtomic s src _
  unfold transferBalanceBase
  split
  · next s₁ h => exact h ▸ hdec
  · next s₁ h =>
    have h₁ : AtomicFrame s s₁ := by simpa [h] using hdec
    split
    · next s₂ h' =>
      exact h₁.trans (by simpa [h'] using frame_increaseBalanceBase s₁ dst delta)
    · next s₂ h' =>
      have h₂ : AtomicFrame s₁ s₂ := by simpa [h'] using frame_increaseBalanceBase s₁ dst delta
      exact (h₁.trans h₂).trans (frame_increaseBalanceBase s₂ src delta)

/-! ## Balance totals -/

/-- The sum of the balances of a layer of accounts. -/
def totalBalance (f : FinStore Address Account) : ℕ := FinStore.total Account.balance f

/-- The sum of the balances a reader of the store sees. -/
def viewTotal (s : AccountStoreSC) : ℕ := totalBalance s.accounts.view

/-- The balance of an optional account, zero when there is none. -/
def balanceOf (o : Option Account) : ℕ := FinStore.weightOf Account.balance o

theorem balanceOf_le_viewTotal (s : AccountStoreSC) (a : Address) :
    balanceOf (s.getAccountAtomic a) ≤ s.viewTotal :=
  FinStore.weightOf_le_total Account.balance s.accounts.view a

/-- Writing an account changes the total by its balance minus the one it replaces. -/
theorem viewTotal_writeAtomic (s : AccountStoreSC) (a : Address) (acc : Account) :
    (s.writeAtomic a acc).viewTotal + balanceOf (s.getAccountAtomic a) = s.viewTotal + acc.balance :=
  by
  have h := FinStore.total_insert Account.balance s.accounts.view a acc
  simpa [viewTotal, totalBalance, writeAtomic, balanceOf, getAccountAtomic] using h

/-- An operation that keeps the balance of the account it changes keeps the total. -/
theorem viewTotal_updateAtomic (s : AccountStoreSC) (a : Address) {f : Account → Option Account}
    (hf : ∀ acc acc', f acc = some acc' → acc'.balance = acc.balance) :
    (s.updateAtomic a f).2.viewTotal = s.viewTotal := by
  rcases updateAtomic_cases s a f with h | ⟨acc, acc', hget, hacc, h⟩
  · rw [h]
  · rw [h]
    have hw := viewTotal_writeAtomic s a acc'
    rw [hget, hf acc acc' hacc] at hw
    simp only [balanceOf, FinStore.weightOf_some] at hw
    dsimp only
    omega

/-- `IncreaseBalance` on the atomic store never fails: a missing account is created. -/
theorem increaseBalanceBase_fst (s : AccountStoreSC) (a : Address) (delta : ℕ) :
    (s.increaseBalanceBase a delta).1 = true := by
  unfold increaseBalanceBase
  split
  · rfl
  · split
    · next acc _ => simp [Account.increaseBalance_eq]
    · next hnone => simp [addAccountBase, hnone]

/-- Without a wrap-around, `IncreaseBalance` raises the total by the amount. -/
theorem viewTotal_increaseBalanceBase (s : AccountStoreSC) (a : Address) (delta : ℕ)
    (hfit : s.viewTotal + delta < 2 ^ 128) :
    (s.increaseBalanceBase a delta).2.viewTotal = s.viewTotal + delta := by
  unfold increaseBalanceBase
  split
  · next h0 => simp [h0]
  · split
    · next acc hget =>
      have hle : acc.balance ≤ s.viewTotal := by
        simpa [hget, balanceOf] using balanceOf_le_viewTotal s a
      -- the sum stays below the modulus, so the aliased add does not wrap
      have hmod : (acc.balance + delta) % 2 ^ 128 = acc.balance + delta :=
        Nat.mod_eq_of_lt (by omega)
      have hw := viewTotal_writeAtomic s a { acc with balance := acc.balance + delta }
      rw [hget] at hw
      simp only [balanceOf, FinStore.weightOf_some] at hw
      simp only [Account.increaseBalance_eq, hmod]
      omega
    · next hnone =>
      have hw := viewTotal_writeAtomic s a (Account.new delta 0)
      have hbal : (Account.new delta 0).balance = delta := rfl
      rw [hnone, hbal] at hw
      simp only [balanceOf, FinStore.weightOf_none] at hw
      simp only [addAccountBase, hnone, Option.isSome_none, Bool.false_eq_true, if_false]
      omega

/-- A successful `DecreaseBalance` lowers the total by the amount; a failed one changes nothing. -/
theorem decreaseBalanceBase_cases (s : AccountStoreSC) (a : Address) (delta : ℕ) :
    s.decreaseBalanceBase a delta = (false, s) ∨
      ((s.decreaseBalanceBase a delta).1 = true ∧
        (s.decreaseBalanceBase a delta).2.viewTotal + delta = s.viewTotal) := by
  unfold decreaseBalanceBase
  split
  · next h0 => exact .inr ⟨rfl, by simp [h0]⟩
  · rcases updateAtomic_cases s a (·.decreaseBalance delta) with h | ⟨acc, acc', hget, hdec, h⟩
    · exact .inl h
    · right
      rw [h]
      obtain ⟨hle, rfl⟩ := Account.decreaseBalance_eq_some_iff.mp hdec
      have hw := viewTotal_writeAtomic s a { acc with balance := acc.balance - delta }
      rw [hget] at hw
      simp only [balanceOf, FinStore.weightOf_some] at hw
      exact ⟨rfl, by dsimp only; omega⟩

/-- **`TransferBalance` keeps the total** while it fits in `uint128_t`. -/
theorem viewTotal_transferBalanceBase (s : AccountStoreSC) (src dst : Address) (delta : ℕ)
    (hfit : s.viewTotal < 2 ^ 128) :
    (s.transferBalanceBase src dst delta).2.viewTotal = s.viewTotal := by
  unfold transferBalanceBase
  rcases decreaseBalanceBase_cases s src delta with hdec | ⟨hok, htot⟩
  · rw [hdec]
  · obtain ⟨s₁, hs₁⟩ : ∃ s₁, s.decreaseBalanceBase src delta = (true, s₁) :=
      ⟨_, Prod.ext hok rfl⟩
    rw [hs₁] at htot ⊢
    have hinc := increaseBalanceBase_fst s₁ dst delta
    obtain ⟨s₂, hs₂⟩ : ∃ s₂, s₁.increaseBalanceBase dst delta = (true, s₂) :=
      ⟨_, Prod.ext hinc rfl⟩
    have htot₂ := viewTotal_increaseBalanceBase s₁ dst delta (by simp at htot; omega)
    simp only [hs₂] at htot₂ ⊢
    simp at htot
    omega

/-- `SetBalance` to an amount raises the total by at most that amount. -/
theorem viewTotal_setBalanceAtomic_le (s : AccountStoreSC) (a : Address) (amount : Amount) :
    (s.setBalanceAtomic a amount).viewTotal ≤ s.viewTotal + amount.toQa := by
  unfold setBalanceAtomic
  rcases updateAtomic_cases s a (fun acc => some (acc.setBalance amount.toQa)) with
    h | ⟨acc, acc', hget, hset, h⟩
  · rw [h]
    dsimp only
    omega
  · rw [h]
    have hw := viewTotal_writeAtomic s a acc'
    simp only [Option.some.injEq] at hset
    subst hset
    rw [hget] at hw
    simp only [balanceOf, FinStore.weightOf_some, Account.setBalance] at hw ⊢
    omega

/-! ## The individual operations -/

theorem frame_updateStates (s : AccountStoreSC) (a : Address) (states : List (StorageKey × Bytes))
    (toDelete : List StorageKey) : AtomicFrame s (s.updateStates a states toDelete).2 := by
  unfold updateStates
  split
  · exact ⟨rfl, rfl, rfl⟩
  · exact AtomicFrame.refl s

theorem viewTotal_addAccountAtomic (s : AccountStoreSC) (a : Address) :
    (s.addAccountAtomic a).2.viewTotal = s.viewTotal := by
  unfold addAccountAtomic addAccountBase
  split
  · rfl
  · next hnone =>
    have hw := viewTotal_writeAtomic s a (Account.new 0 0)
    simp only [Option.not_isSome_iff_eq_none] at hnone
    rw [hnone] at hw
    simp only [balanceOf, FinStore.weightOf_none] at hw
    dsimp only
    exact hw

theorem viewTotal_updateStates (s : AccountStoreSC) (a : Address)
    (states : List (StorageKey × Bytes)) (toDelete : List StorageKey) :
    (s.updateStates a states toDelete).2.viewTotal = s.viewTotal := by
  unfold updateStates
  split <;> rfl

end AccountStoreSC

/-- `Account::InitContract` keeps the balance. -/
theorem Account.initContract_balance {prepare : Bytes → Address → ℕ →
    Option (Bytes × ℕ × Bool × List Address)} {acc acc' : Account} {code initData : Bytes}
    {addr : Address} {blockNum : ℕ}
    (h : acc.initContract prepare code initData addr blockNum = some acc') :
    acc'.balance = acc.balance := by
  unfold Account.initContract at h
  split at h
  · cases h
  · split at h
    · split at h
      · cases h
      · simp only [Option.some.injEq] at h
        subst h
        cases hset : Account.setImmutable _ _ _ with
        | none => rfl
        | some acc₂ =>
          simp only [Account.setImmutable] at hset
          split at hset
          · cases hset
          · simp only [Option.some.injEq] at hset
            subst hset
            rfl
    · simp only [Option.some.injEq] at h
      subst h
      cases hset : acc.setImmutable code initData with
      | none => rfl
      | some acc₂ =>
        simp only [Account.setImmutable] at hset
        split at hset
        · cases hset
        · simp only [Option.some.injEq] at hset
          subst hset
          rfl

/-! ## Runs as chains of operations -/

open AccountStoreSC

/-- One call of an atomic interface operation, as the runs make them. `SetBalanceAtomic` appears
    only to zero a balance, and only when `burns` is set. -/
inductive AtomicOp (burns : Bool) : AccountStoreSC → AccountStoreSC → Prop
  | addAccount (s : AccountStoreSC) (a : Address) : AtomicOp burns s (s.addAccountAtomic a).2
  | transfer (s : AccountStoreSC) (src dst : Address) (amount : Amount) :
      AtomicOp burns s (s.transferBalanceAtomic src dst amount).2
  | burn (s : AccountStoreSC) (a : Address) :
      burns = true → AtomicOp burns s (s.setBalanceAtomic a (Amount.fromQa 0))
  | increaseNonce (s : AccountStoreSC) (a : Address) :
      AtomicOp burns s (s.increaseNonceForAccountAtomic a)
  | setImmutable (s : AccountStoreSC) (a : Address) (code initData : Bytes) :
      AtomicOp burns s (s.setImmutableAtomic a code initData)
  | initContract (s : AccountStoreSC)
      (prepare : Bytes → Address → ℕ → Option (Bytes × ℕ × Bool × List Address))
      (a : Address) (code data : Bytes) (blockNum : ℕ) :
      AtomicOp burns s (s.initContract prepare a code data blockNum).2
  | updateStates (s : AccountStoreSC) (a : Address) (states : List (StorageKey × Bytes))
      (toDelete : List StorageKey) : AtomicOp burns s (s.updateStates a states toDelete).2
  | updateStateValue (s : AccountStoreSC) (a : Address) (q v : Bytes) :
      AtomicOp burns s (s.updateStateValue a q v)
  | addToBuffer (s : AccountStoreSC) (a : Address) :
      AtomicOp burns s (s.addAddressToUpdateBufferAtomic a)

/-- A chain of atomic operations: what one or several runs do to the store. -/
def RunEffect (burns : Bool) : AccountStoreSC → AccountStoreSC → Prop :=
  Relation.ReflTransGen (AtomicOp burns)

variable {burns : Bool} {s s' s'' : AccountStoreSC}

namespace AtomicOp

/-- **No operation touches the frame.** -/
theorem frame (h : AtomicOp burns s s') : AtomicFrame s s' := by
  cases h with
  | addAccount a => exact frame_addAccountBase s a _
  | transfer src dst amount => exact frame_transferBalanceBase s src dst _
  | burn a _ => exact frame_updateAtomic s a _
  | increaseNonce a => exact frame_updateAtomic s a _
  | setImmutable a code initData => exact frame_updateAtomic s a _
  | initContract prepare a code data blockNum => exact frame_updateAtomic s a _
  | updateStates a states toDelete => exact frame_updateStates s a states toDelete
  | updateStateValue a q v => exact ⟨rfl, rfl, rfl⟩
  | addToBuffer a => exact ⟨rfl, rfl, rfl⟩

/-- An operation keeps the total, or it is a burn and lowers it. -/
theorem viewTotal_cases (h : AtomicOp burns s s') (hfit : s.viewTotal < 2 ^ 128) :
    s'.viewTotal = s.viewTotal ∨ (burns = true ∧ s'.viewTotal ≤ s.viewTotal) := by
  cases h with
  | addAccount a => exact .inl (viewTotal_addAccountAtomic s a)
  | transfer src dst amount => exact .inl (viewTotal_transferBalanceBase s src dst _ hfit)
  | burn a hb =>
    right
    have hle := viewTotal_setBalanceAtomic_le s a (Amount.fromQa 0)
    rw [Amount.toQa_fromQa (by norm_num)] at hle
    exact ⟨hb, by omega⟩
  | increaseNonce a =>
    exact .inl (viewTotal_updateAtomic s a fun acc acc' h => by
      simp only [Option.some.injEq] at h
      rw [← h]
      rfl)
  | setImmutable a code initData =>
    exact .inl (viewTotal_updateAtomic s a fun acc acc' h => by
      simp only [Account.setImmutable] at h
      split at h
      · cases h
      · simp only [Option.some.injEq] at h
        rw [← h])
  | initContract prepare a code data blockNum =>
    exact .inl (viewTotal_updateAtomic s a fun acc acc' h => Account.initContract_balance h)
  | updateStates a states toDelete => exact .inl (viewTotal_updateStates s a states toDelete)
  | updateStateValue a q v => exact .inl rfl
  | addToBuffer a => exact .inl rfl

theorem viewTotal_le (h : AtomicOp burns s s') (hfit : s.viewTotal < 2 ^ 128) :
    s'.viewTotal ≤ s.viewTotal := by
  rcases h.viewTotal_cases hfit with heq | ⟨-, hle⟩
  · exact heq.le
  · exact hle

theorem viewTotal_eq (h : AtomicOp false s s') (hfit : s.viewTotal < 2 ^ 128) :
    s'.viewTotal = s.viewTotal := by
  rcases h.viewTotal_cases hfit with heq | ⟨hb, -⟩
  · exact heq
  · cases hb

/-- An operation without burns is an operation. -/
theorem mono (h : AtomicOp false s s') : AtomicOp burns s s' := by
  cases h with
  | addAccount a => exact .addAccount s a
  | transfer src dst amount => exact .transfer s src dst amount
  | burn a hb => cases hb
  | increaseNonce a => exact .increaseNonce s a
  | setImmutable a code initData => exact .setImmutable s a code initData
  | initContract prepare a code data blockNum => exact .initContract s prepare a code data blockNum
  | updateStates a states toDelete => exact .updateStates s a states toDelete
  | updateStateValue a q v => exact .updateStateValue s a q v
  | addToBuffer a => exact .addToBuffer s a

end AtomicOp

namespace RunEffect

theorem refl (s : AccountStoreSC) : RunEffect burns s s := Relation.ReflTransGen.refl

theorem trans (h₁ : RunEffect burns s s') (h₂ : RunEffect burns s' s'') : RunEffect burns s s'' :=
  Relation.ReflTransGen.trans h₁ h₂

/-- Extend a chain by one operation. -/
theorem op (h : RunEffect burns s s') (hop : AtomicOp burns s' s'') : RunEffect burns s s'' :=
  Relation.ReflTransGen.tail h hop

theorem single (hop : AtomicOp burns s s') : RunEffect burns s s' :=
  Relation.ReflTransGen.single hop

theorem mono (h : RunEffect false s s') : RunEffect burns s s' := by
  induction h with
  | refl => exact refl _
  | tail _ hop ih => exact ih.op hop.mono

/-- **A chain of operations leaves the frame.** -/
theorem frame (h : RunEffect burns s s') : AtomicFrame s s' := by
  induction h with
  | refl => exact AtomicFrame.refl _
  | tail _ hop ih => exact ih.trans hop.frame

/-- **A chain of operations never raises the total** while it fits in `uint128_t`. -/
theorem viewTotal_le (h : RunEffect burns s s') (hfit : s.viewTotal < 2 ^ 128) :
    s'.viewTotal ≤ s.viewTotal := by
  induction h with
  | refl => exact Nat.le_refl _
  | tail _ hop ih => exact (hop.viewTotal_le (lt_of_le_of_lt ih hfit)).trans ih

/-- **A chain without burns keeps the total.** -/
theorem viewTotal_eq (h : RunEffect false s s') (hfit : s.viewTotal < 2 ^ 128) :
    s'.viewTotal = s.viewTotal := by
  induction h with
  | refl => rfl
  | tail _ hop ih => exact (hop.viewTotal_eq (ih ▸ hfit)).trans ih

end RunEffect

end Zilliqa
