import Zilliqa.Cps.Correctness.Atomic
import Zilliqa.Cps.Types

/-!
# `Data.AccountStoreBase` — a plain transfer, and what it leaves when it fails

With `ENABLE_CPS` off, `AccountStoreBase::UpdateAccounts` applies a transaction that only moves
value as a chain of fallible steps on the store: take the gas deposit `gasLimit * gasPrice` from
the sender, `TransferBalance` the amount, compute what the `NORMAL_TRAN_GAS` fee leaves of the
deposit (`CalculateGasRefund`), credit it back, and bump the sender's nonce.

Every call either fails and leaves the store exactly as it was, or succeeds and leaves the store
`transferred` describes (`updateAccounts_cases`). Of the fallible steps only the deposit and the
transfer can fail once the checks pass, both change nothing when they do, and a failed transfer
is undone by crediting the deposit back, which restores the sender's balance because it is a
`uint128`. A successful call charges the sender the amount and the fee, but its credits go through
`AccountBase::IncreaseBalance` and `AccountBase::IncreaseNonce`, whose aliased `SafeMath::add`
wraps: the recipient's balance is taken modulo `2 ^ 128` and the sender's nonce modulo `2 ^ 64`,
and the sum of balances then falls by `2 ^ 128` more than the fee (`total_transferred`).

## Contents
- `AccountStoreBase.increaseNonce`, `calculateGasRefund` and `updateAccounts`.
- One spec lemma per store operation: `increaseBalance_eq`, `decreaseBalance_of_find`,
  `transferBalance_of_find`, `increaseNonce_of_find`, `calculateGasRefund_eq`.
- `transferred`, what a successful call leaves, with its lookups and its total.
- `updateAccounts_cases` and the invariant `BalancesFit` it keeps.
-/

namespace Zilliqa

namespace AccountStoreBase

variable (m : AccountStoreBase)

/-- `AccountStoreBase::IncreaseNonce`. -/
def increaseNonce (a : Address) : Bool × AccountStoreBase := m.update a (·.increaseNonce)

/-- `AccountStoreBase::CalculateGasRefund`: the deposit less the fee `gasUnit * gasPrice`. -/
def calculateGasRefund (gasDeposit gasUnit gasPrice : ℕ) : Option ℕ :=
  match SafeMath.mul 128 gasUnit gasPrice with
  | none => none
  | some gasFee => SafeMath.sub gasDeposit gasFee

/-- **`AccountStoreBase::UpdateAccounts`**: whether the transaction was applied, the `error_code`
    it leaves, and the store. -/
def updateAccounts (tx : Transaction) : Bool × TxnStatus × AccountStoreBase :=
  let fromAddr := tx.senderAddr
  let toAddr := tx.toAddr
  let amount := tx.getAmountQa
  match m.find fromAddr with
  | none => (false, .invalidFromAccount, m)
  | some fromAccount =>
    if tx.getGasLimitZil < normalTranGas then (false, .insufficientGasLimit, m)
    else
      match SafeMath.mul 128 tx.getGasLimitZil tx.getGasPriceQa with
      | none => (false, .mathError, m)
      | some gasDeposit =>
        -- `amount + gasDeposit` is an unchecked `uint128_t` sum
        if fromAccount.balance < (amount + gasDeposit) % 2 ^ 128 then
          (false, .insufficientBalance, m)
        else
          let r1 := m.decreaseBalance fromAddr gasDeposit
          if !r1.1 then (false, .mathError, r1.2)
          else
            let r2 := r1.2.transferBalance fromAddr toAddr amount
            -- a failed transfer gives the deposit back
            if !r2.1 then (false, .mathError, (r2.2.increaseBalance fromAddr gasDeposit).2)
            else
              match calculateGasRefund gasDeposit normalTranGas tx.getGasPriceQa with
              | none => (false, .mathError, r2.2)
              | some gasRefund =>
                let r3 := r2.2.increaseBalance fromAddr gasRefund
                -- a failed refund is only logged: the status records it and the call goes on
                let status := if r3.1 then TxnStatus.notPresent else .mathError
                let r4 := r3.2.increaseNonce fromAddr
                if !r4.1 then (false, .mathError, r4.2) else (true, status, r4.2)

/-! ## The store operations -/

/-- The account `IncreaseBalance` leaves under an address: the old one credited modulo `2 ^ 128`,
    or a new account holding `delta`. -/
def credited (o : Option Account) (delta : ℕ) : Account :=
  match o with
  | some acc => { acc with balance := (acc.balance + delta) % 2 ^ 128 }
  | none => Account.new delta 0

/-- **`IncreaseBalance` never fails**: it wraps an existing balance and creates a missing
    account. -/
theorem increaseBalance_eq (a : Address) (delta : ℕ) :
    m.increaseBalance a delta =
      (true, if delta = 0 then m else m.insert a (credited (m.find a) delta)) := by
  unfold increaseBalance
  by_cases hd : delta = 0
  · simp [hd]
  · rw [if_neg hd, if_neg hd]
    cases hf : m.find a with
    | some acc => simp [Account.increaseBalance_eq, credited]
    | none => simp [addAccount, hf, credited]

@[simp] theorem fst_increaseBalance (a : Address) (delta : ℕ) : (m.increaseBalance a delta).1 = true := by
  rw [increaseBalance_eq]

theorem find_increaseBalance (a : Address) (delta : ℕ) (x : Address) :
    (m.increaseBalance a delta).2.find x =
      if x = a ∧ delta ≠ 0 then some (credited (m.find a) delta) else m.find x := by
  rw [increaseBalance_eq]
  by_cases hd : delta = 0
  · simp [hd]
  · by_cases hx : x = a <;> simp [hd, hx]

variable {m}

theorem decreaseBalance_of_find {a : Address} {acc : Account} (h : m.find a = some acc)
    (delta : ℕ) :
    m.decreaseBalance a delta =
      if delta ≤ acc.balance then (true, m.insert a { acc with balance := acc.balance - delta })
      else (false, m) := by
  unfold decreaseBalance
  by_cases hd : delta = 0
  · -- a zero decrease returns before looking the account up; writing it back changes nothing
    subst hd
    simp only [if_true, Nat.zero_le, Nat.sub_zero]
    rw [FinStore.insert_find_self m h]
  · rw [if_neg hd]
    by_cases hle : delta ≤ acc.balance
    · have hdec : acc.decreaseBalance delta = some { acc with balance := acc.balance - delta } :=
        Account.decreaseBalance_eq_some_iff.2 ⟨hle, rfl⟩
      simp [update, h, hdec, hle]
    · have hdec : acc.decreaseBalance delta = none := by
        cases hd' : acc.decreaseBalance delta with
        | none => rfl
        | some acc' => exact absurd (Account.decreaseBalance_eq_some_iff.1 hd').1 hle
      simp [update, h, hdec, hle]

/-- **`TransferBalance` from an existing account**: it fails, changing nothing, exactly when the
    source holds less than `delta`; its roll-back branch is dead, since the increase never fails. -/
theorem transferBalance_of_find {src : Address} {acc : Account} (h : m.find src = some acc)
    (dst : Address) (delta : ℕ) :
    m.transferBalance src dst delta =
      if delta ≤ acc.balance then
        (true, (increaseBalance (m.insert src { acc with balance := acc.balance - delta }) dst
          delta).2)
      else (false, m) := by
  unfold transferBalance
  rw [decreaseBalance_of_find h]
  by_cases hle : delta ≤ acc.balance
  · rw [if_pos hle, if_pos hle]
    dsimp only
    rw [increaseBalance_eq]
  · rw [if_neg hle, if_neg hle]

theorem increaseNonce_of_find {a : Address} {acc : Account} (h : m.find a = some acc) :
    m.increaseNonce a = (true, m.insert a { acc with nonce := (acc.nonce + 1) % 2 ^ 64 }) := by
  simp [increaseNonce, update, h, Account.increaseNonce]

/-- The refund succeeds whenever the fee fits in the deposit and the deposit is a `uint128`. -/
theorem calculateGasRefund_eq {gasDeposit gasUnit gasPrice : ℕ}
    (hfee : gasUnit * gasPrice ≤ gasDeposit) (hdep : gasDeposit < 2 ^ 128) :
    calculateGasRefund gasDeposit gasUnit gasPrice = some (gasDeposit - gasUnit * gasPrice) := by
  have hmul : SafeMath.mul 128 gasUnit gasPrice = some (gasUnit * gasPrice) :=
    SafeMath.mul_eq_some_iff.2 ⟨by omega, rfl⟩
  simp only [calculateGasRefund, hmul]
  exact SafeMath.sub_eq_some_iff.2 ⟨hfee, rfl⟩

/-! ## Composing the steps -/

/-- Crediting back what was just taken from a `uint128` balance restores that balance. -/
theorem increaseBalance_insert_sub (a : Address) (acc : Account) {v d : ℕ} (hv : v < 2 ^ 128)
    (hd : d ≤ v) :
    (increaseBalance (m.insert a { acc with balance := v - d }) a d).2 =
      m.insert a { acc with balance := v } := by
  rw [increaseBalance_eq]
  by_cases hd0 : d = 0
  · simp [hd0]
  · simp (disch := omega) [hd0, credited, FinStore.insert_insert, Nat.sub_add_cancel hd,
      Nat.mod_eq_of_lt]

/-- Crediting another address commutes with a write to the sender. -/
theorem increaseBalance_insert_comm {a b : Address} (hab : b ≠ a) (acc acc' : Account)
    (delta : ℕ) :
    (increaseBalance (m.insert a acc) b delta).2.insert a acc' =
      (increaseBalance (m.insert a acc') b delta).2 := by
  rw [increaseBalance_eq, increaseBalance_eq]
  by_cases hd : delta = 0
  · simp [hd, FinStore.insert_insert]
  · simp only [hd, if_false, FinStore.find_insert_ne _ _ hab]
    rw [FinStore.insert_comm _ _ _ (Ne.symm hab), FinStore.insert_insert]
    exact FinStore.insert_comm _ _ _ hab

/-- The refund then the nonce bump, on a sender whose refunded balance stays a `uint128`. -/
theorem increaseNonce_increaseBalance {a : Address} {acc : Account} (h : m.find a = some acc)
    {r : ℕ} (hr : acc.balance + r < 2 ^ 128) :
    increaseNonce (m.increaseBalance a r).2 a =
      (true, m.insert a { acc with balance := acc.balance + r, nonce := (acc.nonce + 1) % 2 ^ 64 }) := by
  rw [increaseBalance_eq]
  by_cases hr0 : r = 0
  · subst hr0
    simp only [if_true, Nat.add_zero]
    rw [increaseNonce_of_find h]
  · simp only [hr0, if_false]
    rw [increaseNonce_of_find (FinStore.find_insert_self _ _ _), FinStore.insert_insert]
    simp (disch := omega) [h, credited, Nat.mod_eq_of_lt]

/-! ## What a call leaves -/

/-- Every balance in the store is a `uint128`. -/
def BalancesFit (m : AccountStoreBase) : Prop := ∀ a acc, m.find a = some acc → acc.balance < 2 ^ 128

/-- What a successful `UpdateAccounts` leaves: the sender, found holding `acc`, pays the amount
    and the `NORMAL_TRAN_GAS` fee and its nonce goes up modulo `2 ^ 64`, and the recipient is
    credited as `IncreaseBalance` credits. A transfer to oneself pays the fee only. -/
def transferred (m : AccountStoreBase) (tx : Transaction) (acc : Account) : AccountStoreBase :=
  let fee := normalTranGas * tx.getGasPriceQa
  let nonce := (acc.nonce + 1) % 2 ^ 64
  if tx.toAddr = tx.senderAddr then
    m.insert tx.senderAddr { acc with balance := acc.balance - fee, nonce := nonce }
  else
    (increaseBalance
      (m.insert tx.senderAddr { acc with balance := acc.balance - tx.getAmountQa - fee, nonce := nonce })
      tx.toAddr tx.getAmountQa).2

variable {tx : Transaction} {acc : Account}

theorem transferred_of_eq (hself : tx.toAddr = tx.senderAddr) :
    m.transferred tx acc =
      m.insert tx.senderAddr { acc with balance := acc.balance - normalTranGas * tx.getGasPriceQa,
                                        nonce := (acc.nonce + 1) % 2 ^ 64 } :=
  if_pos hself

section Transferred

variable (hne : tx.toAddr ≠ tx.senderAddr)
include hne

theorem transferred_of_ne :
    m.transferred tx acc =
      (increaseBalance
        (m.insert tx.senderAddr
          { acc with balance := acc.balance - tx.getAmountQa - normalTranGas * tx.getGasPriceQa,
                     nonce := (acc.nonce + 1) % 2 ^ 64 })
        tx.toAddr tx.getAmountQa).2 :=
  if_neg hne

theorem find_transferred_sender :
    (m.transferred tx acc).find tx.senderAddr =
      some { acc with balance := acc.balance - tx.getAmountQa - normalTranGas * tx.getGasPriceQa,
                      nonce := (acc.nonce + 1) % 2 ^ 64 } := by
  rw [transferred_of_ne hne, find_increaseBalance]
  simp [Ne.symm hne]

theorem find_transferred_recipient :
    (m.transferred tx acc).find tx.toAddr =
      if tx.getAmountQa = 0 then m.find tx.toAddr
      else some (credited (m.find tx.toAddr) tx.getAmountQa) := by
  rw [transferred_of_ne hne, find_increaseBalance]
  by_cases hA : tx.getAmountQa = 0 <;> simp [hne, hA]

end Transferred

theorem find_transferred_of_ne {x : Address} (hF : x ≠ tx.senderAddr) (hT : x ≠ tx.toAddr) :
    (m.transferred tx acc).find x = m.find x := by
  by_cases hself : tx.toAddr = tx.senderAddr
  · rw [transferred_of_eq hself, FinStore.find_insert_ne _ _ hF]
  · rw [transferred_of_ne hself, find_increaseBalance, if_neg (fun h => hT h.1),
      FinStore.find_insert_ne _ _ hF]

/-! ## Balances stay `uint128`, and the total -/

namespace BalancesFit

variable (hfit : m.BalancesFit)
include hfit

theorem insert {a : Address} {acc : Account} (h : acc.balance < 2 ^ 128) :
    BalancesFit (m.insert a acc) := by
  intro x acc' hx
  rw [FinStore.find_insert] at hx
  split_ifs at hx
  · cases hx
    exact h
  · exact hfit x acc' hx

theorem weightOf_lt (a : Address) : FinStore.weightOf Account.balance (m.find a) < 2 ^ 128 := by
  cases h : m.find a with
  | none => simp
  | some acc => simpa using hfit a acc h

theorem increaseBalance {a : Address} {delta : ℕ} (hd : delta < 2 ^ 128) :
    (m.increaseBalance a delta).2.BalancesFit := by
  rw [increaseBalance_eq]
  split_ifs
  · exact hfit
  · apply hfit.insert
    cases m.find a with
    | none => exact hd
    | some acc => exact Nat.mod_lt _ (by positivity)

/-- **The total after `IncreaseBalance`**: `delta` comes in, and `2 ^ 128` goes out when the
    credit wraps. -/
theorem total_increaseBalance (a : Address) {delta : ℕ} (hd : delta < 2 ^ 128) :
    FinStore.total Account.balance (m.increaseBalance a delta).2 +
        2 ^ 128 * ((FinStore.weightOf Account.balance (m.find a) + delta) / 2 ^ 128) =
      FinStore.total Account.balance m + delta := by
  have hlt := hfit.weightOf_lt a
  rw [increaseBalance_eq]
  by_cases hd0 : delta = 0
  · simp only [hd0, if_true, Nat.add_zero, Nat.div_eq_of_lt hlt, Nat.mul_zero]
  · simp only [hd0, if_false]
    have hins := FinStore.total_insert Account.balance m a (credited (m.find a) delta)
    cases h : m.find a with
    | none =>
      simp only [h, credited, Account.new, FinStore.weightOf_none, Nat.zero_add] at hins ⊢
      rw [Nat.div_eq_of_lt hd]
      omega
    | some acc =>
      simp only [h, credited, FinStore.weightOf_some] at hins ⊢
      have := Nat.mod_add_div (acc.balance + delta) (2 ^ 128)
      omega

end BalancesFit

theorem BalancesFit.transferred (hfit : m.BalancesFit) (hF : m.find tx.senderAddr = some acc)
    (hA : tx.getAmountQa < 2 ^ 128) : (m.transferred tx acc).BalancesFit := by
  have hb := hfit _ _ hF
  by_cases hself : tx.toAddr = tx.senderAddr
  · rw [transferred_of_eq hself]
    exact hfit.insert (by simp only; omega)
  · rw [transferred_of_ne hself]
    exact (hfit.insert (by simp only; omega)).increaseBalance hA

/-- **The total after a transfer to another address**: the fee leaves the store, and so does
    `2 ^ 128` when the recipient's credit wraps. -/
theorem total_transferred (hfit : m.BalancesFit) (hF : m.find tx.senderAddr = some acc)
    (hne : tx.toAddr ≠ tx.senderAddr)
    (hpay : tx.getAmountQa + normalTranGas * tx.getGasPriceQa ≤ acc.balance)
    (hA : tx.getAmountQa < 2 ^ 128) :
    FinStore.total Account.balance (m.transferred tx acc) + normalTranGas * tx.getGasPriceQa +
        2 ^ 128 * ((FinStore.weightOf Account.balance (m.find tx.toAddr) + tx.getAmountQa) /
          2 ^ 128) =
      FinStore.total Account.balance m := by
  have hb := hfit _ _ hF
  rw [transferred_of_ne hne]
  -- the sender's write, then the recipient's credit on the store it leaves
  let paid : Account :=
    { acc with balance := acc.balance - tx.getAmountQa - normalTranGas * tx.getGasPriceQa,
               nonce := (acc.nonce + 1) % 2 ^ 64 }
  have h1 := FinStore.total_insert Account.balance m tx.senderAddr paid
  have hfit' : BalancesFit (m.insert tx.senderAddr paid) := hfit.insert (by dsimp only [paid]; omega)
  have h2 := hfit'.total_increaseBalance tx.toAddr hA
  rw [hF, FinStore.weightOf_some] at h1
  rw [FinStore.find_insert_ne _ _ hne] at h2
  dsimp only [paid] at h1 h2
  omega

/-- A transfer to oneself takes the fee only. -/
theorem total_transferred_self (hF : m.find tx.senderAddr = some acc)
    (hself : tx.toAddr = tx.senderAddr) (hpay : normalTranGas * tx.getGasPriceQa ≤ acc.balance) :
    FinStore.total Account.balance (m.transferred tx acc) + normalTranGas * tx.getGasPriceQa =
      FinStore.total Account.balance m := by
  have h1 := FinStore.total_insert Account.balance m tx.senderAddr
    { acc with balance := acc.balance - normalTranGas * tx.getGasPriceQa,
               nonce := (acc.nonce + 1) % 2 ^ 64 }
  rw [hF, FinStore.weightOf_some] at h1
  rw [transferred_of_eq hself]
  dsimp only at h1
  omega

/-! ## `UpdateAccounts` -/

/-- **What `UpdateAccounts` can do**: on a store of `uint128` balances, a call either fails and
    leaves the store exactly as it was, or succeeds, having found the sender able to pay the amount
    and the whole deposit, and leaves `transferred`. -/
theorem updateAccounts_cases (hfit : m.BalancesFit) (tx : Transaction) :
    ((m.updateAccounts tx).1 = false ∧ (m.updateAccounts tx).2.2 = m) ∨
    ∃ acc, m.find tx.senderAddr = some acc ∧ normalTranGas ≤ tx.getGasLimitZil ∧
      tx.getAmountQa + tx.getGasLimitZil * tx.getGasPriceQa ≤ acc.balance ∧
      m.updateAccounts tx = (true, .notPresent, m.transferred tx acc) := by
  unfold updateAccounts
  dsimp only
  cases hF : m.find tx.senderAddr with
  | none => exact .inl ⟨rfl, rfl⟩
  | some acc =>
    have hb := hfit _ _ hF
    dsimp only
    by_cases hgas : tx.getGasLimitZil < normalTranGas
    · rw [if_pos hgas]
      exact .inl ⟨rfl, rfl⟩
    rw [if_neg hgas]
    cases hmul : SafeMath.mul 128 tx.getGasLimitZil tx.getGasPriceQa with
    | none => exact .inl ⟨rfl, rfl⟩
    | some d =>
      obtain ⟨hdfit, rfl⟩ := SafeMath.mul_eq_some_iff.1 hmul
      dsimp only
      by_cases hbal : acc.balance < (tx.getAmountQa + tx.getGasLimitZil * tx.getGasPriceQa) % 2 ^ 128
      · rw [if_pos hbal]
        exact .inl ⟨rfl, rfl⟩
      rw [if_neg hbal, decreaseBalance_of_find hF]
      by_cases hd : tx.getGasLimitZil * tx.getGasPriceQa ≤ acc.balance
      · rw [if_pos hd]
        simp only [Bool.not_true, Bool.false_eq_true, if_false]
        rw [transferBalance_of_find (FinStore.find_insert_self _ _ _)]
        dsimp only
        rw [FinStore.insert_insert]
        by_cases hA : tx.getAmountQa ≤ acc.balance - tx.getGasLimitZil * tx.getGasPriceQa
        · rw [if_pos hA]
          refine .inr ⟨acc, rfl, by omega, by omega, ?_⟩
          simp only [Bool.not_true, Bool.false_eq_true, if_false]
          rw [calculateGasRefund_eq (Nat.mul_le_mul_right _ (not_lt.1 hgas)) hdfit]
          dsimp only
          simp only [fst_increaseBalance, if_true]
          have hfee : normalTranGas * tx.getGasPriceQa ≤ tx.getGasLimitZil * tx.getGasPriceQa :=
            Nat.mul_le_mul_right _ (not_lt.1 hgas)
          by_cases hself : tx.toAddr = tx.senderAddr
          · rw [transferred_of_eq hself, hself, increaseBalance_insert_sub _ _ (by omega) hA,
              increaseNonce_increaseBalance (FinStore.find_insert_self _ _ _) (by dsimp only; omega)]
            simp only [Bool.not_true, Bool.false_eq_true, if_false, FinStore.insert_insert]
            have hpaid : acc.balance - tx.getGasLimitZil * tx.getGasPriceQa +
                (tx.getGasLimitZil * tx.getGasPriceQa - normalTranGas * tx.getGasPriceQa) =
                acc.balance - normalTranGas * tx.getGasPriceQa := by omega
            rw [hpaid]
          · have hsender : (increaseBalance (m.insert tx.senderAddr
                { acc with balance := acc.balance - tx.getGasLimitZil * tx.getGasPriceQa - tx.getAmountQa })
                tx.toAddr tx.getAmountQa).2.find tx.senderAddr =
                some { acc with balance := acc.balance - tx.getGasLimitZil * tx.getGasPriceQa - tx.getAmountQa } := by
              rw [find_increaseBalance, if_neg (fun h => hself h.1.symm), FinStore.find_insert_self]
            rw [transferred_of_ne hself, increaseNonce_increaseBalance hsender (by dsimp only; omega)]
            simp only [Bool.not_true, Bool.false_eq_true, if_false]
            rw [increaseBalance_insert_comm hself]
            have hpaid : acc.balance - tx.getGasLimitZil * tx.getGasPriceQa - tx.getAmountQa +
                (tx.getGasLimitZil * tx.getGasPriceQa - normalTranGas * tx.getGasPriceQa) =
                acc.balance - tx.getAmountQa - normalTranGas * tx.getGasPriceQa := by omega
            rw [hpaid]
        · rw [if_neg hA]
          simp only [Bool.not_false, if_true]
          exact .inl ⟨trivial, (increaseBalance_insert_sub _ _ hb hd).trans (FinStore.insert_find_self m hF)⟩
      · rw [if_neg hd]
        exact .inl ⟨rfl, rfl⟩

/-- **A failed `UpdateAccounts` changes nothing**: the accounts, their balances and their nonces
    are as they were. -/
theorem updateAccounts_false (hfit : m.BalancesFit) {tx : Transaction}
    (h : (m.updateAccounts tx).1 = false) : (m.updateAccounts tx).2.2 = m := by
  rcases updateAccounts_cases hfit tx with ⟨-, hm⟩ | ⟨acc, -, -, -, heq⟩
  · exact hm
  · rw [heq] at h
    cases h

/-- **A successful `UpdateAccounts` leaves `transferred`**, the sender having held the amount and
    the whole deposit. -/
theorem updateAccounts_true (hfit : m.BalancesFit) {tx : Transaction}
    (h : (m.updateAccounts tx).1 = true) :
    ∃ acc, m.find tx.senderAddr = some acc ∧
      tx.getAmountQa + tx.getGasLimitZil * tx.getGasPriceQa ≤ acc.balance ∧
      (m.updateAccounts tx).2.2 = m.transferred tx acc := by
  rcases updateAccounts_cases hfit tx with ⟨hf, -⟩ | ⟨acc, hF, -, hpay, heq⟩
  · rw [hf] at h
    cases h
  · exact ⟨acc, hF, hpay, by rw [heq]⟩

/-- `UpdateAccounts` keeps every balance a `uint128`, for an amount that is one. -/
theorem BalancesFit.updateAccounts (hfit : m.BalancesFit) {tx : Transaction}
    (hA : tx.getAmountQa < 2 ^ 128) : (m.updateAccounts tx).2.2.BalancesFit := by
  rcases updateAccounts_cases hfit tx with ⟨-, hm⟩ | ⟨acc, hF, -, -, heq⟩
  · rw [hm]
    exact hfit
  · rw [heq]
    exact hfit.transferred hF hA

/-! ## The wrap at the boundary -/

/-- A sender at the largest `uint64` nonce and a recipient at the largest `uint128` balance. -/
def boundaryStore : AccountStoreBase :=
  (FinStore.empty.insert ⟨1⟩ (Account.new 1000 (2 ^ 64 - 1))).insert ⟨2⟩
    (Account.new (2 ^ 128 - 1) 0)

/-- One Qa from the first to the second, at the minimum gas limit and a gas price of one Qa. -/
def boundaryTransfer : Transaction := ⟨false, 0, ⟨1⟩, ⟨2⟩, 1, 1, normalTranGas, [], []⟩

/-- Both balances of the boundary store are `uint128` values. -/
theorem balancesFit_boundaryStore : boundaryStore.BalancesFit := by
  intro a acc h
  simp only [boundaryStore, FinStore.find_insert, FinStore.find_empty] at h
  split_ifs at h <;> cases h <;> decide

/-- The transfer keeps every balance a `uint128`: the credit that wraps leaves `0`. -/
theorem BalancesFit.updateAccounts_boundary :
    boundaryStore.BalancesFit ∧ boundaryTransfer.getAmountQa < 2 ^ 128 ∧
      (boundaryStore.updateAccounts boundaryTransfer).2.2.BalancesFit := by
  have hA : boundaryTransfer.getAmountQa < 2 ^ 128 := by decide
  exact ⟨balancesFit_boundaryStore, hA, balancesFit_boundaryStore.updateAccounts hA⟩

theorem updateAccounts_wraps_at_boundary :
    boundaryStore.BalancesFit ∧
    (boundaryStore.updateAccounts boundaryTransfer).1 = true ∧
    ((boundaryStore.updateAccounts boundaryTransfer).2.2.find ⟨2⟩).map Account.balance = some 0 ∧
    ((boundaryStore.updateAccounts boundaryTransfer).2.2.find ⟨1⟩).map Account.nonce = some 0 ∧
    FinStore.total Account.balance (boundaryStore.updateAccounts boundaryTransfer).2.2 + 2 ^ 128 +
      normalTranGas = FinStore.total Account.balance boundaryStore := by
  exact ⟨balancesFit_boundaryStore, by decide, by decide, by decide, by decide⟩

end AccountStoreBase

end Zilliqa
