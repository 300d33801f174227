import Mathlib.Data.Finset.Max
import Mathlib.Data.Set.Card
import Zilliqa.Lib.KeepBest
import Zilliqa.Cps.Types

/-!
# `Data.TxnPool` — the mempool of pending transactions

`TxnPool` (`TxnPool.h`) keeps its transactions in three indexes that every operation updates by
hand: `HashIndex` by `TranID`, `GasIndex` by gas price (highest first) and then `TranID`, and
`NonceIndex` by sender public key and nonce. The pool reads a transaction only through four getters
(`TxnKeys`); the `TranID` is a hash and stays abstract.

## Contents
- `TxnPool` with `clear`, `size`, `exist`, `get`, `insert`, `findSameNonceButHigherGas` and
  `findOne`, statement by statement as in the source; `step` and `run` over a list of `PoolOp`.
- `TxnPool.WF`, the representation invariant: every index stores a transaction under its own keys,
  no gas bucket is empty, and the three indexes hold the same transactions. Two building blocks keep
  it: `addTxn` (the three writes of a fresh insertion) and `eraseTxn` (the three erasures of a
  removal); every operation of a well-formed pool is one of them, both, or nothing.
- `run_wf`: a run of any operations from a well-formed pool stays well-formed.
- The abstract view: a well-formed pool is determined by its `NonceIndex` (`WF.ext`), and inserting
  a transaction of a new `TranID` acts there as `FinStore.offer` with the (gas price, `TranID`)
  rank (`insert_nonceIndex`).
-/

namespace Zilliqa

/-- The getters `TxnPool` calls on a transaction: `GetTranID` (a hash of the transaction, left
    abstract), `GetSenderPubKey`, `GetNonce` and `GetGasPriceQa`. -/
structure TxnKeys (τ : Type) where
  tranID : τ → ℕ
  senderPubKey : τ → ℕ
  nonce : τ → ℕ
  gasPriceQa : τ → ℕ

namespace TxnKeys

variable {τ : Type} (K : TxnKeys τ)

/-- The key of `NonceIndex`: `{GetSenderPubKey(), GetNonce()}`. -/
def nonceKey (t : τ) : ℕ × ℕ := (K.senderPubKey t, K.nonce t)

/-- The order in which `insert` lets a transaction displace another of the same sender and nonce:
    higher gas price first, then smaller `TranID`. -/
def rank (t : τ) : ℕ ×ₗ ℕᵒᵈ := toLex (K.gasPriceQa t, OrderDual.toDual (K.tranID t))

/-- The displacement test of `insert`, read as a comparison of ranks. -/
theorem rank_lt_rank_iff (t u : τ) :
    K.rank u < K.rank t ↔
      K.gasPriceQa u < K.gasPriceQa t ∨
        (K.gasPriceQa t = K.gasPriceQa u ∧ K.tranID t < K.tranID u) := by
  rw [rank, rank, Prod.Lex.toLex_lt_toLex]
  simp [eq_comm]

/-- Transactions of distinct `TranID`s have distinct ranks. -/
theorem rank_injOn {l : List τ} (h : (l.map K.tranID).Nodup) : Set.InjOn K.rank {t | t ∈ l} := by
  intro t ht u hu hr
  apply List.inj_on_of_nodup_map h ht hu
  have hid := congrArg (fun x => OrderDual.ofDual (ofLex x).2) hr
  simpa [rank] using hid

end TxnKeys

/-- A `Transaction` object as the pool holds it: `m_tranID`, the sender's public key of its core
    info, the other core fields, and `m_signature`. -/
structure SignedTxn where
  tranID : ℕ
  senderPubKey : ℕ
  core : Transaction
  signature : ℕ
deriving DecidableEq

/-- The getters the pool calls on a `SignedTxn`. -/
def SignedTxn.keys : TxnKeys SignedTxn where
  tranID := SignedTxn.tranID
  senderPubKey := SignedTxn.senderPubKey
  nonce t := t.core.nonce
  gasPriceQa t := t.core.getGasPriceQa

/-- `MempoolInsertionStatus`: a status and a `TranID`. -/
abbrev MempoolInsertionStatus := TxnStatus × ℕ

/-- `TxnPool`: `HashIndex`, `GasIndex` (buckets by gas price, each keyed by `TranID`) and
    `NonceIndex`. The order of `GasIndex` (`std::greater`) only matters to `findOne`. -/
@[ext] structure TxnPool (τ : Type) where
  hashIndex : FinStore ℕ τ
  gasIndex : FinStore ℕ (FinStore ℕ τ)
  nonceIndex : FinStore (ℕ × ℕ) τ

/-- The operations of `TxnPool`. -/
inductive PoolOp (τ : Type) where
  | insert (t : τ)
  | findOne
  | findSameNonceButHigherGas (t : τ)
  | get (th : ℕ)
  | exist (th : ℕ)
  | clear

namespace TxnPool

variable {τ : Type} (K : TxnKeys τ)

/-! ## The operations -/

/-- The pool with no transactions. -/
def empty : TxnPool τ := ⟨.empty, .empty, .empty⟩

/-- `clear`. -/
def clear (_ : TxnPool τ) : TxnPool τ := empty

/-- `size`: the size of `HashIndex`. -/
def size (p : TxnPool τ) : ℕ := p.hashIndex.keys.card

/-- `exist`. -/
def exist (p : TxnPool τ) (th : ℕ) : Bool := (p.hashIndex.find th).isSome

/-- `get`: the transaction of `TranID` `th`, if any. -/
def get (p : TxnPool τ) (th : ℕ) : Option τ := p.hashIndex.find th

/-- The bucket of gas price `g`, empty when `GasIndex` has none. -/
def gasBucket (gi : FinStore ℕ (FinStore ℕ τ)) (g : ℕ) : FinStore ℕ τ := (gi.find g).getD .empty

/-- `GasIndex[g][th] = t`: `operator[]` creates a missing bucket. -/
def gasInsert (gi : FinStore ℕ (FinStore ℕ τ)) (g th : ℕ) (t : τ) : FinStore ℕ (FinStore ℕ τ) :=
  gi.insert g ((gasBucket gi g).insert th t)

/-- Erase `th` from the bucket of `g`, and the bucket if that empties it. This is the effect of all
    three erasures of the source: guarded by `find` in `insert`, through `operator[]` in
    `findSameNonceButHigherGas` (which creates and drops a missing bucket), and on the first bucket
    in `findOne`. -/
def gasErase (gi : FinStore ℕ (FinStore ℕ τ)) (g th : ℕ) : FinStore ℕ (FinStore ℕ τ) :=
  match gi.find g with
  | none => gi
  | some b =>
    let b' := b.erase th
    if b'.keys = ∅ then gi.erase g else gi.insert g b'

/-- The three writes of a fresh insertion: `HashIndex[id] = t`, `GasIndex[gas][id] = t`,
    `NonceIndex[{sender, nonce}] = t`. -/
def addTxn (p : TxnPool τ) (t : τ) : TxnPool τ where
  hashIndex := p.hashIndex.insert (K.tranID t) t
  gasIndex := gasInsert p.gasIndex (K.gasPriceQa t) (K.tranID t) t
  nonceIndex := p.nonceIndex.insert (K.nonceKey t) t

/-- `insert(t, status)`: whether `t` entered the pool, the status, and the new pool. A transaction
    of the same sender and nonce is displaced when `t` has a higher gas price, or the same price and
    a smaller `TranID`. -/
def insert (p : TxnPool τ) (t : τ) : Bool × MempoolInsertionStatus × TxnPool τ :=
  if p.exist (K.tranID t) then (false, (.mempoolAlreadyPresent, K.tranID t), p)
  else
    match p.nonceIndex.find (K.nonceKey t) with
    | some old =>
      if K.gasPriceQa old < K.gasPriceQa t ∨
          (K.gasPriceQa t = K.gasPriceQa old ∧ K.tranID t < K.tranID old) then
        -- `old` leaves `HashIndex` and its bucket; `t` overwrites its `NonceIndex` entry
        (true, (.mempoolSameNonceLowerGas, K.tranID old),
          { hashIndex := (p.hashIndex.erase (K.tranID old)).insert (K.tranID t) t
            gasIndex := gasInsert (gasErase p.gasIndex (K.gasPriceQa old) (K.tranID old))
              (K.gasPriceQa t) (K.tranID t) t
            nonceIndex := p.nonceIndex.insert (K.nonceKey t) t })
      else (false, (.mempoolSameNonceLowerGas, K.tranID t), p)
    | none => (true, (.notPresent, K.tranID t), p.addTxn K t)

/-- `findSameNonceButHigherGas(t)`: when the pool holds a transaction of `t`'s sender and nonce with
    a higher gas price, that transaction leaves the pool and takes the place of `t`. -/
def findSameNonceButHigherGas (p : TxnPool τ) (t : τ) : τ × TxnPool τ :=
  match p.nonceIndex.find (K.nonceKey t) with
  | some found =>
    if K.gasPriceQa t < K.gasPriceQa found then
      (found,
        { hashIndex := p.hashIndex.erase (K.tranID found)
          gasIndex := gasErase p.gasIndex (K.gasPriceQa found) (K.tranID found)
          nonceIndex := p.nonceIndex.erase (K.nonceKey t) })
    else (t, p)
  | none => (t, p)

/-- `findOne(t)`: take the first transaction (smallest `TranID`) of the first bucket (highest gas
    price) out of the pool. -/
def findOne (p : TxnPool τ) : Option τ × TxnPool τ :=
  if h : p.gasIndex.keys.Nonempty then
    let g := p.gasIndex.keys.max' h
    let bucket := p.gasIndex.get g (p.gasIndex.keys.max'_mem h)
    if hb : bucket.keys.Nonempty then
      let th := bucket.keys.min' hb
      let t := bucket.get th (bucket.keys.min'_mem hb)
      (some t,
        { hashIndex := p.hashIndex.erase (K.tranID t)
          gasIndex := gasErase p.gasIndex g th
          nonceIndex := p.nonceIndex.erase (K.nonceKey t) })
    else (none, p)
  else (none, p)

/-- The pool after one operation. -/
def step (p : TxnPool τ) : PoolOp τ → TxnPool τ
  | .insert t => (p.insert K t).2.2
  | .findOne => (p.findOne K).2
  | .findSameNonceButHigherGas t => (p.findSameNonceButHigherGas K t).2
  | .get _ => p
  | .exist _ => p
  | .clear => p.clear

/-- The pool after a list of operations. -/
def run (p : TxnPool τ) (ops : List (PoolOp τ)) : TxnPool τ := ops.foldl (step K) p

/-- The pool after inserting the transactions of `l`, in order, into an empty pool. -/
def insertAll (l : List τ) : TxnPool τ := run K empty (l.map .insert)

/-- The erasures that take `t` out of all three indexes. -/
def eraseTxn (p : TxnPool τ) (t : τ) : TxnPool τ where
  hashIndex := p.hashIndex.erase (K.tranID t)
  gasIndex := gasErase p.gasIndex (K.gasPriceQa t) (K.tranID t)
  nonceIndex := p.nonceIndex.erase (K.nonceKey t)

/-! ## Gas buckets -/

section Buckets

variable {K}

@[simp] theorem gasBucket_empty (g : ℕ) :
    gasBucket (FinStore.empty : FinStore ℕ (FinStore ℕ τ)) g = .empty := rfl

theorem gasBucket_of_find {gi : FinStore ℕ (FinStore ℕ τ)} {g : ℕ} {b : FinStore ℕ τ}
    (h : gi.find g = some b) : gasBucket gi g = b := by
  simp [gasBucket, h]

theorem gasBucket_gasInsert (gi : FinStore ℕ (FinStore ℕ τ)) (g th : ℕ) (t : τ) (g' : ℕ) :
    gasBucket (gasInsert gi g th t) g' =
      if g' = g then (gasBucket gi g).insert th t else gasBucket gi g' := by
  by_cases hg : g' = g
  · subst hg
    simp [gasBucket, gasInsert]
  · simp [gasBucket, gasInsert, hg]

theorem gasErase_of_find_none {gi : FinStore ℕ (FinStore ℕ τ)} {g : ℕ} (h : gi.find g = none)
    (th : ℕ) : gasErase gi g th = gi := by
  simp [gasErase, h]

theorem gasErase_of_find_some {gi : FinStore ℕ (FinStore ℕ τ)} {g : ℕ} {b : FinStore ℕ τ}
    (h : gi.find g = some b) (th : ℕ) :
    gasErase gi g th = if (b.erase th).keys = ∅ then gi.erase g else gi.insert g (b.erase th) := by
  simp [gasErase, h]

theorem gasBucket_gasErase (gi : FinStore ℕ (FinStore ℕ τ)) (g th g' : ℕ) :
    gasBucket (gasErase gi g th) g' =
      if g' = g then (gasBucket gi g).erase th else gasBucket gi g' := by
  cases hb : gi.find g with
  | none =>
    -- no bucket: erasing from the empty bucket leaves it empty
    rw [gasErase_of_find_none hb]
    split_ifs with hg
    · subst hg
      rw [show gasBucket gi g' = .empty by simp [gasBucket, hb]]
      exact FinStore.ext fun k => by simp [FinStore.find_erase]
    · rfl
  | some b =>
    rw [gasErase_of_find_some hb, gasBucket_of_find hb]
    by_cases hg : g' = g
    · subst hg
      rw [if_pos rfl]
      split_ifs with he
      · rw [FinStore.eq_empty_of_keys_eq_empty he]
        simp [gasBucket]
      · simp [gasBucket]
    · rw [if_neg hg]
      split_ifs <;> simp [gasBucket, hg]

/-- A bucket holding a transaction is a key of `GasIndex`. -/
theorem mem_keys_of_gasBucket {gi : FinStore ℕ (FinStore ℕ τ)} {g th : ℕ} {t : τ}
    (h : (gasBucket gi g).find th = some t) : g ∈ gi.keys := by
  rw [gi.mem_keys]
  cases hg : gi.find g with
  | none => simp [gasBucket, hg] at h
  | some b => rfl

/-- Each bucket of `GasIndex` holds transactions of its own gas price, under their own `TranID`. -/
def GasKeyed (K : TxnKeys τ) (gi : FinStore ℕ (FinStore ℕ τ)) : Prop :=
  ∀ g th t, (gasBucket gi g).find th = some t → K.gasPriceQa t = g ∧ K.tranID t = th

/-- No bucket of `GasIndex` is empty. -/
def BucketsNonempty (gi : FinStore ℕ (FinStore ℕ τ)) : Prop :=
  ∀ g b, gi.find g = some b → b.keys.Nonempty

theorem GasKeyed.gasInsert {gi : FinStore ℕ (FinStore ℕ τ)} (h : GasKeyed K gi) (t : τ) :
    GasKeyed K (gasInsert gi (K.gasPriceQa t) (K.tranID t) t) := by
  intro g th u hu
  rw [gasBucket_gasInsert] at hu
  split_ifs at hu with hg
  · rw [FinStore.find_insert] at hu
    split_ifs at hu with hth
    · obtain rfl := Option.some.inj hu
      exact ⟨hg.symm, hth.symm⟩
    · subst hg
      exact h _ th u hu
  · exact h g th u hu

theorem GasKeyed.gasErase {gi : FinStore ℕ (FinStore ℕ τ)} (h : GasKeyed K gi) (g th : ℕ) :
    GasKeyed K (gasErase gi g th) := by
  intro g' th' u hu
  rw [gasBucket_gasErase] at hu
  split_ifs at hu with hg
  · rw [FinStore.find_erase] at hu
    split_ifs at hu
    subst hg
    exact h _ th' u hu
  · exact h g' th' u hu

theorem BucketsNonempty.gasInsert {gi : FinStore ℕ (FinStore ℕ τ)} (h : BucketsNonempty gi)
    (g th : ℕ) (t : τ) : BucketsNonempty (gasInsert gi g th t) := by
  intro g' b hb
  rw [TxnPool.gasInsert, FinStore.find_insert] at hb
  split_ifs at hb
  · obtain rfl := Option.some.inj hb
    exact ⟨th, by simp [FinStore.mem_keys]⟩
  · exact h g' b hb

theorem BucketsNonempty.gasErase {gi : FinStore ℕ (FinStore ℕ τ)} (h : BucketsNonempty gi)
    (g th : ℕ) : BucketsNonempty (gasErase gi g th) := by
  intro g' b' hb'
  cases hb : gi.find g with
  | none =>
    rw [gasErase_of_find_none hb] at hb'
    exact h g' b' hb'
  | some b =>
    -- the erased bucket is kept only when something is left in it
    rw [gasErase_of_find_some hb] at hb'
    split_ifs at hb' with he
    · rw [FinStore.find_erase] at hb'
      split_ifs at hb'
      exact h g' b' hb'
    · rw [FinStore.find_insert] at hb'
      split_ifs at hb'
      · obtain rfl := Option.some.inj hb'
        exact Finset.nonempty_iff_ne_empty.2 he
      · exact h g' b' hb'

/-- With no empty bucket, `GasIndex` is its buckets with the empty ones left out. -/
theorem BucketsNonempty.find_eq {gi : FinStore ℕ (FinStore ℕ τ)} (h : BucketsNonempty gi)
    (g : ℕ) : gi.find g = if (gasBucket gi g).keys = ∅ then none else some (gasBucket gi g) := by
  cases hg : gi.find g with
  | none => simp [gasBucket, hg, FinStore.empty]
  | some b =>
    rw [gasBucket_of_find hg, if_neg (Finset.nonempty_iff_ne_empty.1 (h g b hg))]

end Buckets

/-! ## The representation invariant -/

/-- `t` is in `HashIndex`, under its `TranID`. -/
def InHash (p : TxnPool τ) (t : τ) : Prop := p.hashIndex.find (K.tranID t) = some t

/-- `t` is in the bucket of its gas price, under its `TranID`. -/
def InGas (p : TxnPool τ) (t : τ) : Prop :=
  (gasBucket p.gasIndex (K.gasPriceQa t)).find (K.tranID t) = some t

/-- `t` is in `NonceIndex`, under its sender and nonce. -/
def InNonce (p : TxnPool τ) (t : τ) : Prop := p.nonceIndex.find (K.nonceKey t) = some t

/-- The representation invariant of `TxnPool`. -/
structure WF (p : TxnPool τ) : Prop where
  hashKey : p.hashIndex.KeyedBy K.tranID
  gasKey : GasKeyed K p.gasIndex
  nonceKey : p.nonceIndex.KeyedBy K.nonceKey
  bucketNonempty : BucketsNonempty p.gasIndex
  gas : ∀ t, p.InHash K t ↔ p.InGas K t
  nonce : ∀ t, p.InHash K t ↔ p.InNonce K t

section Invariant

variable {K} {p : TxnPool τ}

theorem wf_empty : (empty : TxnPool τ).WF K where
  hashKey := FinStore.KeyedBy.empty _
  gasKey := fun g th t h => by simp [empty] at h
  nonceKey := FinStore.KeyedBy.empty _
  bucketNonempty := fun g b h => by simp [empty] at h
  gas := fun t => by simp [InHash, InGas, empty]
  nonce := fun t => by simp [InHash, InNonce, empty]

/-- No two stored transactions share a sender and nonce. -/
theorem WF.nonceKey_inj (hwf : p.WF K) {t u : τ} (ht : p.InHash K t) (hu : p.InHash K u)
    (h : K.nonceKey t = K.nonceKey u) : t = u := by
  have ht' : p.nonceIndex.find (K.nonceKey t) = some t := (hwf.nonce t).1 ht
  have hu' : p.nonceIndex.find (K.nonceKey u) = some u := (hwf.nonce u).1 hu
  rw [h, hu'] at ht'
  exact (Option.some.inj ht').symm

theorem WF.find_hash_iff (hwf : p.WF K) {th : ℕ} {t : τ} :
    p.hashIndex.find th = some t ↔ p.InHash K t ∧ K.tranID t = th :=
  hwf.hashKey.find_eq_some_iff

theorem WF.find_gasBucket_iff (hwf : p.WF K) {g th : ℕ} {t : τ} :
    (gasBucket p.gasIndex g).find th = some t ↔ p.InGas K t ∧ K.gasPriceQa t = g ∧ K.tranID t = th := by
  constructor
  · intro h
    obtain ⟨rfl, rfl⟩ := hwf.gasKey g th t h
    exact ⟨h, rfl, rfl⟩
  · rintro ⟨h, rfl, rfl⟩
    exact h

/-- A `TranID` absent from `HashIndex` is in no bucket. -/
theorem WF.gasBucket_find_eq_none (hwf : p.WF K) {t : τ} (h : p.hashIndex.find (K.tranID t) = none)
    (g : ℕ) : (gasBucket p.gasIndex g).find (K.tranID t) = none := by
  cases hb : (gasBucket p.gasIndex g).find (K.tranID t) with
  | none => rfl
  | some v =>
    obtain ⟨hv, -, hid⟩ := hwf.find_gasBucket_iff.1 hb
    have hhv : p.hashIndex.find (K.tranID v) = some v := (hwf.gas v).2 hv
    rw [hid, h] at hhv
    cases hhv

/-- A stored transaction's gas price is a key of `GasIndex`. -/
theorem WF.mem_gasIndex_keys (hwf : p.WF K) {t : τ} (ht : p.InHash K t) :
    K.gasPriceQa t ∈ p.gasIndex.keys :=
  mem_keys_of_gasBucket ((hwf.gas t).1 ht)

/-- `size` counts the stored transactions. -/
theorem WF.size_eq_ncard (hwf : p.WF K) : p.size = {t | p.InHash K t}.ncard := by
  rw [size, ← Set.ncard_coe_finset]
  symm
  apply Set.ncard_congr (fun t _ => K.tranID t)
  · intro t ht
    exact (p.hashIndex.mem_keys _).2 (by rw [show p.hashIndex.find (K.tranID t) = some t from ht]; rfl)
  · intro t u ht hu hid
    have hu' : p.hashIndex.find (K.tranID t) = some u := by
      rw [hid]
      exact hu
    exact Option.some.inj (ht.symm.trans hu')
  · intro th hth
    obtain ⟨t, ht⟩ := Option.isSome_iff_exists.1 ((p.hashIndex.mem_keys th).1 hth)
    exact ⟨t, (hwf.find_hash_iff.1 ht).1, hwf.hashKey th t ht⟩

/-- The pool is empty exactly when `GasIndex` is. -/
theorem WF.size_ne_zero_iff (hwf : p.WF K) : p.size ≠ 0 ↔ p.gasIndex.keys.Nonempty := by
  rw [size, Ne, Finset.card_eq_zero, ← Ne, ← Finset.nonempty_iff_ne_empty]
  constructor
  · rintro ⟨th, hth⟩
    obtain ⟨t, ht⟩ := Option.isSome_iff_exists.1 ((p.hashIndex.mem_keys th).1 hth)
    exact ⟨_, hwf.mem_gasIndex_keys (hwf.find_hash_iff.1 ht).1⟩
  · rintro ⟨g, hg⟩
    obtain ⟨th, hth⟩ := hwf.bucketNonempty g _ (p.gasIndex.find_eq_some_get hg)
    have hb : (gasBucket p.gasIndex g).find th = some (FinStore.get _ th hth) := by
      rw [gasBucket_of_find (p.gasIndex.find_eq_some_get hg)]
      exact FinStore.find_eq_some_get _ hth
    have ht : p.InHash K _ := (hwf.gas _).2 (hwf.find_gasBucket_iff.1 hb).1
    exact ⟨_, (p.hashIndex.mem_keys _).2 (by rw [show p.hashIndex.find _ = some _ from ht]; rfl)⟩

/-! ### Adding and erasing one transaction -/

theorem inHash_addTxn {t : τ} (hh : p.hashIndex.find (K.tranID t) = none) (u : τ) :
    (p.addTxn K t).InHash K u ↔ u = t ∨ p.InHash K u :=
  FinStore.find_key_insert_iff K.tranID _ hh u

theorem inNonce_addTxn {t : τ} (hn : p.nonceIndex.find (K.nonceKey t) = none) (u : τ) :
    (p.addTxn K t).InNonce K u ↔ u = t ∨ p.InNonce K u :=
  FinStore.find_key_insert_iff K.nonceKey _ hn u

theorem inGas_addTxn {t : τ} (hg : (gasBucket p.gasIndex (K.gasPriceQa t)).find (K.tranID t) = none)
    (u : τ) : (p.addTxn K t).InGas K u ↔ u = t ∨ p.InGas K u := by
  unfold InGas addTxn
  rw [gasBucket_gasInsert]
  by_cases hgu : K.gasPriceQa u = K.gasPriceQa t
  · rw [if_pos hgu, hgu, FinStore.find_key_insert_iff K.tranID _ hg]
  · rw [if_neg hgu]
    constructor
    · exact Or.inr
    · rintro (rfl | h)
      · exact absurd rfl hgu
      · exact h

/-- A fresh insertion keeps the invariant and adds exactly `t`. -/
theorem WF.addTxn (hwf : p.WF K) {t : τ} (hh : p.hashIndex.find (K.tranID t) = none)
    (hn : p.nonceIndex.find (K.nonceKey t) = none) : (p.addTxn K t).WF K where
  hashKey := hwf.hashKey.insert t
  gasKey := hwf.gasKey.gasInsert t
  nonceKey := hwf.nonceKey.insert t
  bucketNonempty := hwf.bucketNonempty.gasInsert _ _ t
  gas u := by
    rw [inHash_addTxn hh, inGas_addTxn (hwf.gasBucket_find_eq_none hh _), hwf.gas u]
  nonce u := by
    rw [inHash_addTxn hh, inNonce_addTxn hn, hwf.nonce u]

theorem inHash_eraseTxn {t : τ} (ht : p.InHash K t) (u : τ) :
    (p.eraseTxn K t).InHash K u ↔ p.InHash K u ∧ u ≠ t :=
  FinStore.find_key_erase_iff K.tranID _ ht u

theorem inNonce_eraseTxn {t : τ} (ht : p.InNonce K t) (u : τ) :
    (p.eraseTxn K t).InNonce K u ↔ p.InNonce K u ∧ u ≠ t :=
  FinStore.find_key_erase_iff K.nonceKey _ ht u

theorem inGas_eraseTxn {t : τ} (ht : p.InGas K t) (u : τ) :
    (p.eraseTxn K t).InGas K u ↔ p.InGas K u ∧ u ≠ t := by
  unfold InGas eraseTxn
  rw [gasBucket_gasErase]
  by_cases hgu : K.gasPriceQa u = K.gasPriceQa t
  · rw [if_pos hgu, hgu, FinStore.find_key_erase_iff K.tranID _ ht]
  · rw [if_neg hgu]
    constructor
    · intro h
      exact ⟨h, fun hut => hgu (by rw [hut])⟩
    · exact And.left

/-- Erasing a stored transaction keeps the invariant and removes exactly `t`. -/
theorem WF.eraseTxn (hwf : p.WF K) {t : τ} (ht : p.InHash K t) : (p.eraseTxn K t).WF K where
  hashKey := hwf.hashKey.erase _
  gasKey := hwf.gasKey.gasErase _ _
  nonceKey := hwf.nonceKey.erase _
  bucketNonempty := hwf.bucketNonempty.gasErase _ _
  gas u := by
    rw [inHash_eraseTxn ht, inGas_eraseTxn ((hwf.gas t).1 ht), hwf.gas u]
  nonce u := by
    rw [inHash_eraseTxn ht, inNonce_eraseTxn ((hwf.nonce t).1 ht), hwf.nonce u]

/-- A transaction found in `NonceIndex` is stored. -/
theorem WF.inHash_of_find_nonce (hwf : p.WF K) {k : ℕ × ℕ} {t : τ}
    (h : p.nonceIndex.find k = some t) : p.InHash K t := by
  have hk : K.nonceKey t = k := hwf.nonceKey k t h
  rw [hwf.nonce, InNonce, hk]
  exact h

end Invariant

/-! ## Each operation keeps the invariant -/

section Operations

variable {K} {p : TxnPool τ}

theorem insert_of_exist {t : τ} (h : p.exist (K.tranID t) = true) :
    p.insert K t = (false, (.mempoolAlreadyPresent, K.tranID t), p) := by
  simp [insert, h]

theorem insert_of_find_none {t : τ} (h : p.exist (K.tranID t) = false)
    (hn : p.nonceIndex.find (K.nonceKey t) = none) :
    p.insert K t = (true, (.notPresent, K.tranID t), p.addTxn K t) := by
  simp [insert, h, hn]

theorem insert_of_not_rank_lt {t old : τ} (h : p.exist (K.tranID t) = false)
    (hn : p.nonceIndex.find (K.nonceKey t) = some old) (hlt : ¬ K.rank old < K.rank t) :
    p.insert K t = (false, (.mempoolSameNonceLowerGas, K.tranID t), p) := by
  rw [K.rank_lt_rank_iff] at hlt
  simp only [insert, h, hn, Bool.false_eq_true, ↓reduceIte, hlt]

/-- A better transaction displaces the stored one of its sender and nonce: the pool loses `old`
    and gains `t`. -/
theorem insert_of_rank_lt (hwf : p.WF K) {t old : τ} (h : p.exist (K.tranID t) = false)
    (hn : p.nonceIndex.find (K.nonceKey t) = some old) (hlt : K.rank old < K.rank t) :
    p.insert K t =
      (true, (.mempoolSameNonceLowerGas, K.tranID old), (p.eraseTxn K old).addTxn K t) := by
  have hkey : K.nonceKey old = K.nonceKey t := hwf.nonceKey _ _ hn
  rw [K.rank_lt_rank_iff] at hlt
  simp only [insert, h, hn, Bool.false_eq_true, ↓reduceIte, hlt, addTxn, eraseTxn, hkey,
    FinStore.insert_erase_self]

theorem WF.insert (hwf : p.WF K) (t : τ) : (p.insert K t).2.2.WF K := by
  cases he : p.exist (K.tranID t)
  · have hh : p.hashIndex.find (K.tranID t) = none := by
      simpa [exist] using he
    cases hn : p.nonceIndex.find (K.nonceKey t) with
    | none =>
      rw [insert_of_find_none he hn]
      exact hwf.addTxn hh hn
    | some old =>
      by_cases hlt : K.rank old < K.rank t
      · -- `old` leaves first; then the key of `t` is free in both indexes
        have hkey : K.nonceKey old = K.nonceKey t := hwf.nonceKey _ _ hn
        have hh' : (p.eraseTxn K old).hashIndex.find (K.tranID t) = none := by
          show (p.hashIndex.erase (K.tranID old)).find (K.tranID t) = none
          rw [FinStore.find_erase]
          split_ifs
          · rfl
          · exact hh
        have hn' : (p.eraseTxn K old).nonceIndex.find (K.nonceKey t) = none := by
          show (p.nonceIndex.erase (K.nonceKey old)).find (K.nonceKey t) = none
          rw [hkey, FinStore.find_erase_self]
        rw [insert_of_rank_lt hwf he hn hlt]
        exact (hwf.eraseTxn (hwf.inHash_of_find_nonce hn)).addTxn hh' hn'
      · rw [insert_of_not_rank_lt he hn hlt]
        exact hwf
  · rw [insert_of_exist he]
    exact hwf

theorem findSameNonceButHigherGas_of_lt (hwf : p.WF K) {t found : τ}
    (hn : p.nonceIndex.find (K.nonceKey t) = some found)
    (hlt : K.gasPriceQa t < K.gasPriceQa found) :
    p.findSameNonceButHigherGas K t = (found, p.eraseTxn K found) := by
  have hkey : K.nonceKey found = K.nonceKey t := hwf.nonceKey _ _ hn
  simp only [findSameNonceButHigherGas, hn, hlt, ↓reduceIte, eraseTxn, hkey]

theorem findSameNonceButHigherGas_of_not_lt {t found : τ}
    (hn : p.nonceIndex.find (K.nonceKey t) = some found)
    (hlt : ¬ K.gasPriceQa t < K.gasPriceQa found) : p.findSameNonceButHigherGas K t = (t, p) := by
  simp only [findSameNonceButHigherGas, hn, hlt, ↓reduceIte]

theorem findSameNonceButHigherGas_of_find_none {t : τ}
    (hn : p.nonceIndex.find (K.nonceKey t) = none) : p.findSameNonceButHigherGas K t = (t, p) := by
  simp only [findSameNonceButHigherGas, hn]

theorem WF.findSameNonceButHigherGas (hwf : p.WF K) (t : τ) :
    (p.findSameNonceButHigherGas K t).2.WF K := by
  cases hn : p.nonceIndex.find (K.nonceKey t) with
  | none =>
    rw [findSameNonceButHigherGas_of_find_none hn]
    exact hwf
  | some found =>
    by_cases hlt : K.gasPriceQa t < K.gasPriceQa found
    · rw [findSameNonceButHigherGas_of_lt hwf hn hlt]
      exact hwf.eraseTxn (hwf.inHash_of_find_nonce hn)
    · rw [findSameNonceButHigherGas_of_not_lt hn hlt]
      exact hwf

theorem findOne_of_not_nonempty (h : ¬ p.gasIndex.keys.Nonempty) : p.findOne K = (none, p) := by
  simp [findOne, h]

/-- On a well-formed pool with a gas bucket, `findOne` takes out a stored transaction whose gas
    price is the highest key of `GasIndex`. -/
theorem WF.findOne_eq (hwf : p.WF K) (h : p.gasIndex.keys.Nonempty) :
    ∃ t, p.findOne K = (some t, p.eraseTxn K t) ∧ p.InHash K t ∧
      K.gasPriceQa t = p.gasIndex.keys.max' h := by
  set g := p.gasIndex.keys.max' h
  set bucket := p.gasIndex.get g (p.gasIndex.keys.max'_mem h)
  have hg : p.gasIndex.find g = some bucket := p.gasIndex.find_eq_some_get _
  have hb : bucket.keys.Nonempty := hwf.bucketNonempty _ _ hg
  set th := bucket.keys.min' hb
  set t := bucket.get th (bucket.keys.min'_mem hb)
  have hbt : (gasBucket p.gasIndex g).find th = some t := by
    rw [gasBucket_of_find hg]
    exact FinStore.find_eq_some_get _ _
  obtain ⟨hgt, hid⟩ := hwf.gasKey _ _ _ hbt
  refine ⟨t, ?_, (hwf.gas t).2 ?_, hgt⟩
  · unfold findOne
    rw [dif_pos h, dif_pos hb]
    show (some t,
        { hashIndex := p.hashIndex.erase (K.tranID t)
          gasIndex := gasErase p.gasIndex g th
          nonceIndex := p.nonceIndex.erase (K.nonceKey t) }) = (some t, p.eraseTxn K t)
    rw [TxnPool.eraseTxn, hgt, hid]
  · rw [InGas, hgt, hid]
    exact hbt

theorem WF.findOne (hwf : p.WF K) : (p.findOne K).2.WF K := by
  by_cases h : p.gasIndex.keys.Nonempty
  · obtain ⟨t, he, ht, -⟩ := hwf.findOne_eq h
    rw [he]
    exact hwf.eraseTxn ht
  · rw [findOne_of_not_nonempty h]
    exact hwf

/-- `findOne` returns a stored transaction of the highest gas price. -/
theorem WF.findOne_max (hwf : p.WF K) {t : τ} (h : (p.findOne K).1 = some t) :
    p.InHash K t ∧ ∀ u, p.InHash K u → K.gasPriceQa u ≤ K.gasPriceQa t := by
  by_cases hne : p.gasIndex.keys.Nonempty
  · obtain ⟨t', he, ht', hg⟩ := hwf.findOne_eq hne
    rw [he] at h
    obtain rfl := Option.some.inj h
    refine ⟨ht', fun u hu => ?_⟩
    rw [hg]
    exact Finset.le_max' _ _ (hwf.mem_gasIndex_keys hu)
  · rw [findOne_of_not_nonempty hne] at h
    cases h

/-- `findOne` returns a transaction exactly when the pool is not empty. -/
theorem WF.findOne_isSome_iff (hwf : p.WF K) : (p.findOne K).1.isSome ↔ p.size ≠ 0 := by
  rw [hwf.size_ne_zero_iff]
  by_cases hne : p.gasIndex.keys.Nonempty
  · obtain ⟨t, he, -, -⟩ := hwf.findOne_eq hne
    simp [he, hne]
  · simp [findOne_of_not_nonempty hne, hne]

/-! ### How many transactions an operation takes out -/

/-- Erasing a stored transaction leaves one fewer. -/
theorem size_eraseTxn {t : τ} (ht : p.InHash K t) : (p.eraseTxn K t).size + 1 = p.size := by
  have hk : K.tranID t ∈ p.hashIndex.keys := (p.hashIndex.mem_keys _).2 (by rw [ht]; rfl)
  exact Finset.card_erase_add_one hk

/-- When `findOne` returns a transaction, the pool it leaves has one fewer. -/
theorem WF.size_findOne (hwf : p.WF K) {t : τ} {p' : TxnPool τ}
    (h : p.findOne K = (some t, p')) : p'.size + 1 = p.size := by
  by_cases hne : p.gasIndex.keys.Nonempty
  · obtain ⟨t', he, ht', -⟩ := hwf.findOne_eq hne
    rw [he, Prod.mk.injEq, Option.some.injEq] at h
    obtain ⟨rfl, rfl⟩ := h
    exact size_eraseTxn ht'
  · rw [findOne_of_not_nonempty hne] at h
    cases h

/-- `findSameNonceButHigherGas` takes out at most the transaction it returns. -/
theorem WF.size_findSameNonceButHigherGas_le (hwf : p.WF K) (t : τ) :
    (p.findSameNonceButHigherGas K t).2.size ≤ p.size := by
  cases hn : p.nonceIndex.find (K.nonceKey t) with
  | none =>
    rw [findSameNonceButHigherGas_of_find_none hn]
  | some found =>
    by_cases hlt : K.gasPriceQa t < K.gasPriceQa found
    · rw [findSameNonceButHigherGas_of_lt hwf hn hlt]
      have hsize := size_eraseTxn (hwf.inHash_of_find_nonce hn)
      show (p.eraseTxn K found).size ≤ p.size
      omega
    · rw [findSameNonceButHigherGas_of_not_lt hn hlt]

/-- The step lemma: every operation keeps the invariant. -/
theorem WF.step (hwf : p.WF K) : ∀ op, (p.step K op).WF K
  | .insert t => hwf.insert t
  | .findOne => hwf.findOne
  | .findSameNonceButHigherGas t => hwf.findSameNonceButHigherGas t
  | .get _ => hwf
  | .exist _ => hwf
  | .clear => wf_empty

/-- The run lemma: every run of operations keeps the invariant. -/
theorem WF.run (hwf : p.WF K) (ops : List (PoolOp τ)) : (p.run K ops).WF K := by
  induction ops generalizing p with
  | nil => exact hwf
  | cons op ops ih => exact ih (hwf.step op)

end Operations

/-- Every run of pool operations from an empty pool keeps the representation invariant; then no
    two stored transactions share a sender and nonce, `findOne` returns a stored transaction of the
    highest gas price whenever the pool is not empty, and `size` counts the stored transactions. -/
theorem run_keeps_invariant (ops : List (PoolOp τ)) :
    let p := run K empty ops
    p.WF K ∧ (∀ t u, p.InHash K t → p.InHash K u → K.nonceKey t = K.nonceKey u → t = u) ∧
      (∀ t, (p.findOne K).1 = some t →
        p.InHash K t ∧ ∀ u, p.InHash K u → K.gasPriceQa u ≤ K.gasPriceQa t) ∧
      ((p.findOne K).1.isSome ↔ p.size ≠ 0) ∧ p.size = {t | p.InHash K t}.ncard := by
  intro p
  have hwf : p.WF K := wf_empty.run ops
  exact ⟨hwf, fun _ _ => hwf.nonceKey_inj, fun _ => hwf.findOne_max, hwf.findOne_isSome_iff,
    hwf.size_eq_ncard⟩

/-! ## The pool as its `NonceIndex` -/

section Abstract

variable {K} {p : TxnPool τ}

/-- A well-formed pool is determined by its `NonceIndex`: the other two indexes hold the same
    transactions, under keys computed from them. -/
theorem WF.ext {q : TxnPool τ} (hp : p.WF K) (hq : q.WF K) (h : p.nonceIndex = q.nonceIndex) :
    p = q := by
  have hmem : ∀ t, p.InHash K t ↔ q.InHash K t := by
    intro t
    rw [hp.nonce, hq.nonce, InNonce, InNonce, h]
  have hbucket : ∀ g, gasBucket p.gasIndex g = gasBucket q.gasIndex g := by
    intro g
    apply FinStore.ext
    intro th
    apply Option.ext
    intro t
    rw [hp.find_gasBucket_iff, hq.find_gasBucket_iff, ← hp.gas, ← hq.gas, hmem]
  apply TxnPool.ext
  · apply FinStore.ext
    intro th
    apply Option.ext
    intro t
    rw [hp.find_hash_iff, hq.find_hash_iff, hmem]
  · apply FinStore.ext
    intro g
    rw [hp.bucketNonempty.find_eq, hq.bucketNonempty.find_eq, hbucket]
  · exact h

/-- Inserting a transaction of a new `TranID` offers it to its `NonceIndex` slot. -/
theorem insert_nonceIndex {t : τ} (h : p.exist (K.tranID t) = false) :
    (p.insert K t).2.2.nonceIndex = p.nonceIndex.offer K.nonceKey K.rank t := by
  cases hn : p.nonceIndex.find (K.nonceKey t) with
  | none =>
    rw [insert_of_find_none h hn, FinStore.offer_of_find_none hn]
    rfl
  | some old =>
    by_cases hlt : K.rank old < K.rank t
    · rw [FinStore.offer_of_lt hn hlt]
      simp only [insert, h, hn, Bool.false_eq_true, ↓reduceIte, (K.rank_lt_rank_iff t old).1 hlt]
    · rw [insert_of_not_rank_lt h hn hlt, FinStore.offer_of_not_lt hn hlt]

end Abstract

theorem insertAll_append_singleton (l : List τ) (t : τ) :
    insertAll K (l ++ [t]) = ((insertAll K l).insert K t).2.2 := by
  simp [insertAll, run, step]

/-- Inserting transactions of distinct `TranID`s one by one, `exist` never fires: the pool stays
    well-formed and its `NonceIndex` is the store of best offers. -/
theorem insertAll_wf {l : List τ} (hid : (l.map K.tranID).Nodup) :
    (insertAll K l).WF K ∧
      (insertAll K l).nonceIndex = FinStore.offerAll K.nonceKey K.rank .empty l := by
  induction l using List.reverseRecOn with
  | nil => exact ⟨wf_empty, rfl⟩
  | append_singleton l t ih =>
    rw [List.map_append, List.nodup_append] at hid
    obtain ⟨hwf, hnonce⟩ := ih hid.1
    -- a stored transaction was offered earlier, so its `TranID` differs from that of `t`
    have hfresh : (insertAll K l).exist (K.tranID t) = false := by
      cases hv : (insertAll K l).hashIndex.find (K.tranID t) with
      | none => simp [exist, hv]
      | some v =>
        obtain ⟨hv, hidv⟩ := hwf.find_hash_iff.1 hv
        have hn : (FinStore.offerAll K.nonceKey K.rank .empty l).find (K.nonceKey v) = some v := by
          rw [← hnonce]
          exact (hwf.nonce v).1 hv
        have hvl : v ∈ l := ((FinStore.find_offerAll_iff (K.rank_injOn hid.1) _ v).1 hn).1
        exact (hid.2.2 _ (List.mem_map_of_mem hvl) _
          (List.mem_map_of_mem (List.mem_singleton_self t)) hidv).elim
    rw [insertAll_append_singleton, FinStore.offerAll_append_singleton, insert_nonceIndex hfresh,
      hnonce]
    exact ⟨hwf.insert t, rfl⟩

/-- Transactions of distinct `TranID`s give the same pool in any insertion order, and each
    (sender, nonce) slot keeps the transaction of highest gas price, ties going to the smallest
    `TranID`. -/
theorem insertAll_eq_of_perm {l₁ l₂ : List τ} (hp : l₁.Perm l₂) (hid : (l₁.map K.tranID).Nodup) :
    insertAll K l₁ = insertAll K l₂ ∧
      ∀ c u, (insertAll K l₁).nonceIndex.find c = some u ↔
        FinStore.IsBest K.nonceKey K.rank l₁ c u := by
  have hid₂ : (l₂.map K.tranID).Nodup := ((hp.map K.tranID).nodup_iff).1 hid
  obtain ⟨hwf₁, hn₁⟩ := insertAll_wf K hid
  obtain ⟨hwf₂, hn₂⟩ := insertAll_wf K hid₂
  refine ⟨hwf₁.ext hwf₂ ?_, fun c u => ?_⟩
  · rw [hn₁, hn₂, FinStore.offerAll_perm hp (K.rank_injOn hid)]
  · rw [hn₁, FinStore.find_offerAll_iff (K.rank_injOn hid)]

/-- Two bids of one sender and nonce, at gas prices 2000 and 3000 Qa. -/
def lowBid : SignedTxn := ⟨8, 1, ⟨false, 1, ⟨1⟩, ⟨2⟩, 5, 2000, 50, [], []⟩, 1⟩

/-- See `lowBid`. -/
def highBid : SignedTxn := ⟨9, 1, ⟨false, 1, ⟨1⟩, ⟨2⟩, 5, 3000, 50, [], []⟩, 2⟩

theorem insertAll_eq_of_perm_bids :
    [lowBid, highBid].Perm [highBid, lowBid] ∧
      ([lowBid, highBid].map SignedTxn.keys.tranID).Nodup ∧
      (insertAll SignedTxn.keys [lowBid, highBid] = insertAll SignedTxn.keys [highBid, lowBid] ∧
        ∀ c u, (insertAll SignedTxn.keys [lowBid, highBid]).nonceIndex.find c = some u ↔
          FinStore.IsBest SignedTxn.keys.nonceKey SignedTxn.keys.rank [lowBid, highBid] c u) :=
  ⟨List.Perm.swap _ _ _, by decide,
    insertAll_eq_of_perm SignedTxn.keys (List.Perm.swap _ _ _) (by decide)⟩

/-- The core fields of a transfer. -/
def transferCore : Transaction := ⟨false, 1, ⟨1⟩, ⟨2⟩, 5, 2000, 50, [], []⟩

/-- `transferCore` signed once. A Zilliqa transaction's `TranID` is the SHA-256 of its core fields
    (`SetHash` over `SerializeCoreFields`), so a second signature of the same fields carries the
    same `TranID`; the two are different `Transaction`s, whose `operator==` compares `m_signature`
    too. -/
def transferSignedOnce : SignedTxn := ⟨7, 1, transferCore, 1⟩

/-- `transferCore` under another signature. -/
def transferSignedTwice : SignedTxn := ⟨7, 1, transferCore, 2⟩

/-- The pool keeps whichever signature of a transaction arrived first. -/
theorem insert_order_picks_signature :
    (insertAll SignedTxn.keys [transferSignedOnce, transferSignedTwice]).get 7 =
        some transferSignedOnce ∧
      (insertAll SignedTxn.keys [transferSignedTwice, transferSignedOnce]).get 7 =
        some transferSignedTwice := by
  decide

end TxnPool

end Zilliqa
