import Zilliqa.Lib.OrderedMap
import Zilliqa.Data.AccountStoreBase

/-!
# `DirectoryService.Coinbase` — the coinbase rewards of a DS epoch

At the end of a DS epoch `DirectoryService::InitCoinbase` pays the epoch's rewards out of the
coinbase address (`Address()`). `GetRewardInformation` splits `coinbase_reward_per_ds` into a base
share for the DS committee, a node share for the signatures recorded in `m_coinbaseRewardees`
(epoch → shard id → one public key per signature), and a lookup share for the lookups, each
`total * percent / (100 * percent_prec)`, and divides each by its count. The base share goes to every
DS member that is not a guard, the node share to every recorded signature, the lookup share to every
recorded lookup, each scaled by a per-mille multiplier, and what the unscaled shares leave of the
total, `balance_left`, goes to one lucky-draw winner. Every payment is
`AccountStore::UpdateCoinbaseTemp`, a `TransferBalance` out of the coinbase address.

When the three percentages take at most the whole and the multipliers scale by at most one, every
payment is at most the share the remainder subtracts for it, each count of payments is at most the
count its share was divided by, and the shares floor to at most the total; so the remainder does not
wrap and the payments sum to at most `coinbase_reward_per_ds` (`initCoinbase_pays_within_reward`).
That argument needs the divisor `100 * percent_prec` to be the mathematical product, and the code
computes it in unchecked `uint128_t`: a `percent_prec` of `⌈2 ^ 128 / 100⌉` makes it `44`, the node
share twice the total, and the payments exceed the reward (`initCoinbase_overpays_when_divisor_wraps`).

## Contents
- `RewardControlContractState`, `RewardInformation`, `DiagnosticDataCoinbase`, the rewardee map
  `CoinbaseRewardees`, and `pushRewardee` and `saveCoinbaseCore`, which fill it; what they add to
  the counts (`total_pushRewardee`, `sigEntries_saveCoinbaseCore`).
- `getRewardInformation`, with `percentOf` for its three shares; the states `FromAccount` accepts
  (`RewardControlContractState.Fits`) and the precisions for which `100 * percent_prec` wraps to a
  zero divisor (`percentDivisor_eq_zero_iff`).
- The reward loops of `initCoinbase` over a `CoinbaseRun`: `rewardBase` for the DS committee,
  `rewardSig` and `rewardLookup` for the recorded rewardees, `luckyDraw`, and `payRewards`, which
  runs them from the desharded shares on.
- `Spends`, what a stretch of the cosig loop may pay for what it counts, with its step and loop lemmas.
- The budget: `getRewardInformation_budget`, `balanceLeft_eq` and `initCoinbase_pays_within_reward`.
- The coinbase's balance falls by exactly what is recorded as paid (`payRewards_conserves`,
  `initCoinbase_conserves`), so the bound is a bound on what leaves the coinbase account.
-/

namespace Zilliqa

/-! ## The data -/

namespace CoinbaseReward

/-- `FINALBLOCK_REWARD`: the shard id under which the DS committee's signatures are recorded. -/
def finalblockReward : ℤ := -1

/-- `LOOKUP_REWARD`: the shard id under which the lookups are recorded. -/
def lookupReward : ℤ := -2

end CoinbaseReward

/-- `RewardControlContractState`: the reward parameters, all `uint128_t`, read from the reward
    control contract or the constants. -/
structure RewardControlContractState where
  coinbaseRewardPerDs : ℕ
  baseRewardInPercent : ℕ
  lookupRewardInPercent : ℕ
  percentPrec : ℕ
  rewardEachMulInMillis : ℕ
  baseRewardMulInMillis : ℕ
  nodeRewardInPercent : ℕ
deriving DecidableEq, Repr

/-- `RewardInformation`: the shares `GetRewardInformation` derives, and the counts it divided by. -/
structure RewardInformation where
  baseReward : ℕ
  baseEachReward : ℕ
  eachReward : ℕ
  lookupReward : ℕ
  lookupEachReward : ℕ
  lookupCount : ℕ
  totalReward : ℕ
  sigCount : ℕ
  nodeCount : ℕ
  nodeReward : ℕ
  baseRewardMulInMillis : ℕ
  rewardEachMulInMillis : ℕ
deriving DecidableEq, Repr

/-- `DiagnosticDataCoinbase`, the record `InitCoinbase` stores once the loops have run. -/
structure DiagnosticDataCoinbase where
  nodeCount : ℕ
  sigCount : ℕ
  lookupCount : ℕ
  totalReward : ℕ
  baseReward : ℕ
  baseRewardEach : ℕ
  lookupReward : ℕ
  rewardEachLookup : ℕ
  nodeReward : ℕ
  rewardEach : ℕ
  balanceLeft : ℕ
  luckyDrawWinnerAddr : Address
deriving DecidableEq, Repr

/-- `m_coinbaseRewardees`: epoch → shard id → the public keys to reward, one per signature. -/
abbrev CoinbaseRewardees (PubKey : Type) := OrderedMap ℕ (OrderedMap ℤ (List PubKey))

/-- `Address()`, the coinbase address the rewards are paid from. -/
def coinbaseAddress : Address := Address.null

/-- What `InitCoinbase` reads of the node's configuration: `GUARD_MODE`, the DS guard list, how an
    address derives from a public key, and `NUM_FINAL_BLOCK_PER_POW`. -/
structure CoinbaseConfig (PubKey : Type) where
  guardMode : Bool
  isNodeInDSGuardList : PubKey → Bool
  getAddressFromPublicKey : PubKey → Address
  numFinalBlockPerPow : ℕ

/-- What one call of `InitCoinbase` reads of the mediator: the DS committee's and the lookups' keys,
    the last DS block's number, the current epoch, the 16 bits `charArrTo16Bits` takes of the last
    Tx block's hash, the reward parameters `GetCurrentRewards` returns, and `m_totalTxnFees`. -/
structure CoinbaseInputs (PubKey : Type) where
  dsCommittee : List PubKey
  lookupNodes : List PubKey
  dsBlockNum : ℕ
  currentEpochNum : ℕ
  lastBlockHash : ℕ
  rewardState : RewardControlContractState
  totalTxnFees : ℕ

variable {PubKey : Type}

/-- `m_coinbaseRewardees[epochNum][shardId].push_back(pubKey)`. -/
def pushRewardee (rewardees : CoinbaseRewardees PubKey) (epochNum : ℕ) (shardId : ℤ)
    (pubKey : PubKey) : CoinbaseRewardees PubKey :=
  rewardees.alter epochNum fun shards =>
    (shards.getD .empty).alter shardId fun keys => keys.getD [] ++ [pubKey]

/-- `SaveCoinbaseCore` on the rewardees: `false` when the shard's signers of the epoch are already
    recorded; otherwise the `i`-th member of the shard is recorded once for a set `b1[i]` and once
    more for a set `b2[i]`. -/
def saveCoinbaseCore (b1 b2 : List Bool) (shard : List PubKey) (shardId : ℤ) (epochNum : ℕ)
    (rewardees : CoinbaseRewardees PubKey) : Bool × CoinbaseRewardees PubKey :=
  if ((rewardees.find epochNum).bind (·.find shardId)).isSome then (false, rewardees)
  else
    (true, shard.zipIdx.foldl (fun rw (pubKey, i) =>
      let rw := if b1.getD i false then pushRewardee rw epochNum shardId pubKey else rw
      if b2.getD i false then pushRewardee rw epochNum shardId pubKey else rw) rewardees)

/-- The start of `InitCoinbase`: erase the epochs before the DS epoch's first Tx epoch, then record
    the current epoch's lookups. -/
def prepareRewardees (cfg : CoinbaseConfig PubKey) (inp : CoinbaseInputs PubKey)
    (rewardees : CoinbaseRewardees PubKey) : CoinbaseRewardees PubKey :=
  let firstTxEpoch := (inp.dsBlockNum - 1) * cfg.numFinalBlockPerPow % 2 ^ 64
  let kept := rewardees.filter fun epochNum => !decide (epochNum < firstTxEpoch)
  inp.lookupNodes.foldl
    (fun rw pk => pushRewardee rw inp.currentEpochNum CoinbaseReward.lookupReward pk) kept

/-! ## `GetRewardInformation` -/

/-- One shard of the counting loop of `GetRewardInformation`: lookups go to the `uint32_t`
    `lookup_count`, every other shard to the `uint128_t` `sig_count`. -/
def countShard (counts : ℕ × ℕ) (shard : ℤ × List PubKey) : ℕ × ℕ :=
  if shard.1 = CoinbaseReward.lookupReward then (counts.1, (counts.2 + shard.2.length) % 2 ^ 32)
  else ((counts.1 + shard.2.length) % 2 ^ 128, counts.2)

/-- `(sig_count, lookup_count)` over every epoch and shard of the rewardees. -/
def countRewardees (rewardees : CoinbaseRewardees PubKey) : ℕ × ℕ :=
  rewardees.entries.foldl (fun counts epoch => epoch.2.entries.foldl countShard counts) (0, 0)

/-- One share of the total: a checked `total * percent`, then `/= 100 * percent_prec`, whose
    `uint128_t` product is not checked; a zero divisor throws, which ends `InitCoinbase` before it
    pays anyone. -/
def percentOf (total percent percentPrec : ℕ) : Option ℕ := do
  let product ← SafeMath.mul 128 total percent
  let divisor := 100 * percentPrec % 2 ^ 128
  if divisor = 0 then none else some (product / divisor)

/-- **`DirectoryService::GetRewardInformation`**, for a DS committee of `nodeCount` members. -/
def getRewardInformation (rewardees : CoinbaseRewardees PubKey) (nodeCount : ℕ)
    (ps : RewardControlContractState) : Option RewardInformation := do
  let counts := countRewardees rewardees
  let totalReward := ps.coinbaseRewardPerDs
  let baseReward ← percentOf totalReward ps.baseRewardInPercent ps.percentPrec
  let baseRewardEach ← SafeMath.div baseReward nodeCount
  let lookupReward ← percentOf totalReward ps.lookupRewardInPercent ps.percentPrec
  let nodeReward ← percentOf totalReward ps.nodeRewardInPercent ps.percentPrec
  let rewardEach ← SafeMath.div nodeReward counts.1
  let rewardEachLookup ← SafeMath.div lookupReward counts.2
  pure { baseReward, baseEachReward := baseRewardEach, eachReward := rewardEach, lookupReward,
         lookupEachReward := rewardEachLookup, lookupCount := counts.2, totalReward,
         sigCount := counts.1, nodeCount, nodeReward,
         baseRewardMulInMillis := ps.baseRewardMulInMillis,
         rewardEachMulInMillis := ps.rewardEachMulInMillis }

/-! ## The counts -/

/-- What one shard entry adds to `sig_count`. -/
def shardSigs (shardId : ℤ) (keys : List PubKey) : ℕ :=
  if shardId = CoinbaseReward.lookupReward then 0 else keys.length

/-- What one shard entry adds to `lookup_count`. -/
def shardLookups (shardId : ℤ) (keys : List PubKey) : ℕ :=
  if shardId = CoinbaseReward.lookupReward then keys.length else 0

/-- The recorded signatures, counted without wrapping. -/
def sigEntries (rewardees : CoinbaseRewardees PubKey) : ℕ :=
  rewardees.total fun _ shards => shards.total shardSigs

/-- The recorded lookups, counted without wrapping. -/
def lookupEntries (rewardees : CoinbaseRewardees PubKey) : ℕ :=
  rewardees.total fun _ shards => shards.total shardLookups

theorem foldl_countShard :
    ∀ (shards : List (ℤ × List PubKey)) (a b : ℕ),
      shards.foldl countShard (a % 2 ^ 128, b % 2 ^ 32) =
        ((a + (shards.map fun s => shardSigs s.1 s.2).sum) % 2 ^ 128,
          (b + (shards.map fun s => shardLookups s.1 s.2).sum) % 2 ^ 32)
  | [], a, b => by simp
  | (s, keys) :: rest, a, b => by
    rw [List.foldl_cons]
    by_cases hs : s = CoinbaseReward.lookupReward
    · have hstep : countShard (a % 2 ^ 128, b % 2 ^ 32) (s, keys) =
          (a % 2 ^ 128, (b + keys.length) % 2 ^ 32) := by
        simp [countShard, hs, Nat.mod_add_mod]
      rw [hstep, foldl_countShard rest a (b + keys.length)]
      simp [shardSigs, shardLookups, hs, Nat.add_assoc]
    · have hstep : countShard (a % 2 ^ 128, b % 2 ^ 32) (s, keys) =
          ((a + keys.length) % 2 ^ 128, b % 2 ^ 32) := by
        simp [countShard, hs, Nat.mod_add_mod]
      rw [hstep, foldl_countShard rest (a + keys.length) b]
      simp [shardSigs, shardLookups, hs, Nat.add_assoc]

theorem foldl_countEpoch :
    ∀ (epochs : List (ℕ × OrderedMap ℤ (List PubKey))) (a b : ℕ),
      epochs.foldl (fun counts epoch => epoch.2.entries.foldl countShard counts)
          (a % 2 ^ 128, b % 2 ^ 32) =
        ((a + (epochs.map fun e => e.2.total shardSigs).sum) % 2 ^ 128,
          (b + (epochs.map fun e => e.2.total shardLookups).sum) % 2 ^ 32)
  | [], a, b => by simp
  | (e, shards) :: rest, a, b => by
    rw [List.foldl_cons, foldl_countShard, foldl_countEpoch rest]
    simp [OrderedMap.total, Nat.add_assoc]

/-- **The counts of `GetRewardInformation`** are the recorded signatures modulo `2 ^ 128` and the
    recorded lookups modulo `2 ^ 32`. -/
theorem countRewardees_eq (rewardees : CoinbaseRewardees PubKey) :
    countRewardees rewardees = (sigEntries rewardees % 2 ^ 128, lookupEntries rewardees % 2 ^ 32) := by
  have h := foldl_countEpoch rewardees.entries 0 0
  simp only [Nat.zero_mod, Nat.zero_add] at h
  exact h

/-- Reading an optional value's weight as the weight of its default, when the default weighs
    nothing. -/
theorem getD_map_eq_of_zero {α : Type} (o : Option α) (g : α → ℕ) (d : α) (hd : g d = 0) :
    (o.map g).getD 0 = g (o.getD d) := by
  cases o <;> simp [hd]

theorem shardSigs_append (shardId : ℤ) (keys keys' : List PubKey) :
    shardSigs shardId (keys ++ keys') = shardSigs shardId keys + shardSigs shardId keys' := by
  unfold shardSigs
  split_ifs <;> simp

theorem shardLookups_append (shardId : ℤ) (keys keys' : List PubKey) :
    shardLookups shardId (keys ++ keys') = shardLookups shardId keys + shardLookups shardId keys' := by
  unfold shardLookups
  split_ifs <;> simp

/-- **Recording one key adds its weight**, for a weight of a shard's keys that adds over appends. -/
theorem total_pushRewardee (w : ℤ → List PubKey → ℕ) (hnil : ∀ shardId, w shardId [] = 0)
    (happ : ∀ shardId keys keys', w shardId (keys ++ keys') = w shardId keys + w shardId keys')
    (rewardees : CoinbaseRewardees PubKey) (epochNum : ℕ) (shardId : ℤ) (pubKey : PubKey) :
    (pushRewardee rewardees epochNum shardId pubKey).total (fun _ shards => shards.total w) =
      rewardees.total (fun _ shards => shards.total w) + w shardId [pubKey] := by
  -- the update of the epoch's shards, and inside it the update of the shard's keys
  have houter := OrderedMap.total_alter (fun _ shards => shards.total w) rewardees epochNum
    fun shards => (shards.getD .empty).alter shardId fun keys => keys.getD [] ++ [pubKey]
  have hinner := OrderedMap.total_alter w ((rewardees.find epochNum).getD OrderedMap.empty) shardId
    fun keys => keys.getD [] ++ [pubKey]
  rw [getD_map_eq_of_zero _ _ OrderedMap.empty (OrderedMap.total_empty _)] at houter
  rw [getD_map_eq_of_zero _ _ [] (hnil shardId), happ] at hinner
  unfold pushRewardee
  omega

theorem sigEntries_pushRewardee (rewardees : CoinbaseRewardees PubKey) (epochNum : ℕ)
    (shardId : ℤ) (pubKey : PubKey) :
    sigEntries (pushRewardee rewardees epochNum shardId pubKey) =
      sigEntries rewardees + shardSigs shardId [pubKey] :=
  total_pushRewardee shardSigs (fun _ => by simp [shardSigs]) shardSigs_append rewardees epochNum
    shardId pubKey

theorem lookupEntries_pushRewardee (rewardees : CoinbaseRewardees PubKey) (epochNum : ℕ)
    (shardId : ℤ) (pubKey : PubKey) :
    lookupEntries (pushRewardee rewardees epochNum shardId pubKey) =
      lookupEntries rewardees + shardLookups shardId [pubKey] :=
  total_pushRewardee shardLookups (fun _ => by simp [shardLookups]) shardLookups_append rewardees
    epochNum shardId pubKey

/-- **`SaveCoinbaseCore` records one signature per set bit**: a call that goes through adds, for the
    `i`-th member of a shard, one signature for a set `b1[i]` and one more for a set `b2[i]`. -/
theorem sigEntries_saveCoinbaseCore {b1 b2 : List Bool} {shard : List PubKey} {shardId : ℤ}
    (hs : shardId ≠ CoinbaseReward.lookupReward) (epochNum : ℕ)
    (rewardees : CoinbaseRewardees PubKey)
    (h : (saveCoinbaseCore b1 b2 shard shardId epochNum rewardees).1 = true) :
    sigEntries (saveCoinbaseCore b1 b2 shard shardId epochNum rewardees).2 =
      sigEntries rewardees + (shard.zipIdx.map fun p =>
        (if b1.getD p.2 false then 1 else 0) + if b2.getD p.2 false then 1 else 0).sum := by
  unfold saveCoinbaseCore at h ⊢
  by_cases hrec : ((rewardees.find epochNum).bind (·.find shardId)).isSome
  · rw [if_pos hrec] at h
    cases h
  · rw [if_neg hrec]
    clear h hrec
    have hone : ∀ pk : PubKey, shardSigs shardId [pk] = 1 := fun pk => by simp [shardSigs, hs]
    dsimp only
    -- one member at a time: each set bit records one signature
    generalize shard.zipIdx = members
    induction members generalizing rewardees with
    | nil => simp
    | cons p members ih =>
      rw [List.foldl_cons, ih, List.map_cons, List.sum_cons]
      split_ifs <;> simp only [sigEntries_pushRewardee, hone, Nat.add_zero, Nat.zero_add] <;> omega

section Prepare

variable (cfg : CoinbaseConfig PubKey) (inp : CoinbaseInputs PubKey)

/-- The rewardees `InitCoinbase` counts hold no more signatures than the ones it was given. -/
theorem sigEntries_prepareRewardees_le (rewardees : CoinbaseRewardees PubKey) :
    sigEntries (prepareRewardees cfg inp rewardees) ≤ sigEntries rewardees := by
  unfold prepareRewardees
  dsimp only
  refine List.foldlRecOn (motive := fun rw => sigEntries rw ≤ sigEntries rewardees)
    inp.lookupNodes _ (OrderedMap.total_filter_le _ _ _) fun rw hrw pk _ => ?_
  -- a lookup is no signature
  rw [sigEntries_pushRewardee]
  simpa [shardSigs] using hrw

/-- … and no more lookups than those and the current epoch's. -/
theorem lookupEntries_prepareRewardees_le (rewardees : CoinbaseRewardees PubKey) :
    lookupEntries (prepareRewardees cfg inp rewardees) ≤
      lookupEntries rewardees + inp.lookupNodes.length := by
  unfold prepareRewardees
  dsimp only
  -- the filter erases, and each lookup node adds one
  have hpush : ∀ (pks : List PubKey) (rw : CoinbaseRewardees PubKey),
      lookupEntries (pks.foldl
        (fun rw pk => pushRewardee rw inp.currentEpochNum CoinbaseReward.lookupReward pk) rw) =
        lookupEntries rw + pks.length := by
    intro pks
    induction pks with
    | nil => intro rw; rfl
    | cons pk pks ih =>
      intro rw
      rw [List.foldl_cons, ih, lookupEntries_pushRewardee, List.length_cons]
      simp only [shardLookups, if_true, List.length_singleton]
      omega
  rw [hpush]
  have hfilter := OrderedMap.total_filter_le (fun _ shards => shards.total shardLookups) rewardees
    fun epochNum => !decide (epochNum < (inp.dsBlockNum - 1) * cfg.numFinalBlockPerPow % 2 ^ 64)
  unfold lookupEntries
  omega

end Prepare

/-! ## Reward information -/

theorem percentOf_eq_some {total percent percentPrec x : ℕ}
    (h : percentOf total percent percentPrec = some x) :
    100 * percentPrec % 2 ^ 128 ≠ 0 ∧ x = total * percent / (100 * percentPrec % 2 ^ 128) := by
  unfold percentOf at h
  obtain ⟨product, hmul, hdiv⟩ := Option.bind_eq_some_iff.1 h
  obtain ⟨-, rfl⟩ := SafeMath.mul_eq_some_iff.1 hmul
  by_cases hd : 100 * percentPrec % 2 ^ 128 = 0
  · rw [if_pos hd] at hdiv
    cases hdiv
  · rw [if_neg hd, Option.some.injEq] at hdiv
    exact ⟨hd, hdiv.symm⟩

/-- **The inversion of `GetRewardInformation`**: the three shares went through, the divisions by
    the three counts too, and the record holds what they gave. -/
theorem getRewardInformation_inv {rewardees : CoinbaseRewardees PubKey} {nodeCount : ℕ}
    {ps : RewardControlContractState} {info : RewardInformation}
    (h : getRewardInformation rewardees nodeCount ps = some info) :
    ∃ baseReward lookupReward nodeReward,
      percentOf ps.coinbaseRewardPerDs ps.baseRewardInPercent ps.percentPrec = some baseReward ∧
      percentOf ps.coinbaseRewardPerDs ps.lookupRewardInPercent ps.percentPrec = some lookupReward ∧
      percentOf ps.coinbaseRewardPerDs ps.nodeRewardInPercent ps.percentPrec = some nodeReward ∧
      nodeCount ≠ 0 ∧ (countRewardees rewardees).1 ≠ 0 ∧ (countRewardees rewardees).2 ≠ 0 ∧
      info = { baseReward, baseEachReward := baseReward / nodeCount,
               eachReward := nodeReward / (countRewardees rewardees).1, lookupReward,
               lookupEachReward := lookupReward / (countRewardees rewardees).2,
               lookupCount := (countRewardees rewardees).2, totalReward := ps.coinbaseRewardPerDs,
               sigCount := (countRewardees rewardees).1, nodeCount, nodeReward,
               baseRewardMulInMillis := ps.baseRewardMulInMillis,
               rewardEachMulInMillis := ps.rewardEachMulInMillis } := by
  simp only [getRewardInformation, Option.bind_eq_bind, Option.bind_eq_some_iff,
    Option.pure_def, Option.some.injEq] at h
  obtain ⟨baseReward, hbase, baseEach, hbaseEach, lookupReward, hlookup, nodeReward, hnode,
    each, heach, eachLookup, heachLookup, rfl⟩ := h
  obtain ⟨hn, rfl⟩ := SafeMath.div_eq_some_iff.1 hbaseEach
  obtain ⟨hs, rfl⟩ := SafeMath.div_eq_some_iff.1 heach
  obtain ⟨hl, rfl⟩ := SafeMath.div_eq_some_iff.1 heachLookup
  exact ⟨baseReward, lookupReward, nodeReward, hbase, hlookup, hnode, hn, hs, hl, rfl⟩

theorem getRewardInformation_fields {rewardees : CoinbaseRewardees PubKey} {nodeCount : ℕ}
    {ps : RewardControlContractState} {info : RewardInformation}
    (h : getRewardInformation rewardees nodeCount ps = some info) :
    info.totalReward = ps.coinbaseRewardPerDs ∧ info.nodeCount = nodeCount ∧
      info.sigCount = (countRewardees rewardees).1 ∧
      info.lookupCount = (countRewardees rewardees).2 ∧
      info.baseRewardMulInMillis = ps.baseRewardMulInMillis ∧
      info.rewardEachMulInMillis = ps.rewardEachMulInMillis := by
  obtain ⟨_, _, _, -, -, -, -, -, -, rfl⟩ := getRewardInformation_inv h
  exact ⟨rfl, rfl, rfl, rfl, rfl, rfl⟩

/-! ## The raw divisions by `100 * percent_prec` -/

/-- The states `RewardControlContractState::FromAccount` accepts: it reads each of the seven fields
    with `getUint128FromObject` and checks nothing more, so every field is any `uint128_t`. -/
def RewardControlContractState.Fits (ps : RewardControlContractState) : Prop :=
  ps.coinbaseRewardPerDs < 2 ^ 128 ∧ ps.baseRewardInPercent < 2 ^ 128 ∧
    ps.lookupRewardInPercent < 2 ^ 128 ∧ ps.percentPrec < 2 ^ 128 ∧
    ps.rewardEachMulInMillis < 2 ^ 128 ∧ ps.baseRewardMulInMillis < 2 ^ 128 ∧
    ps.nodeRewardInPercent < 2 ^ 128

instance (ps : RewardControlContractState) : Decidable ps.Fits := by
  unfold RewardControlContractState.Fits
  infer_instance

/-- The state `RewardControlContractState::GetCurrentRewards` starts from, which `FromAccount`
    overwrites from the reward control contract: the constants, and a `percent_prec` of `100`. -/
def RewardControlContractState.defaults : RewardControlContractState where
  coinbaseRewardPerDs := 204000000000000000
  baseRewardInPercent := 20
  lookupRewardInPercent := 40
  percentPrec := 100
  rewardEachMulInMillis := 1668
  baseRewardMulInMillis := 4726
  nodeRewardInPercent := 40

/-- `GetRewardInformation` reaches its first raw division, `base_reward /= 100 * percent_prec`, and
    divides by zero there: the checked product before it went through. -/
def RewardControlContractState.DividesByZero (ps : RewardControlContractState) : Prop :=
  SafeMath.mul 128 ps.coinbaseRewardPerDs ps.baseRewardInPercent ≠ none ∧
    100 * ps.percentPrec % 2 ^ 128 = 0

/-- The `uint128_t` product `100 * percent_prec` of a `uint128_t` precision is zero exactly when
    the precision is a multiple of `2 ^ 126` (`100 = 4 * 25`). -/
theorem percentDivisor_eq_zero_iff {percentPrec : ℕ} (hp : percentPrec < 2 ^ 128) :
    100 * percentPrec % 2 ^ 128 = 0 ↔ ∃ k < 4, percentPrec = k * 2 ^ 126 := by
  constructor
  · intro h
    -- `2 ^ 128 ∣ 4 * 25 * p` leaves `2 ^ 126 ∣ 25 * p`, and `25` is odd
    have h100 : 2 ^ 2 * 2 ^ 126 ∣ 2 ^ 2 * (25 * percentPrec) := by
      have h1 := Nat.dvd_of_mod_eq_zero h
      rwa [show 100 * percentPrec = 2 ^ 2 * (25 * percentPrec) by ring,
        show (2 : ℕ) ^ 128 = 2 ^ 2 * 2 ^ 126 by norm_num] at h1
    have h25 : 2 ^ 126 ∣ 25 * percentPrec := Nat.dvd_of_mul_dvd_mul_left (by norm_num) h100
    obtain ⟨k, rfl⟩ :=
      (Nat.Coprime.pow_left 126 (by decide : Nat.Coprime 2 25)).dvd_of_dvd_mul_left h25
    refine ⟨k, ?_, Nat.mul_comm _ _⟩
    have h4 : 2 ^ 126 * k < 2 ^ 126 * 4 :=
      calc 2 ^ 126 * k < 2 ^ 128 := hp
        _ = 2 ^ 126 * 4 := by norm_num
    exact Nat.lt_of_mul_lt_mul_left h4
  · rintro ⟨k, -, rfl⟩
    rw [show 100 * (k * 2 ^ 126) = 25 * k * 2 ^ 128 by ring]
    exact Nat.mul_mod_left _ _

theorem mul_two_pow_126_lt {k : ℕ} (hk : k < 4) : k * 2 ^ 126 < 2 ^ 128 :=
  calc k * 2 ^ 126 < 4 * 2 ^ 126 := Nat.mul_lt_mul_of_pos_right hk (by positivity)
    _ = 2 ^ 128 := by norm_num

/-- A zero divisor makes every share fail, whatever the total and the percentage. -/
theorem percentOf_eq_none_of_divisor {percentPrec : ℕ} (h : 100 * percentPrec % 2 ^ 128 = 0)
    (total percent : ℕ) : percentOf total percent percentPrec = none := by
  unfold percentOf
  cases SafeMath.mul 128 total percent with
  | none => rfl
  | some product => exact if_pos h

/-- Every `percent_prec` that `100 * percent_prec` wraps to zero, with the other fields at their
    constants, is accepted by `FromAccount`, and `GetRewardInformation` divides by zero on it for
    every committee and every rewardee map: the checked `total_reward * base_reward_in_percent`
    goes through and `base_reward /= 100 * percent_prec` follows. -/
theorem getRewardInformation_divides_by_zero (rewardees : CoinbaseRewardees PubKey)
    (nodeCount : ℕ) (k : Fin 4) :
    ({ RewardControlContractState.defaults with percentPrec := k * 2 ^ 126 } :
        RewardControlContractState).Fits ∧
      ({ RewardControlContractState.defaults with percentPrec := k * 2 ^ 126 } :
        RewardControlContractState).DividesByZero ∧
      getRewardInformation rewardees nodeCount
        { RewardControlContractState.defaults with percentPrec := k * 2 ^ 126 } = none := by
  have hk := k.isLt
  have hlt := mul_two_pow_126_lt hk
  have hzero : 100 * (k * 2 ^ 126 : ℕ) % 2 ^ 128 = 0 := (percentDivisor_eq_zero_iff hlt).2 ⟨k, hk, rfl⟩
  have hmul : SafeMath.mul 128 RewardControlContractState.defaults.coinbaseRewardPerDs
      RewardControlContractState.defaults.baseRewardInPercent ≠ none := by
    decide
  refine ⟨?_, ⟨hmul, hzero⟩, ?_⟩
  · unfold RewardControlContractState.Fits RewardControlContractState.defaults
    dsimp only
    exact ⟨by norm_num, by norm_num, by norm_num, hlt, by norm_num, by norm_num, by norm_num⟩
  · -- the first share already fails, at the division
    unfold getRewardInformation
    simp only [percentOf_eq_none_of_divisor hzero, Option.bind_eq_bind, Option.bind_none]

/-- Three shares of `total` whose percentages take at most the whole floor to at most `total`. -/
theorem shares_le (total a b c d : ℕ) (hd : 0 < d) (h : a + b + c ≤ d) :
    total * a / d + total * b / d + total * c / d ≤ total :=
  calc total * a / d + total * b / d + total * c / d
      ≤ (total * a + total * b + total * c) / d := by
        have h1 : total * a / d + total * b / d ≤ (total * a + total * b) / d :=
          Nat.div_add_div_le_add_div
        have h2 : (total * a + total * b) / d + total * c / d ≤
            (total * a + total * b + total * c) / d := Nat.div_add_div_le_add_div
        omega
    _ = total * (a + b + c) / d := by rw [Nat.mul_add, Nat.mul_add]
    _ ≤ total * d / d := Nat.div_le_div_right (Nat.mul_le_mul_left total h)
    _ = total := Nat.mul_div_cancel total hd

/-- The reward-control states meant to be deployed: the three percentages take at most the whole
    (`percent_prec` parts per percent), and the desharding multipliers scale by at most one. -/
structure RewardControlContractState.WithinWhole (ps : RewardControlContractState) : Prop where
  shares_le : ps.baseRewardInPercent + ps.lookupRewardInPercent + ps.nodeRewardInPercent ≤
    100 * ps.percentPrec
  rewardEachMul_le : ps.rewardEachMulInMillis ≤ 1000
  baseRewardMul_le : ps.baseRewardMulInMillis ≤ 1000

/-- **The budget of `GetRewardInformation`**: when `100 * percent_prec` does not wrap, each share
    divided by its count and multiplied back gives at most the share, and the shares at most the
    total. -/
theorem getRewardInformation_budget {rewardees : CoinbaseRewardees PubKey} {nodeCount : ℕ}
    {ps : RewardControlContractState} {info : RewardInformation}
    (hshares : ps.baseRewardInPercent + ps.lookupRewardInPercent + ps.nodeRewardInPercent ≤
      100 * ps.percentPrec)
    (hprec : 100 * ps.percentPrec < 2 ^ 128)
    (h : getRewardInformation rewardees nodeCount ps = some info) :
    info.nodeCount * info.baseEachReward + info.sigCount * info.eachReward +
      info.lookupCount * info.lookupEachReward ≤ info.totalReward := by
  obtain ⟨baseReward, lookupReward, nodeReward, hbase, hlookup, hnode, -, -, -, rfl⟩ :=
    getRewardInformation_inv h
  obtain ⟨hd, rfl⟩ := percentOf_eq_some hbase
  obtain ⟨-, rfl⟩ := percentOf_eq_some hlookup
  obtain ⟨-, rfl⟩ := percentOf_eq_some hnode
  rw [Nat.mod_eq_of_lt hprec] at hd ⊢
  have hall := shares_le ps.coinbaseRewardPerDs _ _ _ (100 * ps.percentPrec) (by omega) hshares
  have h1 := Nat.mul_div_le (ps.coinbaseRewardPerDs * ps.baseRewardInPercent / (100 * ps.percentPrec))
    nodeCount
  have h2 := Nat.mul_div_le
    (ps.coinbaseRewardPerDs * ps.nodeRewardInPercent / (100 * ps.percentPrec))
    (countRewardees rewardees).1
  have h3 := Nat.mul_div_le
    (ps.coinbaseRewardPerDs * ps.lookupRewardInPercent / (100 * ps.percentPrec))
    (countRewardees rewardees).2
  dsimp only
  omega

/-! ## The reward loops of `InitCoinbase` -/

namespace AccountStoreBase

/-- `AccountStore::UpdateCoinbaseTemp` on the temporary store: create the rewardee's account when
    it is missing, then transfer from the coinbase address. -/
def updateCoinbaseTemp (m : AccountStoreBase) (rewardee genesisAddress : Address) (amount : ℕ) :
    Bool × AccountStoreBase :=
  let m := if (m.find rewardee).isNone then (m.addAccount rewardee (Account.new 0 0)).2 else m
  m.transferBalance genesisAddress rewardee amount

end AccountStoreBase

/-- A transfer from a missing account goes through only for a zero amount, and changes nothing. -/
theorem AccountStoreBase.transferBalance_of_find_none {m : AccountStoreBase} {src : Address}
    (h : m.find src = none) (dst : Address) (delta : ℕ) :
    m.transferBalance src dst delta = (decide (delta = 0), m) := by
  unfold AccountStoreBase.transferBalance AccountStoreBase.decreaseBalance
  by_cases hd : delta = 0
  · simp [hd, AccountStoreBase.increaseBalance]
  · simp [hd, AccountStoreBase.update, h]

/-- **`UpdateCoinbaseTemp` moves what it pays**: for a rewardee other than the coinbase, the
    coinbase's balance falls by the amount exactly when the call goes through. -/
theorem AccountStoreBase.weightOf_updateCoinbaseTemp (m : AccountStoreBase) {rewardee : Address}
    (hne : rewardee ≠ coinbaseAddress) (amount : ℕ) :
    FinStore.weightOf Account.balance
        ((m.updateCoinbaseTemp rewardee coinbaseAddress amount).2.find coinbaseAddress) +
      (if (m.updateCoinbaseTemp rewardee coinbaseAddress amount).1 then amount else 0) =
      FinStore.weightOf Account.balance (m.find coinbaseAddress) := by
  unfold AccountStoreBase.updateCoinbaseTemp
  -- creating the rewardee's account leaves the coinbase's alone
  obtain ⟨m', hm'⟩ : ∃ m', (if (m.find rewardee).isNone then
      (m.addAccount rewardee (Account.new 0 0)).2 else m) = m' := ⟨_, rfl⟩
  have hfind : m'.find coinbaseAddress = m.find coinbaseAddress := by
    rw [← hm']
    split_ifs
    · unfold AccountStoreBase.addAccount
      split_ifs <;> simp [FinStore.find_insert_ne _ _ (Ne.symm hne)]
    · rfl
  dsimp only
  rw [hm', ← hfind]
  cases hc : m'.find coinbaseAddress with
  | none =>
    rw [AccountStoreBase.transferBalance_of_find_none hc]
    by_cases hd : amount = 0 <;> simp [hd, hc]
  | some acc =>
    rw [AccountStoreBase.transferBalance_of_find hc]
    by_cases hle : amount ≤ acc.balance
    · rw [if_pos hle]
      dsimp only
      rw [AccountStoreBase.find_increaseBalance, if_neg (fun h => Ne.symm hne h.1),
        FinStore.find_insert_self]
      simp only [FinStore.weightOf_some, if_true]
      omega
    · rw [if_neg hle]
      simp [hc]

/-- What the reward loops carry: the temporary store, the lucky-draw candidates `nonGuard`,
    `pubKeyAndIsGuard`, the two success counters, and `paid`, the amounts of the transfers out of
    the coinbase address that went through, in order (the source only logs them). -/
structure CoinbaseRun (PubKey : Type) [DecidableEq PubKey] where
  store : AccountStoreBase
  nonGuard : List Address
  pubKeyAndIsGuard : FinStore PubKey Bool
  sucCounter : ℕ
  sucLookupCounter : ℕ
  paid : List ℕ

variable [DecidableEq PubKey]

namespace CoinbaseRun

/-- The loops' state before the first payment. -/
def init (store : AccountStoreBase) : CoinbaseRun PubKey := ⟨store, [], FinStore.empty, 0, 0, []⟩

/-- One `UpdateCoinbaseTemp(rewardee, coinbaseAddress, amount)`, recorded in `paid` when it goes
    through. -/
def updateCoinbaseTemp (r : CoinbaseRun PubKey) (rewardee : Address) (amount : ℕ) :
    Bool × CoinbaseRun PubKey :=
  let res := r.store.updateCoinbaseTemp rewardee coinbaseAddress amount
  (res.1, { r with store := res.2, paid := if res.1 then r.paid ++ [amount] else r.paid })

end CoinbaseRun

section Loops

variable (cfg : CoinbaseConfig PubKey)

/-- One DS member of the base-reward loop: in `GUARD_MODE` a guard is marked and skipped; every
    other member becomes a lucky-draw candidate and is paid `amount`. -/
def rewardBase (amount : ℕ) (r : CoinbaseRun PubKey) (pk : PubKey) : CoinbaseRun PubKey :=
  let addr := cfg.getAddressFromPublicKey pk
  let isGuard := cfg.isNodeInDSGuardList pk
  let r := if cfg.guardMode then { r with pubKeyAndIsGuard := r.pubKeyAndIsGuard.insert pk isGuard }
    else r
  if cfg.guardMode && isGuard then r
  else ({ r with nonGuard := r.nonGuard ++ [addr] }.updateCoinbaseTemp addr amount).2

/-- One recorded lookup: paid `amount`, and on success counted and made a lucky-draw candidate. -/
def rewardLookup (amount : ℕ) (r : CoinbaseRun PubKey) (pk : PubKey) : CoinbaseRun PubKey :=
  let addr := cfg.getAddressFromPublicKey pk
  let res := r.updateCoinbaseTemp addr amount
  if res.1 then
    { res.2 with nonGuard := res.2.nonGuard ++ [addr],
                 sucLookupCounter := (res.2.sucLookupCounter + 1) % 2 ^ 128 }
  else res.2

/-- One recorded signature: a DS guard's (in `GUARD_MODE`) is counted without a payment (an unknown
    key reads `false` from `pubKeyAndIsGuard`); any other is paid `amount` and counted on success. -/
def rewardSig (amount : ℕ) (r : CoinbaseRun PubKey) (pk : PubKey) : CoinbaseRun PubKey :=
  if cfg.guardMode && (r.pubKeyAndIsGuard.find pk).getD false then
    { r with sucCounter := (r.sucCounter + 1) % 2 ^ 128 }
  else
    let res := r.updateCoinbaseTemp (cfg.getAddressFromPublicKey pk) amount
    if res.1 then { res.2 with sucCounter := (res.2.sucCounter + 1) % 2 ^ 128 } else res.2

/-- One shard entry of the cosig loop. -/
def rewardShard (rewardEach rewardEachLookup : ℕ) (r : CoinbaseRun PubKey)
    (shard : ℤ × List PubKey) : CoinbaseRun PubKey :=
  if shard.1 = CoinbaseReward.lookupReward then shard.2.foldl (rewardLookup cfg rewardEachLookup) r
  else shard.2.foldl (rewardSig cfg rewardEach) r

/-- The cosig loop over every epoch and shard of the rewardees, in the map's order. -/
def rewardCosigs (rewardees : CoinbaseRewardees PubKey) (rewardEach rewardEachLookup : ℕ)
    (r : CoinbaseRun PubKey) : CoinbaseRun PubKey :=
  rewardees.entries.foldl
    (fun r epoch => epoch.2.entries.foldl (rewardShard cfg rewardEach rewardEachLookup) r) r

end Loops

/-- `balance_left` in `uint128_t`: the products and the differences are taken modulo `2 ^ 128`. -/
def balanceLeft (info : RewardInformation) (sucCounter sucLookupCounter : ℕ) : ℕ :=
  (((info.totalReward : ℤ) - ((sucCounter * info.eachReward % 2 ^ 128 : ℕ) : ℤ)
      - ((sucLookupCounter * info.lookupEachReward % 2 ^ 128 : ℕ) : ℤ)
      - ((info.nodeCount * info.baseEachReward % 2 ^ 128 : ℕ) : ℤ)) % 2 ^ 128).toNat

/-- The lucky draw: the candidate at `lastBlockHash % nonGuard.size()` is paid `amount`; nobody is
    drawn when there is no candidate. -/
def luckyDraw (lastBlockHash amount : ℕ) (r : CoinbaseRun PubKey) :
    CoinbaseRun PubKey × Option Address :=
  if h : r.nonGuard = [] then (r, none)
  else
    let luckyAddr := r.nonGuard.get
      ⟨lastBlockHash % r.nonGuard.length, Nat.mod_lt _ (List.length_pos_of_ne_nil h)⟩
    ((r.updateCoinbaseTemp luckyAddr amount).2, some luckyAddr)

/-- A share scaled by its per-mille multiplier: a checked product, then a division by `1000`. -/
def deshard (reward mulInMillis : ℕ) : Option ℕ :=
  SafeMath.mul 128 reward mulInMillis >>= fun product => SafeMath.div product 1000

section InitCoinbase

variable (cfg : CoinbaseConfig PubKey) (inp : CoinbaseInputs PubKey)

/-- The payments of `InitCoinbase` once the fees are credited: the base rewards, the cosig rewards
    and the lucky draw, and the diagnostic record when the loops ran. -/
def payRewards (rewardees : CoinbaseRewardees PubKey) (info : RewardInformation)
    (r : CoinbaseRun PubKey) : CoinbaseRun PubKey × Option DiagnosticDataCoinbase :=
  match deshard info.baseEachReward info.baseRewardMulInMillis with
  | none => (r, none)
  | some baseRewardEachDesharded =>
    let r := inp.dsCommittee.foldl (rewardBase cfg baseRewardEachDesharded) r
    match deshard info.eachReward info.rewardEachMulInMillis with
    | none => (r, none)
    | some rewardEachDesharded =>
      let r := rewardCosigs cfg rewardees rewardEachDesharded info.lookupEachReward r
      let left := balanceLeft info r.sucCounter r.sucLookupCounter
      let drawn := luckyDraw inp.lastBlockHash left r
      (drawn.1, some ⟨info.nodeCount, info.sigCount, info.lookupCount, info.totalReward,
        info.baseReward, info.baseEachReward, info.lookupReward, info.lookupEachReward,
        info.nodeReward, info.eachReward, left, drawn.2.getD Address.null⟩)

/-- **`DirectoryService::InitCoinbase`** on a DS node: the rewardees it leaves, the reward loops'
    final state, and the diagnostic record it stores. -/
def initCoinbase (rewardees : CoinbaseRewardees PubKey) (store : AccountStoreBase) :
    CoinbaseRewardees PubKey × CoinbaseRun PubKey × Option DiagnosticDataCoinbase :=
  -- with only the genesis DS block there is nothing to reward
  if inp.dsBlockNum = 0 then (rewardees, CoinbaseRun.init store, none)
  else
    let rewardees := prepareRewardees cfg inp rewardees
    match getRewardInformation rewardees inp.dsCommittee.length inp.rewardState with
    | none => (rewardees, CoinbaseRun.init store, none)
    | some info =>
      -- the epoch's transaction fees go back to the coinbase address before anything is paid
      let r := CoinbaseRun.init (store.increaseBalance coinbaseAddress inp.totalTxnFees).2
      let paid := payRewards cfg inp rewardees info r
      (rewardees, paid.1, paid.2)

end InitCoinbase


/-! ## What the loops pay -/

namespace CoinbaseRun

variable (r : CoinbaseRun PubKey) (a : Address) (x : ℕ)

@[simp] theorem sucCounter_updateCoinbaseTemp :
    (r.updateCoinbaseTemp a x).2.sucCounter = r.sucCounter := rfl

@[simp] theorem sucLookupCounter_updateCoinbaseTemp :
    (r.updateCoinbaseTemp a x).2.sucLookupCounter = r.sucLookupCounter := rfl

@[simp] theorem nonGuard_updateCoinbaseTemp :
    (r.updateCoinbaseTemp a x).2.nonGuard = r.nonGuard := rfl

/-- A payment records its amount exactly when it goes through. -/
theorem sum_paid_updateCoinbaseTemp :
    (r.updateCoinbaseTemp a x).2.paid.sum =
      r.paid.sum + if (r.updateCoinbaseTemp a x).1 then x else 0 := by
  unfold updateCoinbaseTemp
  dsimp only
  split_ifs <;> simp

theorem sum_paid_updateCoinbaseTemp_le : (r.updateCoinbaseTemp a x).2.paid.sum ≤ r.paid.sum + x := by
  rw [sum_paid_updateCoinbaseTemp]
  split_ifs <;> omega

end CoinbaseRun

section Loops

variable (cfg : CoinbaseConfig PubKey)

/-- A DS member is paid at most `amount`, and the success counters stay. -/
theorem rewardBase_spec (amount : ℕ) (r : CoinbaseRun PubKey) (pk : PubKey) :
    (rewardBase cfg amount r pk).paid.sum ≤ r.paid.sum + amount ∧
      (rewardBase cfg amount r pk).sucCounter = r.sucCounter ∧
      (rewardBase cfg amount r pk).sucLookupCounter = r.sucLookupCounter := by
  unfold rewardBase
  by_cases hg : cfg.guardMode <;> by_cases hd : cfg.isNodeInDSGuardList pk
  all_goals simp only [hg, hd, if_true, if_false, Bool.and_true, Bool.and_false, Bool.false_eq_true, CoinbaseRun.sucCounter_updateCoinbaseTemp,
    CoinbaseRun.sucLookupCounter_updateCoinbaseTemp, and_self, and_true]
  all_goals first
    | omega
    | exact CoinbaseRun.sum_paid_updateCoinbaseTemp_le _ _ _

/-- **The base-reward loop** pays at most `amount` per DS member and counts nothing. -/
theorem foldl_rewardBase (amount : ℕ) :
    ∀ (pks : List PubKey) (r : CoinbaseRun PubKey),
      (pks.foldl (rewardBase cfg amount) r).paid.sum ≤ r.paid.sum + amount * pks.length ∧
        (pks.foldl (rewardBase cfg amount) r).sucCounter = r.sucCounter ∧
        (pks.foldl (rewardBase cfg amount) r).sucLookupCounter = r.sucLookupCounter
  | [], r => by simp
  | pk :: pks, r => by
    obtain ⟨h1, h2, h3⟩ := rewardBase_spec cfg amount r pk
    obtain ⟨i1, i2, i3⟩ := foldl_rewardBase amount pks (rewardBase cfg amount r pk)
    rw [List.foldl_cons]
    refine ⟨?_, i2.trans h2, i3.trans h3⟩
    rw [List.length_cons, Nat.mul_succ]
    omega

end Loops

/-- What a stretch of the cosig loop may do, for the shares `re` and `rl`: raise the signature
    counter by at most `ns` and the lookup counter by at most `nl`, and pay at most `re` for each
    signature it counts and `rl` for each lookup. -/
structure Spends (re rl ns nl : ℕ) (r r' : CoinbaseRun PubKey) : Prop where
  suc_le : r.sucCounter ≤ r'.sucCounter
  suc_le_add : r'.sucCounter ≤ r.sucCounter + ns
  sucLookup_le : r.sucLookupCounter ≤ r'.sucLookupCounter
  sucLookup_le_add : r'.sucLookupCounter ≤ r.sucLookupCounter + nl
  paid_le : r'.paid.sum + (re * r.sucCounter + rl * r.sucLookupCounter) ≤
    r.paid.sum + (re * r'.sucCounter + rl * r'.sucLookupCounter)

namespace Spends

variable {re rl : ℕ}

theorem refl (r : CoinbaseRun PubKey) : Spends re rl 0 0 r r :=
  ⟨le_rfl, by omega, le_rfl, by omega, le_rfl⟩

theorem trans {ns nl ns' nl' : ℕ} {r r' r'' : CoinbaseRun PubKey} (h : Spends re rl ns nl r r')
    (h' : Spends re rl ns' nl' r' r'') : Spends re rl (ns + ns') (nl + nl') r r'' := by
  obtain ⟨h1, h2, h3, h4, h5⟩ := h
  obtain ⟨h1', h2', h3', h4', h5'⟩ := h'
  exact ⟨h1.trans h1', by omega, h3.trans h3', by omega, by omega⟩

/-- **The loop rule**: a loop whose every step `Spends` its own counts spends their sum, as long
    as the counters cannot wrap. -/
theorem foldl {α : Type} (f : CoinbaseRun PubKey → α → CoinbaseRun PubKey) (ns nl : α → ℕ)
    (hf : ∀ r x, r.sucCounter + ns x < 2 ^ 128 → r.sucLookupCounter + nl x < 2 ^ 128 →
      Spends re rl (ns x) (nl x) r (f r x)) :
    ∀ (xs : List α) (r : CoinbaseRun PubKey), r.sucCounter + (xs.map ns).sum < 2 ^ 128 →
      r.sucLookupCounter + (xs.map nl).sum < 2 ^ 128 →
      Spends re rl (xs.map ns).sum (xs.map nl).sum r (xs.foldl f r)
  | [], r, _, _ => Spends.refl r
  | x :: xs, r, hs, hl => by
    simp only [List.map_cons, List.sum_cons] at hs hl ⊢
    have h1 := hf r x (by omega) (by omega)
    have h2 := Spends.foldl f ns nl hf xs (f r x) (by have := h1.suc_le_add; omega)
      (by have := h1.sucLookup_le_add; omega)
    exact h1.trans h2

end Spends

section Cosigs

variable (cfg : CoinbaseConfig PubKey) {re rl : ℕ}

/-- A recorded signature is counted once, and paid at most `re`, or neither. -/
theorem spends_rewardSig {amount : ℕ} (hamount : amount ≤ re) (r : CoinbaseRun PubKey)
    (pk : PubKey) (hfit : r.sucCounter + 1 < 2 ^ 128) :
    Spends re rl 1 0 r (rewardSig cfg amount r pk) := by
  have hpaid := CoinbaseRun.sum_paid_updateCoinbaseTemp r (cfg.getAddressFromPublicKey pk) amount
  unfold rewardSig
  dsimp only
  split_ifs with hguard hok
  · -- a guard's signature is counted and not paid
    constructor <;> simp (disch := omega) only [Nat.mod_eq_of_lt, Nat.mul_succ] <;> omega
  · -- paid, and counted
    rw [if_pos hok] at hpaid
    constructor <;> simp (disch := omega) only [Nat.mod_eq_of_lt, Nat.mul_succ, hpaid,
      CoinbaseRun.sucCounter_updateCoinbaseTemp, CoinbaseRun.sucLookupCounter_updateCoinbaseTemp]
      <;> omega
  · -- the transfer failed: nothing paid, nothing counted
    rw [if_neg hok] at hpaid
    constructor <;> simp only [hpaid, CoinbaseRun.sucCounter_updateCoinbaseTemp,
      CoinbaseRun.sucLookupCounter_updateCoinbaseTemp] <;> omega

/-- A recorded lookup is counted once and paid at most `rl`, or neither. -/
theorem spends_rewardLookup {amount : ℕ} (hamount : amount ≤ rl) (r : CoinbaseRun PubKey)
    (pk : PubKey) (hfit : r.sucLookupCounter + 1 < 2 ^ 128) :
    Spends re rl 0 1 r (rewardLookup cfg amount r pk) := by
  have hpaid := CoinbaseRun.sum_paid_updateCoinbaseTemp r (cfg.getAddressFromPublicKey pk) amount
  unfold rewardLookup
  dsimp only
  split_ifs with hok
  · rw [if_pos hok] at hpaid
    constructor <;> simp (disch := omega) only [Nat.mod_eq_of_lt, Nat.mul_succ, hpaid,
      CoinbaseRun.sucCounter_updateCoinbaseTemp, CoinbaseRun.sucLookupCounter_updateCoinbaseTemp]
      <;> omega
  · rw [if_neg hok] at hpaid
    constructor <;> simp only [hpaid, CoinbaseRun.sucCounter_updateCoinbaseTemp,
      CoinbaseRun.sucLookupCounter_updateCoinbaseTemp] <;> omega

/-- A shard entry spends its own counts. -/
theorem spends_rewardShard {a b : ℕ} (ha : a ≤ re) (hb : b ≤ rl) (r : CoinbaseRun PubKey)
    (shard : ℤ × List PubKey) (hs : r.sucCounter + shardSigs shard.1 shard.2 < 2 ^ 128)
    (hl : r.sucLookupCounter + shardLookups shard.1 shard.2 < 2 ^ 128) :
    Spends re rl (shardSigs shard.1 shard.2) (shardLookups shard.1 shard.2) r
      (rewardShard cfg a b r shard) := by
  obtain ⟨s, keys⟩ := shard
  rw [rewardShard]
  by_cases hlk : s = CoinbaseReward.lookupReward
  · -- the lookups' entry: one lookup per key
    rw [if_pos hlk]
    simp only [shardSigs, shardLookups, hlk, if_true] at hs hl ⊢
    have h : Spends re rl _ _ r _ := Spends.foldl (rewardLookup cfg b) (fun _ => 0) (fun _ => 1)
      (fun r' pk _ hfit => spends_rewardLookup cfg hb r' pk hfit) keys r (by simpa using hs)
      (by simpa using hl)
    simpa using h
  · -- a shard's or the DS committee's entry: one signature per key
    rw [if_neg hlk]
    simp only [shardSigs, shardLookups, hlk, if_false] at hs hl ⊢
    have h : Spends re rl _ _ r _ := Spends.foldl (rewardSig cfg a) (fun _ => 1) (fun _ => 0)
      (fun r' pk hfit _ => spends_rewardSig cfg ha r' pk hfit) keys r (by simpa using hs)
      (by simpa using hl)
    simpa using h

/-- **The cosig loop** spends at most the recorded signatures and lookups. -/
theorem spends_rewardCosigs {a b : ℕ} (ha : a ≤ re) (hb : b ≤ rl)
    (rewardees : CoinbaseRewardees PubKey) (r : CoinbaseRun PubKey)
    (hs : r.sucCounter + sigEntries rewardees < 2 ^ 128)
    (hl : r.sucLookupCounter + lookupEntries rewardees < 2 ^ 128) :
    Spends re rl (sigEntries rewardees) (lookupEntries rewardees) r
      (rewardCosigs cfg rewardees a b r) := by
  unfold sigEntries lookupEntries OrderedMap.total rewardCosigs at *
  -- the epochs, each of which spends the counts of its shards
  refine Spends.foldl _ (fun e => (e.2.entries.map fun s => shardSigs s.1 s.2).sum)
    (fun e => (e.2.entries.map fun s => shardLookups s.1 s.2).sum) (fun r e hs hl => ?_)
    rewardees.entries r hs hl
  exact Spends.foldl _ (fun s => shardSigs s.1 s.2) (fun s => shardLookups s.1 s.2)
    (fun r s hs hl => spends_rewardShard cfg ha hb r s hs hl) e.2.entries r hs hl

end Cosigs

/-- **`balance_left` does not wrap** when the subtracted amounts fit in the total. -/
theorem balanceLeft_eq (info : RewardInformation) (s l : ℕ) (hT : info.totalReward < 2 ^ 128)
    (h : s * info.eachReward + l * info.lookupEachReward + info.nodeCount * info.baseEachReward ≤
      info.totalReward) :
    balanceLeft info s l = info.totalReward - s * info.eachReward - l * info.lookupEachReward -
      info.nodeCount * info.baseEachReward := by
  unfold balanceLeft
  generalize s * info.eachReward = x at *
  generalize l * info.lookupEachReward = y at *
  generalize info.nodeCount * info.baseEachReward = z at *
  rw [Nat.mod_eq_of_lt (by omega : x < 2 ^ 128), Nat.mod_eq_of_lt (by omega : y < 2 ^ 128),
    Nat.mod_eq_of_lt (by omega : z < 2 ^ 128)]
  have hcast : (info.totalReward : ℤ) - x - y - z = ((info.totalReward - x - y - z : ℕ) : ℤ) := by
    omega
  rw [hcast, Int.emod_eq_of_lt (by positivity) (by omega), Int.toNat_natCast]

/-- The lucky draw pays at most `amount` and counts nothing. -/
theorem luckyDraw_spec (lastBlockHash amount : ℕ) (r : CoinbaseRun PubKey) :
    (luckyDraw lastBlockHash amount r).1.paid.sum ≤ r.paid.sum + amount ∧
      (luckyDraw lastBlockHash amount r).1.sucCounter = r.sucCounter ∧
      (luckyDraw lastBlockHash amount r).1.sucLookupCounter = r.sucLookupCounter := by
  unfold luckyDraw
  split_ifs
  · simp
  · exact ⟨CoinbaseRun.sum_paid_updateCoinbaseTemp_le _ _ _, rfl, rfl⟩

/-- A per-mille multiplier of at most `1000` never raises a share. -/
theorem deshard_le {reward mulInMillis x : ℕ} (hmul : mulInMillis ≤ 1000)
    (h : deshard reward mulInMillis = some x) : x ≤ reward := by
  unfold deshard at h
  obtain ⟨product, hp, hd⟩ := Option.bind_eq_some_iff.1 h
  obtain ⟨-, rfl⟩ := SafeMath.mul_eq_some_iff.1 hp
  obtain ⟨-, rfl⟩ := SafeMath.div_eq_some_iff.1 hd
  calc reward * mulInMillis / 1000 ≤ reward * 1000 / 1000 :=
        Nat.div_le_div_right (Nat.mul_le_mul_left _ hmul)
    _ = reward := Nat.mul_div_cancel _ (by norm_num)


/-! ## The budget -/

section Budget

variable (cfg : CoinbaseConfig PubKey) (inp : CoinbaseInputs PubKey)

/-- **What `payRewards` pays**, from a run that has counted nothing: at most the total, and the
    remainder it records is what the counted payments leave of the total, without a wrap. -/
theorem payRewards_within (rewardees : CoinbaseRewardees PubKey) (info : RewardInformation)
    (r : CoinbaseRun PubKey) (hs0 : r.sucCounter = 0) (hl0 : r.sucLookupCounter = 0)
    (hbaseMul : info.baseRewardMulInMillis ≤ 1000) (heachMul : info.rewardEachMulInMillis ≤ 1000)
    (hT : info.totalReward < 2 ^ 128)
    (hbudget : info.nodeCount * info.baseEachReward + info.sigCount * info.eachReward +
      info.lookupCount * info.lookupEachReward ≤ info.totalReward)
    (hnode : inp.dsCommittee.length = info.nodeCount)
    (hsig : sigEntries rewardees = info.sigCount) (hlook : lookupEntries rewardees = info.lookupCount)
    (hsigFit : info.sigCount < 2 ^ 128) (hlookFit : info.lookupCount < 2 ^ 128) :
    (payRewards cfg inp rewardees info r).1.paid.sum ≤ r.paid.sum + info.totalReward ∧
      ∀ d, (payRewards cfg inp rewardees info r).2 = some d →
        d.balanceLeft + (payRewards cfg inp rewardees info r).1.sucCounter * d.rewardEach +
          (payRewards cfg inp rewardees info r).1.sucLookupCounter * d.rewardEachLookup +
          d.nodeCount * d.baseRewardEach = d.totalReward := by
  unfold payRewards
  cases hbase : deshard info.baseEachReward info.baseRewardMulInMillis with
  | none =>
    -- nothing is paid
    dsimp only
    exact ⟨by omega, fun d hd => by cases hd⟩
  | some baseDesharded =>
    dsimp only
    obtain ⟨hds, hdsS, hdsL⟩ := foldl_rewardBase cfg baseDesharded inp.dsCommittee r
    -- the DS members take at most the base share
    have hdsPaid : baseDesharded * inp.dsCommittee.length ≤ info.nodeCount * info.baseEachReward := by
      rw [hnode, Nat.mul_comm]
      exact Nat.mul_le_mul_left _ (deshard_le hbaseMul hbase)
    obtain ⟨r2, hr2⟩ : ∃ r2, inp.dsCommittee.foldl (rewardBase cfg baseDesharded) r = r2 :=
      ⟨_, rfl⟩
    rw [hr2] at hds hdsS hdsL ⊢
    cases heach : deshard info.eachReward info.rewardEachMulInMillis with
    | none =>
      dsimp only
      exact ⟨by omega, fun d hd => by cases hd⟩
    | some eachDesharded =>
      dsimp only
      -- the cosig loop pays at most a share per counted signature and lookup
      have hsp : Spends info.eachReward info.lookupEachReward _ _ r2 _ :=
        spends_rewardCosigs cfg (deshard_le heachMul heach) le_rfl rewardees r2 (by omega) (by omega)
      obtain ⟨r3, hr3⟩ : ∃ r3, rewardCosigs cfg rewardees eachDesharded info.lookupEachReward r2 = r3 :=
        ⟨_, rfl⟩
      rw [hr3] at hsp ⊢
      have hS : r3.sucCounter * info.eachReward ≤ info.sigCount * info.eachReward :=
        Nat.mul_le_mul_right _ (by have := hsp.suc_le_add; omega)
      have hL : r3.sucLookupCounter * info.lookupEachReward ≤
          info.lookupCount * info.lookupEachReward :=
        Nat.mul_le_mul_right _ (by have := hsp.sucLookup_le_add; omega)
      -- so the subtracted amounts fit in the total, and the remainder does not wrap
      have hfit : r3.sucCounter * info.eachReward + r3.sucLookupCounter * info.lookupEachReward +
          info.nodeCount * info.baseEachReward ≤ info.totalReward := by omega
      have hleft := balanceLeft_eq info r3.sucCounter r3.sucLookupCounter hT hfit
      obtain ⟨hlucky, hluckyS, hluckyL⟩ :=
        luckyDraw_spec inp.lastBlockHash (balanceLeft info r3.sucCounter r3.sucLookupCounter) r3
      have hpaid := hsp.paid_le
      rw [hdsS, hdsL, hs0, hl0] at hpaid
      have hcomm : info.eachReward * r3.sucCounter = r3.sucCounter * info.eachReward :=
        Nat.mul_comm _ _
      have hcomm' : info.lookupEachReward * r3.sucLookupCounter =
          r3.sucLookupCounter * info.lookupEachReward := Nat.mul_comm _ _
      refine ⟨by omega, fun d hd => ?_⟩
      rw [Option.some.injEq] at hd
      subst hd
      dsimp only
      rw [hluckyS, hluckyL, hleft]
      omega

/-- **`InitCoinbase` pays at most `coinbase_reward_per_ds`** for the reward-control states above,
    a `uint128_t` total, a divisor `100 * percent_prec` that does not wrap, and counts that fit their
    counters; and the remainder it records is what the counted payments leave of the total. -/
theorem initCoinbase_pays_within_reward (rewardees : CoinbaseRewardees PubKey)
    (store : AccountStoreBase) (hps : inp.rewardState.WithinWhole)
    (hT : inp.rewardState.coinbaseRewardPerDs < 2 ^ 128)
    (hprec : 100 * inp.rewardState.percentPrec < 2 ^ 128)
    (hsig : sigEntries rewardees < 2 ^ 128)
    (hlook : lookupEntries rewardees + inp.lookupNodes.length < 2 ^ 32) :
    (initCoinbase cfg inp rewardees store).2.1.paid.sum ≤ inp.rewardState.coinbaseRewardPerDs ∧
      ∀ d, (initCoinbase cfg inp rewardees store).2.2 = some d →
        d.balanceLeft + (initCoinbase cfg inp rewardees store).2.1.sucCounter * d.rewardEach +
          (initCoinbase cfg inp rewardees store).2.1.sucLookupCounter * d.rewardEachLookup +
          d.nodeCount * d.baseRewardEach = d.totalReward := by
  unfold initCoinbase
  split_ifs with h0
  · -- nothing to reward yet
    exact ⟨by simp [CoinbaseRun.init], fun d hd => by cases hd⟩
  · dsimp only
    cases hinfo : getRewardInformation (prepareRewardees cfg inp rewardees)
      inp.dsCommittee.length inp.rewardState with
    | none => exact ⟨by simp [CoinbaseRun.init], fun d hd => by cases hd⟩
    | some info =>
      dsimp only
      obtain ⟨hTot, hNode, hSig, hLook, hBaseMul, hEachMul⟩ := getRewardInformation_fields hinfo
      have hbudget := getRewardInformation_budget hps.shares_le hprec hinfo
      -- the counts `GetRewardInformation` divided by are the recorded ones: nothing wrapped
      have hsigLe := sigEntries_prepareRewardees_le cfg inp rewardees
      have hlookLe := lookupEntries_prepareRewardees_le cfg inp rewardees
      rw [countRewardees_eq] at hSig hLook
      dsimp only at hSig hLook
      rw [Nat.mod_eq_of_lt (by omega)] at hSig hLook
      have h := payRewards_within cfg inp (prepareRewardees cfg inp rewardees) info
        (CoinbaseRun.init (store.increaseBalance coinbaseAddress inp.totalTxnFees).2) rfl rfl
        (by rw [hBaseMul]; exact hps.baseRewardMul_le) (by rw [hEachMul]; exact hps.rewardEachMul_le)
        (by rw [hTot]; exact hT) hbudget hNode.symm hSig.symm hLook.symm (by omega) (by omega)
      rw [← hTot]
      simpa [CoinbaseRun.init] using h

end Budget


/-! ## The coinbase pays what is recorded -/

namespace CoinbaseRun

/-- The coinbase's balance plus the payments recorded so far: what the coinbase held before them. -/
def coinbaseHeld (r : CoinbaseRun PubKey) : ℕ :=
  FinStore.weightOf Account.balance (r.store.find coinbaseAddress) + r.paid.sum

/-- The loops' invariant for a hold `c`: the coinbase's balance and the recorded payments make `c`,
    and the coinbase is no lucky-draw candidate. -/
def Holds (c : ℕ) (r : CoinbaseRun PubKey) : Prop :=
  r.coinbaseHeld = c ∧ coinbaseAddress ∉ r.nonGuard

theorem coinbaseHeld_updateCoinbaseTemp (r : CoinbaseRun PubKey) {a : Address}
    (ha : a ≠ coinbaseAddress) (x : ℕ) :
    (r.updateCoinbaseTemp a x).2.coinbaseHeld = r.coinbaseHeld := by
  have hstore := AccountStoreBase.weightOf_updateCoinbaseTemp r.store ha x
  have hpaid := sum_paid_updateCoinbaseTemp r a x
  unfold coinbaseHeld
  -- the store's and the record's halves of one payment
  have hfst : (r.updateCoinbaseTemp a x).1 = (r.store.updateCoinbaseTemp a coinbaseAddress x).1 := rfl
  have hsnd : (r.updateCoinbaseTemp a x).2.store = (r.store.updateCoinbaseTemp a coinbaseAddress x).2 :=
    rfl
  rw [hpaid, hsnd, hfst]
  rw [hfst] at hpaid
  omega

end CoinbaseRun

section Conserves

/-- The lucky draw pays a candidate, hence not the coinbase. -/
theorem coinbaseHeld_luckyDraw (lastBlockHash amount : ℕ) {c : ℕ} (r : CoinbaseRun PubKey)
    (h : r.Holds c) : (luckyDraw lastBlockHash amount r).1.coinbaseHeld = c := by
  obtain ⟨hc, hng⟩ := h
  unfold luckyDraw
  split_ifs with hnil
  · exact hc
  · dsimp only
    refine (CoinbaseRun.coinbaseHeld_updateCoinbaseTemp r ?_ amount).trans hc
    intro heq
    exact hng (heq ▸ List.get_mem _ _)

variable (cfg : CoinbaseConfig PubKey) (haddr : ∀ pk, cfg.getAddressFromPublicKey pk ≠ coinbaseAddress)
include haddr

theorem holds_rewardBase {c amount : ℕ} (r : CoinbaseRun PubKey) (pk : PubKey)
    (h : r.Holds c) : (rewardBase cfg amount r pk).Holds c := by
  obtain ⟨hc, hng⟩ := h
  unfold rewardBase
  by_cases hg : cfg.guardMode <;> by_cases hd : cfg.isNodeInDSGuardList pk
  all_goals simp only [hg, hd, if_true, if_false, Bool.and_true, Bool.and_false, Bool.false_eq_true]
  · exact ⟨hc, hng⟩
  -- a paid member: one payment to an address other than the coinbase
  all_goals refine ⟨?_, ?_⟩
  all_goals first
    | (rw [CoinbaseRun.coinbaseHeld_updateCoinbaseTemp _ (haddr pk)]; exact hc)
    | (rw [CoinbaseRun.nonGuard_updateCoinbaseTemp]
       simpa [List.mem_append, hng] using Ne.symm (haddr pk))

theorem holds_rewardSig {c amount : ℕ} (r : CoinbaseRun PubKey) (pk : PubKey)
    (h : r.Holds c) : (rewardSig cfg amount r pk).Holds c := by
  obtain ⟨hc, hng⟩ := h
  have hpay := CoinbaseRun.coinbaseHeld_updateCoinbaseTemp r (haddr pk) amount
  unfold rewardSig
  dsimp only
  split_ifs
  · exact ⟨hc, hng⟩
  · exact ⟨hpay.trans hc, hng⟩
  · exact ⟨hpay.trans hc, hng⟩

theorem holds_rewardLookup {c amount : ℕ} (r : CoinbaseRun PubKey) (pk : PubKey)
    (h : r.Holds c) : (rewardLookup cfg amount r pk).Holds c := by
  obtain ⟨hc, hng⟩ := h
  have hpay := CoinbaseRun.coinbaseHeld_updateCoinbaseTemp r (haddr pk) amount
  unfold rewardLookup
  dsimp only
  split_ifs
  · refine ⟨hpay.trans hc, ?_⟩
    simpa [List.mem_append, hng] using Ne.symm (haddr pk)
  · exact ⟨hpay.trans hc, hng⟩

theorem holds_rewardCosigs {c a b : ℕ} (rewardees : CoinbaseRewardees PubKey)
    (r : CoinbaseRun PubKey) (h : r.Holds c) : (rewardCosigs cfg rewardees a b r).Holds c := by
  unfold rewardCosigs
  -- the epochs, their shards, and the keys of each shard
  refine List.foldlRecOn (motive := CoinbaseRun.Holds c) _ _ h fun r hr epoch _ => ?_
  refine List.foldlRecOn (motive := CoinbaseRun.Holds c) _ _ hr fun r hr shard _ => ?_
  unfold rewardShard
  split_ifs
  · exact List.foldlRecOn (motive := CoinbaseRun.Holds c) _ _ hr
      fun r hr pk _ => holds_rewardLookup cfg haddr r pk hr
  · exact List.foldlRecOn (motive := CoinbaseRun.Holds c) _ _ hr
      fun r hr pk _ => holds_rewardSig cfg haddr r pk hr

variable (inp : CoinbaseInputs PubKey)

/-- **The coinbase pays exactly what is recorded**: when no public key derives the coinbase
    address, the payments lower the coinbase's balance by the sum `paid` records. -/
theorem payRewards_conserves (rewardees : CoinbaseRewardees PubKey) (info : RewardInformation)
    (r : CoinbaseRun PubKey) (hr : coinbaseAddress ∉ r.nonGuard) :
    (payRewards cfg inp rewardees info r).1.coinbaseHeld = r.coinbaseHeld := by
  have h0 : r.Holds r.coinbaseHeld := ⟨rfl, hr⟩
  unfold payRewards
  cases hbase : deshard info.baseEachReward info.baseRewardMulInMillis with
  | none => rfl
  | some baseDesharded =>
    dsimp only
    have h2 := List.foldlRecOn (motive := CoinbaseRun.Holds r.coinbaseHeld) inp.dsCommittee
      (rewardBase cfg baseDesharded) h0 fun r hr pk _ => holds_rewardBase cfg haddr r pk hr
    cases heach : deshard info.eachReward info.rewardEachMulInMillis with
    | none => exact h2.1
    | some eachDesharded =>
      exact coinbaseHeld_luckyDraw _ _ _ (holds_rewardCosigs cfg haddr rewardees _ h2)

/-- **`InitCoinbase` lowers the coinbase's balance by what it records as paid**, from the balance it
    had, or had once the epoch's fees were credited. -/
theorem initCoinbase_conserves (rewardees : CoinbaseRewardees PubKey) (store : AccountStoreBase) :
    (initCoinbase cfg inp rewardees store).2.1.coinbaseHeld =
        FinStore.weightOf Account.balance (store.find coinbaseAddress) ∨
      (initCoinbase cfg inp rewardees store).2.1.coinbaseHeld =
        FinStore.weightOf Account.balance
          ((store.increaseBalance coinbaseAddress inp.totalTxnFees).2.find coinbaseAddress) := by
  unfold initCoinbase
  split_ifs
  · exact .inl (by simp [CoinbaseRun.coinbaseHeld, CoinbaseRun.init])
  · dsimp only
    cases getRewardInformation (prepareRewardees cfg inp rewardees) inp.dsCommittee.length
      inp.rewardState with
    | none => exact .inl (by simp [CoinbaseRun.coinbaseHeld, CoinbaseRun.init])
    | some info =>
      refine .inr ?_
      dsimp only
      rw [payRewards_conserves cfg haddr inp _ _ _ (by simp [CoinbaseRun.init])]
      simp [CoinbaseRun.coinbaseHeld, CoinbaseRun.init]

end Conserves

/-! ## A divisor that wraps -/

/-- `⌈2 ^ 128 / 100⌉` as `percent_prec`: `100 * percent_prec` is `2 ^ 128 + 44`, `44` once wrapped. -/
def wrappingPrecision : RewardControlContractState :=
  ⟨1000, 0, 0, (2 ^ 128 + 44) / 100, 1000, 1000, 88⟩

/-- One DS member (key `1`), one lookup (key `2`), addresses `100` above the keys. -/
def overpayConfig : CoinbaseConfig ℕ := ⟨false, fun _ => false, fun pk => ⟨pk + 100⟩, 100⟩

def overpayInputs : CoinbaseInputs ℕ := ⟨[1], [2], 1, 1, 0, wrappingPrecision, 0⟩

/-- The DS member's signature of epoch `1`. -/
def overpayRewardees : CoinbaseRewardees ℕ :=
  pushRewardee OrderedMap.empty 1 CoinbaseReward.finalblockReward 1

/-- A coinbase address holding `10 ^ 6`. -/
def overpayStore : AccountStoreBase := FinStore.empty.insert coinbaseAddress (Account.new 1000000 0)

/-- **The divisor wraps**: the state is within the whole (the percentages `0 + 0 + 88` take at most
    `100 * percent_prec`, the multipliers are `1000`), yet `100 * percent_prec` is `44` in
    `uint128_t`, so the node share is `2000`, twice the total of `1000`; the DS member's one
    signature is paid all of it, `balance_left` wraps to `2 ^ 128 - 1000`, and the coinbase account
    loses `2000`. -/
theorem initCoinbase_overpays_when_divisor_wraps :
    wrappingPrecision.WithinWhole ∧ wrappingPrecision.coinbaseRewardPerDs = 1000 ∧
      (initCoinbase overpayConfig overpayInputs overpayRewardees overpayStore).2.1.paid.sum = 2000 ∧
      (initCoinbase overpayConfig overpayInputs overpayRewardees overpayStore).2.2.map
        DiagnosticDataCoinbase.balanceLeft = some (2 ^ 128 - 1000) ∧
      ((initCoinbase overpayConfig overpayInputs overpayRewardees overpayStore).2.1.store.find
        coinbaseAddress).map Account.balance = some 998000 :=
  ⟨⟨by decide, by decide, by decide⟩, rfl, by decide, by decide, by decide⟩

/-- That overpaying run still lowers the coinbase by what it records as paid. -/
theorem initCoinbase_conserves_overpay :
    (∀ pk, overpayConfig.getAddressFromPublicKey pk ≠ coinbaseAddress) ∧
      ((initCoinbase overpayConfig overpayInputs overpayRewardees overpayStore).2.1.coinbaseHeld =
          FinStore.weightOf Account.balance (overpayStore.find coinbaseAddress) ∨
        (initCoinbase overpayConfig overpayInputs overpayRewardees overpayStore).2.1.coinbaseHeld =
          FinStore.weightOf Account.balance
            ((overpayStore.increaseBalance coinbaseAddress overpayInputs.totalTxnFees).2.find
              coinbaseAddress)) := by
  -- the configuration puts every key `100` above the null address
  have haddr : ∀ pk, overpayConfig.getAddressFromPublicKey pk ≠ coinbaseAddress := by
    intro pk h
    have hval := congrArg Address.val h
    simp [overpayConfig, coinbaseAddress, Address.null] at hval
  exact ⟨haddr, initCoinbase_conserves overpayConfig haddr overpayInputs overpayRewardees overpayStore⟩

/-- The reward state above with `percent_prec = 1`, whose divisor `100` does not wrap. -/
def wholePrecision : RewardControlContractState := ⟨1000, 0, 0, 1, 1000, 1000, 88⟩

/-- With that state the same epoch pays at most the total. -/
theorem initCoinbase_pays_within_reward_whole :
    wholePrecision.WithinWhole ∧
      (initCoinbase overpayConfig { overpayInputs with rewardState := wholePrecision } overpayRewardees
        overpayStore).2.1.paid.sum ≤ wholePrecision.coinbaseRewardPerDs := by
  have hps : wholePrecision.WithinWhole := ⟨by decide, by decide, by decide⟩
  exact ⟨hps, (initCoinbase_pays_within_reward overpayConfig
    { overpayInputs with rewardState := wholePrecision } overpayRewardees overpayStore hps
    (by decide) (by decide) (by decide) (by decide)).1⟩

end Zilliqa
