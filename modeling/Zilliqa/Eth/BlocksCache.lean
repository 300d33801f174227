import Mathlib.Data.Finset.Max
import Mathlib.Data.UInt
import Zilliqa.Lib.FinStore
import Zilliqa.Lib.Fold
import Zilliqa.Lib.UpperBound

/-!
# `Eth.BlocksCache` — the finalized epochs that block filters are polled against

`BlocksCache` collects each epoch's transactions until all of them have been committed, then
appends the epoch to a deque of at most `m_depth` finalized epochs, dropping the oldest. An epoch
reaches the deque by two routes: at once from `StartEpoch` when it has no transactions, and from
`TryFinalizeEpochs`, in epoch order, once its last transaction arrives. `GetBlockFilterChanges`
answers a poll with the block hashes after the filter's cursor, which it finds by a binary search
(`std::upper_bound`) that assumes the deque is sorted.

- `length_finalizedEpochs_runCalls`: whatever the calls, the deque never holds more than `m_depth`
  epochs.
- `finalizedEpochs_interleaved`: an epoch without transactions started while an earlier one is
  still collecting is finalized first, so the deque is not sorted, the same epoch can be started
  and finalized twice, and a poll lists an epoch's hash twice and out of order.
-/

namespace Zilliqa

namespace Filters

/-- `SEEN_NOTHING`. -/
def seenNothing : ℤ := -1

/-- `static_cast<EpochNumber>(epoch)`: a `uint64_t` epoch read as an `int64_t`. -/
def toEpochNumber (epoch : UInt64) : ℤ :=
  if epoch.toNat < 2 ^ 63 then epoch.toNat else (epoch.toNat : ℤ) - 2 ^ 64

/-- `EpochInProcess`, without the transactions and their event logs: the block hash, how many
    transactions the epoch has and has received, and how many shards (`shardsInProcess.size()`). -/
structure EpochInProcess where
  blockHash : String
  totalTxns : UInt32
  currentTxns : UInt32
  numShards : ℕ
deriving DecidableEq, Repr

/-- `EpochMetadata`, without the event logs. -/
structure EpochMetadata where
  epoch : ℤ
  blockHash : String
deriving DecidableEq, Repr

/-- `BlocksCache`: the depth, the epochs still collecting transactions (an ordered map) and the
    finalized epochs (a deque). The constructor asserts a positive depth. -/
structure BlocksCache where
  depth : ℕ
  epochsInProcess : FinStore ℤ EpochInProcess
  finalizedEpochs : List EpochMetadata
  depth_pos : 0 < depth

/-- A cache with nothing in it. -/
def BlocksCache.init (depth : ℕ) (h : 0 < depth) : BlocksCache := ⟨depth, FinStore.empty, [], h⟩

namespace BlocksCache

/-- `GetLastEpoch()`: the epoch at the back of the deque, `SEEN_NOTHING` when it is empty. -/
def getLastEpoch (c : BlocksCache) : ℤ :=
  match c.finalizedEpochs.getLast? with
  | some item => item.epoch
  | none => seenNothing

/-- Appending to the deque of finalized epochs: the oldest is dropped first when it is full. -/
def appendFinalized (c : BlocksCache) (item : EpochMetadata) : BlocksCache :=
  { c with
    finalizedEpochs :=
      (if c.finalizedEpochs.length ≥ c.depth then c.finalizedEpochs.tail else c.finalizedEpochs)
        ++ [item] }

/-- `StartEpoch(epoch, block_hash, num_shards, num_txns)`: ignored unless the epoch comes after
    the last finalized one and is not already collecting; finalized at once without transactions,
    otherwise set to collect `num_txns` transactions over `num_shards + 1` shards. -/
def startEpoch (c : BlocksCache) (epoch : UInt64) (blockHash : String)
    (numShards numTxns : UInt32) : BlocksCache :=
  let n := toEpochNumber epoch
  if n ≤ c.getLastEpoch then c
  else if (c.epochsInProcess.find n).isSome then c
  else if numTxns = 0 then c.appendFinalized ⟨n, blockHash⟩
  else
    { c with
      epochsInProcess := c.epochsInProcess.insert n ⟨blockHash, numTxns, 0, (numShards + 1).toNat⟩ }

/-- The body of `TryFinalizeEpochs`' loop, on its first epoch `n`: finalized (`FinalizeOneEpoch`)
    and erased when all its transactions are in, `none` (the loop stops) otherwise. -/
def finalizeFirst (c : BlocksCache) (n : ℤ) (ctx : EpochInProcess) : Option BlocksCache :=
  if ctx.currentTxns < ctx.totalTxns then none
  else some { c.appendFinalized ⟨n, ctx.blockHash⟩ with
    epochsInProcess := c.epochsInProcess.erase n }

/-- `TryFinalizeEpochs`: while there are epochs collecting, the first in epoch order is finalized
    if it is complete; the loop stops at the first incomplete one. Each pass erases an epoch, so
    as many passes as there are epochs suffice. -/
def tryFinalizeEpochs : ℕ → BlocksCache → BlocksCache
  | 0, c => c
  | fuel + 1, c =>
    if h : c.epochsInProcess.keys.Nonempty then
      let n := c.epochsInProcess.keys.min' h
      match c.epochsInProcess.find n with
      | some ctx =>
        match finalizeFirst c n ctx with
        | some c' => tryFinalizeEpochs fuel c'
        | none => c
      | none => c
    else c

/-- `AddCommittedTransaction(epoch, shard, hash, receipt)`, without the receipt's event logs:
    ignored for an epoch that is not collecting or a shard out of range; otherwise one more
    transaction, and the complete epochs are finalized once this one is. -/
def addCommittedTransaction (c : BlocksCache) (epoch : UInt64) (shard : UInt32) : BlocksCache :=
  let n := toEpochNumber epoch
  match c.epochsInProcess.find n with
  | none => c
  | some ctx =>
    if shard.toNat ≥ ctx.numShards then c
    else
      let ctx := { ctx with currentTxns := ctx.currentTxns + 1 }
      let c := { c with epochsInProcess := c.epochsInProcess.insert n ctx }
      if ctx.currentTxns ≥ ctx.totalTxns then tryFinalizeEpochs c.epochsInProcess.keys.card c
      else c

end BlocksCache

/-! ## `std::upper_bound` -/

/-- The binary search of libstdc++'s `std::upper_bound` from `first` over `len` elements: the
    middle element is compared with the value (`below x` is `value < x`); the search goes left
    when the value is below it and right of it otherwise. `fuel` bounds the halvings. -/
def upperBoundFrom {α : Type} (xs : List α) (below : α → Bool) : ℕ → ℕ → ℕ → ℕ
  | 0, first, _ => first
  | fuel + 1, first, len =>
    if len = 0 then first
    else
      let half := len / 2
      let middle := first + half
      match xs[middle]? with
      | some x =>
        if below x then upperBoundFrom xs below fuel first half
        else upperBoundFrom xs below fuel (middle + 1) (len - half - 1)
      | none => first

/-- `std::upper_bound`: the index the binary search stops at. -/
def upperBound {α : Type} (xs : List α) (below : α → Bool) : ℕ :=
  upperBoundFrom xs below xs.length 0 xs.length

namespace BlocksCache

/-- `FindNext(after_epoch)`: where the epochs after the cursor start, by `std::upper_bound`. -/
def findNext (c : BlocksCache) (afterEpoch : ℤ) : ℕ :=
  upperBound c.finalizedEpochs fun item => decide (afterEpoch < item.epoch)

/-- `GetBlockFilterChanges(after_epoch)`: nothing new and the same cursor unless the last epoch
    is past the cursor; otherwise the block hashes from `FindNext` on, and the last epoch as the
    new cursor. -/
def getBlockFilterChanges (c : BlocksCache) (afterEpoch : ℤ) : ℤ × List String :=
  let lastEpoch := c.getLastEpoch
  if lastEpoch ≤ afterEpoch then (afterEpoch, [])
  else (lastEpoch, (c.finalizedEpochs.drop (c.findNext afterEpoch)).map (·.blockHash))

end BlocksCache

/-- The calls that change the cache. -/
inductive CacheCall where
  | startEpoch (epoch : UInt64) (blockHash : String) (numShards numTxns : UInt32)
  | addCommittedTransaction (epoch : UInt64) (shard : UInt32)

namespace BlocksCache

/-- One call. -/
def step (c : BlocksCache) : CacheCall → BlocksCache
  | .startEpoch epoch blockHash numShards numTxns => c.startEpoch epoch blockHash numShards numTxns
  | .addCommittedTransaction epoch shard => c.addCommittedTransaction epoch shard

/-- A sequence of calls. -/
def runCalls (c : BlocksCache) (calls : List CacheCall) : BlocksCache := calls.foldl step c

/-! ## The depth bound -/

@[simp] theorem depth_appendFinalized (c : BlocksCache) (item : EpochMetadata) :
    (c.appendFinalized item).depth = c.depth := rfl

/-- Appending to a deque within its depth keeps it within its depth. -/
theorem length_appendFinalized_le {c : BlocksCache} (h : c.finalizedEpochs.length ≤ c.depth)
    (item : EpochMetadata) : (c.appendFinalized item).finalizedEpochs.length ≤ c.depth := by
  have hpos := c.depth_pos
  simp only [appendFinalized, List.length_append, List.length_singleton]
  split_ifs with hfull
  · rw [List.length_tail]
    omega
  · omega

/-- The bound within one call: the depth does not change, and the deque stays within it. -/
def WithinDepth (c : BlocksCache) : Prop := c.finalizedEpochs.length ≤ c.depth

/-- Finalizing the first epoch keeps the depth and the deque within it. -/
theorem WithinDepth.finalizeFirst {c c' : BlocksCache} {n : ℤ} {ctx : EpochInProcess}
    (hc : c.WithinDepth) (h : c.finalizeFirst n ctx = some c') :
    c'.depth = c.depth ∧ c'.WithinDepth := by
  unfold BlocksCache.finalizeFirst at h
  split_ifs at h
  cases h
  exact ⟨rfl, length_appendFinalized_le hc _⟩

/-- The loop of `TryFinalizeEpochs` keeps the depth and the deque within it, pass by pass. -/
theorem WithinDepth.tryFinalizeEpochs :
    ∀ (fuel : ℕ) {c : BlocksCache}, c.WithinDepth →
      (BlocksCache.tryFinalizeEpochs fuel c).depth = c.depth ∧
        (BlocksCache.tryFinalizeEpochs fuel c).WithinDepth
  | 0, _, h => ⟨rfl, h⟩
  | fuel + 1, c, h => by
    rw [BlocksCache.tryFinalizeEpochs]
    split_ifs with hne
    · dsimp only
      split
      next ctx _ =>
        split
        next c' hfirst =>
          obtain ⟨hd, hw⟩ := h.finalizeFirst hfirst
          obtain ⟨hd', hw'⟩ := WithinDepth.tryFinalizeEpochs fuel hw
          exact ⟨hd'.trans hd, hw'⟩
        next => exact ⟨rfl, h⟩
      next => exact ⟨rfl, h⟩
    · exact ⟨rfl, h⟩

/-- Each call keeps the depth and the deque within it. -/
theorem WithinDepth.step {c : BlocksCache} (h : c.WithinDepth) (call : CacheCall) :
    (c.step call).depth = c.depth ∧ (c.step call).WithinDepth := by
  cases call with
  | startEpoch epoch blockHash numShards numTxns =>
    simp only [BlocksCache.step, BlocksCache.startEpoch]
    split_ifs
    · exact ⟨rfl, h⟩
    · exact ⟨rfl, h⟩
    · exact ⟨rfl, length_appendFinalized_le h _⟩
    · exact ⟨rfl, h⟩
  | addCommittedTransaction epoch shard =>
    simp only [BlocksCache.step, BlocksCache.addCommittedTransaction]
    split
    · exact ⟨rfl, h⟩
    · split_ifs
      · exact ⟨rfl, h⟩
      · exact WithinDepth.tryFinalizeEpochs _ h
      · exact ⟨rfl, h⟩

/-- **Whatever the calls, the deque of finalized epochs never holds more than `m_depth`
    epochs.** -/
theorem length_finalizedEpochs_runCalls (depth : ℕ) (hdepth : 0 < depth) (calls : List CacheCall) :
    ((init depth hdepth).runCalls calls).finalizedEpochs.length ≤ depth := by
  -- the invariant holds of the empty cache and each call keeps it, with the depth
  suffices h : ∀ (c : BlocksCache), c.WithinDepth →
      (c.runCalls calls).depth = c.depth ∧ (c.runCalls calls).WithinDepth by
    obtain ⟨hd, hw⟩ := h (init depth hdepth) (by simp [WithinDepth, init])
    exact hw.trans (le_of_eq hd)
  induction calls with
  | nil => exact fun c h => ⟨rfl, h⟩
  | cons call rest ih =>
    intro c h
    obtain ⟨hd, hw⟩ := h.step call
    obtain ⟨hd', hw'⟩ := ih (c.step call) hw
    exact ⟨hd'.trans hd, hw'⟩

end BlocksCache

/-! ## Two routes to the deque -/

/-- Epoch 1 is started with one transaction, then epoch 2 with none, which is finalized at once;
    then epoch 1's transaction arrives and epoch 1 is finalized after it; then epoch 2 is started
    again, since it is now after the last epoch, and finalized again. -/
def interleavedCalls : List CacheCall :=
  [.startEpoch 1 "h1" 1 1, .startEpoch 2 "h2" 1 0, .addCommittedTransaction 1 0,
    .startEpoch 2 "h2b" 1 0]

/-- **The deque of finalized epochs is not kept sorted, and a poll repeats an epoch**: after
    `interleavedCalls` the deque holds epochs 2, 1, 2, and a filter polled from `SEEN_NOTHING`
    gets the hashes of epoch 2, then epoch 1, then epoch 2 again. -/
theorem finalizedEpochs_interleaved :
    ((BlocksCache.init 10 (by decide)).runCalls interleavedCalls).finalizedEpochs.map
        (·.epoch) = [2, 1, 2] ∧
      ¬ List.IsChain (· < ·)
        (((BlocksCache.init 10 (by decide)).runCalls interleavedCalls).finalizedEpochs.map
          (·.epoch)) ∧
      ((BlocksCache.init 10 (by decide)).runCalls interleavedCalls).getBlockFilterChanges
          seenNothing = (2, ["h2", "h1", "h2b"]) := by
  decide

/-! ## Polls against a sorted deque

`FindNext` finds the first epoch after the cursor with `std::upper_bound`, which assumes the deque
is sorted by epoch. On a sorted deque the binary search agrees with a linear scan, and a poll
reports exactly the epochs after the cursor, in deque order (`getBlockFilterChanges_of_sorted`).
The deque stays sorted along every run in which no epoch without transactions is started while an
earlier epoch is still collecting (`StartsInOrder`); `finalizedEpochs_interleaved` is a run that
breaks this. -/

/-- The search of the model is the library's `std::upper_bound`. -/
theorem upperBoundFrom_eq_searchFrom {α : Type} (xs : List α) (below : α → Bool) :
    ∀ (fuel first len : ℕ),
      upperBoundFrom xs below fuel first len = UpperBound.searchFrom xs below fuel first len := by
  intro fuel
  induction fuel with
  | zero => exact fun _ _ => rfl
  | succ fuel ih =>
    intro first len
    rw [upperBoundFrom, UpperBound.searchFrom]
    dsimp only
    -- the two searches match on the middle element, each with a matcher of its own
    rcases xs[first + len / 2]? with _ | x
    · rfl
    · simp only [ih]

/-- **On a range sorted for the search, the elements from `std::upper_bound` on are those the value
    is below**: the binary search agrees with a linear scan. -/
theorem drop_upperBound_eq_filter {α : Type} {xs : List α} {below : α → Bool}
    (h : UpperBound.Switches xs below) : xs.drop (upperBound xs below) = xs.filter below := by
  unfold upperBound
  rw [upperBoundFrom_eq_searchFrom, ← UpperBound.search, UpperBound.search_eq_findIdx h]
  exact UpperBound.drop_findIdx_eq_filter h

/-- In a list sorted by a key, no element's key exceeds the last one's. -/
theorem key_le_of_getLast? {α β : Type} [Preorder β] {key : α → β} {l : List α} {a b : α}
    (h : l.Pairwise fun x y => key x ≤ key y) (ha : a ∈ l) (hb : l.getLast? = some b) :
    key a ≤ key b := by
  obtain ⟨init, rfl⟩ := List.getLast?_eq_some_iff.1 hb
  rw [List.pairwise_append] at h
  rw [List.mem_append, List.mem_singleton] at ha
  rcases ha with hinit | rfl
  · exact h.2.2 a hinit b (List.mem_singleton_self b)
  · exact le_refl _

namespace BlocksCache

/-- The deque of finalized epochs is sorted by epoch. -/
def Sorted (c : BlocksCache) : Prop := c.finalizedEpochs.Pairwise fun a b => a.epoch ≤ b.epoch

/-- On a sorted deque the last epoch is the greatest. -/
theorem epoch_le_getLastEpoch {c : BlocksCache} (h : c.Sorted) {item : EpochMetadata}
    (hmem : item ∈ c.finalizedEpochs) : item.epoch ≤ c.getLastEpoch := by
  unfold getLastEpoch
  cases hl : c.finalizedEpochs.getLast? with
  | none =>
    rw [List.getLast?_eq_none_iff.1 hl] at hmem
    cases hmem
  | some last => exact key_le_of_getLast? h hmem hl

/-- **On a sorted deque a poll reports exactly the epochs after the cursor**: the binary search
    of `FindNext` agrees with a linear scan, and the new cursor is the last epoch once it has
    passed the old one. -/
theorem getBlockFilterChanges_of_sorted {c : BlocksCache} (h : c.Sorted) (afterEpoch : ℤ) :
    c.getBlockFilterChanges afterEpoch =
      (max afterEpoch c.getLastEpoch,
        (c.finalizedEpochs.filter fun item => decide (afterEpoch < item.epoch)).map
          (·.blockHash)) := by
  unfold getBlockFilterChanges
  dsimp only
  by_cases hle : c.getLastEpoch ≤ afterEpoch
  · rw [if_pos hle, max_eq_left hle]
    -- no epoch of a sorted deque comes after its last one
    have hnone : c.finalizedEpochs.filter (fun item => decide (afterEpoch < item.epoch)) = [] := by
      rw [List.filter_eq_nil_iff]
      intro item hmem
      have := epoch_le_getLastEpoch h hmem
      rw [decide_eq_true_iff]
      omega
    rw [hnone, List.map_nil]
  · rw [if_neg hle, max_eq_right (le_of_lt (not_le.1 hle)), findNext,
      drop_upperBound_eq_filter (UpperBound.switches_of_sorted h afterEpoch)]

@[simp] theorem getLastEpoch_appendFinalized (c : BlocksCache) (item : EpochMetadata) :
    (c.appendFinalized item).getLastEpoch = item.epoch := by
  simp only [getLastEpoch, appendFinalized, List.getLast?_concat]

/-- Appending an epoch no earlier than the last keeps the deque sorted, also when the oldest is
    dropped first. -/
theorem Sorted.appendFinalized {c : BlocksCache} (h : c.Sorted) {item : EpochMetadata}
    (hlast : c.getLastEpoch ≤ item.epoch) : (c.appendFinalized item).Sorted := by
  have hkept : ∀ xs : List EpochMetadata, xs.Sublist c.finalizedEpochs →
      (xs ++ [item]).Pairwise fun a b => a.epoch ≤ b.epoch := by
    intro xs hsub
    rw [List.pairwise_append]
    refine ⟨h.sublist hsub, List.pairwise_singleton _ _, fun a ha b hb => ?_⟩
    rw [List.mem_singleton] at hb
    rw [hb]
    exact le_trans (epoch_le_getLastEpoch h (hsub.subset ha)) hlast
  unfold BlocksCache.appendFinalized Sorted
  split_ifs
  · exact hkept _ (List.tail_sublist _)
  · exact hkept _ (List.Sublist.refl _)

/-- The deque is sorted and every epoch still collecting comes after its last epoch. -/
def Orderly (c : BlocksCache) : Prop :=
  c.Sorted ∧ ∀ m ∈ c.epochsInProcess.keys, c.getLastEpoch < m

/-- The caller's side: an epoch without transactions is started only when no earlier epoch is
    still collecting. -/
def StartsInOrder (c : BlocksCache) : CacheCall → Prop
  | .startEpoch epoch _ _ numTxns =>
    numTxns = 0 → ∀ m ∈ c.epochsInProcess.keys, ¬ m < toEpochNumber epoch
  | .addCommittedTransaction _ _ => True

instance decidableStartsInOrder (c : BlocksCache) : ∀ call, Decidable (c.StartsInOrder call)
  | .startEpoch epoch _ _ numTxns =>
    inferInstanceAs
      (Decidable (numTxns = 0 → ∀ m ∈ c.epochsInProcess.keys, ¬ m < toEpochNumber epoch))
  | .addCommittedTransaction _ _ => inferInstanceAs (Decidable True)

/-- Finalizing the first epoch still collecting keeps the deque orderly. -/
theorem Orderly.finalizeFirst {c c' : BlocksCache} {n : ℤ} {ctx : EpochInProcess}
    (h : c.Orderly) (hn : n ∈ c.epochsInProcess.keys) (hmin : ∀ m ∈ c.epochsInProcess.keys, n ≤ m)
    (hf : c.finalizeFirst n ctx = some c') : c'.Orderly := by
  unfold BlocksCache.finalizeFirst at hf
  split_ifs at hf
  cases hf
  refine ⟨h.1.appendFinalized (le_of_lt (h.2 n hn)), fun m hm => ?_⟩
  -- the epochs left are the others, all after the one finalized
  simp only [FinStore.erase, Finset.mem_erase] at hm
  show (c.appendFinalized ⟨n, ctx.blockHash⟩).getLastEpoch < m
  rw [getLastEpoch_appendFinalized]
  exact lt_of_le_of_ne (hmin m hm.2) (Ne.symm hm.1)

/-- The loop of `TryFinalizeEpochs` keeps the deque orderly, pass by pass. -/
theorem Orderly.tryFinalizeEpochs :
    ∀ (fuel : ℕ) {c : BlocksCache}, c.Orderly → (BlocksCache.tryFinalizeEpochs fuel c).Orderly
  | 0, _, h => h
  | fuel + 1, c, h => by
    rw [BlocksCache.tryFinalizeEpochs]
    split_ifs with hne
    · dsimp only
      split
      next ctx _ =>
        split
        next c' hfirst =>
          exact Orderly.tryFinalizeEpochs fuel
            (h.finalizeFirst (Finset.min'_mem _ hne) (fun m hm => Finset.min'_le _ m hm) hfirst)
        next => exact h
      next => exact h
    · exact h

/-- **Each call in order keeps the deque orderly.** -/
theorem Orderly.step {c : BlocksCache} (h : c.Orderly) {call : CacheCall}
    (hcall : c.StartsInOrder call) : (c.step call).Orderly := by
  cases call with
  | startEpoch epoch blockHash numShards numTxns =>
    simp only [BlocksCache.step, BlocksCache.startEpoch]
    split_ifs with hlast hproc hempty
    · exact h
    · exact h
    · -- finalized at once: every epoch still collecting comes after it
      have hlt : c.getLastEpoch < toEpochNumber epoch := lt_of_not_ge hlast
      refine ⟨h.1.appendFinalized (le_of_lt hlt), fun m hm => ?_⟩
      rw [getLastEpoch_appendFinalized]
      have hne : m ≠ toEpochNumber epoch := by
        rintro rfl
        exact hproc ((c.epochsInProcess.mem_keys _).1 hm)
      exact lt_of_le_of_ne (le_of_not_gt (hcall hempty m hm)) (Ne.symm hne)
    · -- set to collect, after the last finalized epoch
      refine ⟨h.1, fun m hm => ?_⟩
      simp only [FinStore.insert, Finset.mem_insert] at hm
      rcases hm with rfl | hm
      · exact lt_of_not_ge hlast
      · exact h.2 m hm
  | addCommittedTransaction epoch shard =>
    simp only [BlocksCache.step, BlocksCache.addCommittedTransaction]
    split
    · exact h
    next ctx hfind =>
      -- the epoch is already collecting, so the keys do not change
      have hkey : toEpochNumber epoch ∈ c.epochsInProcess.keys := by
        rw [c.epochsInProcess.mem_keys, hfind]
        rfl
      have hins : ∀ ctx' : EpochInProcess,
          ({ c with epochsInProcess := c.epochsInProcess.insert (toEpochNumber epoch) ctx' } :
            BlocksCache).Orderly := by
        intro ctx'
        refine ⟨h.1, fun m hm => ?_⟩
        simp only [FinStore.insert, Finset.mem_insert] at hm
        rcases hm with rfl | hm
        · exact h.2 _ hkey
        · exact h.2 m hm
      split_ifs
      · exact h
      · exact Orderly.tryFinalizeEpochs _ (hins _)
      · exact hins _

/-- **On every run whose calls keep to `StartsInOrder`, a poll reports exactly the epochs after
    the cursor**, in order, and moves the cursor to the last finalized epoch once it has passed
    it: the deque stays sorted, so `FindNext`'s binary search finds the right place. -/
theorem getBlockFilterChanges_runCalls_inOrder (depth : ℕ) (hdepth : 0 < depth)
    (calls : List CacheCall) (hcalls : Fold.Along step StartsInOrder (init depth hdepth) calls)
    (afterEpoch : ℤ) :
    ((init depth hdepth).runCalls calls).getBlockFilterChanges afterEpoch =
      (max afterEpoch ((init depth hdepth).runCalls calls).getLastEpoch,
        (((init depth hdepth).runCalls calls).finalizedEpochs.filter
          fun item => decide (afterEpoch < item.epoch)).map (·.blockHash)) := by
  have hinit : (init depth hdepth).Orderly :=
    ⟨List.Pairwise.nil, fun m hm => by simp [init] at hm⟩
  have hrun : ((init depth hdepth).runCalls calls).Orderly :=
    Fold.foldl_inv (fun _ _ hs hcall => hs.step hcall) calls _ hinit hcalls
  exact getBlockFilterChanges_of_sorted hrun.1 afterEpoch

/-- Epoch 1 without transactions, epoch 2 with two in two shards, epoch 3 without. -/
def orderlyCalls : List CacheCall :=
  [.startEpoch 1 "h1" 1 0, .startEpoch 2 "h2" 1 2, .addCommittedTransaction 2 0,
    .addCommittedTransaction 2 1, .startEpoch 3 "h3" 1 0]

theorem getBlockFilterChanges_runCalls_inOrder_orderly :
    0 < 10 ∧ Fold.Along step StartsInOrder (init 10 (by decide)) orderlyCalls ∧
      ((init 10 (by decide)).runCalls orderlyCalls).getBlockFilterChanges 1 =
        (max 1 ((init 10 (by decide)).runCalls orderlyCalls).getLastEpoch,
          (((init 10 (by decide)).runCalls orderlyCalls).finalizedEpochs.filter
            fun item => decide (1 < item.epoch)).map (·.blockHash)) := by
  have hcalls : Fold.Along step StartsInOrder (init 10 (by decide)) orderlyCalls := by decide
  exact ⟨by decide, hcalls, getBlockFilterChanges_runCalls_inOrder 10 (by decide) _ hcalls 1⟩

end BlocksCache

end Filters

end Zilliqa
