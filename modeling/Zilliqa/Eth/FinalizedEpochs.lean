import Mathlib
import Zilliqa.Eth.BlocksCache
import Zilliqa.Eth.FiltersUtils
import Zilliqa.Lib.History

/-!
# `Eth.FinalizedEpochs` — the epochs `BlocksCache` hands to its callback, and its event polls

`FinalizeOneEpoch` passes each epoch it appends to the deque to `m_epochFinalizedCallback`. Here
the calls of `Eth.BlocksCache` come with the epochs they finalize, in order (`stepLog`, whose cache
is `step`'s: `stepLog_fst`).

- `Appends`: what a call does to the deque. The epochs it finalizes come after the last one, in
  increasing order, and the deque keeps the last `m_depth` of them and of those before.
  `appends_stepLog`: every call on an orderly cache appends so.
- `getEventFilterChanges`: `GetEventFilterChanges`, the poll of an event filter: the logs that
  `Match` accepts, of each finalized epoch after the cursor and within the filter's blocks. The
  logs an epoch carries come from the receipts of its transactions, which the cache model leaves
  out; they are a function of the epoch here.
-/

namespace Zilliqa

namespace Filters

/-- `BlocksCache::EventLog`. -/
structure EventLog where
  address : Str
  topics : List Str
  response : JsonValue

namespace BlocksCache

/-! ## The calls, with the epochs they finalize -/

/-- `TryFinalizeEpochs`, with the epochs its `FinalizeOneEpoch` calls pass to the callback, in
    order. -/
def tryFinalizeEpochsLog : ℕ → BlocksCache → BlocksCache × List EpochMetadata
  | 0, c => (c, [])
  | fuel + 1, c =>
    if h : c.epochsInProcess.keys.Nonempty then
      let n := c.epochsInProcess.keys.min' h
      match c.epochsInProcess.find n with
      | some ctx =>
        match c.finalizeFirst n ctx with
        | some c' =>
          let r := tryFinalizeEpochsLog fuel c'
          (r.1, ⟨n, ctx.blockHash⟩ :: r.2)
        | none => (c, [])
      | none => (c, [])
    else (c, [])

/-- `StartEpoch`, with the epoch it finalizes at once when it has no transactions. -/
def startEpochLog (c : BlocksCache) (epoch : UInt64) (blockHash : String)
    (numShards numTxns : UInt32) : BlocksCache × List EpochMetadata :=
  let n := toEpochNumber epoch
  if n ≤ c.getLastEpoch then (c, [])
  else if (c.epochsInProcess.find n).isSome then (c, [])
  else if numTxns = 0 then (c.appendFinalized ⟨n, blockHash⟩, [⟨n, blockHash⟩])
  else
    ({ c with
      epochsInProcess := c.epochsInProcess.insert n ⟨blockHash, numTxns, 0, (numShards + 1).toNat⟩ },
      [])

/-- `AddCommittedTransaction`, with the epochs it finalizes. -/
def addCommittedTransactionLog (c : BlocksCache) (epoch : UInt64) (shard : UInt32) :
    BlocksCache × List EpochMetadata :=
  let n := toEpochNumber epoch
  match c.epochsInProcess.find n with
  | none => (c, [])
  | some ctx =>
    if shard.toNat ≥ ctx.numShards then (c, [])
    else
      let ctx := { ctx with currentTxns := ctx.currentTxns + 1 }
      let c := { c with epochsInProcess := c.epochsInProcess.insert n ctx }
      if ctx.currentTxns ≥ ctx.totalTxns then tryFinalizeEpochsLog c.epochsInProcess.keys.card c
      else (c, [])

/-- One call, with the epochs it finalizes. -/
def stepLog (c : BlocksCache) : CacheCall → BlocksCache × List EpochMetadata
  | .startEpoch epoch blockHash numShards numTxns => c.startEpochLog epoch blockHash numShards numTxns
  | .addCommittedTransaction epoch shard => c.addCommittedTransactionLog epoch shard

theorem tryFinalizeEpochsLog_fst :
    ∀ (fuel : ℕ) (c : BlocksCache), (tryFinalizeEpochsLog fuel c).1 = tryFinalizeEpochs fuel c
  | 0, _ => rfl
  | fuel + 1, c => by
    rw [tryFinalizeEpochsLog, tryFinalizeEpochs]
    split_ifs with hne
    · dsimp only
      rcases c.epochsInProcess.find (c.epochsInProcess.keys.min' hne) with _ | ctx
      · rfl
      · dsimp only
        rcases c.finalizeFirst (c.epochsInProcess.keys.min' hne) ctx with _ | c'
        · rfl
        · exact tryFinalizeEpochsLog_fst fuel c'
    · rfl

/-- **The calls with their epochs change the cache as the calls do.** -/
theorem stepLog_fst (c : BlocksCache) (call : CacheCall) : (c.stepLog call).1 = c.step call := by
  cases call with
  | startEpoch epoch blockHash numShards numTxns =>
    simp only [stepLog, step, startEpochLog, startEpoch]
    split_ifs <;> rfl
  | addCommittedTransaction epoch shard =>
    simp only [stepLog, step, addCommittedTransactionLog, addCommittedTransaction]
    rcases c.epochsInProcess.find (toEpochNumber epoch) with _ | ctx
    · rfl
    · dsimp only
      split_ifs
      · rfl
      · exact tryFinalizeEpochsLog_fst _ _
      · rfl

/-! ## What a call does to the deque -/

/-- Every epoch still collecting is a number an `int64_t` holds. -/
def EpochsBelow (c : BlocksCache) : Prop := ∀ m ∈ c.epochsInProcess.keys, m < 2 ^ 63

theorem toEpochNumber_lt (epoch : UInt64) : toEpochNumber epoch < 2 ^ 63 := by
  unfold toEpochNumber
  split_ifs with h
  · exact_mod_cast h
  · have := epoch.toNat_lt
    omega

/-- `c'` is `c` with `items` finalized: they come after its last epoch, in increasing order, and
    the deque keeps the last `m_depth` of the epochs finalized so far. -/
structure Appends (c : BlocksCache) (items : List EpochMetadata) (c' : BlocksCache) : Prop where
  depth_eq : c'.depth = c.depth
  window : ∀ heads : List EpochMetadata, c.finalizedEpochs = heads.rtake c.depth →
    c'.finalizedEpochs = (heads ++ items).rtake c.depth
  lt : items.Pairwise fun a b => a.epoch < b.epoch
  after : ∀ item ∈ items, c.getLastEpoch < item.epoch
  below : ∀ item ∈ items, item.epoch < 2 ^ 63
  getLastEpoch_eq : c'.getLastEpoch = (items.getLast?.map (·.epoch)).getD c.getLastEpoch

theorem appends_refl {c c' : BlocksCache} (hdepth : c'.depth = c.depth)
    (hdeque : c'.finalizedEpochs = c.finalizedEpochs) : Appends c [] c' := by
  refine ⟨hdepth, fun heads h => by rw [hdeque, h, List.append_nil], List.Pairwise.nil,
    fun _ h => absurd h List.not_mem_nil, fun _ h => absurd h List.not_mem_nil, ?_⟩
  unfold getLastEpoch
  rw [hdeque]
  rfl

/-- The last epoch of a cache after some are finalized is at least the one before. -/
theorem Appends.getLastEpoch_le {c c' : BlocksCache} {items : List EpochMetadata}
    (h : Appends c items c') : c.getLastEpoch ≤ c'.getLastEpoch := by
  rw [h.getLastEpoch_eq]
  cases hlast : items.getLast? with
  | none => exact le_refl _
  | some item => exact le_of_lt (h.after item (List.mem_of_getLast? hlast))

/-- Every epoch finalized is at most the last one after. -/
theorem Appends.epoch_le {c c' : BlocksCache} {items : List EpochMetadata} (h : Appends c items c')
    {item : EpochMetadata} (hmem : item ∈ items) : item.epoch ≤ c'.getLastEpoch := by
  cases hlast : items.getLast? with
  | none =>
    rw [List.getLast?_eq_none_iff.1 hlast] at hmem
    cases hmem
  | some last =>
    rw [h.getLastEpoch_eq, hlast]
    exact key_le_of_getLast? (h.lt.imp le_of_lt) hmem hlast

theorem Appends.trans {c c' c'' : BlocksCache} {items₁ items₂ : List EpochMetadata}
    (h₁ : Appends c items₁ c') (h₂ : Appends c' items₂ c'') : Appends c (items₁ ++ items₂) c'' := by
  refine ⟨h₂.depth_eq.trans h₁.depth_eq, fun heads hheads => ?_, ?_, fun item hmem => ?_,
    fun item hmem => ?_, ?_⟩
  · rw [h₂.window (heads ++ items₁) (by rw [h₁.depth_eq]; exact h₁.window heads hheads),
      h₁.depth_eq, List.append_assoc]
  · -- what the second call finalizes comes after all the first did
    rw [List.pairwise_append]
    exact ⟨h₁.lt, h₂.lt, fun a ha b hb => lt_of_le_of_lt (h₁.epoch_le ha) (h₂.after b hb)⟩
  · rcases List.mem_append.1 hmem with hmem | hmem
    · exact h₁.after item hmem
    · exact lt_of_le_of_lt h₁.getLastEpoch_le (h₂.after item hmem)
  · rcases List.mem_append.1 hmem with hmem | hmem
    · exact h₁.below item hmem
    · exact h₂.below item hmem
  · rw [h₂.getLastEpoch_eq, h₁.getLastEpoch_eq, List.getLast?_append]
    cases items₂.getLast? with
    | none => rfl
    | some item => rfl

/-- `FinalizeOneEpoch` of an epoch after the last. -/
theorem appends_appendFinalized (c : BlocksCache) {item : EpochMetadata}
    (hafter : c.getLastEpoch < item.epoch) (hbelow : item.epoch < 2 ^ 63) :
    Appends c [item] (c.appendFinalized item) := by
  refine ⟨rfl, fun heads hheads => ?_, List.pairwise_singleton _ _, fun x hx => ?_,
    fun x hx => ?_, ?_⟩
  · -- the deque drops its oldest epoch when full, as the window of the history does
    have hlen : c.finalizedEpochs.length ≤ c.depth := by
      rw [hheads, List.rtake, List.length_drop]
      omega
    show (if c.finalizedEpochs.length ≥ c.depth then c.finalizedEpochs.tail
      else c.finalizedEpochs) ++ [item] = _
    rw [History.concat_rtake_of_length_le c.depth_pos hlen, hheads,
      History.rtake_append_rtake]
  · rw [List.mem_singleton.1 hx]
    exact hafter
  · rw [List.mem_singleton.1 hx]
    exact hbelow
  · rw [getLastEpoch_appendFinalized]
    rfl

/-- Finalizing the first epoch still collecting. -/
theorem appends_finalizeFirst {c c' : BlocksCache} {n : ℤ} {ctx : EpochInProcess}
    (h : c.Orderly) (hbelow : c.EpochsBelow) (hn : n ∈ c.epochsInProcess.keys)
    (hf : c.finalizeFirst n ctx = some c') : Appends c [⟨n, ctx.blockHash⟩] c' := by
  unfold BlocksCache.finalizeFirst at hf
  split_ifs at hf
  cases hf
  have happ : Appends c [⟨n, ctx.blockHash⟩] (c.appendFinalized ⟨n, ctx.blockHash⟩) :=
    appends_appendFinalized c (h.2 n hn) (hbelow n hn)
  exact ⟨happ.depth_eq, happ.window, happ.lt, happ.after, happ.below, happ.getLastEpoch_eq⟩

theorem EpochsBelow.finalizeFirst {c c' : BlocksCache} {n : ℤ} {ctx : EpochInProcess}
    (h : c.EpochsBelow) (hf : c.finalizeFirst n ctx = some c') : c'.EpochsBelow := by
  unfold BlocksCache.finalizeFirst at hf
  split_ifs at hf
  cases hf
  intro m hm
  simp only [FinStore.erase, Finset.mem_erase] at hm
  exact h m hm.2

/-- **The loop of `TryFinalizeEpochs` appends the epochs it finalizes**, each the first still
    collecting and so after the one before; the induction follows the loop's passes. -/
theorem appends_tryFinalizeEpochsLog :
    ∀ (fuel : ℕ) {c : BlocksCache}, c.Orderly → c.EpochsBelow →
      Appends c (tryFinalizeEpochsLog fuel c).2 (tryFinalizeEpochsLog fuel c).1 ∧
        (tryFinalizeEpochsLog fuel c).1.EpochsBelow
  | 0, _, _, hbelow => ⟨appends_refl rfl rfl, hbelow⟩
  | fuel + 1, c, h, hbelow => by
    rw [tryFinalizeEpochsLog]
    split_ifs with hne
    · dsimp only
      have hn := Finset.min'_mem _ hne
      have hmin : ∀ m ∈ c.epochsInProcess.keys, c.epochsInProcess.keys.min' hne ≤ m :=
        fun m hm => Finset.min'_le _ m hm
      rcases c.epochsInProcess.find (c.epochsInProcess.keys.min' hne) with _ | ctx
      · exact ⟨appends_refl rfl rfl, hbelow⟩
      · dsimp only
        rcases hf : c.finalizeFirst (c.epochsInProcess.keys.min' hne) ctx with _ | c'
        · exact ⟨appends_refl rfl rfl, hbelow⟩
        · dsimp only
          obtain ⟨happ, hbelow'⟩ := appends_tryFinalizeEpochsLog fuel
            (h.finalizeFirst hn hmin hf) (hbelow.finalizeFirst hf)
          exact ⟨(appends_finalizeFirst h hbelow hn hf).trans happ, hbelow'⟩
    · exact ⟨appends_refl rfl rfl, hbelow⟩

/-- Counting one more transaction of an epoch already collecting keeps the cache orderly. -/
theorem Orderly.insert_mem {c : BlocksCache} (h : c.Orderly) {n : ℤ}
    (hn : n ∈ c.epochsInProcess.keys) (ctx : EpochInProcess) :
    ({ c with epochsInProcess := c.epochsInProcess.insert n ctx } : BlocksCache).Orderly := by
  refine ⟨h.1, fun m hm => ?_⟩
  simp only [FinStore.insert, Finset.mem_insert] at hm
  rcases hm with rfl | hm
  · exact h.2 _ hn
  · exact h.2 m hm

/-- **Every call on an orderly cache appends the epochs it finalizes.** -/
theorem appends_stepLog {c : BlocksCache} (h : c.Orderly) (hbelow : c.EpochsBelow)
    (call : CacheCall) : Appends c (c.stepLog call).2 (c.stepLog call).1 ∧
      (c.stepLog call).1.EpochsBelow := by
  cases call with
  | startEpoch epoch blockHash numShards numTxns =>
    simp only [stepLog, startEpochLog]
    split_ifs with hlast hproc hempty
    · exact ⟨appends_refl rfl rfl, hbelow⟩
    · exact ⟨appends_refl rfl rfl, hbelow⟩
    · -- finalized at once, after the last epoch
      exact ⟨appends_appendFinalized c (lt_of_not_ge hlast) (toEpochNumber_lt epoch), hbelow⟩
    · refine ⟨appends_refl rfl rfl, fun m hm => ?_⟩
      simp only [FinStore.insert, Finset.mem_insert] at hm
      rcases hm with rfl | hm
      · exact toEpochNumber_lt epoch
      · exact hbelow m hm
  | addCommittedTransaction epoch shard =>
    simp only [stepLog, addCommittedTransactionLog]
    rcases hfind : c.epochsInProcess.find (toEpochNumber epoch) with _ | ctx
    · exact ⟨appends_refl rfl rfl, hbelow⟩
    · dsimp only
      -- the epoch is already collecting, so the keys do not change
      have hkey : toEpochNumber epoch ∈ c.epochsInProcess.keys := by
        rw [c.epochsInProcess.mem_keys, hfind]
        rfl
      have hbelow' : ∀ ctx' : EpochInProcess,
          ({ c with epochsInProcess := c.epochsInProcess.insert (toEpochNumber epoch) ctx' } :
            BlocksCache).EpochsBelow := by
        intro ctx' m hm
        simp only [FinStore.insert, Finset.mem_insert] at hm
        rcases hm with rfl | hm
        · exact hbelow _ hkey
        · exact hbelow m hm
      split_ifs
      · exact ⟨appends_refl rfl rfl, hbelow⟩
      · obtain ⟨happ, hb⟩ := appends_tryFinalizeEpochsLog _
          (h.insert_mem hkey { ctx with currentTxns := ctx.currentTxns + 1 }) (hbelow' _)
        have hrefl : Appends c [] { c with
            epochsInProcess := c.epochsInProcess.insert (toEpochNumber epoch)
              { ctx with currentTxns := ctx.currentTxns + 1 } } := appends_refl rfl rfl
        have hall := hrefl.trans happ
        rw [List.nil_append] at hall
        exact ⟨hall, hb⟩
      · exact ⟨appends_refl rfl rfl, hbelow' _⟩

/-! ## `GetEventFilterChanges` -/

/-- `GetEventFilterChanges(after_epoch, filter)`, with the logs each finalized epoch carries:
    nothing new and the same cursor unless the last epoch is past the cursor and the filter is not
    for the pending block; otherwise the logs `Match` accepts, of each epoch from `FindNext` of the
    epoch to begin after up to the filter's last block, and the last epoch as the new cursor. -/
def getEventFilterChanges (c : BlocksCache) (logsOf : EpochMetadata → List EventLog)
    (afterEpoch : ℤ) (filter : EventFilterParams) : ℤ × List JsonValue :=
  let lastEpoch := c.getLastEpoch
  if lastEpoch ≤ afterEpoch ∨ filter.fromBlock = pendingEpoch then (afterEpoch, [])
  else
    let beginEpoch :=
      if afterEpoch + 1 < filter.fromBlock then filter.fromBlock - 1
      else if filter.fromBlock = latestEpoch then lastEpoch - 1
      else afterEpoch
    -- `std::numeric_limits<EpochNumber>::max()` unless the filter has a last block
    let endEpoch := if 0 ≤ filter.toBlock then filter.toBlock else 2 ^ 63 - 1
    (lastEpoch,
      ((c.finalizedEpochs.drop (c.findNext beginEpoch)).takeWhile
          fun item => decide (item.epoch ≤ endEpoch)).flatMap fun item =>
        ((logsOf item).filter fun log => «match» filter log.address log.topics).map (·.response))

end BlocksCache

/-- The epochs an event filter's blocks cover: from `fromBlock` on, and up to `toBlock` when that
    is a number. -/
def EventFilterParams.Covers (filter : EventFilterParams) (epoch : ℤ) : Prop :=
  filter.fromBlock ≤ epoch ∧ (0 ≤ filter.toBlock → epoch ≤ filter.toBlock)

instance EventFilterParams.decidableCovers (filter : EventFilterParams) (epoch : ℤ) :
    Decidable (filter.Covers epoch) :=
  inferInstanceAs (Decidable (filter.fromBlock ≤ epoch ∧ (0 ≤ filter.toBlock → epoch ≤ filter.toBlock)))

/-- What an event filter is owed for one epoch: the responses of its logs that `Match` accepts,
    in order. -/
def matchedLogs (logsOf : EpochMetadata → List EventLog) (filter : EventFilterParams)
    (item : EpochMetadata) : List JsonValue :=
  ((logsOf item).filter fun log => «match» filter log.address log.topics).map (·.response)

namespace BlocksCache

/-- **On a sorted deque of epochs an `int64_t` holds, a poll of an event filter that starts
    neither at `latest` nor at `pending` reports the logs it matches of exactly the epochs after the
    cursor that its blocks cover**, and the cursor moves to the last epoch once that is past it.
    The binary search of `FindNext` and the scan that stops past `toBlock` both agree with a
    filter. -/
theorem getEventFilterChanges_of_sorted {c : BlocksCache} (h : c.Sorted)
    (hbelow : ∀ item ∈ c.finalizedEpochs, item.epoch < 2 ^ 63)
    (logsOf : EpochMetadata → List EventLog) (afterEpoch : ℤ) {filter : EventFilterParams}
    (hlatest : filter.fromBlock ≠ latestEpoch) (hpending : filter.fromBlock ≠ pendingEpoch) :
    c.getEventFilterChanges logsOf afterEpoch filter =
      (max afterEpoch c.getLastEpoch,
        (c.finalizedEpochs.filter fun item =>
          decide (afterEpoch < item.epoch ∧ filter.Covers item.epoch)).flatMap
            (matchedLogs logsOf filter)) := by
  unfold getEventFilterChanges
  dsimp only
  by_cases hle : c.getLastEpoch ≤ afterEpoch
  · rw [if_pos (Or.inl hle), max_eq_left hle]
    -- no epoch of a sorted deque comes after its last one
    have hnone : c.finalizedEpochs.filter (fun item =>
        decide (afterEpoch < item.epoch ∧ filter.Covers item.epoch)) = [] := by
      rw [List.filter_eq_nil_iff]
      intro item hmem hin
      have := epoch_le_getLastEpoch h hmem
      have := (of_decide_eq_true hin).1
      omega
    rw [hnone, List.flatMap_nil]
  · rw [if_neg (not_or.2 ⟨hle, hpending⟩), if_neg hlatest,
      max_eq_right (le_of_lt (not_le.1 hle))]
    -- the epoch to begin after is the later of the cursor and the one before `fromBlock`
    have hbegin : ∀ e : ℤ, (if afterEpoch + 1 < filter.fromBlock then filter.fromBlock - 1
        else afterEpoch) < e ↔ afterEpoch < e ∧ filter.fromBlock ≤ e := by
      intro e
      split_ifs <;> omega
    generalize (if afterEpoch + 1 < filter.fromBlock then filter.fromBlock - 1
      else afterEpoch) = beginEpoch at hbegin
    generalize hend : (if 0 ≤ filter.toBlock then filter.toBlock else 2 ^ 63 - 1) = endEpoch
    rw [findNext, drop_upperBound_eq_filter (UpperBound.switches_of_sorted h beginEpoch),
      History.takeWhile_eq_filter ((h.filter _).imp fun hxy hy =>
        decide_eq_true (le_trans hxy (of_decide_eq_true hy))), List.filter_filter]
    -- an epoch is read when it is past the begin and no later than the end
    have hcongr : ∀ item ∈ c.finalizedEpochs,
        (decide (item.epoch ≤ endEpoch) && decide (beginEpoch < item.epoch)) =
          decide (afterEpoch < item.epoch ∧ filter.Covers item.epoch) := by
      intro item hmem
      have := hbelow item hmem
      rw [Bool.eq_iff_iff, Bool.and_eq_true, decide_eq_true_iff, decide_eq_true_iff,
        decide_eq_true_iff, hbegin, ← hend, EventFilterParams.Covers]
      constructor
      · rintro ⟨hend, hafter, hfrom⟩
        refine ⟨hafter, hfrom, fun hto => ?_⟩
        rw [if_pos hto] at hend
        exact hend
      · rintro ⟨hafter, hfrom, hto⟩
        refine ⟨?_, hafter, hfrom⟩
        split_ifs with hnum
        · exact hto hnum
        · omega
    rw [List.filter_congr hcongr]
    rfl

end BlocksCache

end Filters

end Zilliqa
