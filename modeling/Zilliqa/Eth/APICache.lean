import Mathlib
import Zilliqa.Eth.FiltersImpl
import Zilliqa.Eth.FinalizedEpochs

/-!
# `Eth.APICache` — the filter API over the two caches

`APICacheImpl` wires the pieces together. The node's updates go to the pending-transaction cache
and to the blocks cache; for each epoch the blocks cache finalizes, its callback `EpochFinalized`
sets the filter backend's epoch range (`SetEpochRange`), and the backend answers polls from the
two caches through the `TxCache` methods the cache implements. The subscriptions are left out.

- `Inv`: along every run in which epochs are started in order and the filter counter has room,
  the epochs finalized so far have increasing numbers, the deque holds the last `TXMETADATADEPTH`
  of them, the backend's epoch range is the one the last of them set, and every block filter's
  cursor is within the finalized epochs (`inv_run`).
- `blockFilter_poll_gets_every_epoch_once`: so a block filter's polls return the hash of every
  epoch finalized after its cursor, once each and in order, as long as no poll finds more epochs
  past the cursor than the deque holds.
-/

namespace Zilliqa

namespace Filters

/-- `TXMETADATADEPTH`: the depth of both caches, about seven days of epochs. -/
def txMetadataDepth : ℕ := 17150

/-- `NormalizeHexString`: `0x` in front unless the second character is an `x`. -/
def normalizeHexString (str : String) : String :=
  if str.length < 2 ∨ str.toList[1]? ≠ some 'x' then "0x" ++ str else str

/-- A hash as the string a poll appends to its array. -/
def hashJson (hash : String) : JsonValue := .string hash.toList

/-- The elements of an array; nothing for any other value. -/
def JsonValue.items : JsonValue → List JsonValue
  | .array items => items
  | _ => []

/-! ## What the backend does to the cursors of block filters -/

namespace FilterAPIBackendImpl

/-- The cursor of the block filter under an id, if one is installed. -/
def blockCursor (b : FilterAPIBackendImpl) (filterId : Str) : Option ℤ :=
  (b.blockFilters.find filterId).map (·.lastSeen)

/-- `b'` keeps some of the block filters of `b`, each with the cursor it had. -/
def KeepsCursors (b b' : FilterAPIBackendImpl) : Prop :=
  ∀ x c, b'.blockCursor x = some c → b.blockCursor x = some c

theorem KeepsCursors.trans {b b' b'' : FilterAPIBackendImpl} (h : KeepsCursors b b')
    (h' : KeepsCursors b' b'') : KeepsCursors b b'' :=
  fun x c hc => h x c (h' x c hc)

theorem keepsCursors_of_eq {b b' : FilterAPIBackendImpl} (h : b'.blockFilters = b.blockFilters) :
    KeepsCursors b b' := by
  intro x c hc
  unfold blockCursor at hc ⊢
  rw [← h]
  exact hc

theorem keepsCursors_of_erase {b b' : FilterAPIBackendImpl} {k : Str}
    (h : b'.blockFilters = b.blockFilters.erase k) : KeepsCursors b b' := by
  intro x c hc
  unfold blockCursor at hc ⊢
  rw [h, FinStore.find_erase] at hc
  split_ifs at hc
  · cases hc
  · exact hc

theorem keepsCursors_uninstallFilterOfType (b : FilterAPIBackendImpl) (filterId : Str)
    (type : FilterType) : KeepsCursors b (b.uninstallFilterOfType filterId type).2 := by
  unfold uninstallFilterOfType
  split_ifs
  · exact keepsCursors_of_eq rfl
  · exact keepsCursors_of_eq rfl
  · exact keepsCursors_of_erase rfl

/-- The loop of `SetEpochRange` keeps the block filters it does not uninstall as they were; the
    induction is on the entries due, with the backend generalised. -/
theorem keepsCursors_uninstallDue :
    ∀ (due : List (ℕ × Str)) (b : FilterAPIBackendImpl), KeepsCursors b (b.uninstallDue due)
  | [], _ => fun _ _ hc => hc
  | entry :: due, b =>
    (keepsCursors_uninstallFilterOfType b entry.2 (guessFilterType entry.2)).trans
      (keepsCursors_uninstallDue due _)

theorem keepsCursors_setEpochRange (b : FilterAPIBackendImpl) (earliest latest : UInt64)
    (now : ℕ) : KeepsCursors b (b.setEpochRange earliest latest now) := by
  unfold setEpochRange
  dsimp only
  split_ifs
  · exact keepsCursors_uninstallDue _ b
  · exact (keepsCursors_of_eq rfl).trans (keepsCursors_uninstallDue _ _)

theorem keepsCursors_uninstallFilter (b : FilterAPIBackendImpl) (filterId : Str) :
    KeepsCursors b (b.uninstallFilter filterId).2 := by
  unfold uninstallFilter
  dsimp only
  split_ifs
  · exact fun _ _ hc => hc
  · exact keepsCursors_uninstallFilterOfType b filterId _

/-- `SetEpochRange` changes the range as `SetEpochRange` reads it, whatever it uninstalls. -/
theorem setEpochRange_range (b : FilterAPIBackendImpl) (earliest latest : UInt64) (now : ℕ) :
    ((b.setEpochRange earliest latest now).earliestEpoch,
        (b.setEpochRange earliest latest now).latestEpoch) =
      if toEpochNumber earliest < 1 ∨ toEpochNumber latest < 1 ∨
          toEpochNumber latest < toEpochNumber earliest ∨ toEpochNumber earliest < b.earliestEpoch ∨
          toEpochNumber latest < b.latestEpoch
      then (b.earliestEpoch, b.latestEpoch) else (toEpochNumber earliest, toEpochNumber latest) := by
  unfold setEpochRange
  dsimp only
  split_ifs
  · obtain ⟨-, -, hearliest, hlatest, -⟩ :=
      uninstallDue_spec (b.expiration.filter fun entry => entry.1 ≤ now) b
    rw [hearliest, hlatest]
  · obtain ⟨-, -, hearliest, hlatest, -⟩ :=
      uninstallDue_spec (b.expiration.filter fun entry => entry.1 ≤ now)
        { b with earliestEpoch := toEpochNumber earliest, latestEpoch := toEpochNumber latest }
    rw [hearliest, hlatest]

/-- The installs of event and pending-transaction filters leave the block filters alone. -/
theorem blockFilters_installNewEventFilter (stoull : Str → Except String ℕ)
    (b : FilterAPIBackendImpl) (params : JsonValue) (now : ℕ) :
    (b.installNewEventFilter stoull params now).2.blockFilters = b.blockFilters := by
  unfold installNewEventFilter
  split_ifs
  · rfl
  · split <;> rfl

theorem blockFilters_installNewPendingTxnFilter (b : FilterAPIBackendImpl) (now : ℕ) :
    (b.installNewPendingTxnFilter now).2.blockFilters = b.blockFilters := by
  unfold installNewPendingTxnFilter
  split_ifs <;> rfl

/-- `InstallNewBlockFilter` gives the new id the cursor just before the latest epoch. -/
theorem blockCursor_installNewBlockFilter (b : FilterAPIBackendImpl) (now : ℕ) (x : Str) :
    (b.installNewBlockFilter now).2.blockCursor x =
      if ¬ b.latestEpoch < 0 ∧ x = newFilterId (b.filterCounter + 1) .blkFilter (by decide)
      then some (b.latestEpoch - 1) else b.blockCursor x := by
  unfold installNewBlockFilter
  by_cases hready : b.latestEpoch < 0
  · rw [if_pos hready, if_neg (fun h => h.1 hready)]
  · rw [if_neg hready]
    unfold blockCursor registerNewFilter
    dsimp only
    rw [FinStore.find_insert]
    by_cases hx : x = newFilterId (b.filterCounter + 1) .blkFilter (by decide)
    · rw [if_pos hx, if_pos ⟨hready, hx⟩]
      rfl
    · rw [if_neg hx, if_neg (fun h => hx h.2)]

/-- A poll of a block filter map moves no cursor but the polled filter's. -/
theorem find_pollFilterMap_of_ne {F : Type} (base : F → InstalledFilter) (setLastSeen : F → ℤ → F)
    (filters : FinStore Str F) (latestEpoch : ℤ) (changes : F → ℤ → PollResult → ℤ × PollResult)
    {filterId x : Str} (hx : x ≠ filterId) (ret : PollResult) :
    (pollFilterMap base setLastSeen filters latestEpoch changes filterId ret).2.2.find x =
      filters.find x := by
  unfold pollFilterMap
  cases filters.find filterId with
  | none => rfl
  | some filter =>
    dsimp only
    split_ifs
    · rfl
    · exact FinStore.find_insert_ne _ _ hx

/-- **A poll moves no block filter's cursor but the polled one's.** -/
theorem blockCursor_getFilterChanges_of_ne (b : FilterAPIBackendImpl) (cache : TxCache)
    (filterId : Str) (now : ℕ) {x : Str} (hx : x ≠ filterId) :
    (b.getFilterChanges cache filterId now).2.blockCursor x = b.blockCursor x := by
  show ((b.dispatchFilterChanges cache filterId {}).2.2.blockFilters.find x).map (·.lastSeen) =
    (b.blockFilters.find x).map (·.lastSeen)
  unfold dispatchFilterChanges
  cases guessFilterType filterId with
  | invalid => rfl
  | eventFilter =>
    dsimp only
    rw [getEventFilterChanges_false]
  | txnFilter => rfl
  | blkFilter =>
    show ((pollFilterMap id (fun filter lastSeen => { filter with lastSeen }) b.blockFilters
      b.latestEpoch (fun _ => cache.getBlockFilterChanges) filterId {}).2.2.find x).map
        (·.lastSeen) = _
    rw [find_pollFilterMap_of_ne _ _ _ _ _ hx]

/-- **A poll of a block filter**: once its cursor has reached the latest epoch, an empty array and
    the same cursor; otherwise what the cache reports from the cursor, and the cache's new
    cursor. -/
theorem getFilterChanges_blockFilter (b : FilterAPIBackendImpl) (cache : TxCache) (filterId : Str)
    (now : ℕ) (htype : guessFilterType filterId = .blkFilter) {filter : InstalledFilter}
    (hfind : b.blockFilters.find filterId = some filter) :
    (b.getFilterChanges cache filterId now).1 =
        (if b.latestEpoch ≤ filter.lastSeen then { success := true, result := .array [] }
          else (cache.getBlockFilterChanges filter.lastSeen { result := .array [] }).2) ∧
      (b.getFilterChanges cache filterId now).2.blockCursor filterId =
        some (if b.latestEpoch ≤ filter.lastSeen then filter.lastSeen
          else (cache.getBlockFilterChanges filter.lastSeen { result := .array [] }).1) := by
  show (b.dispatchFilterChanges cache filterId {}).1 = _ ∧
    ((b.dispatchFilterChanges cache filterId {}).2.2.blockFilters.find filterId).map
      (·.lastSeen) = _
  unfold dispatchFilterChanges
  rw [htype]
  show (pollFilterMap id (fun filter lastSeen => { filter with lastSeen }) b.blockFilters
      b.latestEpoch (fun _ => cache.getBlockFilterChanges) filterId {}).1 = _ ∧
    ((pollFilterMap id (fun filter lastSeen => { filter with lastSeen }) b.blockFilters
      b.latestEpoch (fun _ => cache.getBlockFilterChanges) filterId {}).2.2.find filterId).map
        (·.lastSeen) = _
  unfold pollFilterMap
  rw [hfind]
  dsimp only [id]
  split_ifs
  · exact ⟨rfl, by rw [hfind]; rfl⟩
  · exact ⟨rfl, by rw [FinStore.find_insert_self]; rfl⟩

/-- Whatever a poll does to the polled id's block cursor: nothing, or the move of
    `getFilterChanges_blockFilter` on a block filter installed under it. -/
theorem blockCursor_getFilterChanges_self (b : FilterAPIBackendImpl) (cache : TxCache)
    (filterId : Str) (now : ℕ) :
    (b.getFilterChanges cache filterId now).2.blockCursor filterId = b.blockCursor filterId ∨
      ∃ filter : InstalledFilter, b.blockFilters.find filterId = some filter ∧
        (b.getFilterChanges cache filterId now).2.blockCursor filterId =
          some (if b.latestEpoch ≤ filter.lastSeen then filter.lastSeen
            else (cache.getBlockFilterChanges filter.lastSeen { result := .array [] }).1) := by
  cases htype : guessFilterType filterId with
  | blkFilter =>
    cases hfind : b.blockFilters.find filterId with
    | none =>
      left
      show ((b.dispatchFilterChanges cache filterId {}).2.2.blockFilters.find filterId).map
        (·.lastSeen) = (b.blockFilters.find filterId).map (·.lastSeen)
      unfold dispatchFilterChanges
      rw [htype]
      show ((pollFilterMap id (fun filter lastSeen => { filter with lastSeen }) b.blockFilters
        b.latestEpoch (fun _ => cache.getBlockFilterChanges) filterId {}).2.2.find filterId).map
          (·.lastSeen) = _
      unfold pollFilterMap
      rw [hfind]
      dsimp only
      rw [hfind]
    | some filter =>
      exact Or.inr ⟨filter, rfl, (getFilterChanges_blockFilter b cache filterId now htype hfind).2⟩
  | invalid =>
    left
    show ((b.dispatchFilterChanges cache filterId {}).2.2.blockFilters.find filterId).map
      (·.lastSeen) = (b.blockFilters.find filterId).map (·.lastSeen)
    unfold dispatchFilterChanges
    rw [htype]
  | txnFilter =>
    left
    show ((b.dispatchFilterChanges cache filterId {}).2.2.blockFilters.find filterId).map
      (·.lastSeen) = (b.blockFilters.find filterId).map (·.lastSeen)
    unfold dispatchFilterChanges
    rw [htype]
    rfl
  | eventFilter =>
    left
    show ((b.dispatchFilterChanges cache filterId {}).2.2.blockFilters.find filterId).map
      (·.lastSeen) = (b.blockFilters.find filterId).map (·.lastSeen)
    unfold dispatchFilterChanges
    rw [htype]
    dsimp only
    rw [getEventFilterChanges_false]

end FilterAPIBackendImpl

/-! ## `APICacheImpl` -/

/-- `APICacheImpl`, without the subscriptions. -/
structure APICacheImpl where
  filterAPI : FilterAPIBackendImpl
  pendingTxnCache : PendingTxnCache
  blocksCache : BlocksCache

/-- The calls of `APICacheImpl`: the updates of `APICacheUpdate`, with the time of those that may
    finalize an epoch, and the calls of the filter API. -/
inductive APICall where
  | addPendingTransaction (hash : String) (epoch : UInt64)
  | startEpoch (epoch : UInt64) (blockHash : String) (numShards numTxns : UInt32) (now : ℕ)
  | addCommittedTransaction (epoch : UInt64) (shard : UInt32) (hash : String) (now : ℕ)
  | installNewEventFilter (params : JsonValue) (now : ℕ)
  | installNewBlockFilter (now : ℕ)
  | installNewPendingTxnFilter (now : ℕ)
  | uninstallFilter (filterId : Str)
  | getFilterChanges (filterId : Str) (now : ℕ)
  | getFilterLogs (filterId : Str)
  | getLogs (params : JsonValue)

/-- What a call answers. -/
inductive Response where
  | none
  | install (result : InstallResult)
  | uninstall (found : Bool)
  | poll (result : PollResult)

/-- The array a poll answers with. -/
def Response.items : Response → List JsonValue
  | .poll result => result.result.items
  | _ => []

/-- Whether a call is a poll of the filter. -/
def APICall.polls (filterId : Str) : APICall → Bool
  | .getFilterChanges x _ => decide (x = filterId)
  | _ => false

namespace APICacheImpl

/-- A cache just made: an empty backend and two empty caches of depth `TXMETADATADEPTH`. -/
def init : APICacheImpl :=
  ⟨FilterAPIBackendImpl.init, PendingTxnCache.init txMetadataDepth (by decide),
    BlocksCache.init txMetadataDepth (by decide)⟩

/-- The `TxCache` methods of `APICacheImpl`, from the two caches: each answers with an array,
    and success. -/
def txCache (logsOf : EpochMetadata → List EventLog) (a : APICacheImpl) : TxCache where
  getEventFilterChanges afterEpoch filter ret :=
    let r := a.blocksCache.getEventFilterChanges logsOf afterEpoch filter
    (r.1, { ret with success := true, result := .array r.2 })
  getBlockFilterChanges afterEpoch ret :=
    let r := a.blocksCache.getBlockFilterChanges afterEpoch
    (r.1, { ret with success := true, result := .array (r.2.map hashJson) })
  getPendingTxnsFilterChanges afterCounter ret :=
    let r := a.pendingTxnCache.getPendingTxnsFilterChanges afterCounter
    (r.1, { ret with success := true, result := .array (r.2.map hashJson) })

/-- `EpochFinalized(meta)` at time `now`, without the subscriptions: the epoch range becomes the
    `TXMETADATADEPTH` epochs up to the one finalized, numbered as a `uint64_t`. -/
def epochFinalized (now : ℕ) (filterAPI : FilterAPIBackendImpl) (item : EpochMetadata) :
    FilterAPIBackendImpl :=
  let epoch := UInt64.ofInt item.epoch
  let earliest := if epoch > txMetadataDepth.toUInt64 then epoch - txMetadataDepth.toUInt64 else 1
  filterAPI.setEpochRange earliest epoch now

/-- A call of the blocks cache, then `EpochFinalized` for each epoch it finalized, in order. -/
def updateBlocks (a : APICacheImpl) (call : CacheCall) (now : ℕ) :
    APICacheImpl × List EpochMetadata :=
  let r := a.blocksCache.stepLog call
  ({ a with blocksCache := r.1, filterAPI := r.2.foldl (epochFinalized now) a.filterAPI }, r.2)

/-- A call's outcome: the cache after it, the epochs it finalized, in the order `EpochFinalized`
    received them, and the answer. -/
structure Outcome where
  cache : APICacheImpl
  finalized : List EpochMetadata
  response : Response

/-- One call. Hashes are normalized before they reach the caches. -/
def step (stoull : Str → Except String ℕ) (logsOf : EpochMetadata → List EventLog)
    (a : APICacheImpl) : APICall → Outcome
  | .addPendingTransaction hash epoch =>
    ⟨{ a with pendingTxnCache :=
        (a.pendingTxnCache.append (normalizeHexString hash) (toEpochNumber epoch)).2 }, [], .none⟩
  | .startEpoch epoch blockHash numShards numTxns now =>
    let r := a.updateBlocks (.startEpoch epoch (normalizeHexString blockHash) numShards numTxns) now
    ⟨r.1, r.2, .none⟩
  | .addCommittedTransaction epoch shard hash now =>
    let r := a.updateBlocks (.addCommittedTransaction epoch shard) now
    ⟨{ r.1 with
        pendingTxnCache := r.1.pendingTxnCache.transactionCommitted (normalizeHexString hash) },
      r.2, .none⟩
  | .installNewEventFilter params now =>
    let r := a.filterAPI.installNewEventFilter stoull params now
    ⟨{ a with filterAPI := r.2 }, [], .install r.1⟩
  | .installNewBlockFilter now =>
    let r := a.filterAPI.installNewBlockFilter now
    ⟨{ a with filterAPI := r.2 }, [], .install r.1⟩
  | .installNewPendingTxnFilter now =>
    let r := a.filterAPI.installNewPendingTxnFilter now
    ⟨{ a with filterAPI := r.2 }, [], .install r.1⟩
  | .uninstallFilter filterId =>
    let r := a.filterAPI.uninstallFilter filterId
    ⟨{ a with filterAPI := r.2 }, [], .uninstall r.1⟩
  | .getFilterChanges filterId now =>
    let r := a.filterAPI.getFilterChanges (a.txCache logsOf) filterId now
    ⟨{ a with filterAPI := r.2 }, [], .poll r.1⟩
  | .getFilterLogs filterId =>
    ⟨a, [], .poll (a.filterAPI.getFilterLogs (a.txCache logsOf) filterId)⟩
  | .getLogs params => ⟨a, [], .poll (a.filterAPI.getLogs stoull (a.txCache logsOf) params)⟩

/-- The calls the results assume of the node: an epoch without transactions is started only when
    no earlier epoch is still collecting (`StartsInOrder`). -/
def InOrder (a : APICacheImpl) : APICall → Prop
  | .startEpoch epoch blockHash numShards numTxns _ =>
    a.blocksCache.StartsInOrder (.startEpoch epoch (normalizeHexString blockHash) numShards numTxns)
  | _ => True

instance decidableInOrder (a : APICacheImpl) : ∀ call, Decidable (a.InOrder call)
  | .startEpoch epoch blockHash numShards numTxns _ =>
    BlocksCache.decidableStartsInOrder a.blocksCache
      (.startEpoch epoch (normalizeHexString blockHash) numShards numTxns)
  | .addPendingTransaction _ _ => isTrue trivial
  | .addCommittedTransaction _ _ _ _ => isTrue trivial
  | .installNewEventFilter _ _ => isTrue trivial
  | .installNewBlockFilter _ => isTrue trivial
  | .installNewPendingTxnFilter _ => isTrue trivial
  | .uninstallFilter _ => isTrue trivial
  | .getFilterChanges _ _ => isTrue trivial
  | .getFilterLogs _ => isTrue trivial
  | .getLogs _ => isTrue trivial

/-- A call in order, with room in the filter counter for the next id. -/
def Fair (a : APICacheImpl) (call : APICall) : Prop := a.filterAPI.Room ∧ a.InOrder call

instance decidableFair (a : APICacheImpl) (call : APICall) : Decidable (a.Fair call) :=
  inferInstanceAs (Decidable (a.filterAPI.Room ∧ a.InOrder call))

/-! ## The epoch range -/

/-- The epoch range `EpochFinalized` leaves the backend with once `last` is the last epoch
    finalized: none until an epoch from 1 on is, as `SetEpochRange` refuses a latest epoch 0. -/
def rangeAfter (last : ℤ) : ℤ × ℤ :=
  if 1 ≤ last then (if (txMetadataDepth : ℤ) < last then last - txMetadataDepth else 1, last)
  else (seenNothing, seenNothing)

theorem toEpochNumber_of_lt {x : UInt64} (h : x.toNat < 2 ^ 63) : toEpochNumber x = x.toNat := by
  unfold toEpochNumber
  rw [if_pos h]

/-- **`EpochFinalized` of an epoch after `prev` moves the range from `prev`'s to the epoch's**: the
    epoch goes through `uint64_t` and back unchanged, and `SetEpochRange` takes the range unless
    the epoch is 0. -/
theorem epochFinalized_range {b : FilterAPIBackendImpl} {prev : ℤ}
    (hrange : (b.earliestEpoch, b.latestEpoch) = rangeAfter prev) (hprev : seenNothing ≤ prev)
    (now : ℕ) {item : EpochMetadata} (hlt : prev < item.epoch) (hbelow : item.epoch < 2 ^ 63) :
    ((epochFinalized now b item).earliestEpoch, (epochFinalized now b item).latestEpoch) =
      rangeAfter item.epoch := by
  have h0 : 0 ≤ item.epoch := by
    unfold seenNothing at hprev
    omega
  have hepoch : (UInt64.ofInt item.epoch).toNat = item.epoch.toNat := by
    rw [UInt64.ofInt, UInt64.toNat_ofNat', Int.emod_eq_of_lt h0 (by omega)]
    exact Nat.mod_eq_of_lt (by omega)
  have hdepth : txMetadataDepth.toUInt64.toNat = 17150 := rfl
  -- the two ends of the range, read back as `int64_t`
  have hlatest : toEpochNumber (UInt64.ofInt item.epoch) = item.epoch := by
    rw [toEpochNumber_of_lt (by omega), hepoch]
    omega
  have hearliest : toEpochNumber (if UInt64.ofInt item.epoch > txMetadataDepth.toUInt64 then
        UInt64.ofInt item.epoch - txMetadataDepth.toUInt64 else 1) =
      if (txMetadataDepth : ℤ) < item.epoch then item.epoch - txMetadataDepth else 1 := by
    have hgt : UInt64.ofInt item.epoch > txMetadataDepth.toUInt64 ↔
        (txMetadataDepth : ℤ) < item.epoch := by
      rw [gt_iff_lt, UInt64.lt_iff_toNat_lt, hepoch, hdepth]
      unfold txMetadataDepth
      omega
    by_cases hfar : (txMetadataDepth : ℤ) < item.epoch
    · rw [if_pos (hgt.2 hfar), if_pos hfar]
      have hle : txMetadataDepth.toUInt64 ≤ UInt64.ofInt item.epoch :=
        UInt64.le_iff_toNat_le.2 (Nat.le_of_lt (UInt64.lt_iff_toNat_lt.1 (hgt.2 hfar)))
      have hsub := UInt64.toNat_sub_of_le _ _ hle
      rw [hepoch, hdepth] at hsub
      rw [toEpochNumber_of_lt (by omega), hsub]
      unfold txMetadataDepth at hfar ⊢
      omega
    · rw [if_neg (fun h => hfar (hgt.1 h)), if_neg hfar]
      rfl
  unfold epochFinalized
  dsimp only
  rw [FilterAPIBackendImpl.setEpochRange_range, hlatest, hearliest]
  unfold rangeAfter at hrange ⊢
  unfold seenNothing at hprev hrange ⊢
  by_cases hone : 1 ≤ item.epoch
  · -- a range from epoch 1 on is consistent with the one before, and taken
    rw [if_neg, if_pos hone]
    split_ifs at hrange <;> simp only [Prod.mk.injEq] at hrange <;> split_ifs <;> omega
  · -- epoch 0, the first finalized: refused, and nothing was set before
    have hzero : item.epoch = 0 := by omega
    have hnone : prev = -1 := by omega
    rw [if_pos (Or.inr (Or.inl (by omega))), if_neg hone, hrange, hnone]
    rfl

/-- **`EpochFinalized` for epochs finalized in increasing order after `prev` leaves the range of
    the last one.** The induction is on the epochs, with the backend and `prev` generalised. -/
theorem epochsFinalized_range (now : ℕ) :
    ∀ (items : List EpochMetadata) (b : FilterAPIBackendImpl) (prev : ℤ),
      (b.earliestEpoch, b.latestEpoch) = rangeAfter prev → seenNothing ≤ prev →
      items.Pairwise (fun x y => x.epoch < y.epoch) →
      (∀ item ∈ items, prev < item.epoch ∧ item.epoch < 2 ^ 63) →
      ((items.foldl (epochFinalized now) b).earliestEpoch,
          (items.foldl (epochFinalized now) b).latestEpoch) =
        rangeAfter ((items.getLast?.map (·.epoch)).getD prev)
  | [], _, _, hrange, _, _, _ => hrange
  | item :: items, b, prev, hrange, hprev, hlt, hitems => by
    rw [List.pairwise_cons] at hlt
    obtain ⟨hafter, hbelow⟩ := hitems item List.mem_cons_self
    have hstep := epochFinalized_range hrange hprev now hafter hbelow
    rw [List.foldl_cons, epochsFinalized_range now items _ item.epoch hstep (le_trans hprev
      (le_of_lt hafter)) hlt.2 (fun y hy => ⟨hlt.1 y hy, (hitems y (List.mem_cons_of_mem _ hy)).2⟩),
      List.getLast?_cons]
    cases items.getLast? with
    | none => rfl
    | some last => rfl

/-- `EpochFinalized` for each epoch uninstalls filters, moves no cursor and keeps the backend's
    invariant. The induction is on the epochs, with the backend generalised. -/
theorem epochsFinalized_spec (now : ℕ) :
    ∀ (items : List EpochMetadata) (b : FilterAPIBackendImpl),
      FilterAPIBackendImpl.Removes b (items.foldl (epochFinalized now) b) ∧
        FilterAPIBackendImpl.KeepsCursors b (items.foldl (epochFinalized now) b) ∧
        (b.Inv → (items.foldl (epochFinalized now) b).Inv)
  | [], b => ⟨FilterAPIBackendImpl.Removes.refl b, fun _ _ hc => hc, id⟩
  | item :: items, b => by
    rw [List.foldl_cons]
    obtain ⟨hr, hk, hi⟩ := epochsFinalized_spec now items (epochFinalized now b item)
    refine ⟨(FilterAPIBackendImpl.setEpochRange_spec b _ _ now).1.trans hr,
      (FilterAPIBackendImpl.keepsCursors_setEpochRange b _ _ now).trans hk, fun h => hi ?_⟩
    exact h.setEpochRange _ _ now

/-! ## The invariant -/

/-- What every run in order keeps, given the epochs finalized so far (`heads`): the backend's
    invariant; an orderly deque of depth `TXMETADATADEPTH` that holds the last of the epochs
    finalized, which have increasing numbers an `int64_t` holds; the range the last of them set;
    and every block filter's cursor within the finalized epochs, of which there is one from 1 on. -/
structure Inv (heads : List EpochMetadata) (a : APICacheImpl) : Prop where
  filters : a.filterAPI.Inv
  orderly : a.blocksCache.Orderly
  below : a.blocksCache.EpochsBelow
  depth_eq : a.blocksCache.depth = txMetadataDepth
  window : a.blocksCache.finalizedEpochs = heads.rtake txMetadataDepth
  heads_lt : heads.Pairwise fun x y => x.epoch < y.epoch
  heads_range : ∀ item ∈ heads, 0 ≤ item.epoch ∧ item.epoch < 2 ^ 63
  range : (a.filterAPI.earliestEpoch, a.filterAPI.latestEpoch) =
    rangeAfter a.blocksCache.getLastEpoch
  cursor_le : ∀ x c, a.filterAPI.blockCursor x = some c →
    c ≤ a.blocksCache.getLastEpoch ∧ 1 ≤ a.blocksCache.getLastEpoch

theorem inv_init : Inv [] init := by
  refine ⟨FilterAPIBackendImpl.inv_init,
    ⟨List.Pairwise.nil, fun m hm => by simp [init, BlocksCache.init] at hm⟩,
    fun m hm => by simp [init, BlocksCache.init] at hm, rfl, rfl, List.Pairwise.nil,
    fun _ h => absurd h List.not_mem_nil, rfl, fun x c hc => ?_⟩
  simp [FilterAPIBackendImpl.blockCursor, init, FilterAPIBackendImpl.init] at hc

section Inv

variable {heads : List EpochMetadata} {a : APICacheImpl}

/-- The last epoch of the deque is the last finalized. -/
theorem Inv.getLastEpoch_eq (h : Inv heads a) :
    a.blocksCache.getLastEpoch = (heads.getLast?.map (·.epoch)).getD seenNothing := by
  unfold BlocksCache.getLastEpoch
  rw [h.window, History.getLast?_rtake heads (by decide)]
  cases heads.getLast? with
  | none => rfl
  | some last => rfl

theorem Inv.epoch_le (h : Inv heads a) {item : EpochMetadata} (hmem : item ∈ heads) :
    item.epoch ≤ a.blocksCache.getLastEpoch := by
  rw [h.getLastEpoch_eq]
  cases hlast : heads.getLast? with
  | none =>
    rw [List.getLast?_eq_none_iff.1 hlast] at hmem
    cases hmem
  | some last => exact key_le_of_getLast? (h.heads_lt.imp le_of_lt) hmem hlast

theorem Inv.seenNothing_le (h : Inv heads a) : seenNothing ≤ a.blocksCache.getLastEpoch := by
  rw [h.getLastEpoch_eq]
  cases hlast : heads.getLast? with
  | none => exact le_refl _
  | some last =>
    have := (h.heads_range last (List.mem_of_getLast? hlast)).1
    show seenNothing ≤ last.epoch
    unfold seenNothing
    omega

/-- With an epoch from 1 on finalized, the backend's latest epoch is the last finalized. -/
theorem Inv.latestEpoch_eq (h : Inv heads a) (hone : 1 ≤ a.blocksCache.getLastEpoch) :
    a.filterAPI.latestEpoch = a.blocksCache.getLastEpoch := by
  have hrange := h.range
  unfold rangeAfter at hrange
  rw [if_pos hone] at hrange
  exact (Prod.mk.inj hrange).2

/-- A cache with the same backend and blocks cache. -/
theorem Inv.congr (h : Inv heads a) {a' : APICacheImpl} (hf : a'.filterAPI = a.filterAPI)
    (hb : a'.blocksCache = a.blocksCache) : Inv heads a' := by
  obtain ⟨filterAPI, pendingTxnCache, blocksCache⟩ := a'
  dsimp only at hf hb
  subst hf hb
  exact ⟨h.filters, h.orderly, h.below, h.depth_eq, h.window, h.heads_lt, h.heads_range, h.range,
    h.cursor_le⟩

/-- A backend call that keeps the range, moves no cursor and keeps the backend's invariant. -/
theorem Inv.filterAPI (h : Inv heads a) {filterAPI : FilterAPIBackendImpl} (hinv : filterAPI.Inv)
    (hrange : (filterAPI.earliestEpoch, filterAPI.latestEpoch) =
      (a.filterAPI.earliestEpoch, a.filterAPI.latestEpoch))
    (hcursor : ∀ x c, filterAPI.blockCursor x = some c →
      c ≤ a.blocksCache.getLastEpoch ∧ 1 ≤ a.blocksCache.getLastEpoch) :
    Inv heads { a with filterAPI } :=
  ⟨hinv, h.orderly, h.below, h.depth_eq, h.window, h.heads_lt, h.heads_range, hrange.trans h.range,
    hcursor⟩

/-- **A call of the blocks cache in order keeps the invariant**, with the epochs it finalizes
    added to the history: they come after all before, the deque keeps the last of them, and
    `EpochFinalized` moves the range to the last. -/
theorem Inv.updateBlocks (h : Inv heads a) {call : CacheCall}
    (hcall : a.blocksCache.StartsInOrder call) (now : ℕ) :
    Inv (heads ++ (a.updateBlocks call now).2) (a.updateBlocks call now).1 := by
  obtain ⟨happ, hbelow⟩ := BlocksCache.appends_stepLog h.orderly h.below call
  obtain ⟨-, hkeep, hinv⟩ := epochsFinalized_spec now (a.blocksCache.stepLog call).2 a.filterAPI
  have hstep := BlocksCache.stepLog_fst a.blocksCache call
  -- every epoch finalized comes after every epoch before
  have hnew : ∀ item ∈ (a.blocksCache.stepLog call).2, 0 ≤ item.epoch ∧ item.epoch < 2 ^ 63 :=
    fun item hmem => ⟨by have := h.seenNothing_le; have := happ.after item hmem
                         unfold seenNothing at *; omega, happ.below item hmem⟩
  refine ⟨hinv h.filters, ?_, hbelow, happ.depth_eq.trans h.depth_eq, ?_, ?_, fun item hmem => ?_,
    ?_, fun x c hc => ?_⟩
  · show (a.blocksCache.stepLog call).1.Orderly
    rw [hstep]
    exact h.orderly.step hcall
  · show (a.blocksCache.stepLog call).1.finalizedEpochs = _
    rw [happ.window heads (by rw [h.depth_eq]; exact h.window), h.depth_eq]
    rfl
  · rw [List.pairwise_append]
    exact ⟨h.heads_lt, happ.lt, fun x hx y hy => lt_of_le_of_lt (h.epoch_le hx) (happ.after y hy)⟩
  · rcases List.mem_append.1 hmem with hmem | hmem
    · exact h.heads_range item hmem
    · exact hnew item hmem
  · show (((a.blocksCache.stepLog call).2.foldl (epochFinalized now) a.filterAPI).earliestEpoch,
      ((a.blocksCache.stepLog call).2.foldl (epochFinalized now) a.filterAPI).latestEpoch) =
        rangeAfter (a.blocksCache.stepLog call).1.getLastEpoch
    rw [happ.getLastEpoch_eq]
    exact epochsFinalized_range now _ _ _ h.range h.seenNothing_le happ.lt
      (fun item hmem => ⟨happ.after item hmem, happ.below item hmem⟩)
  · -- no cursor moves, and the last epoch only grows
    obtain ⟨hle, hone⟩ := h.cursor_le x c (hkeep x c hc)
    exact ⟨le_trans hle happ.getLastEpoch_le, le_trans hone happ.getLastEpoch_le⟩

/-- Once the backend has a latest epoch, an epoch from 1 on has been finalized and is the latest. -/
theorem Inv.one_le_of_ready (h : Inv heads a) (hready : ¬ a.filterAPI.latestEpoch < 0) :
    1 ≤ a.blocksCache.getLastEpoch ∧ a.filterAPI.latestEpoch = a.blocksCache.getLastEpoch := by
  have hrange := h.range
  unfold rangeAfter at hrange
  by_cases hone : 1 ≤ a.blocksCache.getLastEpoch
  · rw [if_pos hone] at hrange
    exact ⟨hone, (Prod.mk.inj hrange).2⟩
  · -- no epoch from 1 on: the range is unset
    rw [if_neg hone] at hrange
    rw [(Prod.mk.inj hrange).2] at hready
    exact absurd (by decide : seenNothing < 0) hready

/-- An install keeps the epoch range. -/
theorem range_of_installs {b b' : FilterAPIBackendImpl} {type : FilterType}
    {htype : type ≠ .invalid} {expireTime : ℕ}
    (h : b' = b ∨ FilterAPIBackendImpl.Installs b b' type htype expireTime) :
    (b'.earliestEpoch, b'.latestEpoch) = (b.earliestEpoch, b.latestEpoch) := by
  rcases h with rfl | hi
  · rfl
  · rw [hi.earliestEpoch_eq, hi.latestEpoch_eq]

/-- The cursor a poll of the blocks cache gives is at most its last epoch, from one that is. -/
theorem getBlockFilterChanges_fst_le (c : BlocksCache) {afterEpoch : ℤ}
    (h : afterEpoch ≤ c.getLastEpoch) : (c.getBlockFilterChanges afterEpoch).1 ≤ c.getLastEpoch := by
  unfold BlocksCache.getBlockFilterChanges
  dsimp only
  split_ifs
  · exact h
  · exact le_refl _

/-- **Every call in order keeps the invariant**, with the epochs it finalizes added to those
    before. -/
theorem Inv.step (h : Inv heads a) (stoull : Str → Except String ℕ)
    (logsOf : EpochMetadata → List EventLog) (call : APICall) (hfair : a.Fair call) :
    Inv (heads ++ (a.step stoull logsOf call).finalized) (a.step stoull logsOf call).cache := by
  obtain ⟨hroom, horder⟩ := hfair
  cases call with
  | startEpoch epoch blockHash numShards numTxns now =>
    have hcall : a.blocksCache.StartsInOrder
        (.startEpoch epoch (normalizeHexString blockHash) numShards numTxns) := horder
    exact h.updateBlocks hcall now
  | addCommittedTransaction epoch shard hash now =>
    have hcall : a.blocksCache.StartsInOrder (.addCommittedTransaction epoch shard) := trivial
    exact (h.updateBlocks hcall now).congr rfl rfl
  | addPendingTransaction hash epoch =>
    rw [show (a.step stoull logsOf (.addPendingTransaction hash epoch)).finalized = [] from rfl,
      List.append_nil]
    exact h.congr rfl rfl
  | getFilterLogs filterId =>
    rw [show (a.step stoull logsOf (.getFilterLogs filterId)).finalized = [] from rfl,
      List.append_nil]
    exact h
  | getLogs params =>
    rw [show (a.step stoull logsOf (.getLogs params)).finalized = [] from rfl, List.append_nil]
    exact h
  | installNewEventFilter params now =>
    rw [show (a.step stoull logsOf (.installNewEventFilter params now)).finalized = [] from rfl,
      List.append_nil]
    refine h.filterAPI (h.filters.step hroom stoull (.installNewEventFilter params now))
      (range_of_installs (FilterAPIBackendImpl.installNewEventFilter_cases stoull _ params now))
      fun x c hc => h.cursor_le x c ?_
    exact FilterAPIBackendImpl.keepsCursors_of_eq
      (FilterAPIBackendImpl.blockFilters_installNewEventFilter stoull _ params now) x c hc
  | installNewPendingTxnFilter now =>
    rw [show (a.step stoull logsOf (.installNewPendingTxnFilter now)).finalized = [] from rfl,
      List.append_nil]
    refine h.filterAPI (h.filters.step hroom stoull (.installNewPendingTxnFilter now))
      (range_of_installs (FilterAPIBackendImpl.installNewPendingTxnFilter_cases _ now))
      fun x c hc => h.cursor_le x c ?_
    exact FilterAPIBackendImpl.keepsCursors_of_eq
      (FilterAPIBackendImpl.blockFilters_installNewPendingTxnFilter _ now) x c hc
  | installNewBlockFilter now =>
    rw [show (a.step stoull logsOf (.installNewBlockFilter now)).finalized = [] from rfl,
      List.append_nil]
    refine h.filterAPI (h.filters.step hroom stoull (.installNewBlockFilter now))
      (range_of_installs (FilterAPIBackendImpl.installNewBlockFilter_cases _ now))
      fun x c hc => ?_
    rw [FilterAPIBackendImpl.blockCursor_installNewBlockFilter] at hc
    split_ifs at hc with hnew
    · -- the new filter starts just before the latest epoch, the last finalized
      obtain ⟨hone, hlatest⟩ := h.one_le_of_ready hnew.1
      rw [← Option.some.inj hc, hlatest]
      exact ⟨by omega, hone⟩
    · exact h.cursor_le x c hc
  | uninstallFilter filterId =>
    rw [show (a.step stoull logsOf (.uninstallFilter filterId)).finalized = [] from rfl,
      List.append_nil]
    obtain ⟨hearliest, hlatest, -⟩ := FilterAPIBackendImpl.uninstallFilter_fields a.filterAPI filterId
    exact h.filterAPI (h.filters.uninstallFilter filterId) (by rw [hearliest, hlatest])
      fun x c hc => h.cursor_le x c (FilterAPIBackendImpl.keepsCursors_uninstallFilter _ _ x c hc)
  | getFilterChanges filterId now =>
    rw [show (a.step stoull logsOf (.getFilterChanges filterId now)).finalized = [] from rfl,
      List.append_nil]
    obtain ⟨-, hsame, -⟩ :=
      FilterAPIBackendImpl.dispatchFilterChanges_spec a.filterAPI (a.txCache logsOf) filterId {}
    refine h.filterAPI (h.filters.getFilterChanges (a.txCache logsOf) filterId now)
      (by rw [← hsame.earliestEpoch_eq, ← hsame.latestEpoch_eq]; rfl) fun x c hc => ?_
    by_cases hx : x = filterId
    · subst hx
      rcases FilterAPIBackendImpl.blockCursor_getFilterChanges_self a.filterAPI (a.txCache logsOf) x
          now with hsame' | ⟨filter, hfind, hnew⟩
      · exact h.cursor_le x c (hsame' ▸ hc)
      · -- the polled filter's cursor moves to at most the last epoch
        have hold := h.cursor_le x filter.lastSeen (by
          unfold FilterAPIBackendImpl.blockCursor
          rw [hfind]
          rfl)
        rw [hnew] at hc
        rw [← Option.some.inj hc]
        refine ⟨?_, hold.2⟩
        split_ifs
        · exact hold.1
        · exact getBlockFilterChanges_fst_le a.blocksCache hold.1
    · exact h.cursor_le x c
        (FilterAPIBackendImpl.blockCursor_getFilterChanges_of_ne _ _ _ now hx ▸ hc)

/-- The filter counter never goes back. -/
theorem filterCounter_le_step (hroom : a.filterAPI.Room)
    (stoull : Str → Except String ℕ) (logsOf : EpochMetadata → List EventLog) (call : APICall) :
    a.filterAPI.filterCounter.toNat ≤
      (a.step stoull logsOf call).cache.filterAPI.filterCounter.toNat := by
  have hbackend := FilterAPIBackendImpl.filterCounter_le_step hroom stoull
  have hblocks : ∀ (call : CacheCall) (now : ℕ), a.filterAPI.filterCounter.toNat ≤
      (a.updateBlocks call now).1.filterAPI.filterCounter.toNat := by
    intro call now
    show _ ≤ ((a.blocksCache.stepLog call).2.foldl (epochFinalized now) a.filterAPI).filterCounter.toNat
    rw [(epochsFinalized_spec now (a.blocksCache.stepLog call).2 a.filterAPI).1.filterCounter_eq]
  cases call with
  | startEpoch epoch blockHash numShards numTxns now => exact hblocks _ now
  | addCommittedTransaction epoch shard hash now => exact hblocks _ now
  | addPendingTransaction hash epoch => exact le_refl _
  | getFilterLogs filterId => exact le_refl _
  | getLogs params => exact le_refl _
  | installNewEventFilter params now => exact hbackend (.installNewEventFilter params now)
  | installNewBlockFilter now => exact hbackend (.installNewBlockFilter now)
  | installNewPendingTxnFilter now => exact hbackend (.installNewPendingTxnFilter now)
  | uninstallFilter filterId => exact hbackend (.uninstallFilter filterId)
  | getFilterChanges filterId now => exact hbackend (.getFilterChanges (a.txCache logsOf) filterId now)

/-- The epochs a call finalizes come after the last one before it. -/
theorem Inv.lt_of_mem_finalized (h : Inv heads a) (stoull : Str → Except String ℕ)
    (logsOf : EpochMetadata → List EventLog) (call : APICall) :
    ∀ item ∈ (a.step stoull logsOf call).finalized, a.blocksCache.getLastEpoch < item.epoch := by
  have hblocks : ∀ (call : CacheCall) (now : ℕ), ∀ item ∈ (a.updateBlocks call now).2,
      a.blocksCache.getLastEpoch < item.epoch :=
    fun call _ => (BlocksCache.appends_stepLog h.orderly h.below call).1.after
  cases call with
  | startEpoch epoch blockHash numShards numTxns now => exact hblocks _ now
  | addCommittedTransaction epoch shard hash now => exact hblocks _ now
  | _ => exact fun _ hmem => absurd hmem List.not_mem_nil

/-- **No call but a poll of it moves a block filter's cursor**, and none installs a filter under
    an id already issued. -/
theorem blockCursor_step_of_not_polls {filterId : Str}
    (hissued : a.filterAPI.Issued filterId) (hroom : a.filterAPI.Room)
    (stoull : Str → Except String ℕ) (logsOf : EpochMetadata → List EventLog) (call : APICall)
    (hpoll : call.polls filterId = false) (c : ℤ)
    (hc : (a.step stoull logsOf call).cache.filterAPI.blockCursor filterId = some c) :
    a.filterAPI.blockCursor filterId = some c := by
  have hblocks : ∀ (call : CacheCall) (now : ℕ),
      (a.updateBlocks call now).1.filterAPI.blockCursor filterId = some c →
        a.filterAPI.blockCursor filterId = some c :=
    fun call now => (epochsFinalized_spec now (a.blocksCache.stepLog call).2 a.filterAPI).2.1 _ _
  cases call with
  | startEpoch epoch blockHash numShards numTxns now => exact hblocks _ now hc
  | addCommittedTransaction epoch shard hash now => exact hblocks _ now hc
  | addPendingTransaction hash epoch => exact hc
  | getFilterLogs x => exact hc
  | getLogs params => exact hc
  | installNewEventFilter params now =>
    exact FilterAPIBackendImpl.keepsCursors_of_eq
      (FilterAPIBackendImpl.blockFilters_installNewEventFilter stoull _ params now) _ _ hc
  | installNewPendingTxnFilter now =>
    exact FilterAPIBackendImpl.keepsCursors_of_eq
      (FilterAPIBackendImpl.blockFilters_installNewPendingTxnFilter _ now) _ _ hc
  | installNewBlockFilter now =>
    -- the new id was never issued, so it is not the filter's
    have hc' := hc
    change (a.filterAPI.installNewBlockFilter now).2.blockCursor filterId = some c at hc'
    rw [FilterAPIBackendImpl.blockCursor_installNewBlockFilter,
      if_neg (fun hnew => FilterAPIBackendImpl.not_issued_next hroom .blkFilter (by decide)
        (hnew.2 ▸ hissued))] at hc'
    exact hc'
  | uninstallFilter x => exact FilterAPIBackendImpl.keepsCursors_uninstallFilter _ x _ _ hc
  | getFilterChanges x now =>
    have hx : filterId ≠ x := fun heq => by
      rw [heq] at hpoll
      exact absurd hpoll (by simp [APICall.polls])
    exact (FilterAPIBackendImpl.blockCursor_getFilterChanges_of_ne _ _ _ now hx).symm.trans hc

/-- An installed block filter is in the map its letter names, under an issued id. -/
theorem Inv.typed_of_blockCursor (h : Inv heads a) {filterId : Str} {c : ℤ}
    (hc : a.filterAPI.blockCursor filterId = some c) :
    ∃ filter : InstalledFilter, a.filterAPI.blockFilters.find filterId = some filter ∧
      filter.lastSeen = c ∧ guessFilterType filterId = .blkFilter ∧ a.filterAPI.Issued filterId := by
  obtain ⟨filter, hfind, hlast⟩ := Option.map_eq_some_iff.1 hc
  have hmem : filterId ∈ a.filterAPI.keysOf .blkFilter := by
    show filterId ∈ a.filterAPI.blockFilters.keys
    rw [a.filterAPI.blockFilters.mem_keys, hfind]
    rfl
  obtain ⟨htype, hissued⟩ := h.filters.typed .blkFilter filterId hmem
  exact ⟨filter, hfind, hlast, htype, hissued⟩

/-- **Right after a poll, an installed block filter's cursor is the last epoch finalized**: the
    backend's latest epoch is that epoch, so the poll reads the cache unless the cursor is there
    already. -/
theorem Inv.blockCursor_poll (h : Inv heads a) {filterId : Str} {c : ℤ}
    (hc : a.filterAPI.blockCursor filterId = some c) (stoull : Str → Except String ℕ)
    (logsOf : EpochMetadata → List EventLog) (now : ℕ) :
    (a.step stoull logsOf (.getFilterChanges filterId now)).cache.filterAPI.blockCursor filterId =
      some a.blocksCache.getLastEpoch := by
  obtain ⟨filter, hfind, rfl, htype, -⟩ := h.typed_of_blockCursor hc
  obtain ⟨hle, hone⟩ := h.cursor_le filterId filter.lastSeen hc
  have hlatest := h.latestEpoch_eq hone
  change (a.filterAPI.getFilterChanges (a.txCache logsOf) filterId now).2.blockCursor filterId = _
  rw [(FilterAPIBackendImpl.getFilterChanges_blockFilter _ _ _ now htype hfind).2, hlatest]
  split_ifs with hreached
  · rw [le_antisymm hle hreached]
  · show some (a.blocksCache.getBlockFilterChanges filter.lastSeen).1 = _
    unfold BlocksCache.getBlockFilterChanges
    dsimp only
    rw [if_neg hreached]

end Inv

/-- A block filter installed after a poll of it was installed before. -/
theorem blockCursor_of_poll (stoull : Str → Except String ℕ)
    (logsOf : EpochMetadata → List EventLog) (a : APICacheImpl) {filterId : Str} {now : ℕ} {c : ℤ}
    (hc : (a.step stoull logsOf (.getFilterChanges filterId now)).cache.filterAPI.blockCursor
      filterId = some c) : ∃ c', a.filterAPI.blockCursor filterId = some c' := by
  change (a.filterAPI.getFilterChanges (a.txCache logsOf) filterId now).2.blockCursor filterId =
    some c at hc
  rcases FilterAPIBackendImpl.blockCursor_getFilterChanges_self a.filterAPI (a.txCache logsOf)
      filterId now with hsame | ⟨filter, hfind, -⟩
  · exact ⟨c, hsame ▸ hc⟩
  · refine ⟨filter.lastSeen, ?_⟩
    unfold FilterAPIBackendImpl.blockCursor
    rw [hfind]
    rfl

end APICacheImpl

/-! ## A block filter over a run -/

/-- The cache over a run, as the owner of one filter sees it: every epoch finalized so far, in
    the order `EpochFinalized` received them, and the items the polls of the filter answered, in
    order. -/
structure Watch where
  cache : APICacheImpl
  heads : List EpochMetadata
  got : List JsonValue

namespace Watch

/-- A cache just made. -/
def init : Watch := ⟨APICacheImpl.init, [], []⟩

/-- One call; the answer to a poll of the filter is added to what its owner got. -/
def step (stoull : Str → Except String ℕ) (logsOf : EpochMetadata → List EventLog)
    (filterId : Str) (w : Watch) (call : APICall) : Watch :=
  ⟨(w.cache.step stoull logsOf call).cache, w.heads ++ (w.cache.step stoull logsOf call).finalized,
    if call.polls filterId then w.got ++ (w.cache.step stoull logsOf call).response.items
    else w.got⟩

/-- A sequence of calls. -/
def run (stoull : Str → Except String ℕ) (logsOf : EpochMetadata → List EventLog)
    (filterId : Str) (w : Watch) (calls : List APICall) : Watch :=
  calls.foldl (step stoull logsOf filterId) w

/-- A call in order. -/
def Fair (w : Watch) (call : APICall) : Prop := w.cache.Fair call

instance decidableFair (w : Watch) (call : APICall) : Decidable (w.Fair call) :=
  inferInstanceAs (Decidable (w.cache.Fair call))

/-- A poll of the filter finds at most `TXMETADATADEPTH` epochs finalized past its cursor, so
    none has left the deque unread. -/
def NoLoss (filterId : Str) (w : Watch) (call : APICall) : Prop :=
  call.polls filterId = true → ∀ c ∈ w.cache.filterAPI.blockCursor filterId,
    (w.heads.filter fun item => decide (c < item.epoch)).length ≤ txMetadataDepth

instance decidableNoLoss (filterId : Str) (w : Watch) (call : APICall) :
    Decidable (w.NoLoss filterId call) :=
  inferInstanceAs (Decidable (call.polls filterId = true →
    ∀ c ∈ w.cache.filterAPI.blockCursor filterId,
      (w.heads.filter fun item => decide (c < item.epoch)).length ≤ txMetadataDepth))

/-- **Every run in order keeps the invariant.** -/
theorem inv_run (stoull : Str → Except String ℕ) (logsOf : EpochMetadata → List EventLog)
    (filterId : Str) (calls : List APICall)
    (hcalls : Fold.Along (step stoull logsOf filterId) Fair init calls) :
    APICacheImpl.Inv (init.run stoull logsOf filterId calls).heads
      (init.run stoull logsOf filterId calls).cache :=
  @Fold.foldl_inv _ _ (step stoull logsOf filterId) Fair
    (fun w => APICacheImpl.Inv w.heads w.cache) (fun _ call hw hcall => hw.step stoull logsOf call hcall)
    calls init APICacheImpl.inv_init hcalls

/-- Since a moment at which the filter's cursor was `c₀` and its owner had got `got₀`: the filter's
    id was issued, and while the filter is installed its cursor `c` is past `c₀` and the polls since
    answered the hashes of the epochs finalized in `(c₀, c]`, in order. -/
structure Tracks (filterId : Str) (c₀ : ℤ) (got₀ : List JsonValue) (w : Watch) : Prop where
  inv : APICacheImpl.Inv w.heads w.cache
  issued : w.cache.filterAPI.Issued filterId
  got_eq : ∀ c, w.cache.filterAPI.blockCursor filterId = some c → c₀ ≤ c ∧
    w.got = got₀ ++ (w.heads.filter fun item => decide (c₀ < item.epoch ∧ item.epoch ≤ c)).map
      fun item => hashJson item.blockHash

/-- **Each call keeps track of the filter**: the epochs finalized meanwhile come after its cursor,
    and a poll answers those past the cursor, all of them while the deque still holds them. -/
theorem Tracks.step {filterId : Str} {c₀ : ℤ} {got₀ : List JsonValue} {w : Watch}
    (h : Tracks filterId c₀ got₀ w) (stoull : Str → Except String ℕ)
    (logsOf : EpochMetadata → List EventLog) (call : APICall) (hfair : w.Fair call)
    (hnoloss : w.NoLoss filterId call) : Tracks filterId c₀ got₀ (w.step stoull logsOf filterId call) := by
  refine ⟨h.inv.step stoull logsOf call hfair,
    h.issued.mono (APICacheImpl.filterCounter_le_step hfair.1 stoull logsOf call), fun c hc => ?_⟩
  cases hpoll : call.polls filterId
  · -- the filter keeps its cursor, and every epoch finalized comes after it
    have hold := APICacheImpl.blockCursor_step_of_not_polls h.issued hfair.1 stoull logsOf call hpoll c hc
    obtain ⟨hc₀, hgot⟩ := h.got_eq c hold
    have hle := (h.inv.cursor_le filterId c hold).1
    have hnone : (w.cache.step stoull logsOf call).finalized.filter
        (fun item => decide (c₀ < item.epoch ∧ item.epoch ≤ c)) = [] := by
      rw [List.filter_eq_nil_iff]
      intro item hmem hin
      have := h.inv.lt_of_mem_finalized stoull logsOf call item hmem
      have := (of_decide_eq_true hin).2
      omega
    refine ⟨hc₀, ?_⟩
    show (if call.polls filterId then _ else w.got) = got₀ ++ ((w.heads ++
      (w.cache.step stoull logsOf call).finalized).filter _).map _
    rw [hpoll, if_neg Bool.false_ne_true, hgot, List.filter_append, hnone, List.append_nil]
  · -- a poll of the filter
    obtain ⟨x, now, rfl, rfl⟩ : ∃ x now, call = .getFilterChanges x now ∧ x = filterId := by
      cases call <;> simp_all [APICall.polls]
    have hpolls : APICall.polls x (.getFilterChanges x now) = true := by simp [APICall.polls]
    -- the filter was installed before the poll
    obtain ⟨c', hc'⟩ := APICacheImpl.blockCursor_of_poll stoull logsOf w.cache hc
    change (w.cache.filterAPI.getFilterChanges (w.cache.txCache logsOf) x now).2.blockCursor x =
      some c at hc
    obtain ⟨filter, hfind, rfl, htype, -⟩ := h.inv.typed_of_blockCursor hc'
    obtain ⟨hc₀, hgot⟩ := h.got_eq filter.lastSeen hc'
    obtain ⟨hresult, hcursor⟩ := FilterAPIBackendImpl.getFilterChanges_blockFilter
      w.cache.filterAPI (w.cache.txCache logsOf) x now htype hfind
    rw [hcursor] at hc
    -- the poll adds its answer, and finalizes nothing
    show c₀ ≤ c ∧ (if APICall.polls x (.getFilterChanges x now) then
        w.got ++ (Response.poll (w.cache.filterAPI.getFilterChanges (w.cache.txCache logsOf) x
          now).1).items else w.got) =
      got₀ ++ ((w.heads ++ ([] : List EpochMetadata)).filter
        fun item => decide (c₀ < item.epoch ∧ item.epoch ≤ c)).map
        fun item => hashJson item.blockHash
    rw [if_pos hpolls, List.append_nil, hresult, hgot]
    split_ifs at hc ⊢ with hreached
    · -- the cursor has reached the latest epoch: nothing new
      cases hc
      exact ⟨hc₀, List.append_nil _⟩
    · -- the cache reports every epoch past the cursor, all of them while the deque holds them
      have hsorted := BlocksCache.getBlockFilterChanges_of_sorted h.inv.orderly.1 filter.lastSeen
      have hlast : max filter.lastSeen w.cache.blocksCache.getLastEpoch = c := by
        have := Option.some.inj hc
        change (w.cache.blocksCache.getBlockFilterChanges filter.lastSeen).1 = c at this
        rw [hsorted] at this
        exact this
      have hwindow : w.cache.blocksCache.finalizedEpochs.filter
          (fun item => decide (filter.lastSeen < item.epoch)) =
            w.heads.filter fun item => decide (filter.lastSeen < item.epoch) := by
        rw [h.inv.window]
        exact History.filter_rtake_of_length_le (h.inv.heads_lt.imp le_of_lt)
          (hnoloss hpolls filter.lastSeen hc')
      have hupto : w.heads.filter (fun item => decide (filter.lastSeen < item.epoch)) =
          w.heads.filter fun item => decide (filter.lastSeen < item.epoch ∧ item.epoch ≤ c) := by
        apply List.filter_congr
        intro item hmem
        have := h.inv.epoch_le hmem
        rw [decide_eq_decide, ← hlast]
        constructor
        · exact fun hlt => ⟨hlt, le_max_of_le_right this⟩
        · exact fun hlt => hlt.1
      have hmap : ((w.heads.filter fun item => decide (filter.lastSeen < item.epoch)).map
          (·.blockHash)).map hashJson = (w.heads.filter fun item =>
            decide (filter.lastSeen < item.epoch)).map fun item => hashJson item.blockHash := by
        rw [List.map_map]
        rfl
      refine ⟨le_trans hc₀ (hlast ▸ le_max_left _ _), ?_⟩
      show got₀ ++ _ ++ ((w.cache.blocksCache.getBlockFilterChanges filter.lastSeen).2.map
        hashJson) = _
      rw [hsorted]
      dsimp only
      rw [hwindow, hmap, hupto, List.append_assoc, ← List.map_append,
        History.filter_between_append hc₀ (hlast ▸ le_max_left _ _) (h.inv.heads_lt.imp le_of_lt)]

/-- **A block filter's poll answers every epoch finalized since, once each and in order**: from
    any moment of a run in order at which a block filter is installed with cursor `c`, as long as
    no poll of it finds more epochs past its cursor than the deque holds, a poll after which the
    filter is still installed leaves its owner answered, since that moment, the hashes of exactly
    the epochs finalized after `c`, in the order they were finalized. -/
theorem blockFilter_poll_gets_every_epoch_once (stoull : Str → Except String ℕ)
    (logsOf : EpochMetadata → List EventLog) (filterId : Str) (calls₁ : List APICall)
    (h₁ : Fold.Along (step stoull logsOf filterId) Fair init calls₁) (c : ℤ)
    (hc : (init.run stoull logsOf filterId calls₁).cache.filterAPI.blockCursor filterId = some c)
    (calls₂ : List APICall) (now : ℕ)
    (h₂ : Fold.Along (step stoull logsOf filterId)
      (fun w call => w.Fair call ∧ w.NoLoss filterId call) (init.run stoull logsOf filterId calls₁)
      (calls₂ ++ [.getFilterChanges filterId now]))
    (hinstalled : ((init.run stoull logsOf filterId calls₁).run stoull logsOf filterId
      (calls₂ ++ [.getFilterChanges filterId now])).cache.filterAPI.blockCursor filterId ≠ none) :
    ((init.run stoull logsOf filterId calls₁).run stoull logsOf filterId
        (calls₂ ++ [.getFilterChanges filterId now])).got =
      (init.run stoull logsOf filterId calls₁).got ++
        ((((init.run stoull logsOf filterId calls₁).run stoull logsOf filterId
          (calls₂ ++ [.getFilterChanges filterId now])).heads.filter
            fun item => decide (c < item.epoch)).map fun item => hashJson item.blockHash) := by
  have hinv₁ := inv_run stoull logsOf filterId calls₁ h₁
  generalize init.run stoull logsOf filterId calls₁ = w₁ at hinv₁ hc h₂ hinstalled ⊢
  -- from the moment of `c` on, the run keeps track of the filter
  have htrack₁ : Tracks filterId c w₁.got w₁ := by
    obtain ⟨-, -, -, -, hissued⟩ := hinv₁.typed_of_blockCursor hc
    refine ⟨hinv₁, hissued, fun c' hc' => ?_⟩
    rw [hc] at hc'
    cases hc'
    refine ⟨le_refl c, ?_⟩
    have hnone : w₁.heads.filter (fun item => decide (c < item.epoch ∧ item.epoch ≤ c)) = [] := by
      rw [List.filter_eq_nil_iff]
      intro item _ hin
      have := of_decide_eq_true hin
      omega
    rw [hnone, List.map_nil, List.append_nil]
  rw [Fold.along_append] at h₂
  obtain ⟨h₂, ⟨hfair, hnoloss⟩, -⟩ := h₂
  change (w₁.run stoull logsOf filterId calls₂).Fair _ at hfair
  change (w₁.run stoull logsOf filterId calls₂).NoLoss filterId _ at hnoloss
  have htrack₂ : Tracks filterId c w₁.got (w₁.run stoull logsOf filterId calls₂) :=
    @Fold.foldl_inv _ _ (step stoull logsOf filterId)
      (fun w call => w.Fair call ∧ w.NoLoss filterId call) (Tracks filterId c w₁.got)
      (fun _ call hw hcall => hw.step stoull logsOf call hcall.1 hcall.2) calls₂ w₁ htrack₁ h₂
  have hrun : w₁.run stoull logsOf filterId (calls₂ ++ [.getFilterChanges filterId now]) =
      (w₁.run stoull logsOf filterId calls₂).step stoull logsOf filterId
        (.getFilterChanges filterId now) := by
    rw [run, List.foldl_append]
    rfl
  rw [hrun] at hinstalled ⊢
  generalize w₁.run stoull logsOf filterId calls₂ = w₂ at htrack₂ hfair hnoloss hinstalled ⊢
  -- after the poll the cursor is the last epoch finalized
  obtain ⟨c'', hc''⟩ := Option.ne_none_iff_exists'.1 hinstalled
  obtain ⟨c', hc'⟩ := APICacheImpl.blockCursor_of_poll stoull logsOf w₂.cache hc''
  have hlast : c'' = w₂.cache.blocksCache.getLastEpoch :=
    Option.some.inj (hc''.symm.trans (htrack₂.inv.blockCursor_poll hc' stoull logsOf now))
  obtain ⟨-, hgot⟩ := (htrack₂.step stoull logsOf _ hfair hnoloss).got_eq c'' hc''
  rw [hgot, hlast]
  -- and no epoch finalized is past the last
  congr 2
  apply List.filter_congr
  intro item hmem
  change item ∈ w₂.heads ++ [] at hmem
  rw [List.append_nil] at hmem
  have := htrack₂.inv.epoch_le hmem
  rw [decide_eq_decide]
  exact ⟨fun hlt => hlt.1, fun hlt => ⟨hlt, this⟩⟩

/-- Epoch 1 is finalized without transactions, then a block filter is installed. -/
def installAfterEpochOne : List APICall := [.startEpoch 1 "h1" 0 0 0, .installNewBlockFilter 0]

theorem blkFilter_ne_invalid : FilterType.blkFilter ≠ .invalid := by decide

/-- The id of the first filter, a block filter. -/
def firstBlockFilterId : Str := newFilterId 1 .blkFilter blkFilter_ne_invalid

/-- Epochs 2 and 3, each without transactions. -/
def twoMoreEpochs : List APICall := [.startEpoch 2 "h2" 0 0 5, .startEpoch 3 "h3" 0 0 6]

/-- The filter installed after epoch 1 starts just before it; its poll after epochs 2 and 3
    answers all three. -/
theorem blockFilter_poll_gets_every_epoch_once_three :
    Fold.Along (step refuseAll (fun _ => []) firstBlockFilterId) Fair init installAfterEpochOne ∧
      (init.run refuseAll (fun _ => []) firstBlockFilterId installAfterEpochOne).cache.filterAPI.blockCursor
          firstBlockFilterId = some 0 ∧
      Fold.Along (step refuseAll (fun _ => []) firstBlockFilterId)
        (fun w call => w.Fair call ∧ w.NoLoss firstBlockFilterId call)
        (init.run refuseAll (fun _ => []) firstBlockFilterId installAfterEpochOne)
        (twoMoreEpochs ++ [.getFilterChanges firstBlockFilterId 7]) ∧
      ((init.run refuseAll (fun _ => []) firstBlockFilterId installAfterEpochOne).run refuseAll
          (fun _ => []) firstBlockFilterId (twoMoreEpochs ++ [.getFilterChanges firstBlockFilterId 7])
          ).cache.filterAPI.blockCursor firstBlockFilterId ≠ none ∧
      ((init.run refuseAll (fun _ => []) firstBlockFilterId installAfterEpochOne).run refuseAll
          (fun _ => []) firstBlockFilterId (twoMoreEpochs ++ [.getFilterChanges firstBlockFilterId 7])
          ).got =
        (init.run refuseAll (fun _ => []) firstBlockFilterId installAfterEpochOne).got ++
          ((((init.run refuseAll (fun _ => []) firstBlockFilterId installAfterEpochOne).run refuseAll
            (fun _ => []) firstBlockFilterId
            (twoMoreEpochs ++ [.getFilterChanges firstBlockFilterId 7])).heads.filter
              fun item => decide (0 < item.epoch)).map fun item => hashJson item.blockHash) := by
  have h₁ : Fold.Along (step refuseAll (fun _ => []) firstBlockFilterId) Fair init
      installAfterEpochOne := by decide
  have hc : (init.run refuseAll (fun _ => []) firstBlockFilterId
      installAfterEpochOne).cache.filterAPI.blockCursor firstBlockFilterId = some 0 := by decide
  have h₂ : Fold.Along (step refuseAll (fun _ => []) firstBlockFilterId)
      (fun w call => w.Fair call ∧ w.NoLoss firstBlockFilterId call)
      (init.run refuseAll (fun _ => []) firstBlockFilterId installAfterEpochOne)
      (twoMoreEpochs ++ [.getFilterChanges firstBlockFilterId 7]) := by decide
  have hinstalled : ((init.run refuseAll (fun _ => []) firstBlockFilterId installAfterEpochOne).run
      refuseAll (fun _ => []) firstBlockFilterId
      (twoMoreEpochs ++ [.getFilterChanges firstBlockFilterId 7])).cache.filterAPI.blockCursor
        firstBlockFilterId ≠ none := by decide
  exact ⟨h₁, hc, h₂, hinstalled, blockFilter_poll_gets_every_epoch_once refuseAll (fun _ => [])
    firstBlockFilterId installAfterEpochOne h₁ 0 hc twoMoreEpochs 7 h₂ hinstalled⟩

end Watch

end Filters

end Zilliqa
