import Mathlib
import Zilliqa.Eth.APICache

/-!
# `Eth.EventFilters` — event filters over a run of the API cache

An event filter is installed with its params and a cursor at `SEEN_NOTHING`. Each poll
(`GetFilterChanges`) hands the params and the cursor to `BlocksCache::GetEventFilterChanges` and
keeps the cursor it gets back. Over a run of `APICacheImpl`:

- `KeepsEventFilters`: no call but a poll of it changes an installed event filter, and no install
  reuses its id (`find_step_of_not_polls`);
- `EventCursorsIn`: every event filter's cursor is within the finalized epochs (`EventCursorsIn.step`);
- `eventFilter_poll_gets_every_log_once`: so an event filter whose blocks start neither at `latest`
  nor at `pending` is answered, over its polls, the logs it matches of every epoch its blocks cover
  finalized after its cursor, once each and in order, as long as no poll finds more epochs past its
  cursor than the deque holds.
-/

namespace Zilliqa

namespace Filters

/-- Filtering by a conjunction is filtering by its second part, then by its first. -/
theorem filter_and_eq_filter_filter {α : Type} (p q : α → Prop) [DecidablePred p] [DecidablePred q]
    (l : List α) :
    l.filter (fun x => decide (p x ∧ q x)) =
      (l.filter fun x => decide (q x)).filter fun x => decide (p x) := by
  rw [List.filter_filter]
  apply List.filter_congr
  intro x _
  rw [Bool.decide_and]

/-! ## What the backend does to the event filters -/

namespace FilterAPIBackendImpl

/-- `b'` keeps some of the event filters of `b`, each as it was. -/
def KeepsEventFilters (b b' : FilterAPIBackendImpl) : Prop :=
  ∀ x filter, b'.eventFilters.find x = some filter → b.eventFilters.find x = some filter

theorem KeepsEventFilters.trans {b b' b'' : FilterAPIBackendImpl} (h : KeepsEventFilters b b')
    (h' : KeepsEventFilters b' b'') : KeepsEventFilters b b'' :=
  fun x filter hf => h x filter (h' x filter hf)

theorem keepsEventFilters_of_eq {b b' : FilterAPIBackendImpl}
    (h : b'.eventFilters = b.eventFilters) : KeepsEventFilters b b' := by
  intro x filter hf
  rw [← h]
  exact hf

theorem keepsEventFilters_uninstallFilterOfType (b : FilterAPIBackendImpl) (filterId : Str)
    (type : FilterType) : KeepsEventFilters b (b.uninstallFilterOfType filterId type).2 := by
  unfold uninstallFilterOfType
  split_ifs
  · -- the event map loses the id
    intro x filter hf
    change (b.eventFilters.erase filterId).find x = some filter at hf
    rw [FinStore.find_erase] at hf
    by_cases hx : x = filterId
    · rw [if_pos hx] at hf
      cases hf
    · rw [if_neg hx] at hf
      exact hf
  · exact keepsEventFilters_of_eq rfl
  · exact keepsEventFilters_of_eq rfl

/-- The loop of `SetEpochRange` keeps the event filters it does not uninstall as they were; the
    induction is on the entries due, with the backend generalised. -/
theorem keepsEventFilters_uninstallDue (due : List (ℕ × Str)) :
    ∀ b : FilterAPIBackendImpl, KeepsEventFilters b (b.uninstallDue due) := by
  induction due with
  | nil => exact fun _ _ _ hf => hf
  | cons entry due ih =>
    intro b
    exact (keepsEventFilters_uninstallFilterOfType b entry.2 (guessFilterType entry.2)).trans (ih _)

theorem keepsEventFilters_setEpochRange (b : FilterAPIBackendImpl) (earliest latest : UInt64)
    (now : ℕ) : KeepsEventFilters b (b.setEpochRange earliest latest now) := by
  unfold setEpochRange
  dsimp only
  split_ifs
  · exact keepsEventFilters_uninstallDue _ b
  · exact (keepsEventFilters_of_eq rfl).trans (keepsEventFilters_uninstallDue _ _)

theorem keepsEventFilters_uninstallFilter (b : FilterAPIBackendImpl) (filterId : Str) :
    KeepsEventFilters b (b.uninstallFilter filterId).2 := by
  unfold uninstallFilter
  dsimp only
  split_ifs
  · exact fun _ _ hf => hf
  · exact keepsEventFilters_uninstallFilterOfType b filterId _

/-- The installs of block and pending-transaction filters leave the event filters alone. -/
theorem eventFilters_installNewBlockFilter (b : FilterAPIBackendImpl) (now : ℕ) :
    (b.installNewBlockFilter now).2.eventFilters = b.eventFilters := by
  unfold installNewBlockFilter
  split_ifs <;> rfl

theorem eventFilters_installNewPendingTxnFilter (b : FilterAPIBackendImpl) (now : ℕ) :
    (b.installNewPendingTxnFilter now).2.eventFilters = b.eventFilters := by
  unfold installNewPendingTxnFilter
  split_ifs <;> rfl

/-- `InstallNewEventFilter` adds at most the filter of the next id, at `SEEN_NOTHING`, once the
    backend has a latest epoch. -/
theorem find_installNewEventFilter (stoull : Str → Except String ℕ) (b : FilterAPIBackendImpl)
    (params : JsonValue) (now : ℕ) {x : Str} {filter : EventFilter}
    (hf : (b.installNewEventFilter stoull params now).2.eventFilters.find x = some filter) :
    b.eventFilters.find x = some filter ∨
      (¬ b.latestEpoch < 0 ∧ x = newFilterId (b.filterCounter + 1) .eventFilter (by decide) ∧
        filter.lastSeen = seenNothing) := by
  unfold installNewEventFilter at hf
  split_ifs at hf with hready
  · exact Or.inl hf
  · split at hf
    · exact Or.inl hf
    · unfold registerNewFilter at hf
      dsimp only at hf
      rw [FinStore.find_insert] at hf
      split_ifs at hf with hx
      · cases hf
        exact Or.inr ⟨hready, hx, rfl⟩
      · exact Or.inl hf

/-- **A poll moves no event filter but the polled one.** -/
theorem find_getFilterChanges_of_ne (b : FilterAPIBackendImpl) (cache : TxCache) (filterId : Str)
    (now : ℕ) {x : Str} (hx : x ≠ filterId) :
    (b.getFilterChanges cache filterId now).2.eventFilters.find x = b.eventFilters.find x := by
  show (b.dispatchFilterChanges cache filterId {}).2.2.eventFilters.find x = _
  unfold dispatchFilterChanges
  cases guessFilterType filterId with
  | invalid => rfl
  | eventFilter =>
    dsimp only
    rw [getEventFilterChanges_false]
    exact find_pollFilterMap_of_ne _ _ _ _ _ hx {}
  | txnFilter => rfl
  | blkFilter => rfl

/-- A poll leaves the same ids in the event map. -/
theorem isSome_find_getFilterChanges (b : FilterAPIBackendImpl) (cache : TxCache)
    (filterId : Str) (now : ℕ) (x : Str) :
    ((b.getFilterChanges cache filterId now).2.eventFilters.find x).isSome =
      (b.eventFilters.find x).isSome := by
  obtain ⟨-, hsame, -⟩ := dispatchFilterChanges_spec b cache filterId {}
  have hkeys : (b.dispatchFilterChanges cache filterId {}).2.2.eventFilters.keys =
      b.eventFilters.keys := hsame.keysOf_eq .eventFilter
  rw [Bool.eq_iff_iff, ← (b.getFilterChanges cache filterId now).2.eventFilters.mem_keys,
    ← b.eventFilters.mem_keys]
  show x ∈ (b.dispatchFilterChanges cache filterId {}).2.2.eventFilters.keys ↔ _
  rw [hkeys]

/-- **A poll of an event filter**: once its cursor has reached the latest epoch, an empty array and
    the same filter; otherwise what the cache reports for its params from the cursor, and the
    cache's new cursor. -/
theorem getFilterChanges_eventFilter (b : FilterAPIBackendImpl) (cache : TxCache) (filterId : Str)
    (now : ℕ) (htype : guessFilterType filterId = .eventFilter) {filter : EventFilter}
    (hfind : b.eventFilters.find filterId = some filter) :
    (b.getFilterChanges cache filterId now).1 =
        (if b.latestEpoch ≤ filter.lastSeen then { success := true, result := .array [] }
          else (cache.getEventFilterChanges filter.lastSeen filter.params
            { result := .array [] }).2) ∧
      (b.getFilterChanges cache filterId now).2.eventFilters.find filterId =
        some { filter with
          lastSeen := if b.latestEpoch ≤ filter.lastSeen then filter.lastSeen
            else (cache.getEventFilterChanges filter.lastSeen filter.params
              { result := .array [] }).1 } := by
  show (b.dispatchFilterChanges cache filterId {}).1 = _ ∧
    (b.dispatchFilterChanges cache filterId {}).2.2.eventFilters.find filterId = _
  unfold dispatchFilterChanges
  rw [htype]
  dsimp only
  rw [getEventFilterChanges_false]
  unfold pollFilterMap
  rw [hfind]
  dsimp only
  split_ifs
  · exact ⟨rfl, hfind⟩
  · exact ⟨rfl, FinStore.find_insert_self _ _ _⟩

/-- An installed event filter is under an id of its type that the backend issued. -/
theorem Inv.typed_of_eventFilter {b : FilterAPIBackendImpl} (h : b.Inv) {x : Str}
    {filter : EventFilter} (hf : b.eventFilters.find x = some filter) :
    guessFilterType x = .eventFilter ∧ b.Issued x := by
  have hmem : x ∈ b.keysOf .eventFilter := by
    show x ∈ b.eventFilters.keys
    rw [b.eventFilters.mem_keys, hf]
    rfl
  exact h.typed .eventFilter x hmem

/-- An event filter found after a poll of its id was installed before. -/
theorem eventFilter_of_getFilterChanges (b : FilterAPIBackendImpl) (cache : TxCache) {x : Str}
    {now : ℕ} {filter : EventFilter}
    (hf : (b.getFilterChanges cache x now).2.eventFilters.find x = some filter) :
    ∃ old, b.eventFilters.find x = some old := by
  have hsome := isSome_find_getFilterChanges b cache x now x
  rw [hf, Option.isSome_some] at hsome
  exact Option.isSome_iff_exists.1 hsome.symm

end FilterAPIBackendImpl

/-! ## The event cursors over a run -/

namespace APICacheImpl

/-- The cache's event method answers what the blocks cache reports, as an array, and success. -/
theorem txCache_getEventFilterChanges (logsOf : EpochMetadata → List EventLog) (a : APICacheImpl)
    (afterEpoch : ℤ) (filter : EventFilterParams) (ret : PollResult) :
    (a.txCache logsOf).getEventFilterChanges afterEpoch filter ret =
      ((a.blocksCache.getEventFilterChanges logsOf afterEpoch filter).1, { ret with
        success := true, result := .array (a.blocksCache.getEventFilterChanges logsOf afterEpoch
          filter).2 }) :=
  rfl

/-- Every event filter's cursor is at most the last epoch finalized, of which there is one from 1
    on. -/
def EventCursorsIn (a : APICacheImpl) : Prop :=
  ∀ x filter, a.filterAPI.eventFilters.find x = some filter →
    filter.lastSeen ≤ a.blocksCache.getLastEpoch ∧ 1 ≤ a.blocksCache.getLastEpoch

theorem eventCursorsIn_init : init.EventCursorsIn := by
  intro x filter hf
  simp [init, FilterAPIBackendImpl.init] at hf

/-- `EpochFinalized` for each epoch keeps the event filters it does not uninstall. The induction
    is on the epochs, with the backend generalised. -/
theorem keepsEventFilters_epochsFinalized (now : ℕ) (items : List EpochMetadata) :
    ∀ b : FilterAPIBackendImpl,
      FilterAPIBackendImpl.KeepsEventFilters b (items.foldl (epochFinalized now) b) := by
  induction items with
  | nil => exact fun _ _ _ hf => hf
  | cons item items ih =>
    intro b
    exact (FilterAPIBackendImpl.keepsEventFilters_setEpochRange b _ _ now).trans (ih _)

/-- The cursor a poll of the blocks cache gives an event filter is at most its last epoch, from one
    that is. -/
theorem getEventFilterChanges_fst_le (c : BlocksCache) (logsOf : EpochMetadata → List EventLog)
    (filter : EventFilterParams) {afterEpoch : ℤ} (h : afterEpoch ≤ c.getLastEpoch) :
    (c.getEventFilterChanges logsOf afterEpoch filter).1 ≤ c.getLastEpoch := by
  unfold BlocksCache.getEventFilterChanges
  dsimp only
  by_cases hnew : c.getLastEpoch ≤ afterEpoch ∨ filter.fromBlock = pendingEpoch
  · rw [if_pos hnew]
    exact h
  · rw [if_neg hnew]

section EventCursors

variable {heads : List EpochMetadata} {a : APICacheImpl}

/-- The last epoch never goes back. -/
theorem Inv.getLastEpoch_le_step (h : Inv heads a) (stoull : Str → Except String ℕ)
    (logsOf : EpochMetadata → List EventLog) (call : APICall) :
    a.blocksCache.getLastEpoch ≤ (a.step stoull logsOf call).cache.blocksCache.getLastEpoch := by
  have hblocks : ∀ (call : CacheCall) (now : ℕ),
      a.blocksCache.getLastEpoch ≤ (a.updateBlocks call now).1.blocksCache.getLastEpoch :=
    fun call _ => (BlocksCache.appends_stepLog h.orderly h.below call).1.getLastEpoch_le
  cases call with
  | startEpoch epoch blockHash numShards numTxns now => exact hblocks _ now
  | addCommittedTransaction epoch shard hash now => exact hblocks _ now
  | _ => exact le_refl _

/-- **No call but a poll of it changes an installed event filter**, and none installs a filter
    under an id already issued. -/
theorem find_step_of_not_polls {filterId : Str} (hissued : a.filterAPI.Issued filterId)
    (hroom : a.filterAPI.Room) (stoull : Str → Except String ℕ)
    (logsOf : EpochMetadata → List EventLog) (call : APICall) (hpoll : call.polls filterId = false)
    {filter : EventFilter}
    (hf : (a.step stoull logsOf call).cache.filterAPI.eventFilters.find filterId = some filter) :
    a.filterAPI.eventFilters.find filterId = some filter := by
  have hblocks : ∀ (call : CacheCall) (now : ℕ),
      (a.updateBlocks call now).1.filterAPI.eventFilters.find filterId = some filter →
        a.filterAPI.eventFilters.find filterId = some filter :=
    fun call now => keepsEventFilters_epochsFinalized now (a.blocksCache.stepLog call).2 _ _ _
  cases call with
  | startEpoch epoch blockHash numShards numTxns now => exact hblocks _ now hf
  | addCommittedTransaction epoch shard hash now => exact hblocks _ now hf
  | addPendingTransaction hash epoch => exact hf
  | getFilterLogs x => exact hf
  | getLogs params => exact hf
  | installNewBlockFilter now =>
    exact FilterAPIBackendImpl.keepsEventFilters_of_eq
      (FilterAPIBackendImpl.eventFilters_installNewBlockFilter _ now) _ _ hf
  | installNewPendingTxnFilter now =>
    exact FilterAPIBackendImpl.keepsEventFilters_of_eq
      (FilterAPIBackendImpl.eventFilters_installNewPendingTxnFilter _ now) _ _ hf
  | installNewEventFilter params now =>
    -- the new id was never issued, so it is not the filter's
    rcases FilterAPIBackendImpl.find_installNewEventFilter stoull _ params now hf with
      hold | ⟨-, hnew, -⟩
    · exact hold
    · exact absurd (hnew ▸ hissued) (FilterAPIBackendImpl.not_issued_next hroom .eventFilter _)
  | uninstallFilter x => exact FilterAPIBackendImpl.keepsEventFilters_uninstallFilter _ x _ _ hf
  | getFilterChanges x now =>
    have hx : filterId ≠ x := fun heq => by
      rw [heq] at hpoll
      exact absurd hpoll (by simp [APICall.polls])
    exact (FilterAPIBackendImpl.find_getFilterChanges_of_ne _ _ _ now hx).symm.trans hf

/-- **Every call in order keeps the event cursors within the finalized epochs**: a new filter
    starts at `SEEN_NOTHING` once an epoch from 1 on is finalized, and a poll moves a cursor at
    most to the last epoch. -/
theorem EventCursorsIn.step (he : a.EventCursorsIn) (h : Inv heads a)
    (stoull : Str → Except String ℕ) (logsOf : EpochMetadata → List EventLog) (call : APICall) :
    (a.step stoull logsOf call).cache.EventCursorsIn := by
  have hgrow := h.getLastEpoch_le_step stoull logsOf call
  -- a filter kept as it was stays within the epochs, which only grow
  have hkept : ∀ x filter, a.filterAPI.eventFilters.find x = some filter →
      filter.lastSeen ≤ (a.step stoull logsOf call).cache.blocksCache.getLastEpoch ∧
        1 ≤ (a.step stoull logsOf call).cache.blocksCache.getLastEpoch := by
    intro x filter hf
    obtain ⟨hle, hone⟩ := he x filter hf
    exact ⟨le_trans hle hgrow, le_trans hone hgrow⟩
  have hblocks : ∀ (call : CacheCall) (now : ℕ),
      FilterAPIBackendImpl.KeepsEventFilters a.filterAPI (a.updateBlocks call now).1.filterAPI :=
    fun call now => keepsEventFilters_epochsFinalized now (a.blocksCache.stepLog call).2 _
  intro x filter hf
  cases call with
  | startEpoch epoch blockHash numShards numTxns now => exact hkept x filter (hblocks _ now x filter hf)
  | addCommittedTransaction epoch shard hash now => exact hkept x filter (hblocks _ now x filter hf)
  | addPendingTransaction hash epoch => exact he x filter hf
  | getFilterLogs x => exact he _ filter hf
  | getLogs params => exact he x filter hf
  | installNewBlockFilter now =>
    exact he x filter (FilterAPIBackendImpl.keepsEventFilters_of_eq
      (FilterAPIBackendImpl.eventFilters_installNewBlockFilter _ now) x filter hf)
  | installNewPendingTxnFilter now =>
    exact he x filter (FilterAPIBackendImpl.keepsEventFilters_of_eq
      (FilterAPIBackendImpl.eventFilters_installNewPendingTxnFilter _ now) x filter hf)
  | installNewEventFilter params now =>
    rcases FilterAPIBackendImpl.find_installNewEventFilter stoull _ params now hf with
      hold | ⟨hready, -, hseen⟩
    · exact he x filter hold
    · -- the new filter starts at `SEEN_NOTHING`, below every epoch
      obtain ⟨hone, -⟩ := h.one_le_of_ready hready
      rw [hseen]
      exact ⟨h.seenNothing_le, hone⟩
  | uninstallFilter y =>
    exact he x filter (FilterAPIBackendImpl.keepsEventFilters_uninstallFilter _ y x filter hf)
  | getFilterChanges y now =>
    by_cases hx : x = y
    · subst hx
      -- the polled filter was installed before, with the id's type
      change (a.filterAPI.getFilterChanges (a.txCache logsOf) x now).2.eventFilters.find x =
        some filter at hf
      obtain ⟨old, hold⟩ := FilterAPIBackendImpl.eventFilter_of_getFilterChanges _ _ hf
      obtain ⟨htype, -⟩ := h.filters.typed_of_eventFilter hold
      obtain ⟨hle, hone⟩ := he x old hold
      rw [(FilterAPIBackendImpl.getFilterChanges_eventFilter _ _ _ now htype hold).2] at hf
      cases hf
      refine ⟨?_, hone⟩
      split_ifs
      · exact hle
      · exact getEventFilterChanges_fst_le a.blocksCache logsOf old.params hle
    · exact he x filter
        ((FilterAPIBackendImpl.find_getFilterChanges_of_ne _ _ _ now hx).symm.trans hf)

/-- **Right after a poll, an installed event filter not for the pending block has the last epoch
    finalized as its cursor**: the backend's latest epoch is that epoch, so the poll reads the
    cache unless the cursor is there already. -/
theorem Inv.eventFilter_poll (h : Inv heads a) (he : a.EventCursorsIn) {filterId : Str}
    {filter : EventFilter} (hf : a.filterAPI.eventFilters.find filterId = some filter)
    (hpending : filter.params.fromBlock ≠ pendingEpoch) (stoull : Str → Except String ℕ)
    (logsOf : EpochMetadata → List EventLog) (now : ℕ) :
    (a.step stoull logsOf (.getFilterChanges filterId now)).cache.filterAPI.eventFilters.find
        filterId = some { filter with lastSeen := a.blocksCache.getLastEpoch } := by
  obtain ⟨htype, -⟩ := h.filters.typed_of_eventFilter hf
  obtain ⟨hle, hone⟩ := he filterId filter hf
  have hlatest := h.latestEpoch_eq hone
  change (a.filterAPI.getFilterChanges (a.txCache logsOf) filterId now).2.eventFilters.find
    filterId = _
  rw [(FilterAPIBackendImpl.getFilterChanges_eventFilter _ _ _ now htype hf).2, hlatest]
  split_ifs with hreached
  · rw [le_antisymm hle hreached]
  · show some { filter with
      lastSeen := (a.blocksCache.getEventFilterChanges logsOf filter.lastSeen filter.params).1 } = _
    unfold BlocksCache.getEventFilterChanges
    dsimp only
    rw [if_neg (not_or.2 ⟨hreached, hpending⟩)]

end EventCursors

end APICacheImpl

/-! ## An event filter over a run -/

deriving instance DecidableEq for EventFilter

namespace Watch

/-- A poll of the filter finds at most `TXMETADATADEPTH` epochs finalized past its cursor, so
    none has left the deque unread. -/
def EventNoLoss (filterId : Str) (w : Watch) (call : APICall) : Prop :=
  call.polls filterId = true → ∀ filter ∈ w.cache.filterAPI.eventFilters.find filterId,
    (w.heads.filter fun item => decide (filter.lastSeen < item.epoch)).length ≤ txMetadataDepth

instance decidableEventNoLoss (filterId : Str) (w : Watch) (call : APICall) :
    Decidable (w.EventNoLoss filterId call) :=
  inferInstanceAs (Decidable (call.polls filterId = true →
    ∀ filter ∈ w.cache.filterAPI.eventFilters.find filterId,
      (w.heads.filter fun item => decide (filter.lastSeen < item.epoch)).length ≤ txMetadataDepth))

/-- **Every run in order keeps the event cursors within the finalized epochs.** -/
theorem eventCursorsIn_run (stoull : Str → Except String ℕ) (logsOf : EpochMetadata → List EventLog)
    (filterId : Str) (calls : List APICall)
    (hcalls : Fold.Along (step stoull logsOf filterId) Fair init calls) :
    (init.run stoull logsOf filterId calls).cache.EventCursorsIn :=
  (@Fold.foldl_inv _ _ (step stoull logsOf filterId) Fair
    (fun w => APICacheImpl.Inv w.heads w.cache ∧ w.cache.EventCursorsIn)
    (fun _ call hw hcall => ⟨hw.1.step stoull logsOf call hcall, hw.2.step hw.1 stoull logsOf call⟩)
    calls init ⟨APICacheImpl.inv_init, APICacheImpl.eventCursorsIn_init⟩ hcalls).2

/-- Since a moment at which an event filter with params `params` had cursor `c₀` and its owner had
    got `got₀`: the run keeps its invariants, the filter's id was issued, and while the filter is
    installed it keeps its params, its cursor `c` is past `c₀`, and the polls since answered the
    logs it matches of the epochs its blocks cover finalized in `(c₀, c]`, in order. -/
structure EventTracks (logsOf : EpochMetadata → List EventLog) (filterId : Str)
    (params : EventFilterParams) (c₀ : ℤ) (got₀ : List JsonValue) (w : Watch) : Prop where
  inv : APICacheImpl.Inv w.heads w.cache
  cursors : w.cache.EventCursorsIn
  issued : w.cache.filterAPI.Issued filterId
  got_eq : ∀ filter, w.cache.filterAPI.eventFilters.find filterId = some filter →
    filter.params = params ∧ c₀ ≤ filter.lastSeen ∧
      w.got = got₀ ++ ((w.heads.filter fun item => decide (params.Covers item.epoch)).filter
        fun item => decide (c₀ < item.epoch ∧ item.epoch ≤ filter.lastSeen)).flatMap
          (matchedLogs logsOf params)

/-- What a poll of the cache from cursor `c` answers an event filter not for `latest` or
    `pending`, while the deque holds every epoch past `c`: the logs it matches of the epochs its
    blocks cover in `(c, last]`. -/
theorem EventTracks.poll_answer {logsOf : EpochMetadata → List EventLog} {filterId : Str}
    {params : EventFilterParams} {c₀ : ℤ} {got₀ : List JsonValue} {w : Watch}
    (h : EventTracks logsOf filterId params c₀ got₀ w) (hlatest : params.fromBlock ≠ latestEpoch)
    (hpending : params.fromBlock ≠ pendingEpoch) {c : ℤ}
    (hc : c < w.cache.blocksCache.getLastEpoch)
    (hnoloss : (w.heads.filter fun item => decide (c < item.epoch)).length ≤ txMetadataDepth) :
    w.cache.blocksCache.getEventFilterChanges logsOf c params =
      (w.cache.blocksCache.getLastEpoch,
        ((w.heads.filter fun item => decide (params.Covers item.epoch)).filter
          fun item => decide (c < item.epoch ∧ item.epoch ≤ w.cache.blocksCache.getLastEpoch)).flatMap
            (matchedLogs logsOf params)) := by
  have hbelow : ∀ item ∈ w.cache.blocksCache.finalizedEpochs, item.epoch < 2 ^ 63 := by
    intro item hmem
    rw [h.inv.window] at hmem
    exact (h.inv.heads_range item (List.mem_of_mem_drop hmem)).2
  rw [BlocksCache.getEventFilterChanges_of_sorted h.inv.orderly.1 hbelow logsOf c hlatest hpending,
    max_eq_right (le_of_lt hc)]
  congr 2
  -- the deque holds every epoch past the cursor, all of them at most the last
  have hwindow : w.cache.blocksCache.finalizedEpochs.filter (fun item => decide (c < item.epoch)) =
      w.heads.filter fun item => decide (c < item.epoch) := by
    rw [h.inv.window]
    exact History.filter_rtake_of_length_le (h.inv.heads_lt.imp le_of_lt) hnoloss
  have hupto : w.heads.filter (fun item => decide (params.Covers item.epoch ∧ c < item.epoch)) =
      w.heads.filter fun item => decide ((c < item.epoch ∧
        item.epoch ≤ w.cache.blocksCache.getLastEpoch) ∧ params.Covers item.epoch) := by
    apply List.filter_congr
    intro item hmem
    have := h.inv.epoch_le hmem
    rw [decide_eq_decide]
    exact ⟨fun hin => ⟨⟨hin.2, this⟩, hin.1⟩, fun hin => ⟨hin.2, hin.1.1⟩⟩
  calc w.cache.blocksCache.finalizedEpochs.filter
        (fun item => decide (c < item.epoch ∧ params.Covers item.epoch))
      _ = w.cache.blocksCache.finalizedEpochs.filter
            (fun item => decide (params.Covers item.epoch ∧ c < item.epoch)) := by
        apply List.filter_congr
        intro item _
        rw [decide_eq_decide]
        exact and_comm
      _ = (w.cache.blocksCache.finalizedEpochs.filter fun item => decide (c < item.epoch)).filter
            (fun item => decide (params.Covers item.epoch)) := filter_and_eq_filter_filter _ _ _
      _ = (w.heads.filter fun item => decide (c < item.epoch)).filter
            (fun item => decide (params.Covers item.epoch)) := by rw [hwindow]
      _ = w.heads.filter (fun item => decide (params.Covers item.epoch ∧ c < item.epoch)) :=
        (filter_and_eq_filter_filter _ _ _).symm
      _ = _ := by rw [hupto, filter_and_eq_filter_filter]

/-- **A poll of a tracked event filter not for `latest`** moves its cursor forward to some `c` and
    answers the logs it matches of the epochs its blocks cover in `(cursor, c]`: nothing once the
    cursor has reached the latest epoch or when the filter is for `pending`, and otherwise up to
    the last epoch, all of them while the deque holds every epoch past the cursor. -/
theorem EventTracks.poll_items {logsOf : EpochMetadata → List EventLog} {filterId : Str}
    {params : EventFilterParams} {c₀ : ℤ} {got₀ : List JsonValue} {w : Watch}
    (h : EventTracks logsOf filterId params c₀ got₀ w) (hlatest : params.fromBlock ≠ latestEpoch)
    (now : ℕ) {old : EventFilter} (hold : w.cache.filterAPI.eventFilters.find filterId = some old)
    (hparams : old.params = params)
    (hnoloss : (w.heads.filter fun item => decide (old.lastSeen < item.epoch)).length ≤
      txMetadataDepth) :
    ∃ c, (w.cache.filterAPI.getFilterChanges (w.cache.txCache logsOf) filterId now).2.eventFilters.find
        filterId = some { old with lastSeen := c } ∧ old.lastSeen ≤ c ∧
      (Response.poll (w.cache.filterAPI.getFilterChanges (w.cache.txCache logsOf) filterId
          now).1).items =
        ((w.heads.filter fun item => decide (params.Covers item.epoch)).filter
          fun item => decide (old.lastSeen < item.epoch ∧ item.epoch ≤ c)).flatMap
            (matchedLogs logsOf params) := by
  obtain ⟨htype, -⟩ := h.inv.filters.typed_of_eventFilter hold
  obtain ⟨-, hone⟩ := h.cursors filterId old hold
  obtain ⟨hresult, hfind⟩ := FilterAPIBackendImpl.getFilterChanges_eventFilter
    w.cache.filterAPI (w.cache.txCache logsOf) filterId now htype hold
  rw [hresult, hfind, APICacheImpl.txCache_getEventFilterChanges, hparams]
  -- nothing is owed for an empty interval
  have hnone : ∀ c, c ≤ old.lastSeen →
      ((w.heads.filter fun item => decide (params.Covers item.epoch)).filter
        fun item => decide (old.lastSeen < item.epoch ∧ item.epoch ≤ c)).flatMap
          (matchedLogs logsOf params) = [] := by
    intro c hc
    rw [List.filter_eq_nil_iff.2, List.flatMap_nil]
    intro item _ hin
    have := of_decide_eq_true hin
    omega
  by_cases hreached : w.cache.filterAPI.latestEpoch ≤ old.lastSeen
  · -- the cursor has reached the latest epoch: nothing new
    refine ⟨old.lastSeen, by rw [if_pos hreached], le_refl _, ?_⟩
    rw [if_pos hreached, hnone old.lastSeen (le_refl _)]
    rfl
  · rw [if_neg hreached, if_neg hreached]
    by_cases hpending : params.fromBlock = pendingEpoch
    · -- a filter for the pending block gets nothing and keeps its cursor
      have hnothing : w.cache.blocksCache.getEventFilterChanges logsOf old.lastSeen params =
          (old.lastSeen, []) := by
        unfold BlocksCache.getEventFilterChanges
        dsimp only
        rw [if_pos (Or.inr hpending)]
      rw [hnothing]
      refine ⟨old.lastSeen, rfl, le_refl _, ?_⟩
      rw [hnone old.lastSeen (le_refl _)]
      rfl
    · -- the cache answers up to the last epoch, which is the latest
      have hlt : old.lastSeen < w.cache.blocksCache.getLastEpoch := by
        rw [h.inv.latestEpoch_eq hone] at hreached
        exact lt_of_not_ge hreached
      rw [h.poll_answer hlatest hpending hlt hnoloss]
      exact ⟨_, rfl, le_of_lt hlt, rfl⟩

/-- **Each call keeps track of an event filter not for `latest`**: the epochs finalized meanwhile
    come after its cursor, and a poll answers the logs it matches of those past the cursor, all of
    them while the deque still holds them. -/
theorem EventTracks.step {logsOf : EpochMetadata → List EventLog} {filterId : Str}
    {params : EventFilterParams} {c₀ : ℤ} {got₀ : List JsonValue} {w : Watch}
    (h : EventTracks logsOf filterId params c₀ got₀ w) (hlatest : params.fromBlock ≠ latestEpoch)
    (stoull : Str → Except String ℕ) (call : APICall) (hfair : w.Fair call)
    (hnoloss : w.EventNoLoss filterId call) :
    EventTracks logsOf filterId params c₀ got₀ (w.step stoull logsOf filterId call) := by
  refine ⟨h.inv.step stoull logsOf call hfair, h.cursors.step h.inv stoull logsOf call,
    h.issued.mono (APICacheImpl.filterCounter_le_step hfair.1 stoull logsOf call),
    fun filter hf => ?_⟩
  cases hpoll : call.polls filterId
  · -- the filter is kept as it was, and every epoch finalized comes after its cursor
    have hold := APICacheImpl.find_step_of_not_polls h.issued hfair.1 stoull logsOf call hpoll hf
    obtain ⟨hparams, hc₀, hgot⟩ := h.got_eq filter hold
    have hle := (h.cursors filterId filter hold).1
    have hnone : ((w.cache.step stoull logsOf call).finalized.filter
        fun item => decide (params.Covers item.epoch)).filter
          (fun item => decide (c₀ < item.epoch ∧ item.epoch ≤ filter.lastSeen)) = [] := by
      rw [List.filter_eq_nil_iff]
      intro item hmem hin
      have := h.inv.lt_of_mem_finalized stoull logsOf call item (List.mem_of_mem_filter hmem)
      have := (of_decide_eq_true hin).2
      omega
    refine ⟨hparams, hc₀, ?_⟩
    show (if call.polls filterId then _ else w.got) = got₀ ++ (((w.heads ++
      (w.cache.step stoull logsOf call).finalized).filter _).filter _).flatMap _
    rw [hpoll, if_neg Bool.false_ne_true, hgot, List.filter_append, List.filter_append, hnone,
      List.append_nil]
  · -- a poll of the filter, installed before it
    obtain ⟨x, now, rfl, rfl⟩ : ∃ x now, call = .getFilterChanges x now ∧ x = filterId := by
      cases call <;> simp_all [APICall.polls]
    have hpolls : APICall.polls x (.getFilterChanges x now) = true := by simp [APICall.polls]
    change (w.cache.filterAPI.getFilterChanges (w.cache.txCache logsOf) x now).2.eventFilters.find
      x = some filter at hf
    obtain ⟨old, hold⟩ := FilterAPIBackendImpl.eventFilter_of_getFilterChanges _ _ hf
    obtain ⟨hparams, hc₀, hgot⟩ := h.got_eq old hold
    obtain ⟨c, hfind, hle, hitems⟩ :=
      h.poll_items hlatest now hold hparams (hnoloss hpolls old hold)
    rw [hfind] at hf
    cases hf
    refine ⟨hparams, le_trans hc₀ hle, ?_⟩
    -- the poll adds its answer, and finalizes nothing
    show (if APICall.polls x (.getFilterChanges x now) then w.got ++ (Response.poll
        (w.cache.filterAPI.getFilterChanges (w.cache.txCache logsOf) x now).1).items else w.got) =
      got₀ ++ (((w.heads ++ ([] : List EpochMetadata)).filter
        fun item => decide (params.Covers item.epoch)).filter
          fun item => decide (c₀ < item.epoch ∧ item.epoch ≤ c)).flatMap (matchedLogs logsOf params)
    rw [if_pos hpolls, List.append_nil, hitems, hgot, List.append_assoc, ← List.flatMap_append,
      History.filter_between_append hc₀ hle ((h.inv.heads_lt.imp le_of_lt).filter _)]

/-- **An event filter's polls answer every log it matches once**: from any moment of a run in
    order at which an event filter whose blocks start neither at `latest` nor at `pending` is
    installed with cursor `c`, as long as no poll of it finds more epochs past its cursor than the
    deque holds, a poll after which the filter is still installed leaves its owner answered, since
    that moment, the logs it matches of exactly the epochs its blocks cover finalized after `c`,
    epoch by epoch in the order they were finalized. -/
theorem eventFilter_poll_gets_every_log_once (stoull : Str → Except String ℕ)
    (logsOf : EpochMetadata → List EventLog) (filterId : Str) (calls₁ : List APICall)
    (h₁ : Fold.Along (step stoull logsOf filterId) Fair init calls₁) (filter : EventFilter)
    (hfind : (init.run stoull logsOf filterId calls₁).cache.filterAPI.eventFilters.find filterId =
      some filter)
    (hlatest : filter.params.fromBlock ≠ latestEpoch)
    (hpending : filter.params.fromBlock ≠ pendingEpoch) (calls₂ : List APICall) (now : ℕ)
    (h₂ : Fold.Along (step stoull logsOf filterId)
      (fun w call => w.Fair call ∧ w.EventNoLoss filterId call)
      (init.run stoull logsOf filterId calls₁) (calls₂ ++ [.getFilterChanges filterId now]))
    (hinstalled : ((init.run stoull logsOf filterId calls₁).run stoull logsOf filterId
      (calls₂ ++ [.getFilterChanges filterId now])).cache.filterAPI.eventFilters.find filterId ≠
        none) :
    ((init.run stoull logsOf filterId calls₁).run stoull logsOf filterId
        (calls₂ ++ [.getFilterChanges filterId now])).got =
      (init.run stoull logsOf filterId calls₁).got ++
        (((init.run stoull logsOf filterId calls₁).run stoull logsOf filterId
          (calls₂ ++ [.getFilterChanges filterId now])).heads.filter fun item =>
            decide (filter.lastSeen < item.epoch ∧ filter.params.Covers item.epoch)).flatMap
          (matchedLogs logsOf filter.params) := by
  have hinv₁ := inv_run stoull logsOf filterId calls₁ h₁
  have hcursors₁ := eventCursorsIn_run stoull logsOf filterId calls₁ h₁
  generalize init.run stoull logsOf filterId calls₁ = w₁ at hinv₁ hcursors₁ hfind h₂ hinstalled ⊢
  -- from the moment of the cursor on, the run keeps track of the filter
  have htrack₁ : EventTracks logsOf filterId filter.params filter.lastSeen w₁.got w₁ := by
    refine ⟨hinv₁, hcursors₁, (hinv₁.filters.typed_of_eventFilter hfind).2, fun f hf => ?_⟩
    rw [hfind] at hf
    cases hf
    refine ⟨rfl, le_refl _, ?_⟩
    have hnone : (w₁.heads.filter fun item => decide (filter.params.Covers item.epoch)).filter
        (fun item => decide (filter.lastSeen < item.epoch ∧ item.epoch ≤ filter.lastSeen)) = [] := by
      rw [List.filter_eq_nil_iff]
      intro item _ hin
      have := of_decide_eq_true hin
      omega
    rw [hnone, List.flatMap_nil, List.append_nil]
  rw [Fold.along_append] at h₂
  obtain ⟨h₂, ⟨hfair, hnoloss⟩, -⟩ := h₂
  change (w₁.run stoull logsOf filterId calls₂).Fair _ at hfair
  change (w₁.run stoull logsOf filterId calls₂).EventNoLoss filterId _ at hnoloss
  have htrack₂ : EventTracks logsOf filterId filter.params filter.lastSeen w₁.got
      (w₁.run stoull logsOf filterId calls₂) :=
    @Fold.foldl_inv _ _ (step stoull logsOf filterId)
      (fun w call => w.Fair call ∧ w.EventNoLoss filterId call)
      (EventTracks logsOf filterId filter.params filter.lastSeen w₁.got)
      (fun _ call hw hcall => hw.step hlatest stoull call hcall.1 hcall.2) calls₂ w₁ htrack₁ h₂
  have hrun : w₁.run stoull logsOf filterId (calls₂ ++ [.getFilterChanges filterId now]) =
      (w₁.run stoull logsOf filterId calls₂).step stoull logsOf filterId
        (.getFilterChanges filterId now) := by
    rw [run, List.foldl_append]
    rfl
  rw [hrun] at hinstalled ⊢
  generalize w₁.run stoull logsOf filterId calls₂ = w₂ at htrack₂ hfair hnoloss hinstalled ⊢
  -- after the poll the cursor is the last epoch finalized
  obtain ⟨f, hf⟩ := Option.ne_none_iff_exists'.1 hinstalled
  change (w₂.cache.filterAPI.getFilterChanges (w₂.cache.txCache logsOf) filterId now).2.eventFilters.find
    filterId = some f at hf
  obtain ⟨old, hold⟩ := FilterAPIBackendImpl.eventFilter_of_getFilterChanges _ _ hf
  obtain ⟨hparams, -, -⟩ := htrack₂.got_eq old hold
  have hpoll := htrack₂.inv.eventFilter_poll htrack₂.cursors hold (hparams ▸ hpending) stoull
    logsOf now
  obtain ⟨-, -, hgot⟩ := (htrack₂.step hlatest stoull _ hfair hnoloss).got_eq _ hpoll
  rw [hgot]
  -- and no epoch finalized is past the last
  congr 2
  show ((w₂.heads ++ ([] : List EpochMetadata)).filter _).filter _ =
    (w₂.heads ++ ([] : List EpochMetadata)).filter _
  rw [List.append_nil, ← filter_and_eq_filter_filter]
  apply List.filter_congr
  intro item hmem
  have := htrack₂.inv.epoch_le hmem
  rw [decide_eq_decide]
  exact ⟨fun hin => ⟨hin.1.1, hin.2⟩, fun hin => ⟨⟨hin.1, this⟩, hin.2⟩⟩

/-- The params `{"fromBlock": "0x2"}`. -/
def fromTwoParams : JsonValue := .object [("fromBlock".toList, .string "0x2".toList)]

/-- `std::stoull(str, nullptr, 16)` on hex digits. -/
def hexStoull : Str → Except String ℕ := fun str => pure (Digits.ofHexChars 16 str 0)

/-- Every epoch carries one log, of no address and no topic, whose response is the epoch's hash. -/
def oneLogPerEpoch (item : EpochMetadata) : List EventLog := [⟨[], [], hashJson item.blockHash⟩]

/-- Epoch 1 is finalized without transactions, then an event filter from block 2 is installed. -/
def installFromTwoAfterEpochOne : List APICall :=
  [.startEpoch 1 "h1" 0 0 0, .installNewEventFilter fromTwoParams 0]

theorem eventFilter_ne_invalid : FilterType.eventFilter ≠ .invalid := by decide

/-- The id of the first filter, an event filter. -/
def firstEventFilterId : Str := newFilterId 1 .eventFilter eventFilter_ne_invalid

/-- The filter installed: from `SEEN_NOTHING`, for the blocks from 2 on. -/
def fromTwoFilter : EventFilter := ⟨⟨seenNothing, filterExpireTime⟩, { fromBlock := 2 }⟩

/-- The filter from block 2, installed after epoch 1, is answered at its poll after epochs 2 and 3
    the logs of those two. -/
theorem eventFilter_poll_gets_every_log_once_fromTwo :
    Fold.Along (step hexStoull oneLogPerEpoch firstEventFilterId) Fair init
        installFromTwoAfterEpochOne ∧
      (init.run hexStoull oneLogPerEpoch firstEventFilterId
          installFromTwoAfterEpochOne).cache.filterAPI.eventFilters.find firstEventFilterId =
        some fromTwoFilter ∧
      fromTwoFilter.params.fromBlock ≠ latestEpoch ∧ fromTwoFilter.params.fromBlock ≠ pendingEpoch ∧
      Fold.Along (step hexStoull oneLogPerEpoch firstEventFilterId)
        (fun w call => w.Fair call ∧ w.EventNoLoss firstEventFilterId call)
        (init.run hexStoull oneLogPerEpoch firstEventFilterId installFromTwoAfterEpochOne)
        (twoMoreEpochs ++ [.getFilterChanges firstEventFilterId 7]) ∧
      ((init.run hexStoull oneLogPerEpoch firstEventFilterId installFromTwoAfterEpochOne).run
          hexStoull oneLogPerEpoch firstEventFilterId
          (twoMoreEpochs ++ [.getFilterChanges firstEventFilterId 7])).cache.filterAPI.eventFilters.find
        firstEventFilterId ≠ none ∧
      ((init.run hexStoull oneLogPerEpoch firstEventFilterId installFromTwoAfterEpochOne).run
          hexStoull oneLogPerEpoch firstEventFilterId
          (twoMoreEpochs ++ [.getFilterChanges firstEventFilterId 7])).got =
        (init.run hexStoull oneLogPerEpoch firstEventFilterId installFromTwoAfterEpochOne).got ++
          (((init.run hexStoull oneLogPerEpoch firstEventFilterId installFromTwoAfterEpochOne).run
            hexStoull oneLogPerEpoch firstEventFilterId
            (twoMoreEpochs ++ [.getFilterChanges firstEventFilterId 7])).heads.filter fun item =>
              decide (fromTwoFilter.lastSeen < item.epoch ∧
                fromTwoFilter.params.Covers item.epoch)).flatMap
            (matchedLogs oneLogPerEpoch fromTwoFilter.params) := by
  have h₁ : Fold.Along (step hexStoull oneLogPerEpoch firstEventFilterId) Fair init
      installFromTwoAfterEpochOne := by decide
  have hfind : (init.run hexStoull oneLogPerEpoch firstEventFilterId
      installFromTwoAfterEpochOne).cache.filterAPI.eventFilters.find firstEventFilterId =
        some fromTwoFilter := by decide
  have hlatest : fromTwoFilter.params.fromBlock ≠ latestEpoch := by decide
  have hpending : fromTwoFilter.params.fromBlock ≠ pendingEpoch := by decide
  have h₂ : Fold.Along (step hexStoull oneLogPerEpoch firstEventFilterId)
      (fun w call => w.Fair call ∧ w.EventNoLoss firstEventFilterId call)
      (init.run hexStoull oneLogPerEpoch firstEventFilterId installFromTwoAfterEpochOne)
      (twoMoreEpochs ++ [.getFilterChanges firstEventFilterId 7]) := by decide
  have hinstalled : ((init.run hexStoull oneLogPerEpoch firstEventFilterId
      installFromTwoAfterEpochOne).run hexStoull oneLogPerEpoch firstEventFilterId
      (twoMoreEpochs ++ [.getFilterChanges firstEventFilterId 7])).cache.filterAPI.eventFilters.find
        firstEventFilterId ≠ none := by decide
  exact ⟨h₁, hfind, hlatest, hpending, h₂, hinstalled,
    eventFilter_poll_gets_every_log_once hexStoull oneLogPerEpoch firstEventFilterId
      installFromTwoAfterEpochOne h₁ fromTwoFilter hfind hlatest hpending twoMoreEpochs 7 h₂
      hinstalled⟩

end Watch

end Filters

end Zilliqa
