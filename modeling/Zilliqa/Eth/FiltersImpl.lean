import Mathlib
import Zilliqa.Eth.FiltersUtils
import Zilliqa.Eth.PendingTxnCache

/-!
# `Eth.FiltersImpl` — the filter API backend: installing, polling and expiring filters

`FilterAPIBackendImpl` keeps the installed filters in three maps, one per kind, under ids that
`NewFilterId` makes from a counter; `GuessFilterType` tells from an id's last letter which map to
look in. Each filter has a cursor (`lastSeen`) that a poll moves on through the caches, and an
entry in the expiration set; `SetEpochRange`, called whenever an epoch is finalized, uninstalls the
filters whose entry is due. A poll moves the filter's entry a day past the poll.

- `dispatchFilterChanges_spec`, `setEpochRange_spec`, `step_cases`: what each call does to the
  installed filters; a call uninstalls filters (`Removes`) or installs one under the next id
  (`Installs`).
- `Inv`: every installed filter sits in the map its id's letter names, under an id made from a
  counter the backend has reached, and the epoch range is unset or well ordered.
  `inv_runCalls`: every run keeps it while the counter does not wrap.
- `uninstallFilter_installed_and_next_fresh`: so `UninstallFilter` finds every installed filter,
  and an install never takes an id in use; `filterId_never_reinstalled`: nor one used before.
- `filter_uninstalled_a_day_after_poll`: a poll moves the filter's entry from its `expireTime`,
  which no poll updates; from the first poll at another second than the install the entry of that
  poll stays in the set, and the filter is uninstalled a day after it however often it is polled
  after.

Times are the seconds of the steady clock that `Now()` reads, passed in with each call.
-/

namespace Zilliqa

namespace Filters

/-- `API_NOT_READY`. -/
def apiNotReady : Str := "Filter API not ready".toList

/-- `INVALID_FILTER_ID`. -/
def invalidFilterId : Str := "Invalid filter id".toList

/-- `FILTER_NOT_FOUND`. -/
def filterNotFound : Str := "Filter not found".toList

/-- `FILTER_EXPIRE_TIME`, in seconds. -/
def filterExpireTime : ℕ := 86400

/-- `FilterAPIBackend::InstallResult`: the id, or the error. -/
structure InstallResult where
  success : Bool
  result : Str
deriving DecidableEq, Repr

/-- `PollResult`. -/
structure PollResult where
  success : Bool := false
  result : JsonValue := .null
  error : Str := []

/-- `InstalledFilterBase`, without its mutex: the cursor, and the expiry time. -/
structure InstalledFilter where
  lastSeen : ℤ
  expireTime : ℕ
deriving DecidableEq, Repr

/-- `EventFilter`. -/
structure EventFilter extends InstalledFilter where
  params : EventFilterParams

/-- `TxCache`: what the backend asks the caches. Each call takes the result being filled and
    returns the new cursor with it. -/
structure TxCache where
  getEventFilterChanges : ℤ → EventFilterParams → PollResult → ℤ × PollResult
  getBlockFilterChanges : ℤ → PollResult → ℤ × PollResult
  getPendingTxnsFilterChanges : ℤ → PollResult → ℤ × PollResult

/-- `FilterAPIBackendImpl`, without its locks and its reference to the caches. The expiration
    set is a list without duplicates. -/
structure FilterAPIBackendImpl where
  earliestEpoch : ℤ
  latestEpoch : ℤ
  filterCounter : UInt64
  eventFilters : FinStore Str EventFilter
  pendingTxnFilters : FinStore Str InstalledFilter
  blockFilters : FinStore Str InstalledFilter
  expiration : List (ℕ × Str)

namespace FilterAPIBackendImpl

/-- A backend just constructed. -/
def init : FilterAPIBackendImpl :=
  ⟨seenNothing, seenNothing, 0, FinStore.empty, FinStore.empty, FinStore.empty, []⟩

/-- `UninstallFilter(filter_id, type)`: erase from the map of the type, the block filters for any
    type but the other two; `true` if there was a filter. -/
def uninstallFilterOfType (b : FilterAPIBackendImpl) (filterId : Str) (type : FilterType) :
    Bool × FilterAPIBackendImpl :=
  if type = .eventFilter then
    ((b.eventFilters.find filterId).isSome, { b with eventFilters := b.eventFilters.erase filterId })
  else if type = .txnFilter then
    ((b.pendingTxnFilters.find filterId).isSome,
      { b with pendingTxnFilters := b.pendingTxnFilters.erase filterId })
  else
    ((b.blockFilters.find filterId).isSome, { b with blockFilters := b.blockFilters.erase filterId })

/-- `UninstallFilter(filter_id)`: `false` for an id of no type. -/
def uninstallFilter (b : FilterAPIBackendImpl) (filterId : Str) : Bool × FilterAPIBackendImpl :=
  let type := guessFilterType filterId
  if type = .invalid then (false, b) else b.uninstallFilterOfType filterId type

/-- The loop of `SetEpochRange`: uninstall the filter of each entry due. -/
def uninstallDue (b : FilterAPIBackendImpl) (due : List (ℕ × Str)) : FilterAPIBackendImpl :=
  due.foldl (fun b entry => (b.uninstallFilterOfType entry.2 (guessFilterType entry.2)).2) b

/-- `SetEpochRange(earliest, latest)` at time `now`: take the range unless it is inconsistent,
    then uninstall the filters whose entry is due by `now` and drop those entries. The set visits
    the entries due in increasing order; uninstalling does not depend on the order. -/
def setEpochRange (b : FilterAPIBackendImpl) (earliest latest : UInt64) (now : ℕ) :
    FilterAPIBackendImpl :=
  let a := toEpochNumber earliest
  let z := toEpochNumber latest
  let b :=
    if a < 1 ∨ z < 1 ∨ z < a ∨ a < b.earliestEpoch ∨ z < b.latestEpoch then b
    else { b with earliestEpoch := a, latestEpoch := z }
  { b.uninstallDue (b.expiration.filter fun entry => entry.1 ≤ now) with
    expiration := b.expiration.filter fun entry => now < entry.1 }

/-- What the three installs share once they proceed: the counter moves on and makes the id, whose
    entry is due a day from `now`. Returns the id, its expiry time and the backend. -/
def registerNewFilter (b : FilterAPIBackendImpl) (type : FilterType) (h : type ≠ .invalid)
    (now : ℕ) : Str × ℕ × FilterAPIBackendImpl :=
  let counter := b.filterCounter + 1
  let filterId := newFilterId counter type h
  let expireTime := now + filterExpireTime
  (filterId, expireTime,
    { b with filterCounter := counter, expiration := b.expiration.insert (expireTime, filterId) })

/-- `InstallNewEventFilter(params)`: the API must be ready and the params accepted; the filter
    starts from `SEEN_NOTHING`. -/
def installNewEventFilter (stoull : Str → Except String ℕ) (b : FilterAPIBackendImpl)
    (params : JsonValue) (now : ℕ) : InstallResult × FilterAPIBackendImpl :=
  if b.latestEpoch < 0 then (⟨false, apiNotReady⟩, b)
  else
    match initializeEventFilter stoull params with
    | .error e => (⟨false, e.toList⟩, b)
    | .ok filterParams =>
      let r := b.registerNewFilter .eventFilter (by decide) now
      (⟨true, r.1⟩,
        { r.2.2 with
          eventFilters := r.2.2.eventFilters.insert r.1 ⟨⟨seenNothing, r.2.1⟩, filterParams⟩ })

/-- `InstallNewBlockFilter()`: the filter starts just before the latest epoch. -/
def installNewBlockFilter (b : FilterAPIBackendImpl) (now : ℕ) :
    InstallResult × FilterAPIBackendImpl :=
  if b.latestEpoch < 0 then (⟨false, apiNotReady⟩, b)
  else
    let r := b.registerNewFilter .blkFilter (by decide) now
    (⟨true, r.1⟩,
      { r.2.2 with blockFilters := r.2.2.blockFilters.insert r.1 ⟨b.latestEpoch - 1, r.2.1⟩ })

/-- `InstallNewPendingTxnFilter()`: the filter starts from `SEEN_NOTHING`. -/
def installNewPendingTxnFilter (b : FilterAPIBackendImpl) (now : ℕ) :
    InstallResult × FilterAPIBackendImpl :=
  if b.latestEpoch < 0 then (⟨false, apiNotReady⟩, b)
  else
    let r := b.registerNewFilter .txnFilter (by decide) now
    (⟨true, r.1⟩,
      { r.2.2 with pendingTxnFilters := r.2.2.pendingTxnFilters.insert r.1 ⟨seenNothing, r.2.1⟩ })

end FilterAPIBackendImpl

/-- What `GetPendingTxnFilterChanges` and `GetBlockFilterChanges` do with their map, and
    `GetEventFilterChanges` with its own when it keeps the cursor: a missing filter is an error;
    otherwise the result is an array, nothing more while the cursor has reached the latest epoch,
    and else the cache answers from the cursor and gives the new one. Returns the result, the
    filter's expiry time (zero when it is missing) and the map. -/
def pollFilterMap {F : Type} (base : F → InstalledFilter) (setLastSeen : F → ℤ → F)
    (filters : FinStore Str F) (latestEpoch : ℤ) (changes : F → ℤ → PollResult → ℤ × PollResult)
    (filterId : Str) (ret : PollResult) : PollResult × ℕ × FinStore Str F :=
  match filters.find filterId with
  | none => ({ ret with error := filterNotFound }, 0, filters)
  | some filter =>
    let ret := { ret with result := .array [] }
    if latestEpoch ≤ (base filter).lastSeen then
      ({ ret with success := true }, (base filter).expireTime, filters)
    else
      let r := changes filter (base filter).lastSeen ret
      (r.2, (base filter).expireTime, filters.insert filterId (setLastSeen filter r.1))

namespace FilterAPIBackendImpl

/-- `GetEventFilterChanges(filter_id, result, expireTime, ignore_last_seen_cursor)`: with the flag,
    as for `GetFilterLogs`, all the logs from `SEEN_NOTHING`, without reading the expiry time or
    moving the cursor. -/
def getEventFilterChanges (b : FilterAPIBackendImpl) (cache : TxCache) (filterId : Str)
    (ret : PollResult) (ignoreLastSeenCursor : Bool) : PollResult × ℕ × FilterAPIBackendImpl :=
  match b.eventFilters.find filterId with
  | none => ({ ret with error := filterNotFound }, 0, b)
  | some filter =>
    let ret := { ret with result := .array [] }
    if ignoreLastSeenCursor then
      ((cache.getEventFilterChanges seenNothing filter.params ret).2, 0, b)
    else if b.latestEpoch ≤ filter.lastSeen then
      ({ ret with success := true }, filter.expireTime, b)
    else
      let r := cache.getEventFilterChanges filter.lastSeen filter.params ret
      (r.2, filter.expireTime,
        { b with eventFilters := b.eventFilters.insert filterId { filter with lastSeen := r.1 } })

/-- `GetPendingTxnFilterChanges(filter_id, result, expireTime)`. -/
def getPendingTxnFilterChanges (b : FilterAPIBackendImpl) (cache : TxCache) (filterId : Str)
    (ret : PollResult) : PollResult × ℕ × FilterAPIBackendImpl :=
  let r := pollFilterMap id (fun filter lastSeen => { filter with lastSeen }) b.pendingTxnFilters
    b.latestEpoch (fun _ => cache.getPendingTxnsFilterChanges) filterId ret
  (r.1, r.2.1, { b with pendingTxnFilters := r.2.2 })

/-- `GetBlockFilterChanges(filter_id, result, expireTime)`. -/
def getBlockFilterChanges (b : FilterAPIBackendImpl) (cache : TxCache) (filterId : Str)
    (ret : PollResult) : PollResult × ℕ × FilterAPIBackendImpl :=
  let r := pollFilterMap id (fun filter lastSeen => { filter with lastSeen }) b.blockFilters
    b.latestEpoch (fun _ => cache.getBlockFilterChanges) filterId ret
  (r.1, r.2.1, { b with blockFilters := r.2.2 })

/-- The switch of `GetFilterChanges(filter_id)`: the poll of the map the id's letter names.
    Returns the result, the expiry time read (zero when no filter was found) and the backend. -/
def dispatchFilterChanges (b : FilterAPIBackendImpl) (cache : TxCache) (filterId : Str)
    (ret : PollResult) : PollResult × ℕ × FilterAPIBackendImpl :=
  match guessFilterType filterId with
  | .eventFilter => b.getEventFilterChanges cache filterId ret false
  | .txnFilter => b.getPendingTxnFilterChanges cache filterId ret
  | .blkFilter => b.getBlockFilterChanges cache filterId ret
  | .invalid => ({ ret with error := invalidFilterId }, 0, b)

/-- The end of `GetFilterChanges`: the filter's entry moves from the expiry time read to a day
    from `now`, unless no time was read or the entry is there already. -/
def shiftExpiration (expiration : List (ℕ × Str)) (filterId : Str) (expireTime now : ℕ) :
    List (ℕ × Str) :=
  if expireTime ≠ 0 then
    let newExpireTime := now + filterExpireTime
    if newExpireTime ≠ expireTime then
      (expiration.erase (expireTime, filterId)).insert (newExpireTime, filterId)
    else expiration
  else expiration

/-- `GetFilterChanges(filter_id)` at time `now`. -/
def getFilterChanges (b : FilterAPIBackendImpl) (cache : TxCache) (filterId : Str) (now : ℕ) :
    PollResult × FilterAPIBackendImpl :=
  let r := b.dispatchFilterChanges cache filterId {}
  (r.1, { r.2.2 with expiration := shiftExpiration r.2.2.expiration filterId r.2.1 now })

/-- `GetFilterLogs(filter_id)`: every log of an event filter, from `SEEN_NOTHING`. -/
def getFilterLogs (b : FilterAPIBackendImpl) (cache : TxCache) (filterId : Str) : PollResult :=
  if guessFilterType filterId ≠ .eventFilter then { error := invalidFilterId }
  else (b.getEventFilterChanges cache filterId {} true).1

/-- `GetLogs(params)`: every log the params select, from `SEEN_NOTHING`. -/
def getLogs (stoull : Str → Except String ℕ) (b : FilterAPIBackendImpl) (cache : TxCache)
    (params : JsonValue) : PollResult :=
  if b.latestEpoch < 0 then { error := apiNotReady }
  else
    match initializeEventFilter stoull params with
    | .error e => { error := e.toList }
    | .ok filter => (cache.getEventFilterChanges seenNothing filter {}).2

end FilterAPIBackendImpl

/-! ## What each call does to the installed filters -/

namespace FilterAPIBackendImpl

/-- The ids in the map of a type; none for `INVALID`. -/
def keysOf (b : FilterAPIBackendImpl) : FilterType → Finset Str
  | .eventFilter => b.eventFilters.keys
  | .txnFilter => b.pendingTxnFilters.keys
  | .blkFilter => b.blockFilters.keys
  | .invalid => ∅

/-- The expiry time of the filter under an id, in the map its letter names. -/
def expireTimeOf (b : FilterAPIBackendImpl) (filterId : Str) : Option ℕ :=
  match guessFilterType filterId with
  | .eventFilter => (b.eventFilters.find filterId).map (·.expireTime)
  | .txnFilter => (b.pendingTxnFilters.find filterId).map (·.expireTime)
  | .blkFilter => (b.blockFilters.find filterId).map (·.expireTime)
  | .invalid => none

/-- A filter whose expiry time is read is installed in the map its letter names. -/
theorem mem_keysOf_of_expireTimeOf {b : FilterAPIBackendImpl} {filterId : Str} {e : ℕ}
    (h : b.expireTimeOf filterId = some e) : filterId ∈ b.keysOf (guessFilterType filterId) := by
  unfold expireTimeOf at h
  unfold keysOf
  split at h
  next =>
    rw [b.eventFilters.mem_keys]
    obtain ⟨filter, hfind, -⟩ := Option.map_eq_some_iff.1 h
    rw [hfind]
    rfl
  next =>
    rw [b.pendingTxnFilters.mem_keys]
    obtain ⟨filter, hfind, -⟩ := Option.map_eq_some_iff.1 h
    rw [hfind]
    rfl
  next =>
    rw [b.blockFilters.mem_keys]
    obtain ⟨filter, hfind, -⟩ := Option.map_eq_some_iff.1 h
    rw [hfind]
    rfl
  next => cases h

/-- `GetEventFilterChanges` keeping the cursor is the poll the other two kinds make. -/
theorem getEventFilterChanges_false (b : FilterAPIBackendImpl) (cache : TxCache) (filterId : Str)
    (ret : PollResult) :
    b.getEventFilterChanges cache filterId ret false =
      ((pollFilterMap (·.toInstalledFilter) (fun filter lastSeen => { filter with lastSeen })
          b.eventFilters b.latestEpoch
          (fun filter lastSeen => cache.getEventFilterChanges lastSeen filter.params) filterId ret).1,
        (pollFilterMap (·.toInstalledFilter) (fun filter lastSeen => { filter with lastSeen })
          b.eventFilters b.latestEpoch
          (fun filter lastSeen => cache.getEventFilterChanges lastSeen filter.params) filterId ret).2.1,
        { b with
          eventFilters := (pollFilterMap (·.toInstalledFilter)
            (fun filter lastSeen => { filter with lastSeen }) b.eventFilters b.latestEpoch
            (fun filter lastSeen => cache.getEventFilterChanges lastSeen filter.params)
            filterId ret).2.2 }) := by
  unfold getEventFilterChanges pollFilterMap
  cases b.eventFilters.find filterId with
  | none => rfl
  | some filter =>
    dsimp only
    rw [if_neg Bool.false_ne_true]
    split_ifs <;> rfl

end FilterAPIBackendImpl

/-- **A poll moves only the cursor of the filter it finds**: the expiry time read is the
    filter's, zero when there is none, and the map keeps its ids and its filters' expiry times. -/
theorem pollFilterMap_spec {F : Type} (base : F → InstalledFilter) (setLastSeen : F → ℤ → F)
    (hset : ∀ filter lastSeen, (base (setLastSeen filter lastSeen)).expireTime = (base filter).expireTime)
    (filters : FinStore Str F) (latestEpoch : ℤ) (changes : F → ℤ → PollResult → ℤ × PollResult)
    (filterId : Str) (ret : PollResult) :
    (pollFilterMap base setLastSeen filters latestEpoch changes filterId ret).2.1 =
        ((filters.find filterId).map fun filter => (base filter).expireTime).getD 0 ∧
      (pollFilterMap base setLastSeen filters latestEpoch changes filterId ret).2.2.keys =
        filters.keys ∧
      ∀ x, ((pollFilterMap base setLastSeen filters latestEpoch changes filterId ret).2.2.find
          x).map (fun filter => (base filter).expireTime) =
        (filters.find x).map fun filter => (base filter).expireTime := by
  unfold pollFilterMap
  cases hfind : filters.find filterId with
  | none => exact ⟨rfl, rfl, fun _ => rfl⟩
  | some filter =>
    dsimp only
    split_ifs
    · exact ⟨rfl, rfl, fun _ => rfl⟩
    · -- the filter is put back under its id with a new cursor
      have hkey : filterId ∈ filters.keys := by
        rw [filters.mem_keys, hfind]
        rfl
      refine ⟨rfl, Finset.insert_eq_of_mem hkey, fun x => ?_⟩
      rw [FinStore.find_insert]
      split_ifs with hx
      · rw [hx, hfind, Option.map_some, Option.map_some, hset]
      · rfl

namespace FilterAPIBackendImpl

/-- `b'` has the same filters as `b`, up to their cursors, and the same counter and epochs. -/
structure SameFilters (b b' : FilterAPIBackendImpl) : Prop where
  earliestEpoch_eq : b'.earliestEpoch = b.earliestEpoch
  latestEpoch_eq : b'.latestEpoch = b.latestEpoch
  filterCounter_eq : b'.filterCounter = b.filterCounter
  keysOf_eq : ∀ type, b'.keysOf type = b.keysOf type
  expireTimeOf_eq : ∀ filterId, b'.expireTimeOf filterId = b.expireTimeOf filterId

/-- **What the dispatch of `GetFilterChanges` does**: it reads the expiry time of the filter its
    letter names, and changes no filter but for its cursor, nor the expiration set. -/
theorem dispatchFilterChanges_spec (b : FilterAPIBackendImpl) (cache : TxCache) (filterId : Str)
    (ret : PollResult) :
    (b.dispatchFilterChanges cache filterId ret).2.1 = (b.expireTimeOf filterId).getD 0 ∧
      SameFilters b (b.dispatchFilterChanges cache filterId ret).2.2 ∧
      (b.dispatchFilterChanges cache filterId ret).2.2.expiration = b.expiration := by
  unfold dispatchFilterChanges
  cases htype : guessFilterType filterId with
  | invalid =>
    refine ⟨?_, ⟨rfl, rfl, rfl, fun _ => rfl, fun _ => rfl⟩, rfl⟩
    unfold expireTimeOf
    rw [htype]
    rfl
  | eventFilter =>
    dsimp only
    rw [getEventFilterChanges_false]
    obtain ⟨hread, hkeys, hfind⟩ := pollFilterMap_spec (·.toInstalledFilter)
      (fun filter lastSeen => { filter with lastSeen }) (fun _ _ => rfl) b.eventFilters
      b.latestEpoch (fun filter lastSeen => cache.getEventFilterChanges lastSeen filter.params)
      filterId ret
    refine ⟨?_, ⟨rfl, rfl, rfl, fun type => ?_, fun x => ?_⟩, rfl⟩
    · unfold expireTimeOf
      rw [htype]
      exact hread
    · cases type <;> simp only [keysOf, hkeys]
    · unfold expireTimeOf
      split
      · exact hfind x
      all_goals rfl
  | txnFilter =>
    dsimp only
    obtain ⟨hread, hkeys, hfind⟩ := pollFilterMap_spec id
      (fun filter lastSeen => { filter with lastSeen }) (fun _ _ => rfl) b.pendingTxnFilters
      b.latestEpoch (fun _ => cache.getPendingTxnsFilterChanges) filterId ret
    refine ⟨?_, ⟨rfl, rfl, rfl, fun type => ?_, fun x => ?_⟩, rfl⟩
    · unfold expireTimeOf
      rw [htype]
      exact hread
    · cases type <;> simp only [keysOf, getPendingTxnFilterChanges, hkeys]
    · unfold expireTimeOf
      split
      · rfl
      · exact hfind x
      all_goals rfl
  | blkFilter =>
    dsimp only
    obtain ⟨hread, hkeys, hfind⟩ := pollFilterMap_spec id
      (fun filter lastSeen => { filter with lastSeen }) (fun _ _ => rfl) b.blockFilters
      b.latestEpoch (fun _ => cache.getBlockFilterChanges) filterId ret
    refine ⟨?_, ⟨rfl, rfl, rfl, fun type => ?_, fun x => ?_⟩, rfl⟩
    · unfold expireTimeOf
      rw [htype]
      exact hread
    · cases type <;> simp only [keysOf, getBlockFilterChanges, hkeys]
    · unfold expireTimeOf
      split
      · rfl
      · rfl
      · exact hfind x
      · rfl

end FilterAPIBackendImpl

namespace FilterAPIBackendImpl

/-! ### Uninstalling -/

/-- `b'` is `b` with some filters uninstalled: the same counter, no new id, and the expiry times
    of the filters left as they were. -/
structure Removes (b b' : FilterAPIBackendImpl) : Prop where
  filterCounter_eq : b'.filterCounter = b.filterCounter
  keysOf_subset : ∀ type, b'.keysOf type ⊆ b.keysOf type
  expireTimeOf_of : ∀ filterId e, b'.expireTimeOf filterId = some e → b.expireTimeOf filterId = some e

theorem Removes.refl (b : FilterAPIBackendImpl) : Removes b b :=
  ⟨rfl, fun _ => Finset.Subset.refl _, fun _ _ h => h⟩

theorem Removes.trans {b b' b'' : FilterAPIBackendImpl} (h : Removes b b') (h' : Removes b' b'') :
    Removes b b'' :=
  ⟨h'.filterCounter_eq.trans h.filterCounter_eq,
    fun type => (h'.keysOf_subset type).trans (h.keysOf_subset type),
    fun filterId e he => h.expireTimeOf_of filterId e (h'.expireTimeOf_of filterId e he)⟩

/-- A backend with the same maps and counter: changing the epochs or the expiration set
    uninstalls nothing. -/
theorem removes_of_maps {b b' : FilterAPIBackendImpl} (hcounter : b'.filterCounter = b.filterCounter)
    (hevent : b'.eventFilters = b.eventFilters) (hpending : b'.pendingTxnFilters = b.pendingTxnFilters)
    (hblock : b'.blockFilters = b.blockFilters) : Removes b b' := by
  refine ⟨hcounter, fun type => ?_, fun filterId e he => ?_⟩
  · cases type <;> simp [keysOf, hevent, hpending, hblock]
  · unfold expireTimeOf at he ⊢
    rw [hevent, hpending, hblock] at he
    exact he

theorem Removes.setExpiration {b b' : FilterAPIBackendImpl} (h : Removes b b')
    (expiration : List (ℕ × Str)) : Removes b { b' with expiration } :=
  h.trans (removes_of_maps rfl rfl rfl rfl)

theorem removes_setRange (b : FilterAPIBackendImpl) (earliestEpoch latestEpoch : ℤ) :
    Removes b { b with earliestEpoch, latestEpoch } :=
  removes_of_maps rfl rfl rfl rfl

/-- An expiry time read in a map after an erase was there before. -/
theorem map_find_erase {F : Type} (filters : FinStore Str F) (expireTime : F → ℕ) (k x : Str)
    {e : ℕ} (h : ((filters.erase k).find x).map expireTime = some e) :
    (filters.find x).map expireTime = some e := by
  rw [FinStore.find_erase] at h
  split_ifs at h
  · cases h
  · exact h

/-- `UninstallFilter(filter_id, type)` erases the id from one map, and no other. -/
theorem removes_uninstallFilterOfType (b : FilterAPIBackendImpl) (filterId : Str)
    (type : FilterType) : Removes b (b.uninstallFilterOfType filterId type).2 := by
  unfold uninstallFilterOfType
  split_ifs
  · refine ⟨rfl, fun t => ?_, fun x e he => ?_⟩
    · cases t <;> simp [keysOf, FinStore.erase, Finset.erase_subset]
    · unfold expireTimeOf at he ⊢
      split at he
      · exact map_find_erase _ _ _ _ he
      all_goals exact he
  · refine ⟨rfl, fun t => ?_, fun x e he => ?_⟩
    · cases t <;> simp [keysOf, FinStore.erase, Finset.erase_subset]
    · unfold expireTimeOf at he ⊢
      split at he
      · exact he
      · exact map_find_erase _ _ _ _ he
      all_goals exact he
  · refine ⟨rfl, fun t => ?_, fun x e he => ?_⟩
    · cases t <;> simp [keysOf, FinStore.erase, Finset.erase_subset]
    · unfold expireTimeOf at he ⊢
      split at he
      · exact he
      · exact he
      · exact map_find_erase _ _ _ _ he
      · exact he

/-- After `UninstallFilter(filter_id, type)` the id is in no map of that type. -/
theorem not_mem_keysOf_uninstallFilterOfType (b : FilterAPIBackendImpl) (filterId : Str)
    (type : FilterType) : filterId ∉ (b.uninstallFilterOfType filterId type).2.keysOf type := by
  unfold uninstallFilterOfType
  split_ifs with hevent htxn
  · subst hevent
    simp [keysOf, FinStore.erase]
  · subst htxn
    simp [keysOf, FinStore.erase]
  · cases type
    · simp [keysOf]
    · exact absurd rfl hevent
    · exact absurd rfl htxn
    · simp [keysOf, FinStore.erase]

/-- `UninstallFilter` changes nothing but the maps. -/
theorem uninstallFilterOfType_fields (b : FilterAPIBackendImpl) (filterId : Str)
    (type : FilterType) :
    (b.uninstallFilterOfType filterId type).2.earliestEpoch = b.earliestEpoch ∧
      (b.uninstallFilterOfType filterId type).2.latestEpoch = b.latestEpoch ∧
      (b.uninstallFilterOfType filterId type).2.expiration = b.expiration := by
  unfold uninstallFilterOfType
  split_ifs <;> exact ⟨rfl, rfl, rfl⟩

theorem removes_uninstallFilter (b : FilterAPIBackendImpl) (filterId : Str) :
    Removes b (b.uninstallFilter filterId).2 := by
  unfold uninstallFilter
  dsimp only
  split_ifs
  · exact Removes.refl b
  · exact removes_uninstallFilterOfType b filterId _

theorem uninstallFilter_fields (b : FilterAPIBackendImpl) (filterId : Str) :
    (b.uninstallFilter filterId).2.earliestEpoch = b.earliestEpoch ∧
      (b.uninstallFilter filterId).2.latestEpoch = b.latestEpoch ∧
      (b.uninstallFilter filterId).2.expiration = b.expiration := by
  unfold uninstallFilter
  dsimp only
  split_ifs
  · exact ⟨rfl, rfl, rfl⟩
  · exact uninstallFilterOfType_fields b filterId _

/-- **The loop of `SetEpochRange` uninstalls the filter of every entry due**, and nothing else
    changes. The induction is on the entries, with the backend generalised. -/
theorem uninstallDue_spec :
    ∀ (due : List (ℕ × Str)) (b : FilterAPIBackendImpl),
      Removes b (b.uninstallDue due) ∧
        (∀ entry ∈ due, entry.2 ∉ (b.uninstallDue due).keysOf (guessFilterType entry.2)) ∧
        (b.uninstallDue due).earliestEpoch = b.earliestEpoch ∧
        (b.uninstallDue due).latestEpoch = b.latestEpoch ∧
        (b.uninstallDue due).expiration = b.expiration := by
  intro due
  induction due with
  | nil =>
    intro b
    exact ⟨Removes.refl b, fun _ h => absurd h List.not_mem_nil, rfl, rfl, rfl⟩
  | cons entry rest ih =>
    intro b
    -- one entry uninstalled, then the rest from there
    obtain ⟨hrem, hgone, hearliest, hlatest, hexp⟩ :=
      ih (b.uninstallFilterOfType entry.2 (guessFilterType entry.2)).2
    obtain ⟨hearliest1, hlatest1, hexp1⟩ :=
      uninstallFilterOfType_fields b entry.2 (guessFilterType entry.2)
    have hstep := removes_uninstallFilterOfType b entry.2 (guessFilterType entry.2)
    refine ⟨hstep.trans hrem, fun x hx => ?_, hearliest.trans hearliest1, hlatest.trans hlatest1,
      hexp.trans hexp1⟩
    rcases List.mem_cons.1 hx with rfl | hx
    · exact fun hmem => not_mem_keysOf_uninstallFilterOfType b x.2 (guessFilterType x.2)
        (hrem.keysOf_subset _ hmem)
    · exact hgone x hx

/-- **What `SetEpochRange` does**: it uninstalls the filter of every entry due by `now` and
    keeps the entries still to come; the range it takes, if any, is well ordered and no earlier
    than the one it replaces. -/
theorem setEpochRange_spec (b : FilterAPIBackendImpl) (earliest latest : UInt64) (now : ℕ) :
    Removes b (b.setEpochRange earliest latest now) ∧
      (b.setEpochRange earliest latest now).expiration =
        b.expiration.filter (fun entry => now < entry.1) ∧
      (∀ entry ∈ b.expiration, entry.1 ≤ now →
        entry.2 ∉ (b.setEpochRange earliest latest now).keysOf (guessFilterType entry.2)) ∧
      (((b.setEpochRange earliest latest now).earliestEpoch = b.earliestEpoch ∧
          (b.setEpochRange earliest latest now).latestEpoch = b.latestEpoch) ∨
        (1 ≤ (b.setEpochRange earliest latest now).earliestEpoch ∧
          (b.setEpochRange earliest latest now).earliestEpoch ≤
            (b.setEpochRange earliest latest now).latestEpoch ∧
          b.latestEpoch ≤ (b.setEpochRange earliest latest now).latestEpoch)) := by
  unfold setEpochRange
  dsimp only
  split_ifs with hbad
  · obtain ⟨hrem, hgone, hearliest, hlatest, -⟩ :=
      uninstallDue_spec (b.expiration.filter fun entry => entry.1 ≤ now) b
    refine ⟨hrem.setExpiration _, rfl,
      fun entry hmem hdue => hgone entry (List.mem_filter.2 ⟨hmem, ?_⟩), Or.inl ⟨hearliest, hlatest⟩⟩
    exact decide_eq_true hdue
  · obtain ⟨hrem, hgone, hearliest, hlatest, -⟩ :=
      uninstallDue_spec (b.expiration.filter fun entry => entry.1 ≤ now)
        { b with earliestEpoch := toEpochNumber earliest, latestEpoch := toEpochNumber latest }
    refine ⟨((removes_setRange b _ _).trans hrem).setExpiration _, rfl, fun entry hmem hdue => hgone entry (List.mem_filter.2 ⟨hmem, ?_⟩), Or.inr ?_⟩
    · exact decide_eq_true hdue
    · rw [hearliest, hlatest]
      dsimp only
      omega

end FilterAPIBackendImpl

namespace FilterAPIBackendImpl

/-! ### Installing -/

/-- `b'` is `b` with one more filter, of `type`, under the next id, due at `expireTime`. -/
structure Installs (b b' : FilterAPIBackendImpl) (type : FilterType) (h : type ≠ .invalid)
    (expireTime : ℕ) : Prop where
  earliestEpoch_eq : b'.earliestEpoch = b.earliestEpoch
  latestEpoch_eq : b'.latestEpoch = b.latestEpoch
  filterCounter_eq : b'.filterCounter = b.filterCounter + 1
  keysOf_eq : ∀ t, b'.keysOf t =
    if t = type then insert (newFilterId (b.filterCounter + 1) type h) (b.keysOf t) else b.keysOf t
  expireTimeOf_eq : ∀ x, b'.expireTimeOf x =
    if x = newFilterId (b.filterCounter + 1) type h then some expireTime else b.expireTimeOf x
  expiration_eq :
    b'.expiration = b.expiration.insert (expireTime, newFilterId (b.filterCounter + 1) type h)

/-- An install puts its filter under the next id, in the map its letter names. -/
theorem installNewBlockFilter_cases (b : FilterAPIBackendImpl) (now : ℕ) :
    (b.installNewBlockFilter now).2 = b ∨
      Installs b (b.installNewBlockFilter now).2 .blkFilter (by decide) (now + filterExpireTime) := by
  unfold installNewBlockFilter
  split_ifs
  · exact Or.inl rfl
  · refine Or.inr ⟨rfl, rfl, rfl, fun t => ?_, fun x => ?_, rfl⟩
    · cases t <;> simp [keysOf, registerNewFilter, FinStore.insert]
    · have hguess := guessFilterType_newFilterId (b.filterCounter + 1) .blkFilter (by decide)
      unfold expireTimeOf
      by_cases hx : x = newFilterId (b.filterCounter + 1) .blkFilter (by decide)
      · subst hx
        simp [hguess, registerNewFilter]
      · rw [if_neg hx]
        split <;> simp [registerNewFilter, hx]

theorem installNewPendingTxnFilter_cases (b : FilterAPIBackendImpl) (now : ℕ) :
    (b.installNewPendingTxnFilter now).2 = b ∨
      Installs b (b.installNewPendingTxnFilter now).2 .txnFilter (by decide)
        (now + filterExpireTime) := by
  unfold installNewPendingTxnFilter
  split_ifs
  · exact Or.inl rfl
  · refine Or.inr ⟨rfl, rfl, rfl, fun t => ?_, fun x => ?_, rfl⟩
    · cases t <;> simp [keysOf, registerNewFilter, FinStore.insert]
    · have hguess := guessFilterType_newFilterId (b.filterCounter + 1) .txnFilter (by decide)
      unfold expireTimeOf
      by_cases hx : x = newFilterId (b.filterCounter + 1) .txnFilter (by decide)
      · subst hx
        simp [hguess, registerNewFilter]
      · rw [if_neg hx]
        split <;> simp [registerNewFilter, hx]

theorem installNewEventFilter_cases (stoull : Str → Except String ℕ) (b : FilterAPIBackendImpl)
    (params : JsonValue) (now : ℕ) :
    (b.installNewEventFilter stoull params now).2 = b ∨
      Installs b (b.installNewEventFilter stoull params now).2 .eventFilter (by decide)
        (now + filterExpireTime) := by
  unfold installNewEventFilter
  split_ifs
  · exact Or.inl rfl
  · split
    · exact Or.inl rfl
    · refine Or.inr ⟨rfl, rfl, rfl, fun t => ?_, fun x => ?_, rfl⟩
      · cases t <;> simp [keysOf, registerNewFilter, FinStore.insert]
      · have hguess := guessFilterType_newFilterId (b.filterCounter + 1) .eventFilter (by decide)
        unfold expireTimeOf
        by_cases hx : x = newFilterId (b.filterCounter + 1) .eventFilter (by decide)
        · subst hx
          simp [hguess, registerNewFilter]
        · rw [if_neg hx]
          split <;> simp [registerNewFilter, hx]

/-! ### The invariant -/

/-- An id made by `NewFilterId` from a counter the backend has reached. -/
def Issued (b : FilterAPIBackendImpl) (filterId : Str) : Prop :=
  ∃ (counter : UInt64) (type : FilterType) (h : type ≠ .invalid),
    filterId = newFilterId counter type h ∧ 0 < counter.toNat ∧
      counter.toNat ≤ b.filterCounter.toNat

/-- Room for the next id: `++m_filterCounter` does not wrap. -/
def Room (b : FilterAPIBackendImpl) : Prop := b.filterCounter.toNat + 1 < 2 ^ 64

instance decidableRoom (b : FilterAPIBackendImpl) : Decidable b.Room :=
  inferInstanceAs (Decidable (b.filterCounter.toNat + 1 < 2 ^ 64))

theorem toNat_next {b : FilterAPIBackendImpl} (h : b.Room) :
    (b.filterCounter + 1).toNat = b.filterCounter.toNat + 1 := by
  rw [UInt64.toNat_add, UInt64.toNat_one]
  exact Nat.mod_eq_of_lt h

/-- **The next id is new**: it was made from no counter reached so far. -/
theorem not_issued_next {b : FilterAPIBackendImpl} (h : b.Room) (type : FilterType)
    (htype : type ≠ .invalid) : ¬ b.Issued (newFilterId (b.filterCounter + 1) type htype) := by
  rintro ⟨counter, t, ht, heq, -, hle⟩
  obtain ⟨hcounter, -⟩ := newFilterId_inj heq
  rw [← hcounter, toNat_next h] at hle
  omega

theorem Issued.mono {b b' : FilterAPIBackendImpl} {filterId : Str} (h : b.Issued filterId)
    (hle : b.filterCounter.toNat ≤ b'.filterCounter.toNat) : b'.Issued filterId := by
  obtain ⟨counter, type, htype, heq, hpos, hcounter⟩ := h
  exact ⟨counter, type, htype, heq, hpos, le_trans hcounter hle⟩

/-- The backend's invariant: every installed filter is in the map its id's letter names, under
    an id the backend has issued, as is every id in the expiration set; expiry times are positive;
    the epoch range is unset or well ordered. -/
structure Inv (b : FilterAPIBackendImpl) : Prop where
  typed : ∀ type, ∀ x ∈ b.keysOf type, guessFilterType x = type ∧ b.Issued x
  expiration_issued : ∀ entry ∈ b.expiration, b.Issued entry.2
  expireTime_pos : ∀ filterId e, b.expireTimeOf filterId = some e → 0 < e
  range : (b.earliestEpoch = seenNothing ∧ b.latestEpoch = seenNothing) ∨
    (1 ≤ b.earliestEpoch ∧ b.earliestEpoch ≤ b.latestEpoch)

theorem inv_init : init.Inv := by
  refine ⟨fun type x hx => ?_, fun _ h => absurd h List.not_mem_nil, fun x e he => ?_,
    Or.inl ⟨rfl, rfl⟩⟩
  · cases type <;> simp [keysOf, init] at hx
  · unfold expireTimeOf at he
    split at he <;> simp [init] at he

/-- Uninstalling keeps the invariant, when no entry is added. -/
theorem Inv.removes {b b' : FilterAPIBackendImpl} (h : b.Inv) (hr : Removes b b')
    (hexp : ∀ entry ∈ b'.expiration, entry ∈ b.expiration)
    (hrange : (b'.earliestEpoch = seenNothing ∧ b'.latestEpoch = seenNothing) ∨
      (1 ≤ b'.earliestEpoch ∧ b'.earliestEpoch ≤ b'.latestEpoch)) : b'.Inv := by
  have hle : b.filterCounter.toNat ≤ b'.filterCounter.toNat := by rw [hr.filterCounter_eq]
  refine ⟨fun type x hx => ?_, fun entry hentry => ?_,
    fun x e he => h.expireTime_pos x e (hr.expireTimeOf_of x e he), hrange⟩
  · obtain ⟨hguess, hissued⟩ := h.typed type x (hr.keysOf_subset type hx)
    exact ⟨hguess, hissued.mono hle⟩
  · exact (h.expiration_issued entry (hexp entry hentry)).mono hle

theorem Inv.setEpochRange {b : FilterAPIBackendImpl} (h : b.Inv) (earliest latest : UInt64)
    (now : ℕ) : (b.setEpochRange earliest latest now).Inv := by
  obtain ⟨hr, hexp, -, hrange⟩ := setEpochRange_spec b earliest latest now
  refine h.removes hr (fun entry hentry => ?_) ?_
  · rw [hexp] at hentry
    exact (List.mem_filter.1 hentry).1
  · rcases hrange with ⟨hearliest, hlatest⟩ | ⟨hone, horder, -⟩
    · rw [hearliest, hlatest]
      exact h.range
    · exact Or.inr ⟨hone, horder⟩

theorem Inv.uninstallFilter {b : FilterAPIBackendImpl} (h : b.Inv) (filterId : Str) :
    (b.uninstallFilter filterId).2.Inv := by
  obtain ⟨hearliest, hlatest, hexp⟩ := uninstallFilter_fields b filterId
  refine h.removes (removes_uninstallFilter b filterId) (fun entry hentry => hexp ▸ hentry) ?_
  rw [hearliest, hlatest]
  exact h.range

/-- An entry of the set after the shift was there before, or is the polled filter's new one. -/
theorem mem_shiftExpiration {expiration : List (ℕ × Str)} {filterId : Str} {expireTime now : ℕ}
    {entry : ℕ × Str} (h : entry ∈ shiftExpiration expiration filterId expireTime now) :
    entry ∈ expiration ∨ (entry = (now + filterExpireTime, filterId) ∧ expireTime ≠ 0) := by
  unfold shiftExpiration at h
  dsimp only at h
  split_ifs at h with hzero
  · rcases List.mem_insert_iff.1 h with hnew | hold
    · exact Or.inr ⟨hnew, hzero⟩
    · exact Or.inl (List.mem_of_mem_erase hold)
  · exact Or.inl h
  · exact Or.inl h

theorem Inv.getFilterChanges {b : FilterAPIBackendImpl} (h : b.Inv) (cache : TxCache)
    (filterId : Str) (now : ℕ) : (b.getFilterChanges cache filterId now).2.Inv := by
  obtain ⟨hread, hsame, hexp⟩ := dispatchFilterChanges_spec b cache filterId {}
  have hle : b.filterCounter.toNat ≤
      (b.getFilterChanges cache filterId now).2.filterCounter.toNat := by
    show _ ≤ (b.dispatchFilterChanges cache filterId {}).2.2.filterCounter.toNat
    rw [hsame.filterCounter_eq]
  refine ⟨fun type x hx => ?_, fun entry hentry => ?_, fun x e he => ?_, ?_⟩
  · have hx' : x ∈ b.keysOf type := by
      rw [← hsame.keysOf_eq type]
      exact hx
    obtain ⟨hguess, hissued⟩ := h.typed type x hx'
    exact ⟨hguess, hissued.mono hle⟩
  · unfold FilterAPIBackendImpl.getFilterChanges at hentry
    dsimp only at hentry
    rw [hread, hexp] at hentry
    rcases mem_shiftExpiration hentry with hold | ⟨rfl, hzero⟩
    · exact (h.expiration_issued entry hold).mono hle
    · -- a time was read, so the polled filter is installed
      obtain ⟨e, he⟩ : ∃ e, b.expireTimeOf filterId = some e := by
        cases hfind : b.expireTimeOf filterId with
        | none => rw [hfind] at hzero; exact absurd rfl hzero
        | some e => exact ⟨e, rfl⟩
      exact (h.typed _ filterId (mem_keysOf_of_expireTimeOf he)).2.mono hle
  · have he' : b.expireTimeOf x = some e := by
      rw [← hsame.expireTimeOf_eq x]
      exact he
    exact h.expireTime_pos x e he'
  · have hearliest : (b.getFilterChanges cache filterId now).2.earliestEpoch = b.earliestEpoch :=
      hsame.earliestEpoch_eq
    have hlatest : (b.getFilterChanges cache filterId now).2.latestEpoch = b.latestEpoch :=
      hsame.latestEpoch_eq
    rw [hearliest, hlatest]
    exact h.range

/-- **An install keeps the invariant while the counter has room**: the new id is named by the
    letter of its map, and issued from the counter it moves to. -/
theorem Inv.installs {b b' : FilterAPIBackendImpl} {type : FilterType} {htype : type ≠ .invalid}
    {expireTime : ℕ} (h : b.Inv) (hroom : b.Room) (hpos : 0 < expireTime)
    (hi : Installs b b' type htype expireTime) : b'.Inv := by
  have hcounter : b'.filterCounter.toNat = b.filterCounter.toNat + 1 := by
    rw [hi.filterCounter_eq, toNat_next hroom]
  have hle : b.filterCounter.toNat ≤ b'.filterCounter.toNat := by omega
  -- the new id, issued from the new counter
  have hnew : b'.Issued (newFilterId (b.filterCounter + 1) type htype) :=
    ⟨b.filterCounter + 1, type, htype, rfl, by rw [toNat_next hroom]; omega,
      by rw [toNat_next hroom]; omega⟩
  refine ⟨fun t x hx => ?_, fun entry hentry => ?_, fun x e he => ?_, ?_⟩
  · rw [hi.keysOf_eq t] at hx
    split_ifs at hx with ht
    · rcases Finset.mem_insert.1 hx with rfl | hold
      · exact ⟨(guessFilterType_newFilterId _ _ _).trans ht.symm, hnew⟩
      · obtain ⟨hguess, hissued⟩ := h.typed t x hold
        exact ⟨hguess, hissued.mono hle⟩
    · obtain ⟨hguess, hissued⟩ := h.typed t x hx
      exact ⟨hguess, hissued.mono hle⟩
  · rw [hi.expiration_eq] at hentry
    rcases List.mem_insert_iff.1 hentry with rfl | hold
    · exact hnew
    · exact (h.expiration_issued entry hold).mono hle
  · rw [hi.expireTimeOf_eq x] at he
    split_ifs at he
    · cases he
      exact hpos
    · exact h.expireTime_pos x e he
  · rw [hi.earliestEpoch_eq, hi.latestEpoch_eq]
    exact h.range

end FilterAPIBackendImpl

/-- The calls that change the backend. `GetFilterLogs` and `GetLogs` only read it. -/
inductive BackendCall where
  | setEpochRange (earliest latest : UInt64) (now : ℕ)
  | installNewEventFilter (params : JsonValue) (now : ℕ)
  | installNewBlockFilter (now : ℕ)
  | installNewPendingTxnFilter (now : ℕ)
  | uninstallFilter (filterId : Str)
  | getFilterChanges (cache : TxCache) (filterId : Str) (now : ℕ)

namespace FilterAPIBackendImpl

/-- One call. -/
def step (stoull : Str → Except String ℕ) (b : FilterAPIBackendImpl) :
    BackendCall → FilterAPIBackendImpl
  | .setEpochRange earliest latest now => b.setEpochRange earliest latest now
  | .installNewEventFilter params now => (b.installNewEventFilter stoull params now).2
  | .installNewBlockFilter now => (b.installNewBlockFilter now).2
  | .installNewPendingTxnFilter now => (b.installNewPendingTxnFilter now).2
  | .uninstallFilter filterId => (b.uninstallFilter filterId).2
  | .getFilterChanges cache filterId now => (b.getFilterChanges cache filterId now).2

/-- A sequence of calls. -/
def runCalls (stoull : Str → Except String ℕ) (b : FilterAPIBackendImpl)
    (calls : List BackendCall) : FilterAPIBackendImpl :=
  calls.foldl (step stoull) b

theorem Inv.step {b : FilterAPIBackendImpl} (h : b.Inv) (hroom : b.Room)
    (stoull : Str → Except String ℕ) : ∀ call, (step stoull b call).Inv
  | .setEpochRange earliest latest now => h.setEpochRange earliest latest now
  | .installNewEventFilter params now => by
    show (b.installNewEventFilter stoull params now).2.Inv
    rcases installNewEventFilter_cases stoull b params now with hsame | hi
    · rw [hsame]
      exact h
    · exact h.installs hroom (by unfold filterExpireTime; omega) hi
  | .installNewBlockFilter now => by
    show (b.installNewBlockFilter now).2.Inv
    rcases installNewBlockFilter_cases b now with hsame | hi
    · rw [hsame]
      exact h
    · exact h.installs hroom (by unfold filterExpireTime; omega) hi
  | .installNewPendingTxnFilter now => by
    show (b.installNewPendingTxnFilter now).2.Inv
    rcases installNewPendingTxnFilter_cases b now with hsame | hi
    · rw [hsame]
      exact h
    · exact h.installs hroom (by unfold filterExpireTime; omega) hi
  | .uninstallFilter filterId => h.uninstallFilter filterId
  | .getFilterChanges cache filterId now => h.getFilterChanges cache filterId now

/-- **Every run keeps the invariant while the counter has room.** -/
theorem inv_runCalls (stoull : Str → Except String ℕ) (calls : List BackendCall)
    (hroom : Fold.Along (step stoull) (fun b _ => b.Room) init calls) :
    (init.runCalls stoull calls).Inv :=
  Fold.foldl_inv (fun _ call hs hroom => hs.step hroom stoull call) calls init inv_init hroom

end FilterAPIBackendImpl

namespace FilterAPIBackendImpl

/-! ## Ids: each filter where its id says, and no id twice -/

/-- For a filter where its id says, `UninstallFilter(filter_id)` finds it and erases that id,
    from the one map it is in. -/
theorem uninstallFilter_typed {b : FilterAPIBackendImpl} (h : b.Inv) {type : FilterType}
    {filterId : Str} (hmem : filterId ∈ b.keysOf type) :
    (b.uninstallFilter filterId).1 = true ∧
      ∀ t, (b.uninstallFilter filterId).2.keysOf t = (b.keysOf t).erase filterId := by
  obtain ⟨hguess, -⟩ := h.typed type filterId hmem
  -- in the maps of the other types the id is not a key
  have hother : ∀ t, t ≠ type → (b.keysOf t).erase filterId = b.keysOf t := fun t ht =>
    Finset.erase_eq_of_notMem fun hx => ht ((h.typed t filterId hx).1.symm.trans hguess)
  cases type with
  | invalid => simp [keysOf] at hmem
  | eventFilter =>
    have hfound : (b.eventFilters.find filterId).isSome = true := by
      simpa [keysOf, b.eventFilters.mem_keys] using hmem
    rw [show b.uninstallFilter filterId =
        (true, { b with eventFilters := b.eventFilters.erase filterId }) by
      simp [uninstallFilter, uninstallFilterOfType, hguess, hfound]]
    refine ⟨rfl, fun t => ?_⟩
    cases t with
    | eventFilter => rfl
    | txnFilter => exact (hother .txnFilter (by decide)).symm
    | blkFilter => exact (hother .blkFilter (by decide)).symm
    | invalid => exact (Finset.erase_empty _).symm
  | txnFilter =>
    have hfound : (b.pendingTxnFilters.find filterId).isSome = true := by
      simpa [keysOf, b.pendingTxnFilters.mem_keys] using hmem
    rw [show b.uninstallFilter filterId =
        (true, { b with pendingTxnFilters := b.pendingTxnFilters.erase filterId }) by
      simp [uninstallFilter, uninstallFilterOfType, hguess, hfound]]
    refine ⟨rfl, fun t => ?_⟩
    cases t with
    | eventFilter => exact (hother .eventFilter (by decide)).symm
    | txnFilter => rfl
    | blkFilter => exact (hother .blkFilter (by decide)).symm
    | invalid => exact (Finset.erase_empty _).symm
  | blkFilter =>
    have hfound : (b.blockFilters.find filterId).isSome = true := by
      simpa [keysOf, b.blockFilters.mem_keys] using hmem
    rw [show b.uninstallFilter filterId =
        (true, { b with blockFilters := b.blockFilters.erase filterId }) by
      simp [uninstallFilter, uninstallFilterOfType, hguess, hfound]]
    refine ⟨rfl, fun t => ?_⟩
    cases t with
    | eventFilter => exact (hother .eventFilter (by decide)).symm
    | txnFilter => exact (hother .txnFilter (by decide)).symm
    | blkFilter => rfl
    | invalid => exact (Finset.erase_empty _).symm

/-- A filter's expiry entry outlives a poll unless it is the one the poll moves. -/
theorem mem_shiftExpiration_of_mem {expiration : List (ℕ × Str)} {filterId : Str}
    {expireTime now : ℕ} {entry : ℕ × Str} (h : entry ∈ expiration)
    (hne : expireTime ≠ 0 → entry ≠ (expireTime, filterId)) :
    entry ∈ shiftExpiration expiration filterId expireTime now := by
  unfold shiftExpiration
  dsimp only
  split_ifs with hzero
  · exact List.mem_insert_iff.2 (Or.inr ((List.mem_erase_of_ne (hne hzero)).2 h))
  · exact h
  · exact h

/-- A poll uninstalls nothing and installs nothing. -/
theorem removes_getFilterChanges (b : FilterAPIBackendImpl) (cache : TxCache) (filterId : Str)
    (now : ℕ) : Removes b (b.getFilterChanges cache filterId now).2 := by
  obtain ⟨-, hsame, -⟩ := dispatchFilterChanges_spec b cache filterId {}
  refine ⟨hsame.filterCounter_eq, fun type => ?_, fun x e he => ?_⟩
  · show (b.dispatchFilterChanges cache filterId {}).2.2.keysOf type ⊆ _
    rw [hsame.keysOf_eq type]
  · rw [← hsame.expireTimeOf_eq x]
    exact he

/-- **What a call can do**: uninstall filters, or install one under the next id. -/
theorem step_cases (stoull : Str → Except String ℕ) (b : FilterAPIBackendImpl)
    (call : BackendCall) :
    Removes b (step stoull b call) ∨
      ∃ (type : FilterType) (htype : type ≠ .invalid) (expireTime : ℕ),
        Installs b (step stoull b call) type htype expireTime := by
  cases call with
  | setEpochRange earliest latest now => exact Or.inl (setEpochRange_spec b earliest latest now).1
  | installNewEventFilter params now =>
    show Removes b (b.installNewEventFilter stoull params now).2 ∨ _
    rcases installNewEventFilter_cases stoull b params now with hsame | hi
    · rw [hsame]
      exact Or.inl (Removes.refl b)
    · exact Or.inr ⟨_, _, _, hi⟩
  | installNewBlockFilter now =>
    show Removes b (b.installNewBlockFilter now).2 ∨ _
    rcases installNewBlockFilter_cases b now with hsame | hi
    · rw [hsame]
      exact Or.inl (Removes.refl b)
    · exact Or.inr ⟨_, _, _, hi⟩
  | installNewPendingTxnFilter now =>
    show Removes b (b.installNewPendingTxnFilter now).2 ∨ _
    rcases installNewPendingTxnFilter_cases b now with hsame | hi
    · rw [hsame]
      exact Or.inl (Removes.refl b)
    · exact Or.inr ⟨_, _, _, hi⟩
  | uninstallFilter filterId => exact Or.inl (removes_uninstallFilter b filterId)
  | getFilterChanges cache filterId now => exact Or.inl (removes_getFilterChanges b cache filterId now)

/-- While the counter has room, a call never lowers it. -/
theorem filterCounter_le_step {b : FilterAPIBackendImpl} (hroom : b.Room)
    (stoull : Str → Except String ℕ) (call : BackendCall) :
    b.filterCounter.toNat ≤ (step stoull b call).filterCounter.toNat := by
  rcases step_cases stoull b call with hr | ⟨type, htype, e, hi⟩
  · rw [hr.filterCounter_eq]
  · rw [hi.filterCounter_eq, toNat_next hroom]
    omega

/-- An id the backend has issued and that no map holds. -/
def Gone (filterId : Str) (b : FilterAPIBackendImpl) : Prop :=
  b.Issued filterId ∧ ∀ type, filterId ∉ b.keysOf type

/-- A call never brings back an id that is gone: installs take the next id, which is new. -/
theorem Gone.step {filterId : Str} {b : FilterAPIBackendImpl} (h : Gone filterId b)
    (hroom : b.Room) (stoull : Str → Except String ℕ) (call : BackendCall) :
    Gone filterId (step stoull b call) := by
  refine ⟨h.1.mono (filterCounter_le_step hroom stoull call), fun t hmem => ?_⟩
  rcases step_cases stoull b call with hr | ⟨type, htype, e, hi⟩
  · exact h.2 t (hr.keysOf_subset t hmem)
  · rw [hi.keysOf_eq t] at hmem
    split_ifs at hmem
    · rcases Finset.mem_insert.1 hmem with heq | hold
      · exact not_issued_next hroom type htype (heq ▸ h.1)
      · exact h.2 t hold
    · exact h.2 t hmem

theorem runCalls_append (stoull : Str → Except String ℕ) (b : FilterAPIBackendImpl)
    (calls calls' : List BackendCall) :
    b.runCalls stoull (calls ++ calls') = (b.runCalls stoull calls).runCalls stoull calls' :=
  List.foldl_append

theorem gone_runCalls {filterId : Str} (stoull : Str → Except String ℕ) :
    ∀ (calls : List BackendCall) (b : FilterAPIBackendImpl), Gone filterId b →
      Fold.Along (step stoull) (fun b _ => b.Room) b calls → Gone filterId (b.runCalls stoull calls) :=
  Fold.foldl_inv fun _ call hs hroom => hs.step hroom stoull call

/-- **Every installed filter can be uninstalled by its id, and an install never takes an id in
    use**: over every run while the counter has room, each filter sits in the map its id's letter
    names, so `UninstallFilter(filter_id)` answers `true` and erases that filter alone, and the id
    the next install makes is in no map. -/
theorem uninstallFilter_installed_and_next_fresh (stoull : Str → Except String ℕ)
    (calls : List BackendCall) (hroom : Fold.Along (step stoull) (fun b _ => b.Room) init calls) :
    (∀ type, ∀ filterId ∈ (init.runCalls stoull calls).keysOf type,
      ((init.runCalls stoull calls).uninstallFilter filterId).1 = true ∧
        ∀ t, ((init.runCalls stoull calls).uninstallFilter filterId).2.keysOf t =
          ((init.runCalls stoull calls).keysOf t).erase filterId) ∧
      ((init.runCalls stoull calls).Room → ∀ (type : FilterType) (htype : type ≠ .invalid) t,
        newFilterId ((init.runCalls stoull calls).filterCounter + 1) type htype ∉
          (init.runCalls stoull calls).keysOf t) := by
  have h := inv_runCalls stoull calls hroom
  refine ⟨fun type filterId hmem => uninstallFilter_typed h hmem, ?_⟩
  intro hnext type htype t hmem
  exact not_issued_next hnext type htype (h.typed t _ hmem).2

/-- A block filter installed once the range is set. -/
def installOneBlockFilter : List BackendCall := [.setEpochRange 1 1 0, .installNewBlockFilter 0]

theorem uninstallFilter_installed_and_next_fresh_one :
    Fold.Along (step refuseAll) (fun b _ => b.Room) init installOneBlockFilter ∧
      ((∀ type, ∀ filterId ∈ (init.runCalls refuseAll installOneBlockFilter).keysOf type,
        ((init.runCalls refuseAll installOneBlockFilter).uninstallFilter filterId).1 = true ∧
          ∀ t, ((init.runCalls refuseAll installOneBlockFilter).uninstallFilter filterId).2.keysOf t =
            ((init.runCalls refuseAll installOneBlockFilter).keysOf t).erase filterId) ∧
        ((init.runCalls refuseAll installOneBlockFilter).Room →
          ∀ (type : FilterType) (htype : type ≠ .invalid) t,
            newFilterId ((init.runCalls refuseAll installOneBlockFilter).filterCounter + 1) type
              htype ∉ (init.runCalls refuseAll installOneBlockFilter).keysOf t)) := by
  have hroom : Fold.Along (step refuseAll) (fun b _ => b.Room) init installOneBlockFilter := by
    decide
  exact ⟨hroom, uninstallFilter_installed_and_next_fresh refuseAll installOneBlockFilter hroom⟩

/-- **A filter id is never handed out again**: once a filter installed under an id is gone,
    uninstalled or expired, no later call installs a filter under that id, while the counter has
    room. -/
theorem filterId_never_reinstalled (stoull : Str → Except String ℕ)
    (calls₁ calls₂ calls₃ : List BackendCall)
    (hroom : Fold.Along (step stoull) (fun b _ => b.Room) init (calls₁ ++ calls₂ ++ calls₃))
    (filterId : Str) (type : FilterType)
    (hinstalled : filterId ∈ (init.runCalls stoull calls₁).keysOf type)
    (hremoved : ∀ t, filterId ∉ (init.runCalls stoull (calls₁ ++ calls₂)).keysOf t) :
    ∀ t, filterId ∉ (init.runCalls stoull (calls₁ ++ calls₂ ++ calls₃)).keysOf t := by
  rw [Fold.along_append, Fold.along_append] at hroom
  obtain ⟨⟨hroom₁, hroom₂⟩, hroom₃⟩ := hroom
  -- issued when installed, and the counter only grows
  have hissued₁ := ((inv_runCalls stoull calls₁ hroom₁).typed type filterId hinstalled).2
  have hissued₂ : (init.runCalls stoull (calls₁ ++ calls₂)).Issued filterId := by
    have hcounter := @Fold.foldl_inv _ _ (step stoull) (fun b _ => b.Room)
      (fun b' => (init.runCalls stoull calls₁).filterCounter.toNat ≤ b'.filterCounter.toNat)
      (fun _ call hle hr => le_trans hle (filterCounter_le_step hr stoull call)) calls₂ _
      (le_refl _) hroom₂
    rw [runCalls_append]
    exact hissued₁.mono hcounter
  have hgone : Gone filterId (init.runCalls stoull (calls₁ ++ calls₂)) := ⟨hissued₂, hremoved⟩
  rw [runCalls_append]
  exact (gone_runCalls stoull calls₃ _ hgone hroom₃).2

/-- The block filter of `installOneBlockFilter` is uninstalled, then a new one installed. -/
theorem filterId_never_reinstalled_one :
    Fold.Along (step refuseAll) (fun b _ => b.Room) init
        (installOneBlockFilter ++ [.uninstallFilter (newFilterId 1 .blkFilter (by decide))] ++
          [.installNewBlockFilter 5]) ∧
      newFilterId 1 .blkFilter (by decide) ∈
        (init.runCalls refuseAll installOneBlockFilter).keysOf .blkFilter ∧
      (∀ t, newFilterId 1 .blkFilter (by decide) ∉ (init.runCalls refuseAll
        (installOneBlockFilter ++ [.uninstallFilter (newFilterId 1 .blkFilter (by decide))])).keysOf t) ∧
      ∀ t, newFilterId 1 .blkFilter (by decide) ∉ (init.runCalls refuseAll
        (installOneBlockFilter ++ [.uninstallFilter (newFilterId 1 .blkFilter (by decide))] ++
          [.installNewBlockFilter 5])).keysOf t := by
  have hroom : Fold.Along (step refuseAll) (fun b _ => b.Room) init
      (installOneBlockFilter ++ [.uninstallFilter (newFilterId 1 .blkFilter (by decide))] ++
        [.installNewBlockFilter 5]) := by decide
  have hinstalled : newFilterId 1 .blkFilter (by decide) ∈
      (init.runCalls refuseAll installOneBlockFilter).keysOf .blkFilter := by decide
  have hremoved : ∀ t, newFilterId 1 .blkFilter (by decide) ∉ (init.runCalls refuseAll
      (installOneBlockFilter ++ [.uninstallFilter (newFilterId 1 .blkFilter (by decide))])).keysOf t := by
    intro t
    cases t <;> decide
  exact ⟨hroom, hinstalled, hremoved, filterId_never_reinstalled refuseAll _ _ _ hroom _ _
    hinstalled hremoved⟩

/-! ## Expiry -/

/-- A call other than a `SetEpochRange` at time `T` or later. -/
def NotDueBy (T : ℕ) : BackendCall → Prop
  | .setEpochRange _ _ now => now < T
  | .installNewEventFilter _ _ => True
  | .installNewBlockFilter _ => True
  | .installNewPendingTxnFilter _ => True
  | .uninstallFilter _ => True
  | .getFilterChanges _ _ _ => True

instance decidableNotDueBy (T : ℕ) : ∀ call, Decidable (NotDueBy T call)
  | .setEpochRange _ _ now => inferInstanceAs (Decidable (now < T))
  | .installNewEventFilter _ _ => inferInstanceAs (Decidable True)
  | .installNewBlockFilter _ => inferInstanceAs (Decidable True)
  | .installNewPendingTxnFilter _ => inferInstanceAs (Decidable True)
  | .uninstallFilter _ => inferInstanceAs (Decidable True)
  | .getFilterChanges _ _ _ => inferInstanceAs (Decidable True)

/-- A poll that reads a time other than a day from now puts in the entry a day from now. -/
theorem mem_shiftExpiration_new (expiration : List (ℕ × Str)) (filterId : Str)
    {expireTime : ℕ} (now : ℕ) (hzero : expireTime ≠ 0)
    (hne : now + filterExpireTime ≠ expireTime) :
    (now + filterExpireTime, filterId) ∈ shiftExpiration expiration filterId expireTime now := by
  unfold shiftExpiration
  dsimp only
  rw [if_pos hzero, if_pos hne]
  exact List.mem_insert_iff.2 (Or.inl rfl)

/-- The entry `(T, filterId)` is in the expiration set, and the filter under the id, if any, has
    the expiry time `e`. -/
structure EntryKept (T : ℕ) (filterId : Str) (e : ℕ) (b : FilterAPIBackendImpl) : Prop where
  mem : (T, filterId) ∈ b.expiration
  expireTimeOf_eq : ∀ e', b.expireTimeOf filterId = some e' → e' = e
  issued : b.Issued filterId

section EntryKept

variable {T e : ℕ} {filterId : Str} {b b' : FilterAPIBackendImpl}

theorem EntryKept.removes (h : EntryKept T filterId e b) (hr : Removes b b')
    (hmem : (T, filterId) ∈ b'.expiration) : EntryKept T filterId e b' :=
  ⟨hmem, fun e' he' => h.expireTimeOf_eq e' (hr.expireTimeOf_of filterId e' he'),
    h.issued.mono (by rw [hr.filterCounter_eq])⟩

theorem EntryKept.installs (h : EntryKept T filterId e b) (hroom : b.Room) {type : FilterType}
    {htype : type ≠ .invalid} {expireTime : ℕ} (hi : Installs b b' type htype expireTime) :
    EntryKept T filterId e b' := by
  -- the new id is not the kept one, which was issued before
  have hne : filterId ≠ newFilterId (b.filterCounter + 1) type htype := fun heq =>
    not_issued_next hroom type htype (heq ▸ h.issued)
  refine ⟨?_, fun e' he' => ?_, h.issued.mono ?_⟩
  · rw [hi.expiration_eq]
    exact List.mem_insert_iff.2 (Or.inr h.mem)
  · rw [hi.expireTimeOf_eq, if_neg hne] at he'
    exact h.expireTimeOf_eq e' he'
  · rw [hi.filterCounter_eq, toNat_next hroom]
    omega

/-- **No call but a `SetEpochRange` at `T` or later removes the entry `(T, filterId)`**: a poll
    of the filter moves the entry of its own expiry time `e`, never `T`. -/
theorem EntryKept.step (h : EntryKept T filterId e b) (hne : T ≠ e) (hroom : b.Room)
    (stoull : Str → Except String ℕ) : ∀ call, NotDueBy T call →
      EntryKept T filterId e (step stoull b call)
  | .setEpochRange earliest latest now, hcall => by
    obtain ⟨hr, hexp, -, -⟩ := setEpochRange_spec b earliest latest now
    refine h.removes hr ?_
    show (T, filterId) ∈ (b.setEpochRange earliest latest now).expiration
    rw [hexp]
    exact List.mem_filter.2 ⟨h.mem, decide_eq_true hcall⟩
  | .installNewEventFilter params now, _ => by
    show EntryKept T filterId e (b.installNewEventFilter stoull params now).2
    rcases installNewEventFilter_cases stoull b params now with hsame | hi
    · rw [hsame]
      exact h
    · exact h.installs hroom hi
  | .installNewBlockFilter now, _ => by
    show EntryKept T filterId e (b.installNewBlockFilter now).2
    rcases installNewBlockFilter_cases b now with hsame | hi
    · rw [hsame]
      exact h
    · exact h.installs hroom hi
  | .installNewPendingTxnFilter now, _ => by
    show EntryKept T filterId e (b.installNewPendingTxnFilter now).2
    rcases installNewPendingTxnFilter_cases b now with hsame | hi
    · rw [hsame]
      exact h
    · exact h.installs hroom hi
  | .uninstallFilter x, _ => by
    refine h.removes (removes_uninstallFilter b x) ?_
    show (T, filterId) ∈ (b.uninstallFilter x).2.expiration
    rw [(uninstallFilter_fields b x).2.2]
    exact h.mem
  | .getFilterChanges cache x now, _ => by
    refine h.removes (removes_getFilterChanges b cache x now) ?_
    obtain ⟨hread, -, hexp⟩ := dispatchFilterChanges_spec b cache x {}
    show (T, filterId) ∈ shiftExpiration (b.dispatchFilterChanges cache x {}).2.2.expiration x
      (b.dispatchFilterChanges cache x {}).2.1 now
    rw [hread, hexp]
    refine mem_shiftExpiration_of_mem h.mem fun hzero heq => ?_
    -- the entry moved is the polled filter's own, at its expiry time `e`
    obtain ⟨hT, rfl⟩ := Prod.mk.inj heq
    cases hfind : b.expireTimeOf filterId with
    | none => rw [hfind] at hzero; exact hzero rfl
    | some e' =>
      rw [hfind] at hT
      exact hne (hT.trans (h.expireTimeOf_eq e' hfind))

end EntryKept

/-- A cache that reports nothing and keeps every cursor. -/
def quietCache : TxCache :=
  ⟨fun afterEpoch _ ret => (afterEpoch, ret), fun afterEpoch ret => (afterEpoch, ret),
    fun afterCounter ret => (afterCounter, ret)⟩

/-- **A filter is uninstalled a day after a poll, however often it is polled after**: a poll
    moves the filter's entry from its `expireTime`, which no poll updates, so from the first poll
    at a time other than its installation the entries of later polls pile up beside that one.
    Whatever calls follow, as long as no `SetEpochRange` runs a day or more after the poll, the
    first that does uninstalls the filter. -/
theorem filter_uninstalled_a_day_after_poll (stoull : Str → Except String ℕ)
    (calls₁ : List BackendCall) (hroom₁ : Fold.Along (step stoull) (fun b _ => b.Room) init calls₁)
    (cache : TxCache) (filterId : Str) (e t : ℕ)
    (he : (init.runCalls stoull calls₁).expireTimeOf filterId = some e)
    (hpoll : t + filterExpireTime ≠ e) (calls₂ : List BackendCall)
    (hcalls₂ : Fold.Along (step stoull)
      (fun b call => b.Room ∧ NotDueBy (t + filterExpireTime) call)
      ((init.runCalls stoull calls₁).getFilterChanges cache filterId t).2 calls₂)
    (earliest latest : UInt64) (now : ℕ) (hnow : t + filterExpireTime ≤ now) :
    ∀ type, filterId ∉ ((((init.runCalls stoull calls₁).getFilterChanges cache filterId t).2.runCalls
      stoull calls₂).setEpochRange earliest latest now).keysOf type := by
  have h₀ := inv_runCalls stoull calls₁ hroom₁
  -- the poll at `t` leaves the entry a day from `t`
  have hkept₁ : EntryKept (t + filterExpireTime) filterId e
      ((init.runCalls stoull calls₁).getFilterChanges cache filterId t).2 := by
    obtain ⟨hread, hsame, hexp⟩ :=
      dispatchFilterChanges_spec (init.runCalls stoull calls₁) cache filterId {}
    refine ⟨?_, fun e' he' => ?_, ?_⟩
    · show _ ∈ shiftExpiration _ filterId
        ((init.runCalls stoull calls₁).dispatchFilterChanges cache filterId {}).2.1 t
      rw [hread, he]
      exact mem_shiftExpiration_new _ filterId t
        (Nat.pos_iff_ne_zero.1 (h₀.expireTime_pos filterId e he)) hpoll
    · have he'' := (hsame.expireTimeOf_eq filterId).symm.trans he'
      rw [he] at he''
      exact (Option.some.inj he'').symm
    · exact ((h₀.typed _ filterId (mem_keysOf_of_expireTimeOf he)).2).mono
        (by rw [(removes_getFilterChanges _ cache filterId t).filterCounter_eq])
  -- every call after keeps the entry, and the invariant
  have hrun := @Fold.foldl_inv _ _ (step stoull)
    (fun b call => b.Room ∧ NotDueBy (t + filterExpireTime) call)
    (fun b => b.Inv ∧ EntryKept (t + filterExpireTime) filterId e b)
    (fun _ call hs hcall => ⟨hs.1.step hcall.1 stoull call,
      hs.2.step (fun heq => hpoll heq) hcall.1 stoull call hcall.2⟩)
    calls₂ _ ⟨h₀.getFilterChanges cache filterId t, hkept₁⟩ hcalls₂
  obtain ⟨hinv, hkept⟩ := hrun
  -- the `SetEpochRange` uninstalls it from its map, and it is in no other
  obtain ⟨-, -, hgone, -⟩ := setEpochRange_spec _ earliest latest now
  have hnot := hgone _ hkept.mem hnow
  intro type hmem
  have hguess := ((hinv.setEpochRange earliest latest now).typed type filterId hmem).1
  exact hnot (hguess ▸ hmem)

/-- A block filter installed at time 0, polled at 10 and at 50000, is uninstalled at 86410. -/
theorem filter_uninstalled_a_day_after_poll_twice :
    Fold.Along (step refuseAll) (fun b _ => b.Room) init installOneBlockFilter ∧
      (init.runCalls refuseAll installOneBlockFilter).expireTimeOf
          (newFilterId 1 .blkFilter (by decide)) = some 86400 ∧
      10 + filterExpireTime ≠ 86400 ∧
      Fold.Along (step refuseAll) (fun b call => b.Room ∧ NotDueBy (10 + filterExpireTime) call)
        ((init.runCalls refuseAll installOneBlockFilter).getFilterChanges quietCache
          (newFilterId 1 .blkFilter (by decide)) 10).2
        [.getFilterChanges quietCache (newFilterId 1 .blkFilter (by decide)) 50000] ∧
      10 + filterExpireTime ≤ 86410 ∧
      ∀ type, newFilterId 1 .blkFilter (by decide) ∉
        ((((init.runCalls refuseAll installOneBlockFilter).getFilterChanges quietCache
          (newFilterId 1 .blkFilter (by decide)) 10).2.runCalls refuseAll
            [.getFilterChanges quietCache (newFilterId 1 .blkFilter (by decide)) 50000]).setEpochRange
              1 1 86410).keysOf type := by
  have hroom : Fold.Along (step refuseAll) (fun b _ => b.Room) init installOneBlockFilter := by
    decide
  have he : (init.runCalls refuseAll installOneBlockFilter).expireTimeOf
      (newFilterId 1 .blkFilter (by decide)) = some 86400 := by decide
  have hpoll : 10 + filterExpireTime ≠ 86400 := by decide
  have hcalls : Fold.Along (step refuseAll)
      (fun b call => b.Room ∧ NotDueBy (10 + filterExpireTime) call)
      ((init.runCalls refuseAll installOneBlockFilter).getFilterChanges quietCache
        (newFilterId 1 .blkFilter (by decide)) 10).2
      [.getFilterChanges quietCache (newFilterId 1 .blkFilter (by decide)) 50000] := by decide
  have hnow : 10 + filterExpireTime ≤ 86410 := by decide
  exact ⟨hroom, he, hpoll, hcalls, hnow, filter_uninstalled_a_day_after_poll refuseAll _ hroom
    quietCache _ 86400 10 he hpoll _ hcalls 1 1 86410 hnow⟩

end FilterAPIBackendImpl

end Filters

end Zilliqa
