import Zilliqa.Lib.FinStore
import Zilliqa.Cps.AccountStore

/-!
# `Persistence.ContractStorage` — the layered store of contract state

`ContractStorage` keeps Scilla contract state under flat keys (`GenerateStorageKey`: the address,
the field name and the map indices, each followed by `SCILLA_INDEX_SEPARATOR`) in three layers: the
persistent database `m_stateDataDB`, the committed layer (`m_stateDataMap`, with the deletions
`m_indexToBeDeleted` not yet flushed to the database) and the temporary layer of the block being
built (`t_stateDataMap`, `t_indexToBeDeleted`). A commit of a block's state delta may be recorded
for a later revert (`r_stateDataMap`, keyed by the trie root the commit produced, and
`r_indexToBeDeleted`).

Keys are `std::string`s and are modelled as their bytes; the database is the sorted map its
iterators walk. The state trie `m_stateTrie` only hashes what the maps hold and is not modelled:
the root a committed update produces is an argument (`newRoot`), and the order in which
`RevertContractStates` walks its `unordered_map` of records is one too (`order`).

## Contents
- The faithful operations: `deleteByIndex`, `deleteByPrefix`, `cleanEmptyMapPlaceholders`,
  `updateStateData`, `updateStateDatasAndToDeletes`, `fetchStateDataForKey`, `checkIfKeyIsEmpty`,
  `commitStateDB`, `initRevertibles`, `revertContractStates`; the writes and deletes as one
  `StorageOp` type with `step` and `run`.
- `view`: the single map the layers stand for, and `StorageOp.apply`, what an operation does to a
  single map. `fetchStateDataForKey` with `temp` reads exactly the view under a prefix
  (`fetchStateDataForKey_temp`); every temporary operation, and every committed update whose keys
  the temporary layer does not hold, acts on the view as on a map (`view_step`), and so does every
  run of temporary operations (`view_run`).
- `checkIfKeyIsEmpty` counts a key deleted in the committed layer as gone even when the temporary
  layer has written it again (`checkIfKeyIsEmpty_temp_iff`), so it decides emptiness of the view
  only while no such key is visible (`checkIfKeyIsEmpty_temp_eq`).
- The revert: one revertible commit after `InitRevertibles` is undone when none of its written keys
  held an empty value and none of its deleted keys was already marked deleted
  (`revertContractStates_single`).
-/

namespace Zilliqa.Persistence

/-- `SCILLA_INDEX_SEPARATOR`. -/
def scillaIndexSeparator : UInt8 := 0x16

/-- The layers of `ContractStorage`. -/
structure ContractStorage where
  /-- `m_stateDataDB`. -/
  stateDataDB : FinStore Bytes Bytes
  /-- `m_stateDataMap`. -/
  stateDataMap : FinStore Bytes Bytes
  /-- `m_indexToBeDeleted`. -/
  indexToBeDeleted : Finset Bytes
  /-- `t_stateDataMap`. -/
  tStateDataMap : FinStore Bytes Bytes
  /-- `t_indexToBeDeleted`. -/
  tIndexToBeDeleted : Finset Bytes
  /-- `r_stateDataMap`: for each revertible commit, under the trie root it produced, the value
      each written key had before it (`{}` for a key that had none). -/
  rStateDataMap : FinStore ℕ (FinStore Bytes Bytes)
  /-- `r_indexToBeDeleted`: `true` for a key a commit marked deleted, `false` for one it unmarked;
      the first record of a key wins. -/
  rIndexToBeDeleted : FinStore Bytes Bool

namespace ContractStorage

variable (s : ContractStorage)

/-! ## Writes and deletes in the temporary layer -/

/-- `t_indexToBeDeleted.emplace(index)`. -/
def markDeleted (index : Bytes) : ContractStorage :=
  { s with tIndexToBeDeleted := insert index s.tIndexToBeDeleted }

/-- `DeleteByIndex`: mark `index` deleted when a layer holds it, the committed layer only when it
    has not deleted it already. -/
def deleteByIndex (index : Bytes) : ContractStorage :=
  if index ∈ s.tStateDataMap.keys then s.markDeleted index
  else if index ∈ s.stateDataMap.keys ∧ index ∉ s.indexToBeDeleted then s.markDeleted index
  else if index ∈ s.stateDataDB.keys then s.markDeleted index
  else s

/-- `DeleteByPrefix`: mark deleted every key under `pfx` that a layer holds, the committed layer's
    keys only when it has not deleted them already. -/
def deleteByPrefix (pfx : Bytes) : ContractStorage :=
  { s with
    tIndexToBeDeleted := s.tIndexToBeDeleted ∪ s.tStateDataMap.keys.filter (pfx.isPrefixOf ·) ∪
      s.stateDataMap.keys.filter (fun k => pfx.isPrefixOf k ∧ k ∉ s.indexToBeDeleted) ∪
      s.stateDataDB.keys.filter (pfx.isPrefixOf ·) }

/-- The keys `CleanEmptyMapPlaceholders` hands to `DeleteByIndex` for a key with at least one
    separator: the key of every map level above the value, the outermost first. `none` where
    `indices.at(1)` throws, for a key whose only separator ends it. -/
def placeholderKeys (key : Bytes) : Option (List Bytes) :=
  let indices := key.splitOn scillaIndexSeparator
  let indices := if indices.getLast? = some [] then indices.dropLast else indices
  match indices with
  | i0 :: i1 :: rest =>
    -- the root level, then each deeper level but the value key itself
    some (rest.dropLast.scanl (fun k i => k ++ i ++ [scillaIndexSeparator])
      (i0 ++ [scillaIndexSeparator] ++ i1 ++ [scillaIndexSeparator]))
  | _ => none

/-- `CleanEmptyMapPlaceholders(key)`: delete the empty-map placeholder of every map level above
    `key`; `none` when it throws. -/
def cleanEmptyMapPlaceholders (key : Bytes) : Option (Bool × ContractStorage) :=
  if (key.splitOn scillaIndexSeparator).length < 2 then some (false, s)
  else (placeholderKeys key).map fun scankeys => (true, scankeys.foldl deleteByIndex s)

/-- `t_indexToBeDeleted.erase(key); t_stateDataMap[key] = value`. -/
def writeTemp (key value : Bytes) : ContractStorage :=
  { s with
    tStateDataMap := s.tStateDataMap.insert key value
    tIndexToBeDeleted := s.tIndexToBeDeleted.erase key }

/-- `UpdateStateData(key, value, cleanEmpty)`; `none` when `CleanEmptyMapPlaceholders` throws. -/
def updateStateData (key value : Bytes) (cleanEmpty : Bool) : Option ContractStorage :=
  if cleanEmpty then (s.cleanEmptyMapPlaceholders key).map fun r => r.2.writeTemp key value
  else some (s.writeTemp key value)

/-! ## Committed updates and the revert -/

/-- `UpdateStateDatasAndToDeletes(addr, rootHash, states, toDeleteIndices, stateHash, temp,
    revertible)`, with `newRoot` the root of `m_stateTrie` after the committed writes. The loops
    over `states` run over the distinct keys of a `std::map`, each iteration touching only its own
    key, and are written entry-wise. -/
def updateStateDatasAndToDeletes (states : FinStore Bytes Bytes) (toDeleteIndices : List Bytes)
    (newRoot : ℕ) (temp revertible : Bool) : ContractStorage :=
  if temp then
    { s with
      tStateDataMap := states.merge s.tStateDataMap
      tIndexToBeDeleted := s.tIndexToBeDeleted \ states.keys ∪ toDeleteIndices.toFinset }
  else
    -- `t_r_stateDataMap`: the value each written key had, `{}` when it had none
    let record := FinStore.ofFinset states.keys fun k => (s.stateDataMap.find k).getD []
    -- the written keys that were marked deleted (`false`), then the deleted keys (`true`):
    -- `emplace` keeps the first record of a key
    let marks := (FinStore.ofFinset (states.keys ∩ s.indexToBeDeleted) fun _ => false).merge
      (FinStore.ofFinset toDeleteIndices.toFinset fun _ => true)
    { s with
      stateDataMap := states.merge s.stateDataMap
      indexToBeDeleted := s.indexToBeDeleted \ states.keys ∪ toDeleteIndices.toFinset
      rStateDataMap := if revertible then s.rStateDataMap.insert newRoot record else s.rStateDataMap
      rIndexToBeDeleted := if revertible then s.rIndexToBeDeleted.merge marks
        else s.rIndexToBeDeleted }

/-- `InitRevertibles`. -/
def initRevertibles : ContractStorage :=
  { s with rStateDataMap := .empty, rIndexToBeDeleted := .empty }

/-- Replay one record of `r_stateDataMap`: an empty value erases its key, any other is written
    back. -/
def revertRecord (m record : FinStore Bytes Bytes) : FinStore Bytes Bytes :=
  (record.merge m).eraseKeys (record.keys.filter fun k => record.find k = some [])

/-- `RevertContractStates`, replaying the records of `r_stateDataMap` in `order`, the iteration
    order of its `unordered_map`. -/
def revertContractStates (order : List ℕ) : ContractStorage :=
  { s with
    stateDataMap := order.foldl
      (fun m root => revertRecord m ((s.rStateDataMap.find root).getD .empty)) s.stateDataMap
    indexToBeDeleted :=
      s.indexToBeDeleted \ s.rIndexToBeDeleted.keys.filter (fun k => s.rIndexToBeDeleted.find k = some true) ∪
        s.rIndexToBeDeleted.keys.filter (fun k => s.rIndexToBeDeleted.find k = some false) }

/-- `CommitStateDB`: write the committed layer to the database, apply its deletions there, and
    clear it and the temporary layer. -/
def commitStateDB : ContractStorage :=
  { s with
    stateDataDB := (s.stateDataMap.merge s.stateDataDB).eraseKeys s.indexToBeDeleted
    stateDataMap := .empty
    indexToBeDeleted := ∅
    tStateDataMap := .empty
    tIndexToBeDeleted := ∅ }

/-! ## Readers -/

/-- `FetchStateDataForKey(states, key, temp)` into an empty `states`: the entries under `key`, the
    temporary layer first, then the committed layer, then the database, without the keys marked
    deleted; a committed deletion does not hide a key the temporary layer holds. -/
def fetchStateDataForKey (key : Bytes) (temp : Bool) : FinStore Bytes Bytes :=
  let layers := if temp then s.tStateDataMap.merge (s.stateDataMap.merge s.stateDataDB)
    else s.stateDataMap.merge s.stateDataDB
  let found := layers.filter (key.isPrefixOf ·)
  let found := if temp then found.eraseKeys s.tIndexToBeDeleted else found
  found.filter fun k =>
    !(decide (k ∈ s.indexToBeDeleted) && (temp && (s.tStateDataMap.find k).isNone || !temp))

/-- `CheckIfKeyIsEmpty(key, temp)`: every key under `key` that a layer holds is marked deleted, in
    the temporary deletions (with `temp`) or in the committed ones. -/
def checkIfKeyIsEmpty (key : Bytes) (temp : Bool) : Bool :=
  let toBeDeleted := fun k => temp && decide (k ∈ s.tIndexToBeDeleted) || decide (k ∈ s.indexToBeDeleted)
  let scanned := (if temp then s.tStateDataMap.keys else ∅) ∪ s.stateDataMap.keys ∪ s.stateDataDB.keys
  decide (∀ k ∈ scanned.filter (key.isPrefixOf ·), toBeDeleted k = true)

/-! ## The view -/

/-- What the committed layer and the database stand for: the committed layer over the database,
    without the committed deletions. -/
def committedView : FinStore Bytes Bytes :=
  (s.stateDataMap.merge s.stateDataDB).eraseKeys s.indexToBeDeleted

/-- The single key-value map the three layers stand for: the temporary layer over the committed
    view, without the temporary deletions. -/
def view : FinStore Bytes Bytes :=
  (s.tStateDataMap.merge s.committedView).eraseKeys s.tIndexToBeDeleted

theorem find_committedView (k : Bytes) :
    s.committedView.find k =
      if k ∈ s.indexToBeDeleted then none else (s.stateDataMap.find k).or (s.stateDataDB.find k) :=
  rfl

theorem find_view (k : Bytes) :
    s.view.find k =
      if k ∈ s.tIndexToBeDeleted then none else (s.tStateDataMap.find k).or (s.committedView.find k) :=
  rfl

/-- A key the view shows is held by the temporary layer, or by the committed layer or the
    database and not deleted in the committed layer. -/
theorem find_view_eq_none {k : Bytes} (ht : k ∉ s.tStateDataMap.keys)
    (hm : k ∈ s.stateDataMap.keys → k ∈ s.indexToBeDeleted) (hd : k ∉ s.stateDataDB.keys) :
    s.view.find k = none := by
  rw [← FinStore.find_eq_none_iff] at ht hd
  by_cases hmi : k ∈ s.indexToBeDeleted
  · simp [find_view, find_committedView, ht, hmi]
  · have hmk : s.stateDataMap.find k = none := (FinStore.find_eq_none_iff _ k).2 (mt hm hmi)
    simp [find_view, find_committedView, ht, hmi, hmk, hd]

/-- Marking keys deleted in the temporary layer deletes them from the view. -/
theorem view_markAll (marked : Finset Bytes) :
    { s with tIndexToBeDeleted := s.tIndexToBeDeleted ∪ marked }.view = s.view.eraseKeys marked := by
  apply FinStore.ext
  intro k
  by_cases hk : k ∈ marked
  · simp [find_view, FinStore.find_eraseKeys, hk]
  · simp [find_view, find_committedView, FinStore.find_eraseKeys, hk]

theorem view_markDeleted (index : Bytes) : (s.markDeleted index).view = s.view.erase index := by
  have hmark : s.markDeleted index = { s with tIndexToBeDeleted := s.tIndexToBeDeleted ∪ {index} } := by
    simp only [markDeleted, Finset.union_singleton]
  rw [hmark, view_markAll]
  apply FinStore.ext
  intro k
  simp only [FinStore.find_eraseKeys, FinStore.find_erase, Finset.mem_singleton]

theorem view_writeTemp (key value : Bytes) :
    (s.writeTemp key value).view = s.view.insert key value := by
  apply FinStore.ext
  intro k
  by_cases hk : k = key
  · subst hk
    simp [find_view, writeTemp]
  · simp [find_view, find_committedView, writeTemp, hk]

/-- `DeleteByIndex` deletes its key from the view, also when it marks nothing: a key it skips is
    not in the view. -/
theorem view_deleteByIndex (index : Bytes) : (s.deleteByIndex index).view = s.view.erase index := by
  unfold deleteByIndex
  split_ifs with ht hm hd
  · exact view_markDeleted s index
  · exact view_markDeleted s index
  · exact view_markDeleted s index
  · have hnone : s.view.find index = none :=
      s.find_view_eq_none ht (fun h => by_contra fun hmi => hm ⟨h, hmi⟩) hd
    rw [FinStore.erase_of_find_none _ hnone]

theorem view_foldl_deleteByIndex (ks : List Bytes) :
    (ks.foldl deleteByIndex s).view = ks.foldl FinStore.erase s.view := by
  induction ks generalizing s with
  | nil => rfl
  | cons k ks ih =>
    rw [List.foldl_cons, List.foldl_cons, ih, view_deleteByIndex]

/-- `DeleteByPrefix` deletes every key under its prefix from the view. -/
theorem view_deleteByPrefix (pfx : Bytes) :
    (s.deleteByPrefix pfx).view = s.view.filter fun k => !pfx.isPrefixOf k := by
  let marked := s.tStateDataMap.keys.filter (pfx.isPrefixOf ·) ∪
    s.stateDataMap.keys.filter (fun k => pfx.isPrefixOf k ∧ k ∉ s.indexToBeDeleted) ∪
    s.stateDataDB.keys.filter (pfx.isPrefixOf ·)
  have hdel : s.deleteByPrefix pfx = { s with tIndexToBeDeleted := s.tIndexToBeDeleted ∪ marked } := by
    simp only [deleteByPrefix, marked, Finset.union_assoc]
  rw [hdel, view_markAll]
  apply FinStore.ext
  intro k
  rw [FinStore.find_eraseKeys, FinStore.find_filter]
  by_cases hp : pfx.isPrefixOf k = true
  · -- a key under the prefix is marked now, or the view does not show it
    by_cases hk : k ∈ marked
    · simp [hk, hp]
    · rw [if_neg hk]
      simp only [marked, Finset.mem_union, Finset.mem_filter, hp, and_true, true_and, not_or,
        not_and, not_not] at hk
      obtain ⟨⟨ht, hm⟩, hd⟩ := hk
      rw [s.find_view_eq_none ht hm hd]
      simp [hp]
  · have hp' : ¬ pfx <+: k := by rwa [← List.isPrefixOf_iff_prefix]
    have hk : k ∉ marked := by simp [marked, hp']
    simp [hk, hp]

/-- A temporary update writes its states over the view and then deletes its deletions. -/
theorem view_updateStateDatasAndToDeletes_temp (states : FinStore Bytes Bytes)
    (toDeleteIndices : List Bytes) (newRoot : ℕ) (revertible : Bool) :
    (s.updateStateDatasAndToDeletes states toDeleteIndices newRoot true revertible).view =
      (states.merge s.view).eraseKeys toDeleteIndices.toFinset := by
  apply FinStore.ext
  intro k
  by_cases hd : k ∈ toDeleteIndices
  · simp [updateStateDatasAndToDeletes, find_view, FinStore.find_eraseKeys, hd]
  · cases hs : states.find k with
    | some v =>
      have hk : k ∈ states.keys := (states.mem_keys k).2 (by rw [hs]; rfl)
      simp [updateStateDatasAndToDeletes, find_view, FinStore.find_eraseKeys, hd, hs, hk]
    | none =>
      have hk : k ∉ states.keys := (FinStore.find_eq_none_iff _ k).1 hs
      simp [updateStateDatasAndToDeletes, find_view, find_committedView, FinStore.find_eraseKeys,
        hd, hs, hk]

/-- A committed update acts on the view as the temporary one does, as long as the temporary
    layer neither holds nor has deleted any of its keys: otherwise the temporary layer hides it. -/
theorem view_updateStateDatasAndToDeletes_committed (states : FinStore Bytes Bytes)
    (toDeleteIndices : List Bytes) (newRoot : ℕ) (revertible : Bool)
    (hclear : ∀ k, k ∈ states.keys ∨ k ∈ toDeleteIndices →
      k ∉ s.tStateDataMap.keys ∧ k ∉ s.tIndexToBeDeleted) :
    (s.updateStateDatasAndToDeletes states toDeleteIndices newRoot false revertible).view =
      (states.merge s.view).eraseKeys toDeleteIndices.toFinset := by
  apply FinStore.ext
  intro k
  by_cases hd : k ∈ toDeleteIndices
  · obtain ⟨ht, hti⟩ := hclear k (Or.inr hd)
    rw [← FinStore.find_eq_none_iff] at ht
    simp [updateStateDatasAndToDeletes, find_view, find_committedView, FinStore.find_eraseKeys,
      hd, ht, hti]
  · cases hs : states.find k with
    | some v =>
      have hk : k ∈ states.keys := (states.mem_keys k).2 (by rw [hs]; rfl)
      obtain ⟨ht, hti⟩ := hclear k (Or.inl hk)
      rw [← FinStore.find_eq_none_iff] at ht
      simp [updateStateDatasAndToDeletes, find_view, find_committedView, FinStore.find_eraseKeys,
        hd, hs, hk, ht, hti]
    | none =>
      have hk : k ∉ states.keys := (FinStore.find_eq_none_iff _ k).1 hs
      simp [updateStateDatasAndToDeletes, find_view, find_committedView, FinStore.find_eraseKeys,
        hd, hs, hk]

/-- `CommitStateDB` persists the committed view, and the view is then the committed view. -/
theorem view_commitStateDB :
    s.commitStateDB.view = s.committedView ∧ s.commitStateDB.committedView = s.committedView := by
  constructor
  · apply FinStore.ext
    intro k
    simp [commitStateDB, find_view, find_committedView, FinStore.find_eraseKeys]
  · apply FinStore.ext
    intro k
    simp [commitStateDB, find_committedView, FinStore.find_eraseKeys]

/-! ## Readers against the view -/

/-- With `temp`, `FetchStateDataForKey` reads the view under `key`. -/
theorem fetchStateDataForKey_temp (key : Bytes) :
    s.fetchStateDataForKey key true = s.view.filter (key.isPrefixOf ·) := by
  apply FinStore.ext
  intro k
  by_cases hp : key.isPrefixOf k = true
  · by_cases hti : k ∈ s.tIndexToBeDeleted
    · simp [fetchStateDataForKey, FinStore.find_filter, FinStore.find_eraseKeys, find_view, hp, hti]
    · -- a temporary value wins over a committed deletion, as in the view
      cases ht : s.tStateDataMap.find k with
      | some v =>
        simp [fetchStateDataForKey, FinStore.find_filter, FinStore.find_eraseKeys, find_view, hp,
          hti, ht]
      | none =>
        by_cases hm : k ∈ s.indexToBeDeleted
        · simp [fetchStateDataForKey, FinStore.find_filter, find_view, find_committedView, hp,
            hti, ht, hm]
        · simp [fetchStateDataForKey, FinStore.find_filter, FinStore.find_eraseKeys, find_view,
            find_committedView, hp, hti, ht, hm]
  · simp [fetchStateDataForKey, FinStore.find_filter, FinStore.find_eraseKeys, hp]

/-- Without `temp`, `FetchStateDataForKey` reads the committed view under `key`. -/
theorem fetchStateDataForKey_committed (key : Bytes) :
    s.fetchStateDataForKey key false = s.committedView.filter (key.isPrefixOf ·) := by
  apply FinStore.ext
  intro k
  by_cases hp : key.isPrefixOf k = true
  · by_cases hm : k ∈ s.indexToBeDeleted
    · simp [fetchStateDataForKey, FinStore.find_filter, find_committedView, hp, hm]
    · simp [fetchStateDataForKey, FinStore.find_filter, find_committedView, hp, hm]
  · simp [fetchStateDataForKey, FinStore.find_filter, hp]

/-- With `temp`, `CheckIfKeyIsEmpty` holds when every key under `key` that the view shows is
    deleted in the committed layer: such a key, written again in the temporary layer, counts as
    gone. -/
theorem checkIfKeyIsEmpty_temp_iff (key : Bytes) :
    s.checkIfKeyIsEmpty key true = true ↔
      ∀ k, key.isPrefixOf k = true → s.view.find k = none ∨ k ∈ s.indexToBeDeleted := by
  simp only [checkIfKeyIsEmpty, if_true, Bool.true_and, Bool.or_eq_true, decide_eq_true_eq,
    Finset.mem_filter, Finset.mem_union]
  constructor
  · intro h k hp
    by_cases hk : (k ∈ s.tStateDataMap.keys ∨ k ∈ s.stateDataMap.keys) ∨ k ∈ s.stateDataDB.keys
    · rcases h k ⟨hk, hp⟩ with hti | hm
      · exact Or.inl (by simp [find_view, hti])
      · exact Or.inr hm
    · simp only [not_or] at hk
      obtain ⟨⟨ht, hm⟩, hd⟩ := hk
      exact Or.inl (s.find_view_eq_none ht (fun h => absurd h hm) hd)
  · rintro h k ⟨hk, hp⟩
    rcases h k hp with hv | hm
    · -- not in the view: deleted in one of the layers, since some layer holds it
      by_cases hti : k ∈ s.tIndexToBeDeleted
      · exact Or.inl hti
      · by_cases hm : k ∈ s.indexToBeDeleted
        · exact Or.inr hm
        · simp only [find_view, find_committedView, hti, hm, if_false, Option.or_eq_none_iff]
            at hv
          obtain ⟨ht, hmk, hd⟩ := hv
          rw [FinStore.find_eq_none_iff] at ht hmk hd
          exact absurd hk (by simp [ht, hmk, hd])
    · exact Or.inr hm

/-- While the view shows no key under `key` that the committed layer has deleted,
    `CheckIfKeyIsEmpty` with `temp` tells whether `FetchStateDataForKey` finds nothing. -/
theorem checkIfKeyIsEmpty_temp_eq (key : Bytes)
    (hshadow : ∀ k, key.isPrefixOf k = true → s.view.find k ≠ none → k ∉ s.indexToBeDeleted) :
    s.checkIfKeyIsEmpty key true = true ↔ s.fetchStateDataForKey key true = FinStore.empty := by
  rw [checkIfKeyIsEmpty_temp_iff, fetchStateDataForKey_temp, FinStore.ext_iff]
  constructor
  · intro h k
    rw [FinStore.find_filter, FinStore.find_empty]
    split_ifs with hp
    · rcases h k hp with hv | hm
      · exact hv
      · by_contra hv
        exact hshadow k hp hv hm
    · rfl
  · intro h k hp
    have hk := h k
    rw [FinStore.find_filter, if_pos hp, FinStore.find_empty] at hk
    exact Or.inl hk

end ContractStorage

/-! ## The revert -/

namespace ContractStorage

variable (s : ContractStorage)

theorem find_revertRecord (m record : FinStore Bytes Bytes) (k : Bytes) :
    (revertRecord m record).find k =
      if record.find k = some [] then none else (record.find k).or (m.find k) := by
  have hmem : k ∈ record.keys.filter (fun j => record.find j = some []) ↔ record.find k = some [] := by
    rw [Finset.mem_filter, and_iff_right_iff_imp]
    intro h
    exact (record.mem_keys k).2 (by rw [h]; rfl)
  simp only [revertRecord, FinStore.find_eraseKeys, hmem, FinStore.find_merge]

theorem mem_indexToBeDeleted_revertContractStates (order : List ℕ) (k : Bytes) :
    k ∈ (s.revertContractStates order).indexToBeDeleted ↔
      (k ∈ s.indexToBeDeleted ∧ s.rIndexToBeDeleted.find k ≠ some true) ∨
        s.rIndexToBeDeleted.find k = some false := by
  have hkeys : ∀ b, k ∈ s.rIndexToBeDeleted.keys ∧ s.rIndexToBeDeleted.find k = some b ↔
      s.rIndexToBeDeleted.find k = some b := by
    intro b
    rw [and_iff_right_iff_imp]
    intro h
    exact (s.rIndexToBeDeleted.mem_keys k).2 (by rw [h]; rfl)
  simp only [revertContractStates, Finset.mem_union, Finset.mem_sdiff, Finset.mem_filter, hkeys]

/-- The record of a revertible commit holds the previous value of each written key, `[]` for a key
    that had none. -/
theorem find_record_updateStateDatasAndToDeletes (states : FinStore Bytes Bytes)
    (toDeleteIndices : List Bytes) (newRoot : ℕ) :
    (s.updateStateDatasAndToDeletes states toDeleteIndices newRoot false true).rStateDataMap.find
        newRoot =
      some (FinStore.ofFinset states.keys fun k => (s.stateDataMap.find k).getD []) := by
  simp [updateStateDatasAndToDeletes]

/-- The revert of one revertible commit recorded after `InitRevertibles` writes back the
    committed layer's values, provided none of the written keys held an empty value. -/
theorem stateDataMap_revert_single (states : FinStore Bytes Bytes) (toDeleteIndices : List Bytes)
    (newRoot : ℕ) (hempty : ∀ k ∈ states.keys, s.stateDataMap.find k ≠ some []) :
    ((s.initRevertibles.updateStateDatasAndToDeletes states toDeleteIndices newRoot false
      true).revertContractStates [newRoot]).stateDataMap = s.stateDataMap := by
  have hrec := s.initRevertibles.find_record_updateStateDatasAndToDeletes states toDeleteIndices
    newRoot
  apply FinStore.ext
  intro k
  simp only [revertContractStates, List.foldl_cons, List.foldl_nil, hrec, Option.getD_some,
    find_revertRecord, FinStore.find_ofFinset]
  by_cases hk : k ∈ states.keys
  · -- a written key gets its recorded value back, or is erased when it had none
    cases hm : s.stateDataMap.find k with
    | none => simp [initRevertibles, hk, hm]
    | some v =>
      have hv : v ≠ [] := fun h => hempty k hk (by rw [hm, h])
      simp [initRevertibles, updateStateDatasAndToDeletes, hk, hm, hv]
  · have hs : states.find k = none := (FinStore.find_eq_none_iff _ k).2 hk
    simp [initRevertibles, updateStateDatasAndToDeletes, hk, hs]

/-- The same revert restores the committed deletions, provided every deleted key that was already
    marked deleted is also written. -/
theorem indexToBeDeleted_revert_single (states : FinStore Bytes Bytes)
    (toDeleteIndices : List Bytes) (newRoot : ℕ)
    (hredelete : ∀ k ∈ toDeleteIndices, k ∈ s.indexToBeDeleted → k ∈ states.keys) :
    ((s.initRevertibles.updateStateDatasAndToDeletes states toDeleteIndices newRoot false
      true).revertContractStates [newRoot]).indexToBeDeleted = s.indexToBeDeleted := by
  ext k
  rw [mem_indexToBeDeleted_revertContractStates]
  by_cases hk : k ∈ states.keys
  · by_cases hm : k ∈ s.indexToBeDeleted
    · -- unmarked by the write and recorded as `false`: marked again
      simp [initRevertibles, updateStateDatasAndToDeletes, FinStore.find_ofFinset, hk, hm]
    · by_cases hd : k ∈ toDeleteIndices
      · simp [initRevertibles, updateStateDatasAndToDeletes, FinStore.find_ofFinset, hk, hm, hd]
      · simp [initRevertibles, updateStateDatasAndToDeletes, FinStore.find_ofFinset, hk, hm, hd]
  · by_cases hd : k ∈ toDeleteIndices
    · -- newly marked and recorded as `true`: unmarked again
      have hm : k ∉ s.indexToBeDeleted := fun h => hk (hredelete k hd h)
      simp [initRevertibles, updateStateDatasAndToDeletes, FinStore.find_ofFinset, hk, hm, hd]
    · simp [initRevertibles, updateStateDatasAndToDeletes, FinStore.find_ofFinset, hk, hd]

/-- One revertible commit after `InitRevertibles` is undone by `RevertContractStates`, when none of
    its written keys held an empty value and each of its deleted keys that was already marked
    deleted is also written. -/
theorem revertContractStates_single (states : FinStore Bytes Bytes)
    (toDeleteIndices : List Bytes) (newRoot : ℕ)
    (hempty : ∀ k ∈ states.keys, s.stateDataMap.find k ≠ some [])
    (hredelete : ∀ k ∈ toDeleteIndices, k ∈ s.indexToBeDeleted → k ∈ states.keys) :
    let s' := (s.initRevertibles.updateStateDatasAndToDeletes states toDeleteIndices newRoot false
      true).revertContractStates [newRoot]
    s'.stateDataMap = s.stateDataMap ∧ s'.indexToBeDeleted = s.indexToBeDeleted :=
  ⟨s.stateDataMap_revert_single states toDeleteIndices newRoot hempty,
    s.indexToBeDeleted_revert_single states toDeleteIndices newRoot hredelete⟩

/-- A committed layer holding `[1]` with the value `[5]` and with `[2]` marked deleted. -/
def revertCleanProbe : ContractStorage :=
  ⟨.empty, FinStore.empty.insert [1] [5], {[2]}, .empty, ∅, .empty, .empty⟩

/-- A commit that overwrites `[1]`, writes the new key `[3]` and deletes `[4]`. -/
def overwriteStates : FinStore Bytes Bytes := (FinStore.empty.insert [1] [9]).insert [3] [8]

/-- Reverting that commit gives back the committed layer. -/
theorem revertContractStates_single_overwrite :
    (∀ k ∈ overwriteStates.keys, revertCleanProbe.stateDataMap.find k ≠ some []) ∧
    (∀ k ∈ [[4]], k ∈ revertCleanProbe.indexToBeDeleted → k ∈ overwriteStates.keys) ∧
    (let s' := (revertCleanProbe.initRevertibles.updateStateDatasAndToDeletes overwriteStates [[4]] 1
      false true).revertContractStates [1]
    s'.stateDataMap = revertCleanProbe.stateDataMap ∧
      s'.indexToBeDeleted = revertCleanProbe.indexToBeDeleted) := by
  have hempty : ∀ k ∈ overwriteStates.keys, revertCleanProbe.stateDataMap.find k ≠ some [] := by
    decide
  have hredelete : ∀ k ∈ [[4]], k ∈ revertCleanProbe.indexToBeDeleted → k ∈ overwriteStates.keys := by
    decide
  exact ⟨hempty, hredelete, revertContractStates_single revertCleanProbe overwriteStates [[4]] 1 hempty
    hredelete⟩

/-- A committed layer holding `[1]` with an empty value and with `[2]` marked deleted. -/
def revertProbe : ContractStorage :=
  ⟨.empty, FinStore.empty.insert [1] [], {[2]}, .empty, ∅, .empty, .empty⟩

theorem revert_drops_empty_value_and_redeleted_key :
    revertProbe.stateDataMap.find [1] = some [] ∧
      (revertContractStates (updateStateDatasAndToDeletes (initRevertibles revertProbe)
        (FinStore.empty.insert [1] [9]) [[2]] 1 false true) [1]).stateDataMap.find [1] = none ∧
      revertProbe.indexToBeDeleted = {[2]} ∧
      (revertContractStates (updateStateDatasAndToDeletes (initRevertibles revertProbe)
        (FinStore.empty.insert [1] [9]) [[2]] 1 false true) [1]).indexToBeDeleted = ∅ := by
  decide

end ContractStorage

/-! ## Runs of writes and deletes -/

/-- The writes and deletes issued to `ContractStorage`. -/
inductive StorageOp where
  | updateStateData (key value : Bytes) (cleanEmpty : Bool)
  | deleteByIndex (index : Bytes)
  | deleteByPrefix (pfx : Bytes)
  | updateStateDatasAndToDeletes (states : FinStore Bytes Bytes) (toDeleteIndices : List Bytes)
      (newRoot : ℕ) (temp revertible : Bool)

namespace StorageOp

/-- What an operation does to a single key-value map: its writes, then its deletes. The deletes
    of `UpdateStateData` are those of `CleanEmptyMapPlaceholders`. -/
def apply (m : FinStore Bytes Bytes) : StorageOp → Option (FinStore Bytes Bytes)
  | updateStateData key value cleanEmpty =>
    if cleanEmpty ∧ 2 ≤ (key.splitOn scillaIndexSeparator).length then
      (ContractStorage.placeholderKeys key).map fun ks => (ks.foldl FinStore.erase m).insert key value
    else some (m.insert key value)
  | deleteByIndex index => some (m.erase index)
  | deleteByPrefix pfx => some (m.filter fun k => !pfx.isPrefixOf k)
  | updateStateDatasAndToDeletes states toDeleteIndices _ _ _ =>
    some ((states.merge m).eraseKeys toDeleteIndices.toFinset)

/-- A run of operations on a single map. -/
def applyAll (m : FinStore Bytes Bytes) : List StorageOp → Option (FinStore Bytes Bytes)
  | [] => some m
  | op :: ops => (op.apply m).bind fun m' => applyAll m' ops

/-- The operation is not a committed update. -/
def isTemp : StorageOp → Bool
  | updateStateDatasAndToDeletes _ _ _ temp _ => temp
  | _ => true

end StorageOp

namespace ContractStorage

variable (s : ContractStorage)

/-- One operation on the store. -/
def step : StorageOp → Option ContractStorage
  | .updateStateData key value cleanEmpty => s.updateStateData key value cleanEmpty
  | .deleteByIndex index => some (s.deleteByIndex index)
  | .deleteByPrefix pfx => some (s.deleteByPrefix pfx)
  | .updateStateDatasAndToDeletes states toDeleteIndices newRoot temp revertible =>
    some (s.updateStateDatasAndToDeletes states toDeleteIndices newRoot temp revertible)

/-- A run of operations; `none` once one throws. -/
def run : ContractStorage → List StorageOp → Option ContractStorage
  | s, [] => some s
  | s, op :: ops => (s.step op).bind fun s' => run s' ops

/-- `op` acts on the view as on a map: it is temporary, or a committed update whose keys the
    temporary layer neither holds nor has deleted. -/
def ActsOnView : StorageOp → Prop
  | .updateStateDatasAndToDeletes states toDeleteIndices _ false _ =>
    ∀ k, k ∈ states.keys ∨ k ∈ toDeleteIndices → k ∉ s.tStateDataMap.keys ∧ k ∉ s.tIndexToBeDeleted
  | _ => True

/-- Every operation of a run acts on the view at the state it runs in. -/
def RunActsOnView : ContractStorage → List StorageOp → Prop
  | _, [] => True
  | s, op :: ops => s.ActsOnView op ∧ ∀ s', s.step op = some s' → RunActsOnView s' ops

theorem actsOnView_of_isTemp {op : StorageOp} (h : op.isTemp = true) : s.ActsOnView op := by
  cases op with
  | updateStateDatasAndToDeletes states toDeleteIndices newRoot temp revertible =>
    cases temp with
    | false => exact absurd h (by simp [StorageOp.isTemp])
    | true => trivial
  | _ => trivial

theorem runActsOnView_of_isTemp {ops : List StorageOp} (h : ∀ op ∈ ops, op.isTemp = true) :
    RunActsOnView s ops := by
  induction ops generalizing s with
  | nil => trivial
  | cons op ops ih =>
    refine ⟨s.actsOnView_of_isTemp (h op List.mem_cons_self), fun s' _ => ?_⟩
    exact ih s' fun o ho => h o (List.mem_cons_of_mem op ho)

/-- `UpdateStateData` acts on the view as its writes and placeholder deletes on a map. -/
theorem view_updateStateData (key value : Bytes) (cleanEmpty : Bool) :
    (s.updateStateData key value cleanEmpty).map view =
      (StorageOp.updateStateData key value cleanEmpty).apply s.view := by
  cases cleanEmpty with
  | false => simp [updateStateData, StorageOp.apply, view_writeTemp]
  | true =>
    by_cases hlen : (key.splitOn scillaIndexSeparator).length < 2
    · have hnot : ¬ 2 ≤ (key.splitOn scillaIndexSeparator).length := by omega
      simp [updateStateData, cleanEmptyMapPlaceholders, StorageOp.apply, hlen, hnot, view_writeTemp]
    · have hle : 2 ≤ (key.splitOn scillaIndexSeparator).length := by omega
      cases hk : placeholderKeys key with
      | none => simp [updateStateData, cleanEmptyMapPlaceholders, StorageOp.apply, hlen, hle, hk]
      | some ks =>
        simp [updateStateData, cleanEmptyMapPlaceholders, StorageOp.apply, hlen, hle, hk,
          view_writeTemp, view_foldl_deleteByIndex]

/-- One operation that acts on the view changes it as the same operation on a map. -/
theorem view_step (op : StorageOp) (h : s.ActsOnView op) :
    (s.step op).map view = op.apply s.view := by
  cases op with
  | updateStateData key value cleanEmpty => exact s.view_updateStateData key value cleanEmpty
  | deleteByIndex index => simp [step, StorageOp.apply, view_deleteByIndex]
  | deleteByPrefix pfx => simp [step, StorageOp.apply, view_deleteByPrefix]
  | updateStateDatasAndToDeletes states toDeleteIndices newRoot temp revertible =>
    cases temp with
    | false =>
      simp [step, StorageOp.apply, view_updateStateDatasAndToDeletes_committed s _ _ _ _ h]
    | true => simp [step, StorageOp.apply, view_updateStateDatasAndToDeletes_temp]

/-- A run whose operations act on the view changes it as the same run on a map, and throws
    exactly where that run does. -/
theorem view_run (ops : List StorageOp) (h : RunActsOnView s ops) :
    (s.run ops).map view = StorageOp.applyAll s.view ops := by
  induction ops generalizing s with
  | nil => rfl
  | cons op ops ih =>
    obtain ⟨hop, hrest⟩ := h
    have hstep := s.view_step op hop
    simp only [run, StorageOp.applyAll]
    cases hs : s.step op with
    | none =>
      rw [hs, Option.map_none] at hstep
      rw [← hstep]
      rfl
    | some s' =>
      rw [hs, Option.map_some] at hstep
      rw [← hstep, Option.bind_some, Option.bind_some]
      exact ih s' (hrest s' hs)

/-- A database holding the key `[1]`, under empty committed and temporary layers. -/
def deleteProbe : ContractStorage :=
  ⟨FinStore.empty.insert [1] [5], .empty, ∅, .empty, ∅, .empty, .empty⟩

/-- A committed delete of `[1]`, then a temporary write of it. -/
def deleteThenRewrite : List StorageOp :=
  [.updateStateDatasAndToDeletes .empty [[1]] 0 false false, .updateStateData [1] [7] false]

theorem check_counts_rewritten_key_as_deleted :
    (StorageOp.applyAll deleteProbe.view deleteThenRewrite).map
        (fun m => m.filter (([1] : Bytes).isPrefixOf ·)) = some (FinStore.empty.insert [1] [7]) ∧
      (deleteProbe.run deleteThenRewrite).map (fun s => s.fetchStateDataForKey [1] true) =
        some (FinStore.empty.insert [1] [7]) ∧
      (deleteProbe.run deleteThenRewrite).map (fun s => s.checkIfKeyIsEmpty [1] true) = some true := by
  decide

/-- The committed delete comes first, while the temporary layer is empty, so the run acts on the
    view, and the view follows the same run on a map. -/
theorem view_run_deleteThenRewrite :
    deleteProbe.RunActsOnView deleteThenRewrite ∧
      (deleteProbe.run deleteThenRewrite).map view =
        StorageOp.applyAll deleteProbe.view deleteThenRewrite := by
  have hacts : deleteProbe.RunActsOnView deleteThenRewrite := by
    refine ⟨fun k _ => ⟨?_, ?_⟩, fun _ _ => ⟨trivial, fun _ _ => trivial⟩⟩
    · simp [deleteProbe]
    · simp [deleteProbe]
  exact ⟨hacts, deleteProbe.view_run deleteThenRewrite hacts⟩

/-- Before the run nothing is marked deleted, and `CheckIfKeyIsEmpty` agrees with
    `FetchStateDataForKey` on `[1]`. -/
theorem checkIfKeyIsEmpty_temp_eq_deleteProbe :
    (∀ k, ([1] : Bytes).isPrefixOf k = true → deleteProbe.view.find k ≠ none →
      k ∉ deleteProbe.indexToBeDeleted) ∧
    (deleteProbe.checkIfKeyIsEmpty [1] true = true ↔
      deleteProbe.fetchStateDataForKey [1] true = FinStore.empty) := by
  have hshadow : ∀ k, ([1] : Bytes).isPrefixOf k = true → deleteProbe.view.find k ≠ none →
      k ∉ deleteProbe.indexToBeDeleted := by
    intro k _ _
    simp [deleteProbe]
  exact ⟨hshadow, deleteProbe.checkIfKeyIsEmpty_temp_eq [1] hshadow⟩

end ContractStorage

end Zilliqa.Persistence
