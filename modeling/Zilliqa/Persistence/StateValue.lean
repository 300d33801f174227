import Zilliqa.Persistence.ContractStorage

/-!
# `Persistence.StateValue` — Scilla field values over the flat contract store

The Scilla interpreter reads and writes contract fields through `UpdateStateValue` and
`FetchStateValue`. A field of map depth `d` holding nested maps is flattened into one store entry
per byte value, under the key of its index path (`address.field.i₁.….iₙ.`, each part followed by
`SCILLA_INDEX_SEPARATOR`); an empty map below depth `d` is kept as a placeholder entry holding the
serialized empty map. Deleting an entry (`ignoreval`) marks every key under it deleted with
`DeleteByPrefix` and writes the parent's placeholder when the parent became empty.

Reading a map value back walks the keys under the queried prefix in all three layers; with
`ignoreval`, only its existence is asked, and the source answers as soon as a layer holds any key
under the prefix, before it looks at the deletion sets. So an entry deleted in the temporary layer
still exists for that query (`fetchStateValue_ignoreval_map`), while the value query finds nothing
(`exists_after_delete`).

Protobuf serialization is an oracle (`serialize`, and `isEmptyMapEncoding` for the test that a
stored placeholder parses as an empty map); the queries and values are taken as parsed.

## Contents
- `ScillaVal`, `ScillaQuery`, `isReservedVName`, `generateStorageKey`.
- `updateStateValue` with its `mapHandler`, and `fetchStateValue`, whose map path returns the
  entries the value is built from.
- `fetchStateValue_ignoreval_map`: the existence query of a map value holds exactly when a layer
  holds a key under its prefix, deleted or not; `exists_after_delete` runs a write and a delete
  after which the two queries disagree.
-/

namespace Zilliqa.Persistence

/-- `ProtoScillaVal`: a byte value, or a map from indices to values, given as the entries of the
    protobuf `map` in its iteration order. A value with neither field set reads as the empty byte
    value, as `bval()` returns it. -/
inductive ScillaVal where
  | bval (b : Bytes)
  | mval (m : List (Bytes × ScillaVal))

/-- `ProtoScillaQuery`. -/
structure ScillaQuery where
  name : Bytes
  mapdepth : ℕ
  indices : List Bytes
  ignoreval : Bool

/-- The field names `IsReservedVName` refuses: `_addr`, `_version`, `_depth`, `_type` and
    `_hasmap`, as bytes. -/
def reservedVNames : List Bytes :=
  [[95, 97, 100, 100, 114], [95, 118, 101, 114, 115, 105, 111, 110], [95, 100, 101, 112, 116, 104],
    [95, 116, 121, 112, 101], [95, 104, 97, 115, 109, 97, 112]]

/-- `TYPE_INDICATOR`, `_type`. -/
def typeIndicator : Bytes := [95, 116, 121, 112, 101]

/-- `ContractStorage::IsReservedVName`. -/
def isReservedVName (name : Bytes) : Bool := reservedVNames.contains name

/-- Append `index` and a separator to a key. -/
def appendIndex (key index : Bytes) : Bytes := key ++ index ++ [scillaIndexSeparator]

/-- `ContractStorage::GenerateStorageKey(addr, vname, indices)`, with `addrHex` the bytes of
    `addr.hex()`. -/
def generateStorageKey (addrHex vname : Bytes) (indices : List Bytes) : Bytes :=
  if vname.isEmpty then addrHex
  else indices.foldl appendIndex (appendIndex (addrHex ++ [scillaIndexSeparator]) vname)

namespace ContractStorage

variable (serialize : ScillaVal → Bytes)

/-! ## `UpdateStateValue` -/

mutual

/-- The `mapHandler` of `UpdateStateValue`: write the map `value` below `keyAcc`, an empty map as
    its placeholder, and fail at a value that should be a map and is not. -/
def mapHandler (keyAcc : Bytes) : ScillaVal → ContractStorage → Option (Bool × ContractStorage)
  | .bval _, s => some (false, s)
  | .mval [], s =>
    (s.updateStateData keyAcc (serialize (.mval [])) true).map fun s => (true, s)
  | .mval (e :: es), s => mapEntries keyAcc (e :: es) s

/-- The loop of `mapHandler` over the entries of a non-empty map. -/
def mapEntries (keyAcc : Bytes) :
    List (Bytes × ScillaVal) → ContractStorage → Option (Bool × ContractStorage)
  | [], s => some (true, s)
  | (index, .mval m) :: rest, s =>
    match mapHandler (appendIndex keyAcc index) (.mval m) s with
    | none => none
    | some (false, s) => some (false, s)
    | some (true, s) => mapEntries keyAcc rest s
  | (index, .bval b) :: rest, s =>
    match s.updateStateData (appendIndex keyAcc index) b true with
    | none => none
    | some s => mapEntries keyAcc rest s

end

variable (s : ContractStorage)

/-- `UpdateStateValue(addr, q, 0, v, 0)` on the parsed query and value: delete the entry at the
    indices (`ignoreval`), or assign a byte value at full depth, or replace the map below the
    indices by `value`. `none` where `UpdateStateData` throws. -/
def updateStateValue (addrHex : Bytes) (query : ScillaQuery) (value : ScillaVal) :
    Option (Bool × ContractStorage) :=
  if isReservedVName query.name then some (false, s)
  else
    let key := appendIndex (addrHex ++ [scillaIndexSeparator]) query.name
    if query.ignoreval then
      match query.indices.getLast? with
      | none => some (false, s)
      | some last =>
        let parentKey := query.indices.dropLast.foldl appendIndex key
        let s := s.deleteByPrefix (appendIndex parentKey last)
        -- the parent map became empty: store its placeholder
        if s.checkIfKeyIsEmpty parentKey true then
          (s.updateStateData parentKey (serialize (.mval [])) false).map fun s => (true, s)
        else some (true, s)
    else
      let key := query.indices.foldl appendIndex key
      if query.mapdepth < query.indices.length then some (false, s)
      else if query.indices.length = query.mapdepth then
        match value with
        | .mval _ => some (false, s)
        | .bval b => (s.updateStateData key b true).map fun s => (true, s)
      else mapHandler serialize key value (s.deleteByPrefix key)

end ContractStorage

/-! ## `FetchStateValue` -/

/-- What `FetchStateValue` reports: a failure (`false`), a missing value (`true` with `foundVal`
    false), an existing value that was not asked for (`ignoreval`), a byte value, or a map value,
    given by the stored entries it is built from (each placed at the index path of its key below
    the queried one, `indexPath`). Each carries the field's type when `getType` asked for it. -/
inductive FetchedValue where
  | fail
  | notFound (type : Option Bytes)
  | present (type : Option Bytes)
  | bval (type : Option Bytes) (b : Bytes)
  | entries (type : Option Bytes) (es : FinStore Bytes Bytes)

namespace ContractStorage

variable (s : ContractStorage)

/-- The index path of a stored key below `key`: its remaining bytes split at the separators,
    without the empty part after the last one. -/
def indexPath (key k : Bytes) : List Bytes :=
  if k.length ≤ key.length then []
  else
    let indices := (k.drop key.length).splitOn scillaIndexSeparator
    if indices.getLast? = some [] then indices.dropLast else indices

/-- A key `FetchStateValue` skips: deleted in the temporary layer, or deleted in the committed
    layer and not written again in the temporary one. -/
def fetchSkips (k : Bytes) : Bool :=
  decide (k ∈ s.tIndexToBeDeleted) ||
    decide (k ∈ s.indexToBeDeleted) && (s.tStateDataMap.find k).isNone

/-- The map path of `FetchStateValue`: the entries under `key` in the three layers (the
    temporary one first), of which those not deleted make the value; a stored entry above the map
    depth must hold the serialized empty map. -/
def fetchMap (isEmptyMapEncoding : Bytes → Bool) (query : ScillaQuery) (key : Bytes)
    (type : Option Bytes) : FetchedValue :=
  let layers := s.tStateDataMap.merge (s.stateDataMap.merge s.stateDataDB)
  let entries := layers.filter (key.isPrefixOf ·)
  -- with `ignoreval`, any key under `key` in a layer answers before the deletions are looked at
  if query.ignoreval && decide entries.keys.Nonempty then .present type
  else if entries.keys = ∅ then
    if query.indices.isEmpty then .fail else .notFound type
  else
    let visible := entries.filter fun k => !s.fetchSkips k
    if decide (∃ k ∈ visible.keys, query.indices.length + (indexPath key k).length < query.mapdepth ∧
        isEmptyMapEncoding ((visible.find k).getD []) = false) then .fail
    else if visible.keys = ∅ then .notFound type
    else .entries type visible

/-- `FetchStateValue(addr, query, dst, 0, foundVal, getType, type)` on the parsed query. -/
def fetchStateValue (isEmptyMapEncoding : Bytes → Bool) (addrHex : Bytes) (query : ScillaQuery)
    (getType : Bool) : FetchedValue :=
  if isReservedVName query.name then .fail
  else
    -- the field's type, when asked for
    let typeKey := generateStorageKey addrHex typeIndicator [query.name]
    let typeEntries := s.fetchStateDataForKey typeKey true
    if getType && decide (typeEntries.keys = ∅) then .notFound none
    else
    let type := if getType then some ((typeEntries.find typeKey).getD []) else none
    if getType && query.indices.isEmpty && query.ignoreval then .present type
    else
    let key := query.indices.foldl appendIndex
      (appendIndex (addrHex ++ [scillaIndexSeparator]) query.name)
    if query.mapdepth < query.indices.length then .fail
    else if query.indices.length = query.mapdepth then
      -- a deleted placeholder counts as missing
      if key ∈ s.tIndexToBeDeleted then .notFound type
      else if key ∈ s.indexToBeDeleted ∧ (s.tStateDataMap.find key).isNone then .notFound type
      else
        match s.tStateDataMap.find key, s.stateDataMap.find key, s.stateDataDB.find key with
        | some b, _, _ => .bval type b
        | none, some b, _ => .bval type b
        | none, none, some b => if query.ignoreval then .present type else .bval type b
        | none, none, none => .notFound type
    else s.fetchMap isEmptyMapEncoding query key type

/-! ## Existence of a map entry after its deletion -/

/-- The keys under `key` that some layer holds, deleted or not. -/
def keysUnder (key : Bytes) : Finset Bytes :=
  (s.tStateDataMap.keys ∪ (s.stateDataMap.keys ∪ s.stateDataDB.keys)).filter (key.isPrefixOf ·)

/-- With `ignoreval`, the map path answers that the value exists exactly when a layer holds a key
    under the queried one, whatever the deletion sets say. -/
theorem fetchMap_ignoreval (isEmptyMapEncoding : Bytes → Bool) {query : ScillaQuery} (key : Bytes)
    (type : Option Bytes) (hig : query.ignoreval = true) :
    s.fetchMap isEmptyMapEncoding query key type =
      if (s.keysUnder key).Nonempty then .present type
      else if query.indices.isEmpty then .fail else .notFound type := by
  have hkeys : ((s.tStateDataMap.merge (s.stateDataMap.merge s.stateDataDB)).filter
      (key.isPrefixOf ·)).keys = s.keysUnder key := rfl
  unfold fetchMap
  simp only [hkeys, hig, Bool.true_and]
  by_cases hne : (s.keysUnder key).Nonempty
  · simp [hne]
  · have hemp : s.keysUnder key = ∅ := Finset.not_nonempty_iff_eq_empty.1 hne
    simp [hemp]

/-- The field `m` (byte `109`) of the contract with address bytes `A` (`65`), of map depth 2. -/
def depthTwoQuery (indices : List Bytes) (ignoreval : Bool) : ScillaQuery :=
  ⟨[109], 2, indices, ignoreval⟩

/-- An empty store, then `m[1][2] := 7` and `delete m[1]` in the temporary layer. -/
def deleteProbeRun (serialize : ScillaVal → Bytes) : Option (Bool × ContractStorage) :=
  let s0 : ContractStorage := ⟨.empty, .empty, ∅, .empty, ∅, .empty, .empty⟩
  (s0.updateStateValue serialize [65] (depthTwoQuery [[1], [2]] false) (.bval [7])).bind fun r =>
    r.2.updateStateValue serialize [65] (depthTwoQuery [[1]] true) (.bval [])

theorem exists_after_delete (serialize : ScillaVal → Bytes) (isEmptyMapEncoding : Bytes → Bool) :
    (deleteProbeRun serialize).map (fun r =>
        (r.1, r.2.fetchStateValue isEmptyMapEncoding [65] (depthTwoQuery [[1]] true) false,
          r.2.fetchStateValue isEmptyMapEncoding [65] (depthTwoQuery [[1]] false) false)) =
      some (true, .present none, .notFound none) :=
  rfl

end ContractStorage

end Zilliqa.Persistence
