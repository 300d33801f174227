import Mathlib.Algebra.BigOperators.Group.Finset.Basic
import Mathlib.Algebra.Order.BigOperators.Group.Finset

/-!
# `Lib.FinStore` — finite key-value stores, overlays and weighted totals

A `FinStore κ ν` is a lookup function paired with its finite domain; the domain is kept exact by a
field, so a store can always be summed over and two stores with the same lookup are equal. On top of
it sits the two-level `Overlay` of a transactional store: reads go through the top layer to the
parent, writes go to the top layer only, `commit` publishes the merged view into the parent and
`discard` drops the top layer.

## Contents
- `FinStore` with `insert`, `erase`, `eraseKeys`, `ofFinset`, `filter`, `merge` and `map` and their lookup
  lemmas (tagged `@[simp]`).
- `KeyedBy s f`: every value `v` is stored under `f v`; kept by `insert` at a value's own key and by
  `erase`, with `find_key_insert_iff` / `find_key_erase_iff` for the values stored under their keys.
- `FinStore.total w s`, the sum of a weight over the stored values, with the point-update law
  `total_insert`: a write changes the total by the new weight minus the weight it replaces.
- `Overlay` with `view`, `write`, `commit` and `discard`, and the laws relating them.

Nothing here mentions accounts or balances; the account store of the executor instantiates it.
-/

/-- A finite store: a lookup function together with its exact, finite domain. -/
structure FinStore (κ ν : Type) [DecidableEq κ] where
  find : κ → Option ν
  keys : Finset κ
  mem_keys : ∀ k, k ∈ keys ↔ (find k).isSome

namespace FinStore

variable {κ ν : Type} [DecidableEq κ]

/-- Two stores with the same lookup are equal: the domain is determined by the lookup. -/
@[ext] theorem ext {s t : FinStore κ ν} (h : ∀ k, s.find k = t.find k) : s = t := by
  obtain ⟨f, K, hK⟩ := s
  obtain ⟨g, L, hL⟩ := t
  have hfg : f = g := funext h
  subst hfg
  have hKL : K = L := by
    ext k
    rw [hK, hL]
  subst hKL
  rfl

/-- A key is missing exactly when it is not among the keys. -/
theorem find_eq_none_iff (s : FinStore κ ν) (k : κ) : s.find k = none ↔ k ∉ s.keys := by
  rw [s.mem_keys, Option.not_isSome_iff_eq_none]

/-- Two stores are equal when they have the same keys and agree on them. -/
theorem eq_iff_keys_find (s t : FinStore κ ν) :
    s = t ↔ s.keys = t.keys ∧ ∀ k ∈ s.keys, s.find k = t.find k := by
  constructor
  · rintro rfl
    exact ⟨rfl, fun _ _ => rfl⟩
  · rintro ⟨hkeys, hfind⟩
    apply ext
    intro k
    by_cases hk : k ∈ s.keys
    · exact hfind k hk
    · have ht : k ∉ t.keys := hkeys ▸ hk
      rw [(find_eq_none_iff s k).2 hk, (find_eq_none_iff t k).2 ht]

/-- Equality of stores is decided on their keys, so concrete stores can be compared by `decide`. -/
instance [DecidableEq ν] : DecidableEq (FinStore κ ν) := fun s t =>
  decidable_of_iff _ (eq_iff_keys_find s t).symm

/-- The store with no entries. -/
def empty : FinStore κ ν := ⟨fun _ => none, ∅, by simp⟩

/-- Store `v` under `k`, replacing what was there. -/
def insert (s : FinStore κ ν) (k : κ) (v : ν) : FinStore κ ν where
  find := fun j => if j = k then some v else s.find j
  keys := Insert.insert k s.keys
  mem_keys := by
    intro j
    by_cases h : j = k
    · simp [h]
    · simp [h, s.mem_keys]

/-- Remove the entry of `k`, if any. -/
def erase (s : FinStore κ ν) (k : κ) : FinStore κ ν where
  find := fun j => if j = k then none else s.find j
  keys := s.keys.erase k
  mem_keys := by
    intro j
    by_cases h : j = k
    · simp [h]
    · simp [h, s.mem_keys]

/-- Remove the entries of all keys in `ks`. -/
def eraseKeys (s : FinStore κ ν) (ks : Finset κ) : FinStore κ ν where
  find := fun j => if j ∈ ks then none else s.find j
  keys := s.keys \ ks
  mem_keys := by
    intro j
    by_cases h : j ∈ ks
    · simp [h]
    · simp [h, s.mem_keys]

/-- The store holding `f k` under every key `k` of `ks`. -/
def ofFinset (ks : Finset κ) (f : κ → ν) : FinStore κ ν where
  find := fun j => if j ∈ ks then some (f j) else none
  keys := ks
  mem_keys := by
    intro j
    by_cases h : j ∈ ks
    · simp [h]
    · simp [h]

/-- Keep the entries whose key satisfies `p`. -/
def filter (s : FinStore κ ν) (p : κ → Bool) : FinStore κ ν where
  find := fun j => if p j then s.find j else none
  keys := s.keys.filter fun j => p j
  mem_keys := by
    intro j
    by_cases h : p j
    · simp [h, s.mem_keys]
    · simp [h]

/-- `top` layered over `parent`: a key of `top` hides the same key of `parent`. -/
def merge (top parent : FinStore κ ν) : FinStore κ ν where
  find := fun k => (top.find k).or (parent.find k)
  keys := top.keys ∪ parent.keys
  mem_keys := by
    intro k
    simp only [Finset.mem_union, top.mem_keys, parent.mem_keys, Option.isSome_or, Bool.or_eq_true]

@[simp] theorem find_empty (k : κ) : (empty : FinStore κ ν).find k = none := rfl

@[simp] theorem keys_empty : (empty : FinStore κ ν).keys = ∅ := rfl

@[simp] theorem find_insert_self (s : FinStore κ ν) (k : κ) (v : ν) :
    (s.insert k v).find k = some v := by
  simp [insert]

@[simp] theorem find_insert_ne (s : FinStore κ ν) {k j : κ} (v : ν) (h : j ≠ k) :
    (s.insert k v).find j = s.find j := by
  simp [insert, h]

theorem find_insert (s : FinStore κ ν) (k j : κ) (v : ν) :
    (s.insert k v).find j = if j = k then some v else s.find j := rfl

@[simp] theorem find_erase_self (s : FinStore κ ν) (k : κ) : (s.erase k).find k = none := by
  simp [erase]

@[simp] theorem find_erase_ne (s : FinStore κ ν) {k j : κ} (h : j ≠ k) :
    (s.erase k).find j = s.find j := by
  simp [erase, h]

theorem find_eraseKeys (s : FinStore κ ν) (ks : Finset κ) (j : κ) :
    (s.eraseKeys ks).find j = if j ∈ ks then none else s.find j := rfl

theorem find_ofFinset (ks : Finset κ) (f : κ → ν) (j : κ) :
    (ofFinset ks f).find j = if j ∈ ks then some (f j) else none := rfl

theorem find_filter (s : FinStore κ ν) (p : κ → Bool) (j : κ) :
    (s.filter p).find j = if p j then s.find j else none := rfl

theorem find_erase (s : FinStore κ ν) (k j : κ) :
    (s.erase k).find j = if j = k then none else s.find j := rfl

/-- The value of a key known to be stored. -/
def get (s : FinStore κ ν) (k : κ) (h : k ∈ s.keys) : ν := (s.find k).get ((s.mem_keys k).1 h)

theorem find_eq_some_get (s : FinStore κ ν) {k : κ} (h : k ∈ s.keys) :
    s.find k = some (s.get k h) :=
  (Option.some_get _).symm

theorem insert_erase_self (s : FinStore κ ν) (k : κ) (v : ν) :
    (s.erase k).insert k v = s.insert k v := by
  apply ext
  intro j
  by_cases hj : j = k <;> simp [hj]

/-- Erasing an absent key changes nothing. -/
theorem erase_of_find_none (s : FinStore κ ν) {k : κ} (h : s.find k = none) : s.erase k = s := by
  apply ext
  intro j
  by_cases hj : j = k
  · subst hj
    simp [h]
  · simp [hj]

/-- A store is empty exactly when no key finds a value. -/
theorem keys_eq_empty_iff (s : FinStore κ ν) : s.keys = ∅ ↔ ∀ k, s.find k = none := by
  simp only [Finset.eq_empty_iff_forall_notMem, s.mem_keys, Option.not_isSome_iff_eq_none]

theorem eq_empty_of_keys_eq_empty {s : FinStore κ ν} (h : s.keys = ∅) : s = empty := by
  apply ext
  intro k
  rw [(keys_eq_empty_iff s).1 h k, find_empty]

@[simp] theorem find_merge (top parent : FinStore κ ν) (k : κ) :
    (merge top parent).find k = (top.find k).or (parent.find k) := rfl

/-- Every value rewritten by `f`, which also sees the value's key; the domain is unchanged. -/
def map {μ : Type} (s : FinStore κ ν) (f : κ → ν → μ) : FinStore κ μ where
  find := fun k => (s.find k).map (f k)
  keys := s.keys
  mem_keys := by
    intro k
    rw [s.mem_keys, Option.isSome_map]

@[simp] theorem find_map {μ : Type} (s : FinStore κ ν) (f : κ → ν → μ) (k : κ) :
    (s.map f).find k = (s.find k).map (f k) := rfl

@[simp] theorem keys_map {μ : Type} (s : FinStore κ ν) (f : κ → ν → μ) :
    (s.map f).keys = s.keys := rfl

/-- Writing the value a key already has changes nothing. -/
theorem insert_find_self (s : FinStore κ ν) {k : κ} {v : ν} (h : s.find k = some v) :
    s.insert k v = s := by
  apply ext
  intro j
  by_cases hj : j = k
  · subst hj
    simp [h]
  · simp [hj]

theorem insert_insert (s : FinStore κ ν) (k : κ) (v w : ν) :
    (s.insert k v).insert k w = s.insert k w := by
  apply ext
  intro j
  by_cases hj : j = k <;> simp [hj]

theorem insert_comm (s : FinStore κ ν) {k j : κ} (v w : ν) (h : k ≠ j) :
    (s.insert k v).insert j w = (s.insert j w).insert k v := by
  apply ext
  intro i
  simp only [find_insert]
  by_cases hk : i = k <;> by_cases hj : i = j <;> simp_all

theorem merge_insert (top parent : FinStore κ ν) (k : κ) (v : ν) :
    merge (top.insert k v) parent = (merge top parent).insert k v := by
  apply ext
  intro j
  by_cases hj : j = k <;> simp [hj]

theorem merge_empty (parent : FinStore κ ν) : merge empty parent = parent := by
  apply ext
  intro k
  simp

theorem merge_merge_self (top parent : FinStore κ ν) :
    merge top (merge top parent) = merge top parent := by
  apply ext
  intro k
  simp only [find_merge]
  cases top.find k <;> simp

/-! ## Stores keyed by a function of their values -/

/-- Every value is stored under its own key `f v`. -/
def KeyedBy (s : FinStore κ ν) (f : ν → κ) : Prop := ∀ k v, s.find k = some v → f v = k

theorem KeyedBy.empty (f : ν → κ) : (empty : FinStore κ ν).KeyedBy f := by
  intro k v h
  simp at h

theorem KeyedBy.insert {s : FinStore κ ν} {f : ν → κ} (h : s.KeyedBy f) (a : ν) :
    (s.insert (f a) a).KeyedBy f := by
  intro k v hk
  rw [find_insert] at hk
  split_ifs at hk with hka
  · obtain rfl := Option.some.inj hk
    exact hka.symm
  · exact h k v hk

theorem KeyedBy.erase {s : FinStore κ ν} {f : ν → κ} (h : s.KeyedBy f) (k : κ) :
    (s.erase k).KeyedBy f := by
  intro j v hj
  rw [find_erase] at hj
  split_ifs at hj
  exact h j v hj

theorem KeyedBy.find_eq_some_iff {s : FinStore κ ν} {f : ν → κ} (h : s.KeyedBy f) {k : κ} {v : ν} :
    s.find k = some v ↔ s.find (f v) = some v ∧ f v = k := by
  constructor
  · intro hk
    obtain rfl := h k v hk
    exact ⟨hk, rfl⟩
  · rintro ⟨hv, rfl⟩
    exact hv

/-- Storing `a` under its own free key adds exactly `a` to the values stored under their keys. -/
theorem find_key_insert_iff (f : ν → κ) (s : FinStore κ ν) {a : ν} (ha : s.find (f a) = none)
    (b : ν) : (s.insert (f a) a).find (f b) = some b ↔ b = a ∨ s.find (f b) = some b := by
  by_cases hb : f b = f a
  · rw [hb, find_insert_self, ha]
    simp [eq_comm]
  · rw [find_insert_ne s a hb]
    constructor
    · exact Or.inr
    · rintro (rfl | h)
      · exact absurd rfl hb
      · exact h

/-- Erasing the key of a stored `a` removes exactly `a` from the values stored under their keys. -/
theorem find_key_erase_iff (f : ν → κ) (s : FinStore κ ν) {a : ν} (ha : s.find (f a) = some a)
    (b : ν) : (s.erase (f a)).find (f b) = some b ↔ s.find (f b) = some b ∧ b ≠ a := by
  by_cases hb : f b = f a
  · rw [hb, find_erase_self, ha]
    constructor
    · intro h
      cases h
    · rintro ⟨h, hne⟩
      exact absurd (Option.some.inj h).symm hne
  · rw [find_erase_ne s hb]
    constructor
    · intro h
      exact ⟨h, fun hba => hb (congrArg f hba)⟩
    · exact And.left

/-! ## Weighted totals -/

/-- The weight of an optional entry: absent entries weigh nothing. -/
def weightOf (w : ν → ℕ) (o : Option ν) : ℕ := (o.map w).getD 0

@[simp] theorem weightOf_none (w : ν → ℕ) : weightOf w none = 0 := rfl

@[simp] theorem weightOf_some (w : ν → ℕ) (v : ν) : weightOf w (some v) = w v := rfl

/-- The total weight of the values in a store. -/
def total (w : ν → ℕ) (s : FinStore κ ν) : ℕ := ∑ k ∈ s.keys, weightOf w (s.find k)

/-- One entry weighs at most the total. -/
theorem weightOf_le_total (w : ν → ℕ) (s : FinStore κ ν) (k : κ) :
    weightOf w (s.find k) ≤ total w s := by
  cases h : s.find k with
  | none => simp
  | some v =>
    have hk : k ∈ s.keys := (s.mem_keys k).mpr (by simp [h])
    have hle := Finset.single_le_sum_of_canonicallyOrdered
      (f := fun j => weightOf w (s.find j)) hk
    simpa [total, h] using hle

/-- Any finite superset of the domain computes the same total. -/
theorem total_eq_sum_of_subset (w : ν → ℕ) (s : FinStore κ ν) {S : Finset κ}
    (hS : s.keys ⊆ S) : total w s = ∑ k ∈ S, weightOf w (s.find k) := by
  apply Finset.sum_subset hS
  intro k _ hk
  have hnone : s.find k = none := by
    cases h : s.find k with
    | none => rfl
    | some v => exact absurd ((s.mem_keys k).mpr (by simp [h])) hk
  simp [hnone]

/-- Two lookups that agree off `k` sum, over any set containing `k`, to totals that differ by
    exactly their values at `k`. -/
theorem sum_add_point (f g : κ → ℕ) {S : Finset κ} {k : κ} (hk : k ∈ S)
    (hfg : ∀ j, j ≠ k → f j = g j) :
    ∑ j ∈ S, f j + g k = ∑ j ∈ S, g j + f k := by
  rw [← Finset.add_sum_erase S f hk, ← Finset.add_sum_erase S g hk]
  have hrest : ∑ j ∈ S.erase k, f j = ∑ j ∈ S.erase k, g j :=
    Finset.sum_congr rfl (fun j hj => hfg j (Finset.ne_of_mem_erase hj))
  rw [hrest]
  omega

/-- **The point-update law.** Writing `v` under `k` changes the total by the weight of `v`
    minus the weight of the entry it replaces. -/
theorem total_insert (w : ν → ℕ) (s : FinStore κ ν) (k : κ) (v : ν) :
    total w (s.insert k v) + weightOf w (s.find k) = total w s + w v := by
  have hsub : s.keys ⊆ Insert.insert k s.keys := Finset.subset_insert k s.keys
  rw [total_eq_sum_of_subset w s hsub]
  have hk : k ∈ Insert.insert k s.keys := Finset.mem_insert_self k s.keys
  have h := sum_add_point (fun j => weightOf w ((s.insert k v).find j))
    (fun j => weightOf w (s.find j)) hk (fun j hj => by simp [hj])
  simpa [total, insert] using h

/-- Erasing `k` takes the weight of its entry off the total. -/
theorem total_erase (w : ν → ℕ) (s : FinStore κ ν) (k : κ) :
    total w (s.erase k) + weightOf w (s.find k) = total w s := by
  have hsub : s.keys ⊆ Insert.insert k s.keys := Finset.subset_insert k s.keys
  have hsub' : (s.erase k).keys ⊆ Insert.insert k s.keys :=
    (Finset.erase_subset k s.keys).trans hsub
  rw [total_eq_sum_of_subset w s hsub, total_eq_sum_of_subset w (s.erase k) hsub']
  have hk : k ∈ Insert.insert k s.keys := Finset.mem_insert_self k s.keys
  have h := sum_add_point (fun j => weightOf w ((s.erase k).find j))
    (fun j => weightOf w (s.find j)) hk (fun j hj => by simp [hj])
  simpa using h

end FinStore

/-! ## Overlays -/

/-- A transactional two-level store: uncommitted writes live in `top`, over `parent`. -/
structure Overlay (κ ν : Type) [DecidableEq κ] where
  parent : FinStore κ ν
  top : FinStore κ ν

namespace Overlay

variable {κ ν : Type} [DecidableEq κ]

/-- What a reader sees: the top layer over the parent. -/
def view (o : Overlay κ ν) : FinStore κ ν := FinStore.merge o.top o.parent

/-- A read through the overlay. -/
def get (o : Overlay κ ν) (k : κ) : Option ν := o.view.find k

/-- A write goes to the top layer only. -/
def write (o : Overlay κ ν) (k : κ) (v : ν) : Overlay κ ν := { o with top := o.top.insert k v }

/-- Publish the merged view into the parent. The top layer is kept, as a later read would
    see the same values through it. -/
def commit (o : Overlay κ ν) : Overlay κ ν := { o with parent := o.view }

/-- Drop every uncommitted write. -/
def discard (o : Overlay κ ν) : Overlay κ ν := { o with top := FinStore.empty }

@[simp] theorem get_eq (o : Overlay κ ν) (k : κ) : o.get k = o.view.find k := rfl

@[simp] theorem view_write (o : Overlay κ ν) (k : κ) (v : ν) :
    (o.write k v).view = o.view.insert k v := FinStore.merge_insert o.top o.parent k v

@[simp] theorem parent_write (o : Overlay κ ν) (k : κ) (v : ν) : (o.write k v).parent = o.parent :=
  rfl

@[simp] theorem view_discard (o : Overlay κ ν) : o.discard.view = o.parent :=
  FinStore.merge_empty o.parent

@[simp] theorem parent_discard (o : Overlay κ ν) : o.discard.parent = o.parent := rfl

@[simp] theorem parent_commit (o : Overlay κ ν) : o.commit.parent = o.view := rfl

@[simp] theorem view_commit (o : Overlay κ ν) : o.commit.view = o.view :=
  FinStore.merge_merge_self o.top o.parent

end Overlay
