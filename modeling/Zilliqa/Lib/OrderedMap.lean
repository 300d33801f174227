import Mathlib

/-!
# `Lib.OrderedMap` — ordered maps as sorted lists of entries

A `std::map` is walked in increasing order of keys, and code that walks one depends on that order.
`OrderedMap κ ν` keeps the entries in that order as a list whose keys strictly increase, a field of
the structure, so walking the map is walking the list and a concrete map evaluates by computation.
`m[k]` followed by an update of the value it answers is `alter`; erasing the entries a predicate
rejects is `filter`.

## Contents
- `OrderedMap` with `empty`, `find`, `alter` and `filter`; `alterList` inserts a missing key at its
  place, and `alterList_sorted` shows that the keys stay sorted.
- `total w m`, the sum of a weight over the entries, with the point-update law `total_alter` (an
  update changes the total by the new weight minus the weight it replaces) and `total_filter_le`.

Nothing here names the node whose rewardee map instantiates it.
-/

/-- A `std::map`: its entries, in strictly increasing order of keys. -/
structure OrderedMap (κ ν : Type) [LinearOrder κ] where
  entries : List (κ × ν)
  sorted : entries.Pairwise fun a b => a.1 < b.1

namespace OrderedMap

variable {κ ν : Type} [LinearOrder κ]

/-- The empty map. -/
def empty : OrderedMap κ ν := ⟨[], List.Pairwise.nil⟩

/-- The value stored under `k`. -/
def find (m : OrderedMap κ ν) (k : κ) : Option ν := m.entries.lookup k

/-- Replace the value under `k` by `f` of it, where `f` sees `none` for a missing key, which is then
    inserted at its place. -/
def alterList (k : κ) (f : Option ν → ν) : List (κ × ν) → List (κ × ν)
  | [] => [(k, f none)]
  | (j, v) :: rest =>
    if k < j then (k, f none) :: (j, v) :: rest
    else if k = j then (j, f (some v)) :: rest
    else (j, v) :: alterList k f rest

theorem mem_alterList (k : κ) (f : Option ν → ν) {a : κ × ν} :
    ∀ (l : List (κ × ν)), a ∈ alterList k f l → a.1 = k ∨ a ∈ l
  | [], h => by
    rw [alterList, List.mem_singleton] at h
    exact .inl (by rw [h])
  | (j, v) :: rest, h => by
    rw [alterList] at h
    split_ifs at h with hlt heq
    · rcases List.mem_cons.1 h with h | h
      · exact .inl (by rw [h])
      · exact .inr h
    · rcases List.mem_cons.1 h with h | h
      · exact .inl (by rw [h, heq])
      · exact .inr (List.mem_cons_of_mem _ h)
    · rcases List.mem_cons.1 h with h | h
      · exact .inr (by rw [h]; exact List.mem_cons_self)
      · rcases mem_alterList k f rest h with h' | h'
        · exact .inl h'
        · exact .inr (List.mem_cons_of_mem _ h')

theorem alterList_sorted (k : κ) (f : Option ν → ν) :
    ∀ {l : List (κ × ν)}, l.Pairwise (fun a b => a.1 < b.1) →
      (alterList k f l).Pairwise (fun a b => a.1 < b.1)
  | [], _ => List.pairwise_singleton _ _
  | (j, v) :: rest, h => by
    obtain ⟨hj, hrest⟩ := List.pairwise_cons.1 h
    rw [alterList]
    split_ifs with hlt heq
    · -- `k` goes in front of `j`, hence of every later key
      refine List.Pairwise.cons (fun b hb => ?_) h
      rcases List.mem_cons.1 hb with hb | hb
      · rw [hb]
        exact hlt
      · exact lt_trans hlt (hj b hb)
    · exact List.Pairwise.cons hj hrest
    · refine List.Pairwise.cons (fun b hb => ?_) (alterList_sorted k f hrest)
      rcases mem_alterList k f rest hb with hb | hb
      · rw [hb]
        exact lt_of_le_of_ne (not_lt.1 hlt) (Ne.symm heq)
      · exact hj b hb

/-- `m[k]` followed by an update of the value: `f` of the value under `k`, or of `none`. -/
def alter (m : OrderedMap κ ν) (k : κ) (f : Option ν → ν) : OrderedMap κ ν :=
  ⟨alterList k f m.entries, alterList_sorted k f m.sorted⟩

/-- The entries whose key `p` accepts, the others erased. -/
def filter (m : OrderedMap κ ν) (p : κ → Bool) : OrderedMap κ ν :=
  ⟨m.entries.filter fun e => p e.1, m.sorted.sublist List.filter_sublist⟩

/-! ## Totals -/

/-- The sum of a weight over the entries. -/
def total (w : κ → ν → ℕ) (m : OrderedMap κ ν) : ℕ := (m.entries.map fun e => w e.1 e.2).sum

@[simp] theorem total_empty (w : κ → ν → ℕ) : total w (empty : OrderedMap κ ν) = 0 := rfl

theorem lookup_cons_of_ne {k j : κ} (v : ν) (rest : List (κ × ν)) (h : k ≠ j) :
    ((j, v) :: rest).lookup k = rest.lookup k := by
  have hkj : (k == j) = false := beq_eq_false_iff_ne.2 h
  simp only [List.lookup, hkj]

/-- A key below every key of a list is not in it. -/
theorem lookup_eq_none_of_lt {k : κ} :
    ∀ {l : List (κ × ν)}, (∀ b ∈ l, k < b.1) → l.lookup k = none
  | [], _ => rfl
  | (j, v) :: rest, h => by
    have hne : k ≠ j := ne_of_lt (h (j, v) List.mem_cons_self)
    have hrest : rest.lookup k = none :=
      lookup_eq_none_of_lt fun b hb => h b (List.mem_cons_of_mem _ hb)
    rw [lookup_cons_of_ne v rest hne, hrest]

theorem sum_alterList (w : κ → ν → ℕ) (k : κ) (f : Option ν → ν) :
    ∀ {l : List (κ × ν)}, l.Pairwise (fun a b => a.1 < b.1) →
      ((alterList k f l).map fun e => w e.1 e.2).sum + ((l.lookup k).map (w k)).getD 0 =
        (l.map fun e => w e.1 e.2).sum + w k (f (l.lookup k))
  | [], _ => by simp [alterList]
  | (j, v) :: rest, h => by
    obtain ⟨hj, hrest⟩ := List.pairwise_cons.1 h
    rw [alterList]
    split_ifs with hlt heq
    · -- `k` is below every key: it was missing
      have hnone : ((j, v) :: rest).lookup k = none := by
        refine lookup_eq_none_of_lt fun b hb => ?_
        rcases List.mem_cons.1 hb with hb | hb
        · rw [hb]
          exact hlt
        · exact lt_trans hlt (hj b hb)
      rw [hnone]
      simp only [List.map_cons, List.sum_cons, Option.map_none, Option.getD_none]
      omega
    · subst heq
      simp only [List.map_cons, List.sum_cons, List.lookup, beq_self_eq_true, Option.map_some,
        Option.getD_some]
      omega
    · have ih := sum_alterList w k f hrest
      rw [lookup_cons_of_ne v rest heq]
      simp only [List.map_cons, List.sum_cons]
      omega

/-- **The point-update law**: an update at `k` adds the new weight and drops the one it replaces. -/
theorem total_alter (w : κ → ν → ℕ) (m : OrderedMap κ ν) (k : κ) (f : Option ν → ν) :
    total w (m.alter k f) + ((m.find k).map (w k)).getD 0 = total w m + w k (f (m.find k)) :=
  sum_alterList w k f m.sorted

/-- Erasing entries never raises the total. -/
theorem total_filter_le (w : κ → ν → ℕ) (m : OrderedMap κ ν) (p : κ → Bool) :
    total w (m.filter p) ≤ total w m :=
  (List.filter_sublist.map _).sum_le_sum fun _ _ => Nat.zero_le _

end OrderedMap
