import Mathlib
import Zilliqa.Lib.Fold
import Zilliqa.Lib.FinStore

/-!
# `Data.TxnOrderVerifier` — the backup's check of the leader's transaction order

`VerifyTxnOrderWTolerance(expectedTxns, receivedTxns, tolerance)` (`TxnOrderVerifier.h`) is how a
shard backup judges the order in which its leader put transactions in a microblock
(`Node::VerifyTxnsOrdering`), against the order the backup computed itself. It indexes the received
order by hash (`m_tranHashMap`), then walks the expected order and greedily keeps the received index
of each expected hash that comes after the last index kept and lies within a window: the `k`-th
index kept must be below `k + tolerance% · |received|`. The orders agree when at least
`⌈(100 - tolerance)% · |expected|⌉` indexes are kept.

The source computes the window and the bound in `float` and `double` (`ONE_HUNDRED_PERCENT` is
`100.f`); the model computes them exactly, as `100 · index < tolerance · |received| + 100 · k` and a
ceiling division. The two agree while `tolerance · |received| / 100 + k` stays below `2^16` and
`(100 - tolerance) · |expected|` below `2^24`, far beyond the size of a microblock. A tolerance
above 100 makes the source convert a negative `double` to `unsigned`, which is undefined; the
model's truncated subtraction gives the bound 0 there.

## Contents
- `tranHashMap`, `matchStep`, `matchedIndexes`, `minOrderedTxnNum` and `verifyTxnOrderWTolerance`,
  statement by statement as in the source.
- `find_tranHashMap`: the map gives each hash its first index in the received order.
- `Kept`, what the kept indexes say after the loop has walked a prefix of the expected order, kept
  by each step (`Kept.matchStep`) and so by the whole loop (`kept_matchedIndexes`).
- `verifyTxnOrderWTolerance_sound`: two accepted orders share a subsequence of at least the bound,
  whose `k`-th element sits in the received order within the window.
- `verifyTxnOrderWTolerance_self_and_zero`: a duplicate-free order is accepted against itself
  exactly when it is empty or the tolerance is positive, and a tolerance of 0 accepts no pair of
  orders but two empty ones.
-/

/-- Strictly increasing positions of a list name a subsequence of it. -/
theorem filterMap_getElem?_sublist {α : Type} {l : List α} {is : List ℕ}
    (hinc : is.Pairwise (· < ·)) (hlt : ∀ i ∈ is, i < l.length) :
    (is.filterMap (l[·]?)).Sublist l := by
  have hmap : ∀ {js : List ℕ} (hjs : ∀ i ∈ js, i < l.length),
      (js.pmap Fin.mk hjs).map (l[·]) = js.filterMap (l[·]?) := by
    intro js hjs
    induction js with
    | nil => rfl
    | cons j js ih =>
      have hj : j < l.length := hjs j List.mem_cons_self
      rw [List.pmap, List.map_cons, List.filterMap_cons, List.getElem?_eq_getElem hj, ih]
      rfl
  rw [← hmap hlt]
  exact List.map_getElem_sublist (List.Pairwise.pmap hinc hlt fun _ _ _ _ h => h)

/-- In a strictly increasing list, every element is below a bound the last element is below. -/
theorem lt_of_getLast?_all {is : List ℕ} {i : ℕ} (hinc : is.Pairwise (· < ·))
    (hlast : is.getLast?.all (· < i) = true) : ∀ j ∈ is, j < i := by
  induction is using List.reverseRecOn with
  | nil => simp
  | append_singleton is b _ =>
    rw [List.getLast?_concat, Option.all_some, decide_eq_true_iff] at hlast
    rw [List.pairwise_append] at hinc
    intro j hj
    rcases List.mem_append.1 hj with hj | hj
    · exact (hinc.2.2 j hj b List.mem_cons_self).trans hlast
    · rw [List.mem_singleton.1 hj]
      exact hlast

namespace Zilliqa

namespace TxnOrderVerifier

variable {α : Type} [DecidableEq α]

/-! ## The model -/

/-- The loop that fills `m_tranHashMap` from index `i` on: `insert({receivedTxns.at(i), i})`
    leaves an entry already there, so a repeated hash keeps its first index. -/
def insertIndexes (hashMap : FinStore α ℕ) (i : ℕ) : List α → FinStore α ℕ
  | [] => hashMap
  | th :: rest =>
    insertIndexes (if (hashMap.find th).isSome then hashMap else hashMap.insert th i) (i + 1) rest

/-- `m_tranHashMap`: each received hash with its index. -/
def tranHashMap (receivedTxns : List α) : FinStore α ℕ :=
  insertIndexes FinStore.empty 0 receivedTxns

/-- One expected hash `th` of the loop: its received index `t->second` is kept when it comes after
    the last index kept (`matchedIndexes.back()`) and is below the window
    `tolerance · |received| / 100 + matchedIndexes.size()`. -/
def matchStep (hashMap : FinStore α ℕ) (toleranceInPercent receivedSize : ℕ)
    (matchedIndexes : List ℕ) (th : α) : List ℕ :=
  match hashMap.find th with
  | none => matchedIndexes
  | some i =>
    if matchedIndexes.getLast?.all (· < i) &&
        decide (100 * i < toleranceInPercent * receivedSize + 100 * matchedIndexes.length) then
      matchedIndexes ++ [i]
    else matchedIndexes

/-- `matchedIndexes` after the loop over `expectedTxns`. -/
def matchedIndexes (expectedTxns receivedTxns : List α) (toleranceInPercent : ℕ) : List ℕ :=
  expectedTxns.foldl (matchStep (tranHashMap receivedTxns) toleranceInPercent receivedTxns.length)
    []

/-- `min_ordered_txn_num`: `⌈(100 - tolerance) · |expected| / 100⌉`. -/
def minOrderedTxnNum (toleranceInPercent expectedSize : ℕ) : ℕ :=
  ((100 - toleranceInPercent) * expectedSize + 99) / 100

/-- **`VerifyTxnOrderWTolerance`**: two empty orders agree, an empty expected order agrees with no
    other, and otherwise enough indexes must be kept. -/
def verifyTxnOrderWTolerance (expectedTxns receivedTxns : List α) (toleranceInPercent : ℕ) :
    Bool :=
  if expectedTxns.isEmpty && receivedTxns.isEmpty then true
  else if expectedTxns.isEmpty then false
  else
    decide (minOrderedTxnNum toleranceInPercent expectedTxns.length ≤
      (matchedIndexes expectedTxns receivedTxns toleranceInPercent).length)

/-! ## The hash map -/

theorem find_insertIndexes (hashMap : FinStore α ℕ) (i : ℕ) (receivedTxns : List α) (th : α) :
    (insertIndexes hashMap i receivedTxns).find th =
      (hashMap.find th).or ((receivedTxns.idxOf? th).map (· + i)) := by
  induction receivedTxns generalizing hashMap i with
  | nil => simp [insertIndexes]
  | cons a rest ih =>
    rw [insertIndexes, ih, List.idxOf?_cons]
    by_cases hth : a = th
    · -- the hash inserted here: an entry already there stays, else it gets index `i`
      subst hth
      cases hfind : hashMap.find a with
      | none => simp
      | some j => simp [hfind]
    · -- another hash: its insertion leaves the entry of `th`, whose received index shifts by one
      have hne : th ≠ a := Ne.symm hth
      by_cases hsome : (hashMap.find a).isSome
      · simp [hsome, hth, Option.map_map, Function.comp_def, Nat.add_assoc, Nat.add_comm 1 i]
      · simp [hsome, hth, hne, Option.map_map, Function.comp_def, Nat.add_assoc, Nat.add_comm 1 i]

/-- The map gives each hash its first index in the received order. -/
theorem find_tranHashMap (receivedTxns : List α) (th : α) :
    (tranHashMap receivedTxns).find th = receivedTxns.idxOf? th := by
  rw [tranHashMap, find_insertIndexes]
  simp

/-- A step keeps the received index of `th` when it comes after the last index kept and lies in
    the window. -/
theorem matchStep_of_keep {hashMap : FinStore α ℕ} {toleranceInPercent receivedSize : ℕ}
    {acc : List ℕ} {th : α} {i : ℕ} (hfind : hashMap.find th = some i)
    (hlast : acc.getLast?.all (· < i) = true)
    (hwin : 100 * i < toleranceInPercent * receivedSize + 100 * acc.length) :
    matchStep hashMap toleranceInPercent receivedSize acc th = acc ++ [i] := by
  rw [matchStep, hfind]
  dsimp only
  rw [if_pos]
  rw [hlast, Bool.true_and, decide_eq_true_iff]
  exact hwin

/-- What a step can do: keep nothing, or keep the received index of `th` when it comes after the
    last index kept and lies in the window. -/
theorem matchStep_cases (hashMap : FinStore α ℕ) (toleranceInPercent receivedSize : ℕ)
    (acc : List ℕ) (th : α) :
    matchStep hashMap toleranceInPercent receivedSize acc th = acc ∨
      ∃ i, hashMap.find th = some i ∧ acc.getLast?.all (· < i) = true ∧
        100 * i < toleranceInPercent * receivedSize + 100 * acc.length ∧
        matchStep hashMap toleranceInPercent receivedSize acc th = acc ++ [i] := by
  cases hfind : hashMap.find th with
  | none =>
    left
    rw [matchStep, hfind]
  | some i =>
    by_cases hkeep : acc.getLast?.all (· < i) = true ∧
        100 * i < toleranceInPercent * receivedSize + 100 * acc.length
    · exact Or.inr ⟨i, rfl, hkeep.1, hkeep.2, matchStep_of_keep hfind hkeep.1 hkeep.2⟩
    · left
      rw [matchStep, hfind]
      dsimp only
      rw [if_neg]
      simpa [Bool.and_eq_true, decide_eq_true_iff] using hkeep

/-! ## Soundness -/

section Soundness

variable (receivedTxns : List α) (toleranceInPercent : ℕ)

/-- What the kept indexes say once the loop has walked `done`: they increase, point into the
    received order, name a subsequence of `done`, and the `k`-th lies within the window. -/
structure Kept (done : List α) (acc : List ℕ) : Prop where
  increasing : acc.Pairwise (· < ·)
  lt_length : ∀ i ∈ acc, i < receivedTxns.length
  sublist : (acc.filterMap (receivedTxns[·]?)).Sublist done
  window : ∀ k (hk : k < acc.length),
    100 * acc[k] < toleranceInPercent * receivedTxns.length + 100 * k

variable {receivedTxns toleranceInPercent}

omit [DecidableEq α] in
theorem kept_nil : Kept receivedTxns toleranceInPercent [] [] :=
  ⟨List.Pairwise.nil, by simp, List.Sublist.slnil, by simp⟩

/-- **The step lemma**: one more expected hash keeps `Kept`, whether its index is kept or not. -/
theorem Kept.matchStep {done : List α} {acc : List ℕ}
    (h : Kept receivedTxns toleranceInPercent done acc) (th : α) :
    Kept receivedTxns toleranceInPercent (done ++ [th])
      (TxnOrderVerifier.matchStep (tranHashMap receivedTxns) toleranceInPercent
        receivedTxns.length acc th) := by
  rcases matchStep_cases (tranHashMap receivedTxns) toleranceInPercent receivedTxns.length acc th
    with hstep | ⟨i, hfind, hlast, hwin, hstep⟩
  · rw [hstep]
    exact ⟨h.increasing, h.lt_length, h.sublist.trans (List.sublist_append_left done [th]),
      h.window⟩
  · rw [hstep]
    -- the kept index is where `th` first occurs in the received order
    rw [find_tranHashMap, List.idxOf?_eq_some_iff] at hfind
    obtain ⟨hi, hth, -⟩ := hfind
    have hbelow : ∀ j ∈ acc, j < i := lt_of_getLast?_all h.increasing hlast
    refine ⟨?_, ?_, ?_, ?_⟩
    · rw [List.pairwise_append]
      refine ⟨h.increasing, List.pairwise_singleton _ _, ?_⟩
      intro j hj b hb
      rw [List.mem_singleton.1 hb]
      exact hbelow j hj
    · intro j hj
      rcases List.mem_append.1 hj with hj | hj
      · exact h.lt_length j hj
      · rw [List.mem_singleton.1 hj]
        exact hi
    · rw [List.filterMap_append]
      have hone : [i].filterMap (receivedTxns[·]?) = [th] := by
        simp [List.getElem?_eq_getElem hi, hth]
      rw [hone]
      exact h.sublist.append (List.Sublist.refl [th])
    · intro k hk
      rw [List.length_append, List.length_singleton] at hk
      by_cases hlt : k < acc.length
      · rw [List.getElem_append_left hlt]
        exact h.window k hlt
      · have hk' : k = acc.length := by omega
        rw [List.getElem_concat_length hk', hk']
        exact hwin

/-- **The run lemma**: the loop over the whole expected order ends with `Kept`. Snoc induction on
    the expected order, one `Kept.matchStep` per hash. -/
theorem kept_matchedIndexes (expectedTxns : List α) :
    Kept receivedTxns toleranceInPercent expectedTxns
      (matchedIndexes expectedTxns receivedTxns toleranceInPercent) := by
  induction expectedTxns using List.reverseRecOn with
  | nil => exact kept_nil
  | append_singleton done th ih =>
    rw [matchedIndexes, List.foldl_concat]
    exact ih.matchStep th

end Soundness

/-- **An accepted order is close to the expected one.** When `VerifyTxnOrderWTolerance` accepts,
    there are increasing positions in the received order whose hashes, in that order, are a
    subsequence of the expected order and so of both orders; there are at least
    `⌈(100 - tolerance)% · |expected|⌉` of them, and the `k`-th is below
    `k + tolerance% · |received|`. -/
theorem verifyTxnOrderWTolerance_sound {expectedTxns receivedTxns : List α}
    {toleranceInPercent : ℕ}
    (h : verifyTxnOrderWTolerance expectedTxns receivedTxns toleranceInPercent = true) :
    ∃ positions : List ℕ, positions.Pairwise (· < ·) ∧
      (∀ i ∈ positions, i < receivedTxns.length) ∧
      (positions.filterMap (receivedTxns[·]?)).Sublist expectedTxns ∧
      (positions.filterMap (receivedTxns[·]?)).Sublist receivedTxns ∧
      minOrderedTxnNum toleranceInPercent expectedTxns.length ≤ positions.length ∧
      ∀ k (hk : k < positions.length),
        100 * positions[k] < toleranceInPercent * receivedTxns.length + 100 * k := by
  by_cases hnil : expectedTxns = []
  · -- two empty orders: no positions are needed
    subst hnil
    refine ⟨[], List.Pairwise.nil, by simp, List.Sublist.slnil, List.nil_sublist _, ?_, by simp⟩
    simp [minOrderedTxnNum]
  · have hkept : Kept receivedTxns toleranceInPercent expectedTxns
        (matchedIndexes expectedTxns receivedTxns toleranceInPercent) :=
      kept_matchedIndexes expectedTxns
    have hbound : minOrderedTxnNum toleranceInPercent expectedTxns.length ≤
        (matchedIndexes expectedTxns receivedTxns toleranceInPercent).length := by
      have hne : expectedTxns.isEmpty = false := List.isEmpty_eq_false_iff.2 hnil
      simpa [verifyTxnOrderWTolerance, hne] using h
    exact ⟨_, hkept.increasing, hkept.lt_length, hkept.sublist,
      filterMap_getElem?_sublist hkept.increasing hkept.lt_length, hbound, hkept.window⟩

/-- An accepted pair of orders: `[1, 2, 3, 4]` expected and `[2, 1, 3, 4]` received, with a
    tolerance of 50%. -/
theorem verifyTxnOrderWTolerance_sound_swapped :
    verifyTxnOrderWTolerance [1, 2, 3, 4] [2, 1, 3, 4] 50 = true ∧
      ∃ positions : List ℕ, positions.Pairwise (· < ·) ∧
        (∀ i ∈ positions, i < [2, 1, 3, 4].length) ∧
        (positions.filterMap ([2, 1, 3, 4][·]?)).Sublist [1, 2, 3, 4] ∧
        (positions.filterMap ([2, 1, 3, 4][·]?)).Sublist [2, 1, 3, 4] ∧
        minOrderedTxnNum 50 [1, 2, 3, 4].length ≤ positions.length ∧
        ∀ k (hk : k < positions.length),
          100 * positions[k] < 50 * [2, 1, 3, 4].length + 100 * k :=
  ⟨by decide, verifyTxnOrderWTolerance_sound (by decide)⟩

/-! ## The edge cases -/

/-- With a tolerance of 0 the window is empty: no index is ever kept. -/
theorem matchedIndexes_zero (expectedTxns receivedTxns : List α) :
    matchedIndexes expectedTxns receivedTxns 0 = [] := by
  have hstep : ∀ (acc : List ℕ) (th : α), acc = [] → True →
      TxnOrderVerifier.matchStep (tranHashMap receivedTxns) 0 receivedTxns.length acc th = [] := by
    intro acc th hacc _
    subst hacc
    rcases matchStep_cases (tranHashMap receivedTxns) 0 receivedTxns.length [] th
      with hkeep | ⟨i, -, -, hwin, -⟩
    · exact hkeep
    · simp at hwin
  exact @Fold.foldl_inv _ _ _ (fun _ _ => True) (fun acc => acc = []) hstep expectedTxns []
    rfl (Fold.along_of_forall (fun _ _ => trivial) expectedTxns [])

/-- Against itself, a duplicate-free order with a positive tolerance keeps every index, in order:
    the `k`-th expected hash is the `k`-th received one, and the window has room. -/
theorem foldl_take_self {xs : List α} (hxs : xs.Nodup) {toleranceInPercent : ℕ}
    (htol : 0 < toleranceInPercent) :
    ∀ k ≤ xs.length, (xs.take k).foldl
      (TxnOrderVerifier.matchStep (tranHashMap xs) toleranceInPercent xs.length) [] =
        List.range k := by
  intro k
  induction k with
  | zero => intro _; rfl
  | succ k ih =>
    intro hk
    have hkl : k < xs.length := hk
    rw [List.take_add_one, List.getElem?_eq_getElem hkl, Option.toList_some, List.foldl_concat,
      ih hkl.le, List.range_succ]
    -- `xs[k]` first occurs at `k`, after `k - 1`, and `100 k < tol · |xs| + 100 k`
    have hfind : (tranHashMap xs).find xs[k] = some k := by
      rw [find_tranHashMap, List.idxOf?_eq_some_iff]
      refine ⟨hkl, rfl, fun j hj heq => ?_⟩
      have := (List.Nodup.getElem_inj_iff hxs).1 heq
      omega
    have hlast : (List.range k).getLast?.all (· < k) = true := by
      rw [List.getLast?_range]
      split_ifs
      · rfl
      · simp only [Option.all_some, decide_eq_true_iff]
        omega
    have hwin : 100 * k < toleranceInPercent * xs.length + 100 * (List.range k).length := by
      rw [List.length_range]
      have : 0 < toleranceInPercent * xs.length := Nat.mul_pos htol (by omega)
      omega
    exact matchStep_of_keep hfind hlast hwin

/-- The bound never exceeds the number of expected hashes. -/
theorem minOrderedTxnNum_le (toleranceInPercent n : ℕ) : minOrderedTxnNum toleranceInPercent n ≤ n := by
  unfold minOrderedTxnNum
  have hle : (100 - toleranceInPercent) * n ≤ 100 * n := Nat.mul_le_mul_right n (Nat.sub_le _ _)
  apply Nat.le_of_lt_succ
  rw [Nat.div_lt_iff_lt_mul (by norm_num)]
  omega

/-- **The verifier at its edges.** A duplicate-free order is accepted against itself exactly when
    it is empty or the tolerance is positive; with a tolerance of 0 the window is empty, and no pair
    of orders is accepted but two empty ones. -/
theorem verifyTxnOrderWTolerance_self_and_zero {xs : List α} (hxs : xs.Nodup)
    (toleranceInPercent : ℕ) :
    (verifyTxnOrderWTolerance xs xs toleranceInPercent = true ↔ xs = [] ∨ 0 < toleranceInPercent) ∧
      ∀ expectedTxns receivedTxns : List α,
        (verifyTxnOrderWTolerance expectedTxns receivedTxns 0 = true ↔
          expectedTxns = [] ∧ receivedTxns = []) := by
  -- with tolerance 0 a non-empty expected order needs all its hashes kept, and none is
  have hzero : ∀ expectedTxns receivedTxns : List α,
      (verifyTxnOrderWTolerance expectedTxns receivedTxns 0 = true ↔
        expectedTxns = [] ∧ receivedTxns = []) := by
    intro expectedTxns receivedTxns
    by_cases he : expectedTxns = []
    · subst he
      cases receivedTxns <;> simp [verifyTxnOrderWTolerance]
    · have hne : expectedTxns.isEmpty = false := List.isEmpty_eq_false_iff.2 he
      have hmin : minOrderedTxnNum 0 expectedTxns.length = expectedTxns.length := by
        unfold minOrderedTxnNum
        omega
      simp [verifyTxnOrderWTolerance, hne, he, matchedIndexes_zero, hmin]
  refine ⟨?_, hzero⟩
  by_cases hx : xs = []
  · subst hx
    simp [verifyTxnOrderWTolerance]
  · rcases Nat.eq_zero_or_pos toleranceInPercent with htol | htol
    · subst htol
      simp [hzero, hx]
    · have hall : matchedIndexes xs xs toleranceInPercent = List.range xs.length := by
        have := foldl_take_self hxs htol xs.length le_rfl
        rwa [List.take_length] at this
      have hne : xs.isEmpty = false := List.isEmpty_eq_false_iff.2 hx
      simp [verifyTxnOrderWTolerance, hne, hall, minOrderedTxnNum_le, htol]

/-- A duplicate-free order of three hashes against itself, with a tolerance of 5%. -/
theorem verifyTxnOrderWTolerance_self_and_zero_three :
    [1, 2, 3].Nodup ∧
      ((verifyTxnOrderWTolerance [1, 2, 3] [1, 2, 3] 5 = true ↔ [1, 2, 3] = [] ∨ 0 < 5) ∧
        ∀ expectedTxns receivedTxns : List ℕ,
          (verifyTxnOrderWTolerance expectedTxns receivedTxns 0 = true ↔
            expectedTxns = [] ∧ receivedTxns = [])) :=
  ⟨by decide, verifyTxnOrderWTolerance_self_and_zero (by decide) 5⟩

end TxnOrderVerifier

end Zilliqa
