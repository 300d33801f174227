import Mathlib.Data.Set.Function
import Zilliqa.Lib.FinStore

/-!
# `Lib.KeepBest` — a slot store that keeps the best offer of each key

Elements are offered one at a time to a `FinStore κ α`, each to the slot of its `key`. An offer is
stored when its slot is empty or holds an element of lower `rank`, and dropped otherwise. When the
rank tells the offered elements apart, the store after a list of offers holds in each slot the
element of highest rank among those offered for it (`find_offerAll_iff`), so the order of the offers
does not matter (`offerAll_perm`).

The argument is a snoc induction: offering one more element changes only its own slot, and there the
three cases of `offer` (empty slot, better offer, worse offer) each match one case of `IsBest`.

Nothing here mentions transactions; the mempool instantiates it with the (sender, nonce) slot and
the (gas price, `TranID`) rank.
-/

namespace FinStore

variable {κ α β : Type} [DecidableEq κ] [LinearOrder β] (key : α → κ) (rank : α → β)

/-- Offer `a` to its slot: it is stored when the slot is empty or holds an element of lower rank. -/
def offer (s : FinStore κ α) (a : α) : FinStore κ α :=
  match s.find (key a) with
  | none => s.insert (key a) a
  | some b => if rank b < rank a then s.insert (key a) a else s

/-- The store after offering the elements of `l` in order. -/
def offerAll (s : FinStore κ α) (l : List α) : FinStore κ α := l.foldl (offer key rank) s

/-- `a` has the highest rank among the elements of `l` with key `c`. -/
def IsBest (l : List α) (c : κ) (a : α) : Prop :=
  a ∈ l ∧ key a = c ∧ ∀ b ∈ l, key b = c → rank b ≤ rank a

variable {key rank}

/-! ## One offer -/

theorem offer_of_find_none {s : FinStore κ α} {a : α} (h : s.find (key a) = none) :
    offer key rank s a = s.insert (key a) a := by
  simp [offer, h]

theorem offer_of_lt {s : FinStore κ α} {a b : α} (h : s.find (key a) = some b)
    (hlt : rank b < rank a) : offer key rank s a = s.insert (key a) a := by
  simp [offer, h, hlt]

theorem offer_of_not_lt {s : FinStore κ α} {a b : α} (h : s.find (key a) = some b)
    (hlt : ¬ rank b < rank a) : offer key rank s a = s := by
  simp [offer, h, hlt]

/-- An offer touches no other slot. -/
theorem find_offer_ne (s : FinStore κ α) {a : α} {c : κ} (hc : c ≠ key a) :
    (offer key rank s a).find c = s.find c := by
  unfold offer
  split
  · exact find_insert_ne s a hc
  · split_ifs
    · exact find_insert_ne s a hc
    · rfl

/-- An offer fills its own slot and empties none. -/
theorem find_offer_eq_none_iff (s : FinStore κ α) (a : α) (c : κ) :
    (offer key rank s a).find c = none ↔ s.find c = none ∧ key a ≠ c := by
  by_cases hc : c = key a
  · subst hc
    cases hs : s.find (key a) with
    | none => simp [offer_of_find_none hs]
    | some b =>
      by_cases hlt : rank b < rank a
      · simp [offer_of_lt hs hlt]
      · simp [offer_of_not_lt hs hlt, hs]
  · rw [find_offer_ne s hc]
    simp [Ne.symm hc]

theorem offerAll_append_singleton (s : FinStore κ α) (l : List α) (a : α) :
    offerAll key rank s (l ++ [a]) = offer key rank (offerAll key rank s l) a := by
  simp [offerAll]

/-! ## The best element of a slot -/

omit [DecidableEq κ] in
theorem isBest_append_of_key_ne {l : List α} {a x : α} {c : κ} (hc : key a ≠ c) :
    IsBest key rank (l ++ [a]) c x ↔ IsBest key rank l c x := by
  have hmem : ∀ y, key y = c → (y ∈ l ++ [a] ↔ y ∈ l) := by
    intro y hy
    simp only [List.mem_append, List.mem_singleton, or_iff_left_iff_imp]
    rintro rfl
    exact absurd hy hc
  constructor
  · rintro ⟨hx, hkx, hmax⟩
    exact ⟨(hmem x hkx).1 hx, hkx, fun y hy hky => hmax y (List.mem_append_left _ hy) hky⟩
  · rintro ⟨hx, hkx, hmax⟩
    exact ⟨List.mem_append_left _ hx, hkx, fun y hy hky => hmax y ((hmem y hky).1 hy) hky⟩

omit [DecidableEq κ] in
/-- The first offer for a slot is its best. -/
theorem isBest_append_of_none {l : List α} {a x : α} (hno : ∀ b ∈ l, key b ≠ key a) :
    IsBest key rank (l ++ [a]) (key a) x ↔ x = a := by
  constructor
  · rintro ⟨hx, hkx, -⟩
    rcases List.mem_append.1 hx with hx | hx
    · exact absurd hkx (hno x hx)
    · exact List.mem_singleton.1 hx
  · rintro rfl
    refine ⟨by simp, rfl, fun b hb hkb => ?_⟩
    rcases List.mem_append.1 hb with hb | hb
    · exact absurd hkb (hno b hb)
    · rw [List.mem_singleton.1 hb]

omit [DecidableEq κ] in
/-- An offer above the slot's best becomes the best. -/
theorem isBest_append_of_lt {l : List α} {a b x : α} (hb : IsBest key rank l (key a) b)
    (hlt : rank b < rank a) : IsBest key rank (l ++ [a]) (key a) x ↔ x = a := by
  constructor
  · rintro ⟨hx, hkx, hmax⟩
    rcases List.mem_append.1 hx with hx | hx
    · -- an earlier element ranks at most `b`, below `a`, so it is not the best
      have hax : rank a ≤ rank x := hmax a (by simp) rfl
      have hxb : rank x ≤ rank b := hb.2.2 x hx hkx
      exact absurd (hlt.trans_le (hax.trans hxb)) (lt_irrefl _)
    · exact List.mem_singleton.1 hx
  · rintro rfl
    refine ⟨by simp, rfl, fun y hy hky => ?_⟩
    rcases List.mem_append.1 hy with hy | hy
    · exact (hb.2.2 y hy hky).trans hlt.le
    · rw [List.mem_singleton.1 hy]

omit [DecidableEq κ] in
/-- An offer not above the slot's best leaves the best in place, once ranks are distinct. -/
theorem isBest_append_of_not_lt {l : List α} {a b x : α}
    (hinj : Set.InjOn rank {y | y ∈ l ++ [a]}) (hb : IsBest key rank l (key a) b)
    (hlt : ¬ rank b < rank a) : IsBest key rank (l ++ [a]) (key a) x ↔ x = b := by
  have hab : rank a ≤ rank b := not_lt.1 hlt
  constructor
  · rintro ⟨hx, hkx, hmax⟩
    have hbx : rank b ≤ rank x := hmax b (List.mem_append_left _ hb.1) hb.2.1
    have hxb : rank x ≤ rank b := by
      rcases List.mem_append.1 hx with hx | hx
      · exact hb.2.2 x hx hkx
      · rw [List.mem_singleton.1 hx]
        exact hab
    exact hinj hx (List.mem_append_left _ hb.1) (le_antisymm hxb hbx)
  · rintro rfl
    refine ⟨List.mem_append_left _ hb.1, hb.2.1, fun y hy hky => ?_⟩
    rcases List.mem_append.1 hy with hy | hy
    · exact hb.2.2 y hy hky
    · rw [List.mem_singleton.1 hy]
      exact hab

/-! ## Whole runs of offers -/

/-- A slot is empty after a run exactly when nothing was offered to it. -/
theorem find_offerAll_eq_none_iff (l : List α) (c : κ) :
    (offerAll key rank empty l).find c = none ↔ ∀ a ∈ l, key a ≠ c := by
  induction l using List.reverseRecOn with
  | nil => simp [offerAll]
  | append_singleton l a ih =>
    rw [offerAll_append_singleton, find_offer_eq_none_iff, ih]
    simp [or_imp, forall_and]

/-- After a run of offers of distinct ranks, each slot holds the best element offered to it. -/
theorem find_offerAll_iff {l : List α} (hinj : Set.InjOn rank {a | a ∈ l}) (c : κ) (x : α) :
    (offerAll key rank empty l).find c = some x ↔ IsBest key rank l c x := by
  induction l using List.reverseRecOn generalizing x with
  | nil => simp [offerAll, IsBest]
  | append_singleton l a ih =>
    have hinj' : Set.InjOn rank {b | b ∈ l} :=
      hinj.mono fun b hb => List.mem_append_left _ hb
    rw [offerAll_append_singleton]
    by_cases hc : c = key a
    · -- the offered slot: one case of `offer` each
      subst hc
      cases hs : (offerAll key rank empty l).find (key a) with
      | none =>
        have hno : ∀ b ∈ l, key b ≠ key a := (find_offerAll_eq_none_iff l (key a)).1 hs
        rw [offer_of_find_none hs, find_insert_self, Option.some.injEq, eq_comm,
          isBest_append_of_none hno]
      | some b =>
        have hb : IsBest key rank l (key a) b := (ih hinj' b).1 hs
        by_cases hlt : rank b < rank a
        · rw [offer_of_lt hs hlt, find_insert_self, Option.some.injEq, eq_comm,
            isBest_append_of_lt hb hlt]
        · rw [offer_of_not_lt hs hlt, hs, Option.some.injEq, eq_comm,
            isBest_append_of_not_lt hinj hb hlt]
    · rw [find_offer_ne _ hc, ih hinj', isBest_append_of_key_ne (Ne.symm hc)]

/-- Offers of distinct ranks give the same store in any order. -/
theorem offerAll_perm {l₁ l₂ : List α} (hp : l₁.Perm l₂) (hinj : Set.InjOn rank {a | a ∈ l₁}) :
    offerAll key rank empty l₁ = offerAll key rank empty l₂ := by
  have hinj₂ : Set.InjOn rank {a | a ∈ l₂} := by
    simpa only [hp.mem_iff] using hinj
  have hbest : ∀ c x, IsBest key rank l₁ c x ↔ IsBest key rank l₂ c x := by
    intro c x
    simp only [IsBest, hp.mem_iff]
  apply ext
  intro c
  apply Option.ext
  intro x
  rw [find_offerAll_iff hinj, find_offerAll_iff hinj₂, hbest]

end FinStore
