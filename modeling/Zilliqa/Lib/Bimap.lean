import Mathlib.Data.List.Nodup
import Mathlib.Data.List.Basic

/-!
# `Lib.Bimap` — finite bijections with lookup on both sides

A `Bimap α β` is a list of pairs whose left components are distinct and whose right components are
distinct, kept as two fields, so that each side determines the other: the relation of a bimap
container with a unique index on both sides. The list keeps the pairs in insertion order; lookups
do not depend on it.

## Contents
- `findLeft` / `findRight` and their characterisation by membership (`findLeft_eq_some_iff`,
  `findRight_eq_some_iff` and the `none` versions).
- `insert`, which adds a pair only when neither side is present and reports whether it did
  (`pairs_insert`, `snd_insert`).
- `eraseLeft` / `eraseRight`, which remove the pair with a given left or right component.
-/

/-- A finite bijection: a list of pairs, distinct on the left and distinct on the right. -/
structure Bimap (α β : Type) where
  pairs : List (α × β)
  nodup_left : (pairs.map Prod.fst).Nodup
  nodup_right : (pairs.map Prod.snd).Nodup

namespace Bimap

variable {α β : Type}

/-- The bimap with no pairs. -/
def empty : Bimap α β := ⟨[], List.nodup_nil, List.nodup_nil⟩

@[simp] theorem pairs_empty : (empty : Bimap α β).pairs = [] := rfl

/-- Remove the pair whose left component is `a`. -/
def eraseLeft [DecidableEq α] (b : Bimap α β) (a : α) : Bimap α β :=
  ⟨b.pairs.filter fun p => p.1 ≠ a,
    b.nodup_left.sublist (List.filter_sublist.map _),
    b.nodup_right.sublist (List.filter_sublist.map _)⟩

/-- Remove the pair whose right component is `y`. -/
def eraseRight [DecidableEq β] (b : Bimap α β) (y : β) : Bimap α β :=
  ⟨b.pairs.filter fun p => p.2 ≠ y,
    b.nodup_left.sublist (List.filter_sublist.map _),
    b.nodup_right.sublist (List.filter_sublist.map _)⟩

@[simp] theorem pairs_eraseLeft [DecidableEq α] (b : Bimap α β) (a : α) :
    (b.eraseLeft a).pairs = b.pairs.filter fun p => p.1 ≠ a := rfl

@[simp] theorem pairs_eraseRight [DecidableEq β] (b : Bimap α β) (y : β) :
    (b.eraseRight y).pairs = b.pairs.filter fun p => p.2 ≠ y := rfl

section Left

variable [DecidableEq α]

/-- The right component paired with `a`. -/
def findLeft (b : Bimap α β) (a : α) : Option β :=
  (b.pairs.find? fun p => p.1 = a).map Prod.snd

theorem findLeft_eq_some_iff (b : Bimap α β) {a : α} {y : β} :
    b.findLeft a = some y ↔ (a, y) ∈ b.pairs := by
  unfold findLeft
  constructor
  · intro h
    obtain ⟨p, hp, rfl⟩ := Option.map_eq_some_iff.1 h
    have hmem := List.mem_of_find?_eq_some hp
    have ha : p.1 = a := by simpa using List.find?_some hp
    rw [← ha]
    exact hmem
  · intro h
    -- the pair found is the one with left component `a`, since left components are distinct
    obtain ⟨q, hq⟩ : ∃ q, b.pairs.find? (fun p => p.1 = a) = some q :=
      Option.isSome_iff_exists.1 (List.find?_isSome.2 ⟨(a, y), h, by simp⟩)
    have hqa : q.1 = a := by simpa using List.find?_some hq
    have hqy : q = (a, y) :=
      List.inj_on_of_nodup_map b.nodup_left (List.mem_of_find?_eq_some hq) h hqa
    rw [hq, hqy]
    rfl

theorem findLeft_eq_none_iff (b : Bimap α β) {a : α} :
    b.findLeft a = none ↔ ∀ y, (a, y) ∉ b.pairs := by
  rw [← not_iff_not, ← ne_eq, Option.ne_none_iff_exists']
  simp only [findLeft_eq_some_iff, not_forall, not_not]

theorem findLeft_eq_none_of_subset {b b' : Bimap α β} {a : α}
    (h : ∀ x ∈ b.pairs, x ∈ b'.pairs) (hb' : b'.findLeft a = none) : b.findLeft a = none :=
  (findLeft_eq_none_iff b).2 fun y hy => (findLeft_eq_none_iff b').1 hb' y (h _ hy)

end Left

section Right

variable [DecidableEq β]

/-- The left component paired with `y`. -/
def findRight (b : Bimap α β) (y : β) : Option α :=
  (b.pairs.find? fun p => p.2 = y).map Prod.fst

theorem findRight_eq_some_iff (b : Bimap α β) {a : α} {y : β} :
    b.findRight y = some a ↔ (a, y) ∈ b.pairs := by
  unfold findRight
  constructor
  · intro h
    obtain ⟨p, hp, rfl⟩ := Option.map_eq_some_iff.1 h
    have hmem := List.mem_of_find?_eq_some hp
    have hy : p.2 = y := by simpa using List.find?_some hp
    rw [← hy]
    exact hmem
  · intro h
    obtain ⟨q, hq⟩ : ∃ q, b.pairs.find? (fun p => p.2 = y) = some q :=
      Option.isSome_iff_exists.1 (List.find?_isSome.2 ⟨(a, y), h, by simp⟩)
    have hqy : q.2 = y := by simpa using List.find?_some hq
    have hqa : q = (a, y) :=
      List.inj_on_of_nodup_map b.nodup_right (List.mem_of_find?_eq_some hq) h hqy
    rw [hq, hqa]
    rfl

theorem findRight_eq_none_iff (b : Bimap α β) {y : β} :
    b.findRight y = none ↔ ∀ a, (a, y) ∉ b.pairs := by
  rw [← not_iff_not, ← ne_eq, Option.ne_none_iff_exists']
  simp only [findRight_eq_some_iff, not_forall, not_not]

end Right

variable [DecidableEq α] [DecidableEq β]

/-- Add the pair `(a, y)` when neither `a` nor `y` is present; the flag says whether it was
    added. -/
def insert (b : Bimap α β) (a : α) (y : β) : Bimap α β × Bool :=
  if h : b.findLeft a = none ∧ b.findRight y = none then
    (⟨b.pairs ++ [(a, y)],
      by
        rw [List.map_append, List.nodup_append]
        refine ⟨b.nodup_left, List.nodup_singleton _, ?_⟩
        simp only [List.map_cons, List.map_nil, List.mem_singleton]
        rintro x hx z rfl hxz
        obtain ⟨p, hp, rfl⟩ := List.mem_map.1 hx
        exact (b.findLeft_eq_none_iff.1 h.1) p.2 (by rw [← hxz]; exact hp),
      by
        rw [List.map_append, List.nodup_append]
        refine ⟨b.nodup_right, List.nodup_singleton _, ?_⟩
        simp only [List.map_cons, List.map_nil, List.mem_singleton]
        rintro x hx z rfl hxz
        obtain ⟨p, hp, rfl⟩ := List.mem_map.1 hx
        exact (b.findRight_eq_none_iff.1 h.2) p.1 (by rw [← hxz]; exact hp)⟩, true)
  else (b, false)

theorem pairs_insert (b : Bimap α β) (a : α) (y : β) :
    (b.insert a y).1.pairs =
      if b.findLeft a = none ∧ b.findRight y = none then b.pairs ++ [(a, y)] else b.pairs := by
  unfold insert
  split_ifs <;> rfl

theorem mem_pairs_insert {b : Bimap α β} {a : α} {y : β} {x : α × β}
    (h : x ∈ (b.insert a y).1.pairs) : x ∈ b.pairs ∨ x = (a, y) := by
  rw [pairs_insert] at h
  split_ifs at h
  · rcases List.mem_append.1 h with h | h
    · exact Or.inl h
    · exact Or.inr (List.mem_singleton.1 h)
  · exact Or.inl h

theorem snd_insert (b : Bimap α β) (a : α) (y : β) :
    (b.insert a y).2 = decide (b.findLeft a = none ∧ b.findRight y = none) := by
  unfold insert
  split_ifs with h <;> simp [h]

end Bimap
