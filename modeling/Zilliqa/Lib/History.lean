import Mathlib

/-!
# `Lib.History` — a history in key order, and the window of its last entries

A component that keeps the last `n` entries of a history, dropping the oldest when it is full,
holds `h.rtake n`. When the entries arrive in key order, a reader that asks for the entries past a
key gets from the window what it would get from the whole history, as long as no more than `n`
entries lie past that key.

- `rtake_append_rtake`, `concat_rtake_of_length_le`, `getLast?_rtake`: how the window follows the
  history.
- `filter_rtake_of_length_le`: the window answers like the history while at most `n` entries lie
  past the key.
- `filter_between_append`: the entries in `(a, b]`, then those in `(b, c]`, are those in `(a, c]`.
- `takeWhile_eq_filter`: a scan that stops at the first entry past a bound reads what a filter does.

Nothing here names the caches that instantiate it.
-/

namespace History

variable {α : Type}

/-- Appending to the window and cutting again is cutting the longer history. -/
theorem rtake_append_rtake (l m : List α) (n : ℕ) :
    (l.rtake n ++ m).rtake n = (l ++ m).rtake n := by
  simp only [List.rtake, List.length_append, List.length_drop, List.drop_append, List.drop_drop]
  congr 2 <;> omega

/-- The append of a deque that drops its oldest entry when full keeps the window. -/
theorem concat_rtake_of_length_le {l : List α} {n : ℕ} (hn : 0 < n) (hl : l.length ≤ n) (x : α) :
    (if n ≤ l.length then l.tail else l) ++ [x] = (l ++ [x]).rtake n := by
  obtain ⟨k, rfl⟩ : ∃ k, n = k + 1 := ⟨n - 1, by omega⟩
  rw [List.rtake_concat_succ, List.rtake]
  split_ifs with hfull
  · -- full: exactly the oldest entry goes
    rw [show l.length - k = 1 by omega, List.drop_one]
  · rw [show l.length - k = 0 by omega, List.drop_zero]

/-- The window keeps the last entry. -/
theorem getLast?_rtake (l : List α) {n : ℕ} (hn : 0 < n) : (l.rtake n).getLast? = l.getLast? := by
  rw [List.rtake, List.getLast?_drop]
  split_ifs with hshort
  · rw [List.eq_nil_of_length_eq_zero (by omega : l.length = 0)]
    rfl
  · rfl

/-- **Along a list on which `p` only ever turns false, `takeWhile p` is `filter p`**: once an
    entry fails, so does every later one. -/
theorem takeWhile_eq_filter {p : α → Bool} {l : List α}
    (hmono : l.Pairwise fun x y => p y = true → p x = true) : l.takeWhile p = l.filter p := by
  induction l with
  | nil => rfl
  | cons x l ih =>
    rw [List.pairwise_cons] at hmono
    by_cases hx : p x = true
    · rw [List.takeWhile_cons_of_pos hx, List.filter_cons_of_pos hx, ih hmono.2]
    · -- the scan stops here, and the filter keeps nothing after
      have hnone : l.filter p = [] := by
        rw [List.filter_eq_nil_iff]
        intro y hy hpy
        exact hx (hmono.1 y hy hpy)
      rw [List.takeWhile_cons_of_neg hx, List.filter_cons_of_neg hx, hnone]

section Key

variable {β : Type} [LinearOrder β] {key : α → β}

/-- **The window answers like the history** for every key past which at most `n` entries lie:
    the entries it dropped all come before those it kept. -/
theorem filter_rtake_of_length_le {l : List α} (h : l.Pairwise fun x y => key x ≤ key y)
    {n : ℕ} {c : β} (hn : (l.filter fun x => decide (c < key x)).length ≤ n) :
    (l.rtake n).filter (fun x => decide (c < key x)) = l.filter fun x => decide (c < key x) := by
  -- the history is the entries dropped, then the window
  have hsplit : l.take (l.length - n) ++ l.rtake n = l := List.take_append_drop _ l
  have hsorted := h
  rw [← hsplit, List.pairwise_append] at hsorted
  suffices hnone : (l.take (l.length - n)).filter (fun x => decide (c < key x)) = [] by
    conv => rhs; rw [← hsplit]
    rw [List.filter_append, hnone, List.nil_append]
  rw [List.filter_eq_nil_iff]
  intro x hx hpast
  -- an entry dropped past the key puts every entry of the window past it too
  have hall : (l.rtake n).filter (fun y => decide (c < key y)) = l.rtake n := by
    rw [List.filter_eq_self]
    intro y hy
    exact decide_eq_true (lt_of_lt_of_le (of_decide_eq_true hpast) (hsorted.2.2 x hx y hy))
  have hdropped : 0 < ((l.take (l.length - n)).filter fun y => decide (c < key y)).length :=
    List.length_pos_of_mem (List.mem_filter.2 ⟨hx, hpast⟩)
  have hlong : n < l.length := by
    have := List.length_pos_of_mem hx
    rw [List.length_take] at this
    omega
  have hcount := hn
  rw [← hsplit, List.filter_append, List.length_append, hall, List.rtake, List.length_drop] at hcount
  omega

/-- **In a history in key order, the entries in `(a, b]`, then those in `(b, c]`, are those in
    `(a, c]`.** The induction is on the history: its first entry comes no later than the others. -/
theorem filter_between_append {a b c : β} (hab : a ≤ b) (hbc : b ≤ c) {l : List α}
    (hl : l.Pairwise fun x y => key x ≤ key y) :
    l.filter (fun x => decide (a < key x ∧ key x ≤ b)) ++
        l.filter (fun x => decide (b < key x ∧ key x ≤ c)) =
      l.filter fun x => decide (a < key x ∧ key x ≤ c) := by
  induction l with
  | nil => rfl
  | cons x l ih =>
    rw [List.pairwise_cons] at hl
    have ih := ih hl.2
    simp only [List.filter_cons]
    by_cases h₁ : a < key x ∧ key x ≤ b
    · -- the first entry is in the first interval
      have h₂ : ¬ (b < key x ∧ key x ≤ c) := fun h₂ => absurd h₁.2 (not_le.2 h₂.1)
      have h₃ : a < key x ∧ key x ≤ c := ⟨h₁.1, h₁.2.trans hbc⟩
      rw [if_pos (decide_eq_true h₁), if_neg (fun h => h₂ (of_decide_eq_true h)),
        if_pos (decide_eq_true h₃), List.cons_append, ih]
    · by_cases h₂ : b < key x ∧ key x ≤ c
      · -- the first entry is in the second interval, and none of the rest is in the first
        have h₃ : a < key x ∧ key x ≤ c := ⟨lt_of_le_of_lt hab h₂.1, h₂.2⟩
        have hnone : l.filter (fun y => decide (a < key y ∧ key y ≤ b)) = [] := by
          rw [List.filter_eq_nil_iff]
          intro y hy hin
          exact absurd (lt_of_lt_of_le h₂.1 (hl.1 y hy)) (not_lt.2 (of_decide_eq_true hin).2)
        rw [if_neg (fun h => h₁ (of_decide_eq_true h)), if_pos (decide_eq_true h₂),
          if_pos (decide_eq_true h₃), ← ih, hnone, List.nil_append, List.nil_append]
      · -- the first entry is in no interval
        have h₃ : ¬ (a < key x ∧ key x ≤ c) := by
          rintro ⟨hax, hxc⟩
          by_cases hxb : key x ≤ b
          · exact h₁ ⟨hax, hxb⟩
          · exact h₂ ⟨lt_of_not_ge hxb, hxc⟩
        rw [if_neg (fun h => h₁ (of_decide_eq_true h)), if_neg (fun h => h₂ (of_decide_eq_true h)),
          if_neg (fun h => h₃ (of_decide_eq_true h)), ih]

end Key

end History
