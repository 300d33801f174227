import Mathlib.Data.List.Basic
import Mathlib.Order.Basic

/-!
# `Lib.UpperBound` — the binary search of `std::upper_bound`

`searchFrom xs below fuel first len` is libstdc++'s `__upper_bound` over the `len` elements of `xs`
from index `first`: it compares the value with the middle element (`below x` says the value is below
`x`), goes left of the middle when it is, and right of it otherwise. The search is only meaningful
on a range along which `below` switches at most once, from `false` to `true`, which a range sorted
for the comparison gives (`Switches xs below`). There it stops at the first element `below` holds
of, `xs.findIdx below` (`search_eq_findIdx`), and the elements from that index on are exactly those
`below` holds of (`drop_findIdx_eq_filter`): the binary search agrees with a linear scan.

The argument is the usual one: the answer stays within the window `[first, first + len]`
(`Window`), and each step keeps it there while the window shrinks.

Nothing here names the caches whose polls instantiate it.
-/

namespace UpperBound

variable {α : Type}

/-- libstdc++'s `__upper_bound` from `first` over `len` elements. `fuel` bounds the halvings; the
    `none` branch, a middle past the end, does not occur on a window within the list. -/
def searchFrom (xs : List α) (below : α → Bool) : ℕ → ℕ → ℕ → ℕ
  | 0, first, _ => first
  | fuel + 1, first, len =>
    if len = 0 then first
    else
      let half := len / 2
      let middle := first + half
      match xs[middle]? with
      | some x =>
        if below x then searchFrom xs below fuel first half
        else searchFrom xs below fuel (middle + 1) (len - half - 1)
      | none => first

/-- `std::upper_bound` over the whole list. -/
def search (xs : List α) (below : α → Bool) : ℕ := searchFrom xs below xs.length 0 xs.length

/-- Along `xs`, once `below` holds it keeps holding. -/
def Switches (xs : List α) (below : α → Bool) : Prop :=
  xs.Pairwise fun a b => below a = true → below b = true

/-- The search's invariant: the window lies in the list and holds the answer, at one of its
    positions or just past it. -/
def Window (xs : List α) (below : α → Bool) (first len : ℕ) : Prop :=
  first + len ≤ xs.length ∧ first ≤ xs.findIdx below ∧ xs.findIdx below ≤ first + len

section Switches

variable {xs : List α} {below : α → Bool}

/-- On a range where `below` switches once, it holds exactly from the first index it holds at. -/
theorem below_iff_findIdx_le (h : Switches xs below) {i : ℕ} (hi : i < xs.length) :
    below xs[i] = true ↔ xs.findIdx below ≤ i := by
  constructor
  · intro hb
    by_contra hlt
    have := List.not_of_lt_findIdx (Nat.lt_of_not_le hlt)
    rw [hb] at this
    exact Bool.noConfusion this
  · intro hle
    have hk : xs.findIdx below < xs.length := Nat.lt_of_le_of_lt hle hi
    have hfirst : below xs[xs.findIdx below] = true := List.findIdx_getElem
    rcases Nat.lt_or_eq_of_le hle with hlt | heq
    · exact List.pairwise_iff_getElem.1 h _ _ hk hi hlt hfirst
    · simp only [heq] at hfirst
      exact hfirst

/-- **One step of the search keeps the answer in the window**, and `len` halvings suffice: the
    search from a window stops at the answer. The induction follows `searchFrom`. -/
theorem searchFrom_eq_findIdx (h : Switches xs below) :
    ∀ (fuel first len : ℕ), len ≤ fuel → Window xs below first len →
      searchFrom xs below fuel first len = xs.findIdx below := by
  intro fuel
  induction fuel with
  | zero =>
    intro first len hlen hw
    obtain ⟨-, hlo, hhi⟩ := hw
    rw [searchFrom]
    omega
  | succ fuel ih =>
    intro first len hlen hw
    obtain ⟨hin, hlo, hhi⟩ := hw
    rw [searchFrom]
    by_cases hzero : len = 0
    · rw [if_pos hzero]
      omega
    rw [if_neg hzero]
    -- the middle lies within the window, so within the list
    have hmid : first + len / 2 < xs.length := by omega
    simp only [List.getElem?_eq_getElem hmid]
    by_cases hbelow : below xs[first + len / 2] = true
    · -- the answer is at the middle or left of it
      rw [if_pos hbelow]
      have hk := (below_iff_findIdx_le h hmid).1 hbelow
      exact ih first (len / 2) (by omega) ⟨by omega, hlo, hk⟩
    · -- the answer is right of the middle
      rw [if_neg hbelow]
      have hk : first + len / 2 < xs.findIdx below :=
        Nat.lt_of_not_le fun hle => hbelow ((below_iff_findIdx_le h hmid).2 hle)
      exact ih (first + len / 2 + 1) (len - len / 2 - 1) (by omega) ⟨by omega, by omega, by omega⟩

/-- **`std::upper_bound` finds the first element the value is below.** -/
theorem search_eq_findIdx (h : Switches xs below) : search xs below = xs.findIdx below :=
  searchFrom_eq_findIdx h xs.length 0 xs.length (Nat.le_refl _)
    ⟨Nat.le_of_eq (Nat.zero_add _), Nat.zero_le _, by rw [Nat.zero_add]; exact List.findIdx_le_length⟩

end Switches

/-- **From the first element `below` holds of, it holds of every element**: on a range where it
    switches once, dropping up to that element is filtering by it. The induction is on the list;
    at the head either `below` already holds, and then of the whole rest, or the head is dropped
    and filtered out alike. -/
theorem drop_findIdx_eq_filter {below : α → Bool} :
    ∀ {xs : List α}, Switches xs below → xs.drop (xs.findIdx below) = xs.filter below
  | [], _ => rfl
  | a :: xs, h => by
    obtain ⟨hhead, hrest⟩ := List.pairwise_cons.1 h
    rw [List.findIdx_cons]
    by_cases ha : below a = true
    · rw [ha, cond_true, List.drop_zero, List.filter_cons_of_pos ha]
      exact congrArg (a :: ·) (List.filter_eq_self.2 fun b hb => hhead b hb ha).symm
    · rw [Bool.not_eq_true] at ha
      rw [ha, cond_false, List.drop_succ_cons, List.filter_cons_of_neg (by rw [ha]; decide)]
      exact drop_findIdx_eq_filter hrest

/-- A range sorted by a key switches once for every comparison of a value with that key. -/
theorem switches_of_sorted {β : Type} [Preorder β] {key : α → β} {xs : List α}
    [DecidableLT β] (h : xs.Pairwise fun a b => key a ≤ key b) (v : β) :
    Switches xs fun x => decide (v < key x) := by
  refine h.imp fun hab ha => ?_
  rw [decide_eq_true_iff] at ha ⊢
  exact lt_of_lt_of_le ha hab

end UpperBound
