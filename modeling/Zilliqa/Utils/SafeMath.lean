import Mathlib.Tactic.Ring
import Mathlib.Tactic.Positivity

/-!
# `Utils.SafeMath` — `SafeMath<T>` for the unsigned widths the executor uses

`SafeMath<T>::add`, `sub` and `mul` return `false` instead of wrapping. `sub` and `mul` write their
result through the out-parameter only on success; `add_unsignint` writes the wrapped sum before
its test, so a failed `add` leaves the wrapped sum there, which is what an aliased call
(`addInPlace`) then reads. An unsigned `w`-bit value is a `ℕ` below `2 ^ w`; an operation that the
C++ computes modulo `2 ^ w` carries the `% 2 ^ w` explicitly, so the overflow tests below are the
ones `SafeMath.tpp` performs on the wrapped value. The out-parameter on success is the `some` of
an `Option`; no caller of the model reads it after a failure.

## Contents
- `SafeMath.add`, `SafeMath.sub`, `SafeMath.mul` as `add_unsignint`, `sub_unsignint`,
  `mul_unsignint` (and the `a == 0 || b == 0` shortcut of `mul`) compute them, and
  `SafeMath.addInPlace`, the `add` whose out-parameter is its first operand.
- `SafeMath.div` as `div_unsignint` computes it, failing on a zero denominator.
- Their specifications: each succeeds exactly when the mathematical result fits (for `add`, on
  operands below `2 ^ w`), and then returns it (`add_eq_some_iff`, `sub_eq_some_iff`,
  `mul_eq_some_iff`); `div` fails only on a zero denominator (`div_eq_some_iff`).
-/

namespace Zilliqa

namespace SafeMath

/-- `add_unsignint`: add modulo `2 ^ w`, and fail when the sum wrapped below `a`. -/
def add (w a b : ℕ) : Option ℕ :=
  let result := (a + b) % 2 ^ w
  if result < a then none else some result

/-- `SafeMath<T>::add(x, b, x)`, the call `AccountBase` makes: the out-parameter aliases the first
    operand, so `add_unsignint` stores the wrapped sum into it before testing `result < a`, and the
    test then compares the sum with itself. -/
def addInPlace (w a b : ℕ) : Option ℕ :=
  let result := (a + b) % 2 ^ w
  let a := result
  if result < a then none else some result

/-- `sub_unsignint`: fail when the subtrahend is the larger. -/
def sub (a b : ℕ) : Option ℕ :=
  if b > a then none else some (a - b)

/-- `mul`: a zero operand gives `0`; otherwise `mul_unsignint` multiplies modulo `2 ^ w` and fails
    when dividing the product by `a` does not give back `b`. -/
def mul (w a b : ℕ) : Option ℕ :=
  if a = 0 ∨ b = 0 then some 0
  else
    let c := a * b % 2 ^ w
    if c / a ≠ b then none else some c

/-- `div`: a zero denominator fails; otherwise `div_unsignint` divides and checks
    `a == b * c + a % b`, which every quotient passes. -/
def div (a b : ℕ) : Option ℕ :=
  if b = 0 then none
  else
    let c := a / b
    if a ≠ b * c + a % b then none else some c

variable {w a b c : ℕ}

/-- **`add` succeeds exactly without overflow.** -/
theorem add_eq_some_iff (ha : a < 2 ^ w) (hb : b < 2 ^ w) :
    add w a b = some c ↔ a + b < 2 ^ w ∧ c = a + b := by
  unfold add
  by_cases hfit : a + b < 2 ^ w
  · rw [Nat.mod_eq_of_lt hfit]
    simp only [show ¬ a + b < a by omega, if_false, Option.some.injEq]
    exact ⟨fun h => ⟨hfit, h.symm⟩, fun h => h.2.symm⟩
  · have hwrap : (a + b) % 2 ^ w = a + b - 2 ^ w := by
      rw [Nat.mod_eq_sub_mod (by omega), Nat.mod_eq_of_lt (by omega)]
    rw [hwrap, if_pos (by omega)]
    simp [hfit]

/-- **The aliased `add` never fails**: it wraps. -/
@[simp] theorem addInPlace_eq (w a b : ℕ) : addInPlace w a b = some ((a + b) % 2 ^ w) := by
  simp [addInPlace]

theorem sub_eq_some_iff : sub a b = some c ↔ b ≤ a ∧ c = a - b := by
  unfold sub
  by_cases h : b > a
  · simp [h]
  · simp only [h, if_false, Option.some.injEq]
    exact ⟨fun e => ⟨by omega, e.symm⟩, fun e => e.2.symm⟩

/-- A wrapped product divided by `a` gives back `b` only when nothing wrapped. -/
theorem wrapped_div_ne (hov : 2 ^ w ≤ a * b) :
    a * b % 2 ^ w / a ≠ b := by
  intro h
  have hlt : a * b % 2 ^ w < a * b := lt_of_lt_of_le (Nat.mod_lt _ (by positivity)) hov
  have hle : a * (a * b % 2 ^ w / a) ≤ a * b % 2 ^ w := Nat.mul_div_le _ _
  rw [h] at hle
  omega

/-- **`mul` succeeds exactly without overflow.** -/
theorem mul_eq_some_iff :
    mul w a b = some c ↔ a * b < 2 ^ w ∧ c = a * b := by
  unfold mul
  by_cases hz : a = 0 ∨ b = 0
  · have hab : a * b = 0 := by rcases hz with h | h <;> simp [h]
    rw [if_pos hz, hab]
    simp only [Option.some.injEq]
    exact ⟨fun e => ⟨by positivity, e.symm⟩, fun e => e.2.symm⟩
  · rw [if_neg hz]
    have ha : 0 < a := by omega
    by_cases hfit : a * b < 2 ^ w
    · have hdiv : a * b / a = b := Nat.mul_div_cancel_left b ha
      simp only [Nat.mod_eq_of_lt hfit, hdiv, ne_eq, not_true_eq_false, if_false,
        Option.some.injEq]
      exact ⟨fun e => ⟨hfit, e.symm⟩, fun e => e.2.symm⟩
    · rw [if_pos (wrapped_div_ne (by omega))]
      simp [hfit]

@[simp] theorem mul_zero_left (w b : ℕ) : mul w 0 b = some 0 := if_pos (.inl rfl)

theorem mul_eq_none_iff : mul w a b = none ↔ 2 ^ w ≤ a * b := by
  cases h : mul w a b with
  | none =>
      simp only [true_iff]
      by_contra hlt
      have := (mul_eq_some_iff (w := w) (a := a) (b := b) (c := a * b)).mpr ⟨by omega, rfl⟩
      rw [h] at this
      cases this
  | some c =>
      have := (mul_eq_some_iff.mp h).1
      simp only [reduceCtorEq, false_iff]
      omega

/-- **`div` fails only on a zero denominator.** -/
theorem div_eq_some_iff : div a b = some c ↔ b ≠ 0 ∧ c = a / b := by
  unfold div
  by_cases hb : b = 0
  · simp [hb]
  · have hcheck : a = b * (a / b) + a % b := (Nat.div_add_mod a b).symm
    rw [if_neg hb]
    dsimp only
    rw [if_neg (fun h => h hcheck), Option.some.injEq]
    exact ⟨fun e => ⟨hb, e.symm⟩, fun e => e.2.symm⟩

end SafeMath

end Zilliqa
