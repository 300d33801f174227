import Zilliqa.Utils.SafeMath

/-!
# `Utils.SafeMathTypes` — `SafeMath<T>` over every type it accepts

`SafeMath<T>` accepts the eight signed and the eight unsigned types of `IsSignedInt` and
`IsUnsignedInt`. A value of `T` is an `ℤ` between `std::numeric_limits<T>::min()` and `max()`.
The built-in `int8_t` … `int64_t` are two's complement, so `min = -max - 1`; boost's fixed-width
`int128_t` … `int1024_t` keep a sign and a magnitude of `w` bits, so `min = -max`. An unsigned `T`
goes to the `ℕ` functions of `Utils.SafeMath`.

The signed tests rearrange each bound so that nothing they compute leaves the type, and `mul_signint`
tests one bound per sign quadrant with C++'s division, which truncates toward zero (`Int.tdiv`).
Before its test it refuses the pairs `(min, -1)` and `(-1, min)`: with two's complement their
product is out of range anyway, but with a sign and a magnitude it is `max`, which fits
(`mulOf_eq_some_iff`, `mul_refuses_representable_int128`).

`power_core` multiplies `exponent - 1` times with `SafeMath::mul` and stops at the first failure.
Because the absolute values of the powers grow, the first power that does not fit comes no later than
the last, so the loop succeeds exactly when `base ^ exponent` fits (`powerCoreOf_spec`).

## Contents
- `IntType`, with `width`, `isSigned`, `signMagnitude`, `maxValue`, `minValue` and `Contains`.
- `addSignint`, `subSignint`, `mulGood` and `mulSignint`, `divSignint`.
- `addOf`, `subOf`, `mulOf`, `divOf`: `SafeMath<T>::add`, `sub`, `mul` and `div` for a type `T`.
- `powerLoop`, `powerCoreOf`, `powerOf`: `power_core` and `power`.
- Their specifications.
-/

namespace Zilliqa

/-- The integer types `SafeMath<T>` accepts (`IsSignedInt`, `IsUnsignedInt`). -/
inductive IntType where
  | int8 | int16 | int32 | int64 | int128 | int256 | int512 | int1024
  | uint8 | uint16 | uint32 | uint64 | uint128 | uint256 | uint512 | uint1024
deriving DecidableEq, Repr

namespace IntType

/-- The width in bits; for boost's signed types, that of the magnitude. -/
def width : IntType → ℕ
  | int8 | uint8 => 8
  | int16 | uint16 => 16
  | int32 | uint32 => 32
  | int64 | uint64 => 64
  | int128 | uint128 => 128
  | int256 | uint256 => 256
  | int512 | uint512 => 512
  | int1024 | uint1024 => 1024

/-- `IsSignedInt`. -/
def isSigned : IntType → Bool
  | int8 | int16 | int32 | int64 | int128 | int256 | int512 | int1024 => true
  | _ => false

/-- boost's fixed-width signed `cpp_int`s, which keep a sign and a magnitude. -/
def signMagnitude : IntType → Bool
  | int128 | int256 | int512 | int1024 => true
  | _ => false

/-- `std::numeric_limits<T>::max()`. -/
def maxValue (T : IntType) : ℤ :=
  if T.isSigned && !T.signMagnitude then 2 ^ (T.width - 1) - 1 else 2 ^ T.width - 1

/-- `std::numeric_limits<T>::min()`. -/
def minValue (T : IntType) : ℤ :=
  if !T.isSigned then 0
  else if T.signMagnitude then -(2 ^ T.width - 1)
  else -2 ^ (T.width - 1)

/-- The values of `T`. -/
def Contains (T : IntType) (x : ℤ) : Prop := T.minValue ≤ x ∧ x ≤ T.maxValue

instance (T : IntType) (x : ℤ) : Decidable (T.Contains x) :=
  inferInstanceAs (Decidable (_ ∧ _))

theorem width_ge (T : IntType) : 8 ≤ T.width := by
  cases T <;> decide

theorem two_pow_ge {n : ℕ} (h : 7 ≤ n) : (128 : ℤ) ≤ 2 ^ n :=
  calc (128 : ℤ) = 2 ^ 7 := by norm_num
    _ ≤ 2 ^ n := pow_le_pow_right₀ (by norm_num) h

section Signed

variable {T : IntType} (hs : T.isSigned = true)
include hs

/-- A signed range is two's complement or sign and magnitude. -/
theorem minValue_eq_of_signed : T.minValue = -T.maxValue - 1 ∨ T.minValue = -T.maxValue := by
  unfold minValue maxValue
  rw [hs]
  cases T.signMagnitude
  · left
    simp only [Bool.not_true, Bool.not_false, Bool.and_true, if_true, Bool.false_eq_true, if_false]
    ring
  · right
    simp only [Bool.not_true, Bool.and_false, Bool.false_eq_true, if_false, if_true]

end Signed

theorem maxValue_ge (T : IntType) : 127 ≤ T.maxValue := by
  have hw := T.width_ge
  unfold maxValue
  split_ifs
  · have := two_pow_ge (show 7 ≤ T.width - 1 by omega)
    omega
  · have := two_pow_ge (show 7 ≤ T.width by omega)
    omega

section Unsigned

variable {T : IntType} (hs : T.isSigned = false)
include hs

theorem minValue_of_unsigned : T.minValue = 0 := by
  simp [minValue, hs]

theorem maxValue_of_unsigned : T.maxValue = 2 ^ T.width - 1 := by
  simp [maxValue, hs]

/-- An unsigned value is a number below `2 ^ width`. -/
theorem contains_natCast_iff (n : ℕ) : T.Contains n ↔ n < 2 ^ T.width := by
  unfold Contains
  rw [minValue_of_unsigned hs, maxValue_of_unsigned hs]
  have hcast : ((2 ^ T.width : ℕ) : ℤ) = 2 ^ T.width := by push_cast; rfl
  omega

theorem eq_natCast_of_contains {x : ℤ} (hx : T.Contains x) : ∃ n : ℕ, x = n ∧ n < 2 ^ T.width := by
  have hnonneg : 0 ≤ x := by
    have := hx.1
    rwa [minValue_of_unsigned hs] at this
  refine ⟨x.toNat, (Int.toNat_of_nonneg hnonneg).symm, ?_⟩
  rw [← contains_natCast_iff hs, Int.toNat_of_nonneg hnonneg]
  exact hx

end Unsigned

/-- Every type holds the values of absolute value up to `max`, the negative ones when it is signed,
    and nothing of absolute value beyond `max + 1`. -/
theorem contains_of_natAbs_le (T : IntType) {x : ℤ} (hx : (x.natAbs : ℤ) ≤ T.maxValue)
    (hsign : T.isSigned = true ∨ 0 ≤ x) : T.Contains x := by
  unfold Contains
  rcases hsign with hs | hs
  · have := minValue_eq_of_signed hs
    omega
  · cases hu : T.isSigned
    · rw [minValue_of_unsigned hu]
      omega
    · have := minValue_eq_of_signed hu
      omega

theorem natAbs_le_of_contains (T : IntType) {x : ℤ} (hx : T.Contains x) :
    (x.natAbs : ℤ) ≤ T.maxValue + 1 := by
  unfold Contains at hx
  cases hu : T.isSigned
  · rw [minValue_of_unsigned hu] at hx
    omega
  · have := minValue_eq_of_signed hu
    omega

theorem contains_one (T : IntType) : T.Contains 1 :=
  T.contains_of_natAbs_le (by have := T.maxValue_ge; simp only [Int.natAbs_one]; omega) (.inr (by decide))

theorem contains_zero (T : IntType) : T.Contains 0 :=
  T.contains_of_natAbs_le (by have := T.maxValue_ge; simp only [Int.natAbs_zero]; omega) (.inr le_rfl)

/-- A signed minimum is far from `0` and from `-1`. -/
theorem minValue_le_of_signed {T : IntType} (hs : T.isSigned = true) : T.minValue ≤ -127 := by
  have := minValue_eq_of_signed hs
  have := T.maxValue_ge
  omega

/-- The pairs `mul_signint` refuses before its test: `(min, -1)` and `(-1, min)` of a signed type. -/
def MulExcluded (T : IntType) (a b : ℤ) : Prop :=
  T.isSigned = true ∧ ((a = T.minValue ∧ b = -1) ∨ (a = -1 ∧ b = T.minValue))

end IntType

namespace SafeMath

open IntType

/-! ## The signed functions -/

/-- `add_signint`: fail when `b` passes `max - a` above a positive `a`, or `min - a` below a negative
    one. -/
def addSignint (T : IntType) (a b : ℤ) : Option ℤ :=
  if 0 < a ∧ b > T.maxValue - a then none
  else if a < 0 ∧ b < T.minValue - a then none
  else some (a + b)

/-- `sub_signint`: fail when `b` is below `a - max` for a non-negative `a`, or above `a - min` for a
    negative one. -/
def subSignint (T : IntType) (a b : ℤ) : Option ℤ :=
  if 0 ≤ a ∧ b < a - T.maxValue then none
  else if a < 0 ∧ b > a - T.minValue then none
  else some (a - b)

/-- The test of `mul_signint` after its special pairs: one bound per sign quadrant, divided with C++'s
    truncating `/`. -/
def mulGood (T : IntType) (a b : ℤ) : Bool :=
  if a < 0 ∧ b < 0 then decide (a ≥ T.maxValue.tdiv b)
  else if a < 0 ∧ 0 < b then decide (a ≥ T.minValue.tdiv b)
  else if 0 < a ∧ b < 0 then decide (b ≥ T.minValue.tdiv a)
  else decide (a ≤ T.maxValue.tdiv b)

/-- `mul_signint`: the pairs `(min, -1)` and `(-1, min)` fail, then the quadrant test. -/
def mulSignint (T : IntType) (a b : ℤ) : Option ℤ :=
  if (a = T.minValue ∧ b = -1) ∨ (a = -1 ∧ b = T.minValue) then none
  else if !mulGood T a b then none
  else some (a * b)

/-- `div_signint`: `(min, -1)` fails; otherwise the quotient truncated toward zero. -/
def divSignint (T : IntType) (a b : ℤ) : Option ℤ :=
  if a = T.minValue ∧ b = -1 then none else some (a.tdiv b)

/-! ## `SafeMath<T>` for a type `T` -/

/-- `SafeMath<T>::add`: `add_signint`, or `add_unsignint` on the unsigned value. -/
def addOf (T : IntType) (a b : ℤ) : Option ℤ :=
  if T.isSigned then addSignint T a b
  else (add T.width a.toNat b.toNat).map (↑)

/-- `SafeMath<T>::sub`: `sub_signint` or `sub_unsignint`. -/
def subOf (T : IntType) (a b : ℤ) : Option ℤ :=
  if T.isSigned then subSignint T a b
  else (sub a.toNat b.toNat).map (↑)

/-- `SafeMath<T>::mul`: a zero operand gives `0`, then `mul_signint`; the unsigned `mul` holds the
    same shortcut before `mul_unsignint`. -/
def mulOf (T : IntType) (a b : ℤ) : Option ℤ :=
  if T.isSigned then (if a = 0 ∨ b = 0 then some 0 else mulSignint T a b)
  else (mul T.width a.toNat b.toNat).map (↑)

/-- `SafeMath<T>::div`: a zero denominator fails, then `div_signint`; the unsigned `div` holds the
    same check before `div_unsignint`. -/
def divOf (T : IntType) (a b : ℤ) : Option ℤ :=
  if T.isSigned then (if b = 0 then none else divSignint T a b)
  else (div a.toNat b.toNat).map (↑)

/-! ## Specifications -/

theorem some_eq_some_iff_of {x c : ℤ} {p : Prop} (hp : p) : some x = some c ↔ p ∧ c = x := by
  constructor
  · intro h
    exact ⟨hp, (Option.some.inj h).symm⟩
  · rintro ⟨-, rfl⟩
    rfl

theorem none_eq_some_iff_of {x c : ℤ} {p : Prop} (hp : ¬ p) :
    (none : Option ℤ) = some c ↔ p ∧ c = x := by
  constructor
  · intro h
    cases h
  · intro h
    exact absurd h.1 hp

/-- An unsigned function's successes, read on the integers. -/
theorem map_natCast_eq_some_iff {o : Option ℕ} {p : Prop} {n : ℕ}
    (h : ∀ c, o = some c ↔ p ∧ c = n) (c : ℤ) : o.map (↑) = some c ↔ p ∧ c = n := by
  rw [Option.map_eq_some_iff]
  constructor
  · rintro ⟨m, hm, rfl⟩
    obtain ⟨hp, rfl⟩ := (h m).1 hm
    exact ⟨hp, rfl⟩
  · rintro ⟨hp, rfl⟩
    exact ⟨n, (h n).2 ⟨hp, rfl⟩, rfl⟩

/-- Truncating a non-negative numerator by a positive divisor is floor division. -/
theorem le_tdiv_iff_mul_le {x y z : ℤ} (hx : 0 ≤ x) (hy : 0 < y) : z ≤ x.tdiv y ↔ z * y ≤ x := by
  rw [Int.tdiv_eq_ediv_of_nonneg hx]
  exact Int.le_ediv_iff_mul_le hy

section Signed

variable {T : IntType} (hs : T.isSigned = true) {a b c : ℤ}
include hs

theorem addSignint_eq_some_iff (hb : T.Contains b) :
    addSignint T a b = some c ↔ T.Contains (a + b) ∧ c = a + b := by
  have hmin := minValue_eq_of_signed hs
  unfold addSignint Contains at *
  by_cases h1 : 0 < a ∧ b > T.maxValue - a
  · rw [if_pos h1]
    exact none_eq_some_iff_of (by omega)
  · rw [if_neg h1]
    by_cases h2 : a < 0 ∧ b < T.minValue - a
    · rw [if_pos h2]
      exact none_eq_some_iff_of (by omega)
    · rw [if_neg h2]
      exact some_eq_some_iff_of (by omega)

theorem subSignint_eq_some_iff (hb : T.Contains b) :
    subSignint T a b = some c ↔ T.Contains (a - b) ∧ c = a - b := by
  have hmin := minValue_eq_of_signed hs
  unfold subSignint Contains at *
  by_cases h1 : 0 ≤ a ∧ b < a - T.maxValue
  · rw [if_pos h1]
    exact none_eq_some_iff_of (by omega)
  · rw [if_neg h1]
    by_cases h2 : a < 0 ∧ b > a - T.minValue
    · rw [if_pos h2]
      exact none_eq_some_iff_of (by omega)
    · rw [if_neg h2]
      exact some_eq_some_iff_of (by omega)

/-- **The quadrant test is the range test** for non-zero operands: in each quadrant the bound,
    divided by C++'s truncating `/`, is the product's bound. -/
theorem mulGood_iff (ha0 : a ≠ 0) (hb0 : b ≠ 0) : mulGood T a b = true ↔ T.Contains (a * b) := by
  have hmin := minValue_eq_of_signed hs
  have hmax := T.maxValue_ge
  unfold mulGood Contains
  rcases lt_or_gt_of_ne ha0 with ha | ha <;> rcases lt_or_gt_of_ne hb0 with hb | hb
  · -- both negative: a positive product, bounded by `max`
    have hp : 0 < a * b := Int.mul_pos_of_neg_of_neg ha hb
    have key : -a ≤ T.maxValue.tdiv (-b) ↔ -a * -b ≤ T.maxValue :=
      le_tdiv_iff_mul_le (by omega) (by omega)
    rw [Int.neg_mul_neg, Int.tdiv_neg] at key
    rw [if_pos ⟨ha, hb⟩, decide_eq_true_iff]
    constructor
    · intro h
      exact ⟨by omega, key.1 (by omega)⟩
    · intro h
      have := key.2 h.2
      omega
  · -- a negative product, bounded by `min`
    have hp : a * b < 0 := Int.mul_neg_of_neg_of_pos ha hb
    have key : -a ≤ (-T.minValue).tdiv b ↔ -a * b ≤ -T.minValue :=
      le_tdiv_iff_mul_le (by omega) hb
    rw [Int.neg_tdiv, Int.neg_mul] at key
    rw [if_neg (by omega), if_pos ⟨ha, hb⟩, decide_eq_true_iff]
    constructor
    · intro h
      have := key.1 (by omega)
      exact ⟨by omega, by omega⟩
    · intro h
      have := key.2 (by omega)
      omega
  · -- the same with the operands' roles exchanged
    have hp : a * b < 0 := Int.mul_neg_of_pos_of_neg ha hb
    have key : -b ≤ (-T.minValue).tdiv a ↔ -b * a ≤ -T.minValue :=
      le_tdiv_iff_mul_le (by omega) ha
    rw [Int.neg_tdiv, Int.neg_mul, Int.mul_comm b a] at key
    rw [if_neg (by omega), if_neg (by omega), if_pos ⟨ha, hb⟩, decide_eq_true_iff]
    constructor
    · intro h
      have := key.1 (by omega)
      exact ⟨by omega, by omega⟩
    · intro h
      have := key.2 (by omega)
      omega
  · -- both positive
    have hp : 0 < a * b := Int.mul_pos ha hb
    have key : a ≤ T.maxValue.tdiv b ↔ a * b ≤ T.maxValue := le_tdiv_iff_mul_le (by omega) hb
    rw [if_neg (by omega), if_neg (by omega), if_neg (by omega), decide_eq_true_iff]
    constructor
    · intro h
      exact ⟨by omega, key.1 h⟩
    · intro h
      exact key.2 h.2

theorem mulSignint_eq_some_iff (ha0 : a ≠ 0) (hb0 : b ≠ 0) :
    mulSignint T a b = some c ↔
      (T.Contains (a * b) ∧ ¬((a = T.minValue ∧ b = -1) ∨ (a = -1 ∧ b = T.minValue))) ∧
        c = a * b := by
  unfold mulSignint
  by_cases hx : (a = T.minValue ∧ b = -1) ∨ (a = -1 ∧ b = T.minValue)
  · rw [if_pos hx]
    exact none_eq_some_iff_of fun h => h.2 hx
  · rw [if_neg hx]
    cases hg : mulGood T a b
    · -- the quadrant test refuses: the product does not fit
      rw [if_pos (by rfl)]
      refine none_eq_some_iff_of fun h => ?_
      rw [(mulGood_iff hs ha0 hb0).2 h.1] at hg
      cases hg
    · rw [if_neg (by decide)]
      exact some_eq_some_iff_of ⟨(mulGood_iff hs ha0 hb0).1 hg, hx⟩

end Signed

/-- **`SafeMath<T>::add` fails exactly on overflow**, and otherwise gives the sum. -/
theorem addOf_eq_some_iff (T : IntType) {a b c : ℤ} (ha : T.Contains a) (hb : T.Contains b) :
    addOf T a b = some c ↔ T.Contains (a + b) ∧ c = a + b := by
  unfold addOf
  cases hs : T.isSigned
  · -- `add_unsignint` on the values
    obtain ⟨a', rfl, ha'⟩ := eq_natCast_of_contains hs ha
    obtain ⟨b', rfl, hb'⟩ := eq_natCast_of_contains hs hb
    rw [if_neg Bool.false_ne_true, Int.toNat_natCast, Int.toNat_natCast, ← Nat.cast_add,
      contains_natCast_iff hs]
    exact map_natCast_eq_some_iff (fun c => add_eq_some_iff ha' hb') c
  · rw [if_pos rfl]
    exact addSignint_eq_some_iff hs hb

theorem subOf_eq_some_iff (T : IntType) {a b c : ℤ} (ha : T.Contains a) (hb : T.Contains b) :
    subOf T a b = some c ↔ T.Contains (a - b) ∧ c = a - b := by
  unfold subOf
  cases hs : T.isSigned
  · -- `sub_unsignint` on the values
    obtain ⟨a', rfl, -⟩ := eq_natCast_of_contains hs ha
    obtain ⟨b', rfl, -⟩ := eq_natCast_of_contains hs hb
    rw [if_neg Bool.false_ne_true, Int.toNat_natCast, Int.toNat_natCast,
      map_natCast_eq_some_iff (fun c => sub_eq_some_iff) c]
    unfold Contains at *
    rw [minValue_of_unsigned hs] at *
    constructor
    · rintro ⟨h, rfl⟩
      exact ⟨⟨by omega, by omega⟩, by omega⟩
    · rintro ⟨h, rfl⟩
      exact ⟨by omega, by omega⟩
  · rw [if_pos rfl]
    exact subSignint_eq_some_iff hs hb

/-- **`SafeMath<T>::mul` fails exactly on overflow, and on the pairs `(min, -1)` and `(-1, min)` of a
    signed type.** -/
theorem mulOf_eq_some_iff (T : IntType) {a b c : ℤ} (ha : T.Contains a) (hb : T.Contains b) :
    mulOf T a b = some c ↔ (T.Contains (a * b) ∧ ¬T.MulExcluded a b) ∧ c = a * b := by
  unfold mulOf
  cases hs : T.isSigned
  · -- `mul` on the values; no pair is excluded
    obtain ⟨a', rfl, -⟩ := eq_natCast_of_contains hs ha
    obtain ⟨b', rfl, -⟩ := eq_natCast_of_contains hs hb
    have hne : ¬T.MulExcluded a' b' := fun h => by
      unfold MulExcluded at h
      rw [hs] at h
      cases h.1
    rw [if_neg Bool.false_ne_true, Int.toNat_natCast, Int.toNat_natCast, ← Nat.cast_mul,
      contains_natCast_iff hs]
    simp only [hne, not_false_eq_true, and_true]
    exact map_natCast_eq_some_iff (fun c => mul_eq_some_iff) c
  · rw [if_pos rfl]
    have hmin := minValue_le_of_signed hs
    split_ifs with hz
    · -- a zero operand: the product `0` fits, and the excluded pairs have no zero
      have hab : a * b = 0 := by rcases hz with h | h <;> simp [h]
      rw [hab]
      refine some_eq_some_iff_of ⟨T.contains_zero, fun h => ?_⟩
      rcases h.2 with ⟨h1, h2⟩ | ⟨h1, h2⟩ <;> omega
    · have hx : T.MulExcluded a b ↔ (a = T.minValue ∧ b = -1) ∨ (a = -1 ∧ b = T.minValue) :=
        ⟨fun h => h.2, fun h => ⟨hs, h⟩⟩
      rw [hx]
      exact mulSignint_eq_some_iff hs (by omega) (by omega)

/-- With two's complement the excluded pairs overflow anyway, so `SafeMath<T>::mul` fails exactly on
    overflow. -/
theorem mulOf_eq_some_iff_of_twos (T : IntType) (htwos : T.signMagnitude = false) {a b c : ℤ}
    (ha : T.Contains a) (hb : T.Contains b) :
    mulOf T a b = some c ↔ T.Contains (a * b) ∧ c = a * b := by
  have hover : T.MulExcluded a b → ¬T.Contains (a * b) := by
    rintro ⟨hs, ⟨rfl, rfl⟩ | ⟨rfl, rfl⟩⟩ <;> unfold Contains <;> unfold minValue maxValue <;>
      simp only [hs, htwos, Bool.not_true, Bool.not_false, Bool.and_true, if_true,
        Bool.false_eq_true, if_false] <;> omega
  rw [mulOf_eq_some_iff T ha hb]
  constructor
  · rintro ⟨⟨h, -⟩, rfl⟩
    exact ⟨h, rfl⟩
  · rintro ⟨h, rfl⟩
    exact ⟨⟨h, fun hx => hover hx h⟩, rfl⟩

/-- **`SafeMath<T>::div` fails exactly on a zero denominator and on `(min, -1)` of a signed type**,
    and otherwise truncates toward zero. -/
theorem divOf_eq_some_iff (T : IntType) {a b c : ℤ} (ha : T.Contains a) (hb : T.Contains b) :
    divOf T a b = some c ↔
      (b ≠ 0 ∧ ¬(T.isSigned = true ∧ a = T.minValue ∧ b = -1)) ∧ c = a.tdiv b := by
  unfold divOf
  cases hs : T.isSigned
  · -- `div` on the values
    obtain ⟨a', rfl, -⟩ := eq_natCast_of_contains hs ha
    obtain ⟨b', rfl, -⟩ := eq_natCast_of_contains hs hb
    rw [if_neg Bool.false_ne_true, Int.toNat_natCast, Int.toNat_natCast, ← Int.ofNat_tdiv,
      map_natCast_eq_some_iff (fun c => div_eq_some_iff) c]
    simp only [Bool.false_eq_true, false_and, not_false_eq_true, and_true, ne_eq,
      Nat.cast_eq_zero]
  · rw [if_pos rfl]
    unfold divSignint
    by_cases hz : b = 0
    · rw [if_pos hz]
      refine none_eq_some_iff_of fun h => ?_
      exact h.1 hz
    · rw [if_neg hz]
      by_cases hx : a = T.minValue ∧ b = -1
      · rw [if_pos hx]
        refine none_eq_some_iff_of fun h => ?_
        exact h.2 ⟨rfl, hx⟩
      · rw [if_neg hx]
        exact some_eq_some_iff_of ⟨hz, fun h => hx h.2⟩

theorem safeMath_ops_spec (T : IntType) {a b : ℤ} (ha : T.Contains a) (hb : T.Contains b) (c : ℤ) :
    (addOf T a b = some c ↔ T.Contains (a + b) ∧ c = a + b) ∧
      (subOf T a b = some c ↔ T.Contains (a - b) ∧ c = a - b) ∧
      (mulOf T a b = some c ↔ (T.Contains (a * b) ∧ ¬T.MulExcluded a b) ∧ c = a * b) ∧
      (T.signMagnitude = false → (mulOf T a b = some c ↔ T.Contains (a * b) ∧ c = a * b)) ∧
      (divOf T a b = some c ↔
        (b ≠ 0 ∧ ¬(T.isSigned = true ∧ a = T.minValue ∧ b = -1)) ∧ c = a.tdiv b) :=
  ⟨addOf_eq_some_iff T ha hb, subOf_eq_some_iff T ha hb, mulOf_eq_some_iff T ha hb,
    fun htwos => mulOf_eq_some_iff_of_twos T htwos ha hb, divOf_eq_some_iff T ha hb⟩

theorem safeMath_ops_spec_int8 :
    IntType.int8.Contains 100 ∧ IntType.int8.Contains (-28) ∧
      ((addOf .int8 100 (-28) = some 72 ↔ IntType.int8.Contains (100 + -28) ∧ (72 : ℤ) = 100 + -28) ∧
        (subOf .int8 100 (-28) = some 72 ↔
          IntType.int8.Contains (100 - -28) ∧ (72 : ℤ) = 100 - -28) ∧
        (mulOf .int8 100 (-28) = some 72 ↔
          (IntType.int8.Contains (100 * -28) ∧ ¬IntType.int8.MulExcluded 100 (-28)) ∧
            (72 : ℤ) = 100 * -28) ∧
        (IntType.int8.signMagnitude = false →
          (mulOf .int8 100 (-28) = some 72 ↔ IntType.int8.Contains (100 * -28) ∧ (72 : ℤ) = 100 * -28)) ∧
        (divOf .int8 100 (-28) = some 72 ↔
          ((-28 : ℤ) ≠ 0 ∧ ¬(IntType.int8.isSigned = true ∧ (100 : ℤ) = IntType.int8.minValue ∧
            (-28 : ℤ) = -1)) ∧ (72 : ℤ) = Int.tdiv 100 (-28))) :=
  ⟨by decide, by decide, safeMath_ops_spec .int8 (by decide) (by decide) 72⟩

/-- boost's `int128_t` keeps a sign and a magnitude, so `min = -max`: `mul(-1, min)` is refused
    although the product `max` fits. -/
theorem mul_refuses_representable_int128 :
    mulOf .int128 (-1) IntType.int128.minValue = none ∧
      IntType.int128.Contains (-1 * IntType.int128.minValue) := by
  have hmin : IntType.int128.minValue = -(2 ^ 128 - 1) := rfl
  have hmax : IntType.int128.maxValue = 2 ^ 128 - 1 := rfl
  refine ⟨?_, ?_⟩
  · unfold mulOf mulSignint
    rw [if_pos (by rfl), if_neg (by rw [hmin]; norm_num), if_pos (.inr ⟨rfl, rfl⟩)]
  · unfold IntType.Contains
    rw [hmin, hmax]
    norm_num

/-! ## `power_core` -/

/-- The loop of `power_core`: `count` times `SafeMath::mul(temp, base, temp)`, which stops at the
    first failure. -/
def powerLoop (T : IntType) (base : ℤ) : ℕ → ℤ → Option ℤ
  | 0, temp => some temp
  | count + 1, temp =>
    match mulOf T temp base with
    | none => none
    | some temp => powerLoop T base count temp

/-- `SafeMath<T>::power_core`: `1` for a zero exponent, a failure for a negative one, otherwise
    `exponent - 1` multiplications from `base`. The out-parameter is written only on success. -/
def powerCoreOf (T : IntType) (base exponent : ℤ) : Option ℤ :=
  if exponent = 0 then some 1
  else if exponent < 0 then none
  else powerLoop T base (exponent - 1).toNat base

/-- `SafeMath<T>::power`: the power, or, when `power_core` fails, a throw if `isCritical` and the
    untouched `T ret{}`, that is `0`, otherwise. -/
def powerOf (T : IntType) (base exponent : ℤ) (isCritical : Bool) : Option ℤ :=
  match powerCoreOf T base exponent with
  | some r => some r
  | none => if isCritical then none else some 0

theorem eq_ite_of_eq_some_iff {o : Option ℤ} {p : Prop} [Decidable p] {x : ℤ}
    (h : ∀ c, o = some c ↔ p ∧ c = x) : o = if p then some x else none := by
  by_cases hp : p
  · rw [if_pos hp]
    exact (h x).2 ⟨hp, rfl⟩
  · rw [if_neg hp]
    cases ho : o with
    | none => rfl
    | some c => exact absurd ((h c).1 ho).1 hp

section Powers

variable {T : IntType} {base : ℤ} (hb : T.Contains base)
include hb

/-- A power of a base the type holds is never an excluded pair with it: that would need
    `|min| = 1`. -/
theorem not_mulExcluded_pow {k : ℕ} (hk : 1 ≤ k) : ¬T.MulExcluded (base ^ k) base := by
  rintro ⟨hs, ⟨hpow, rfl⟩ | ⟨hpow, rfl⟩⟩
  · -- `(-1) ^ k = min`
    have habs := congrArg Int.natAbs hpow
    rw [Int.natAbs_pow] at habs
    have := minValue_le_of_signed hs
    simp only [Int.reduceNeg, Int.natAbs_neg, Int.natAbs_one, Nat.one_pow] at habs
    omega
  · -- `min ^ k = -1`
    have habs := congrArg Int.natAbs hpow
    rw [Int.natAbs_pow, Int.natAbs_neg, Int.natAbs_one, Nat.pow_eq_one] at habs
    have := minValue_le_of_signed hs
    omega

/-- One step of the loop: the next power, if it fits. -/
theorem mulOf_pow {k : ℕ} (hk : 1 ≤ k) (hpow : T.Contains (base ^ k)) :
    mulOf T (base ^ k) base = if T.Contains (base ^ (k + 1)) then some (base ^ (k + 1)) else none := by
  refine eq_ite_of_eq_some_iff fun c => ?_
  rw [mulOf_eq_some_iff T hpow hb, pow_succ]
  constructor
  · rintro ⟨⟨h, -⟩, rfl⟩
    exact ⟨h, rfl⟩
  · rintro ⟨h, rfl⟩
    exact ⟨⟨h, not_mulExcluded_pow hb hk⟩, rfl⟩

/-- **Once a power does not fit, no later one does**: its absolute value passed `max`, so the base's
    is at least `2`, and each further power at least doubles it. -/
theorem not_contains_pow_of_le {j j' : ℕ} (hj : ¬T.Contains (base ^ j)) (hle : j ≤ j') :
    ¬T.Contains (base ^ j') := by
  have hmax := T.maxValue_ge
  have hsign : T.isSigned = true ∨ 0 ≤ base := by
    cases hs : T.isSigned
    · have := hb.1
      rw [minValue_of_unsigned hs] at this
      exact .inr this
    · exact .inl rfl
  have hsign_pow : ∀ n : ℕ, T.isSigned = true ∨ 0 ≤ base ^ n := fun n =>
    hsign.imp id fun h => pow_nonneg h n
  -- the power that does not fit is beyond `max`
  have hbig : T.maxValue < (base.natAbs ^ j : ℕ) := by
    by_contra hsmall
    rw [← Int.natAbs_pow] at hsmall
    exact hj (T.contains_of_natAbs_le (by omega) (hsign_pow j))
  have htwo : 2 ≤ base.natAbs := by
    by_contra hone
    have hle1 : base.natAbs ^ j ≤ 1 ^ j := Nat.pow_le_pow_left (by omega) j
    rw [Nat.one_pow] at hle1
    omega
  rcases Nat.eq_or_lt_of_le hle with rfl | hlt
  · exact hj
  · -- a later power is at least twice as large, so beyond `max + 1`
    have hgrow : 2 * base.natAbs ^ j ≤ base.natAbs ^ j' :=
      calc 2 * base.natAbs ^ j ≤ base.natAbs * base.natAbs ^ j := Nat.mul_le_mul_right _ htwo
        _ = base.natAbs ^ (j + 1) := by rw [Nat.pow_succ, Nat.mul_comm]
        _ ≤ base.natAbs ^ j' := Nat.pow_le_pow_right (by omega) hlt
    intro hc
    have habs := T.natAbs_le_of_contains hc
    rw [Int.natAbs_pow] at habs
    omega

/-- **The loop computes the power while it fits**, and fails at the first power that does not. -/
theorem powerLoop_pow : ∀ (n k : ℕ), 1 ≤ k → T.Contains (base ^ k) →
    powerLoop T base n (base ^ k) =
      if T.Contains (base ^ (k + n)) then some (base ^ (k + n)) else none
  | 0, k, _, hk => by rw [powerLoop, Nat.add_zero, if_pos hk]
  | n + 1, k, hk1, hk => by
    rw [powerLoop, mulOf_pow hb hk1 hk]
    by_cases hnext : T.Contains (base ^ (k + 1))
    · rw [if_pos hnext]
      dsimp only
      rw [powerLoop_pow n (k + 1) (by omega) hnext, show k + 1 + n = k + (n + 1) by omega]
    · rw [if_neg hnext, if_neg (not_contains_pow_of_le hb hnext (by omega))]

end Powers

theorem powerCoreOf_spec (T : IntType) {base exponent : ℤ} (hb : T.Contains base) :
    (∀ r, powerCoreOf T base exponent = some r ↔
      (0 ≤ exponent ∧ T.Contains (base ^ exponent.toNat)) ∧ r = base ^ exponent.toNat) ∧
      (powerCoreOf T base exponent = none → powerOf T base exponent false = some 0) ∧
      (T.Contains (base ^ exponent.toNat) →
        ∀ k : ℕ, 1 ≤ k → k ≤ exponent.toNat → T.Contains (base ^ k)) := by
  refine ⟨fun r => ?_, fun h => ?_, fun hfit k hk hle => ?_⟩
  · unfold powerCoreOf
    by_cases h0 : exponent = 0
    · -- `power_core` answers `1` at once
      subst h0
      rw [if_pos rfl, Int.toNat_zero, pow_zero]
      exact some_eq_some_iff_of ⟨le_rfl, T.contains_one⟩
    · rw [if_neg h0]
      by_cases hneg : exponent < 0
      · rw [if_pos hneg]
        refine none_eq_some_iff_of fun h => ?_
        exact absurd h.1 (by omega)
      · -- `exponent - 1` multiplications from `base ^ 1`
        rw [if_neg hneg]
        have hloop := powerLoop_pow hb (exponent - 1).toNat 1 le_rfl (by rwa [pow_one])
        rw [pow_one] at hloop
        rw [hloop, show 1 + (exponent - 1).toNat = exponent.toNat by omega]
        by_cases hc : T.Contains (base ^ exponent.toNat)
        · rw [if_pos hc]
          exact some_eq_some_iff_of ⟨by omega, hc⟩
        · rw [if_neg hc]
          exact none_eq_some_iff_of fun h => hc h.2
  · unfold powerOf
    rw [h]
    rfl
  · by_contra hk'
    exact not_contains_pow_of_le hb hk' hle hfit

theorem powerCoreOf_spec_int8 :
    IntType.int8.Contains (-2) ∧
      ((∀ r, powerCoreOf .int8 (-2) 7 = some r ↔
          (0 ≤ (7 : ℤ) ∧ IntType.int8.Contains ((-2) ^ (7 : ℤ).toNat)) ∧ r = (-2) ^ (7 : ℤ).toNat) ∧
        (powerCoreOf .int8 (-2) 7 = none → powerOf .int8 (-2) 7 false = some 0) ∧
        (IntType.int8.Contains ((-2) ^ (7 : ℤ).toNat) →
          ∀ k : ℕ, 1 ≤ k → k ≤ (7 : ℤ).toNat → IntType.int8.Contains ((-2) ^ k))) :=
  ⟨by decide, powerCoreOf_spec .int8 (by decide)⟩

example : powerCoreOf .int8 (-2) 7 = some (-128) := by decide

end SafeMath

end Zilliqa
