import Mathlib

/-!
# `Lib.Digits` — numerals written by `Nat.toDigits`, read back up to base sixteen

`Nat.toDigits b n` writes `n` in base `b` with the characters of `Nat.digitChar`, lowercase letters
past nine, as a stream does under `std::hex`. Core reads such a numeral back only up to base ten
(`Nat.ofDigitChars`); `ofHexChars` reads the letters as well.

- `ofHexChars_toDigits`: the round trip, for every base from two to sixteen.
- `toDigits_injective`: so the numeral determines the number.

The argument follows `Nat.toDigitsCore`: each step writes the last digit in front of those already
written, and the numeral read so far is the number shifted by their count (`ofHexChars_toDigitsCore`).

Nothing here names the identifiers that instantiate it.
-/

namespace Digits

/-- The value of a character that `Nat.digitChar` writes for a digit below sixteen. -/
def hexCharValue (c : Char) : ℕ :=
  if c.toNat ≤ '9'.toNat then c.toNat - '0'.toNat else c.toNat - 'a'.toNat + 10

/-- A numeral in base `b`, most significant digit first, read on from `init`. -/
def ofHexChars (b : ℕ) (cs : List Char) (init : ℕ) : ℕ :=
  cs.foldl (fun sofar c => b * sofar + hexCharValue c) init

theorem hexCharValue_digitChar : ∀ d, d < 16 → hexCharValue (Nat.digitChar d) = d := by
  decide

/-- Reading on from a larger start shifts the start by the digits read. -/
theorem ofHexChars_init (b : ℕ) :
    ∀ (cs : List Char) (init : ℕ), ofHexChars b cs init = init * b ^ cs.length + ofHexChars b cs 0 := by
  intro cs
  induction cs with
  | nil => intro init; simp [ofHexChars]
  | cons c cs ih =>
    intro init
    show ofHexChars b cs (b * init + hexCharValue c) =
      init * b ^ (cs.length + 1) + ofHexChars b cs (b * 0 + hexCharValue c)
    rw [ih, ih (b * 0 + hexCharValue c)]
    ring

section Base

variable {b : ℕ}

/-- **Each step of `Nat.toDigitsCore` keeps the reading**: with enough fuel, the numeral written
    in front of `ds` reads as `n` shifted past `ds`. The induction is on the fuel, with the number
    and the digits written so far generalised. -/
theorem ofHexChars_toDigitsCore (hb : 1 < b) (hb16 : b ≤ 16) :
    ∀ (fuel n : ℕ) (ds : List Char), n < fuel →
      ofHexChars b (Nat.toDigitsCore b fuel n ds) 0 = n * b ^ ds.length + ofHexChars b ds 0 := by
  intro fuel
  induction fuel with
  | zero => intro n ds hn; exact absurd hn (Nat.not_lt_zero n)
  | succ fuel ih =>
    intro n ds hn
    -- the digit written at this step, and its value
    have hdigit : hexCharValue (Nat.digitChar (n % b)) = n % b :=
      hexCharValue_digitChar _ (lt_of_lt_of_le (Nat.mod_lt n (by omega)) hb16)
    have hfront : ofHexChars b (Nat.digitChar (n % b) :: ds) 0 =
        n % b * b ^ ds.length + ofHexChars b ds 0 := by
      show ofHexChars b ds (b * 0 + hexCharValue (Nat.digitChar (n % b))) = _
      rw [ofHexChars_init, hdigit, Nat.mul_zero, Nat.zero_add]
    rw [Nat.toDigitsCore]
    split_ifs with hlast
    · -- the last digit: `n` is below the base
      rw [hfront, Nat.mod_eq_of_lt ((Nat.div_eq_zero_iff_lt (by omega)).1 hlast)]
    · -- a further digit in front, with `n / b` left to write
      have hless : n / b < fuel := by
        have hpos : 0 < n := Nat.pos_of_ne_zero fun h0 => hlast (by rw [h0, Nat.zero_div])
        have : n / b < n := Nat.div_lt_self hpos hb
        omega
      rw [ih (n / b) _ hless, List.length_cons, hfront]
      calc n / b * b ^ (ds.length + 1) + (n % b * b ^ ds.length + ofHexChars b ds 0)
          = (b * (n / b) + n % b) * b ^ ds.length + ofHexChars b ds 0 := by ring
        _ = n * b ^ ds.length + ofHexChars b ds 0 := by rw [Nat.div_add_mod]

/-- **The round trip**: `ofHexChars` reads back what `Nat.toDigits` writes, from base two to
    sixteen. -/
theorem ofHexChars_toDigits (hb : 1 < b) (hb16 : b ≤ 16) (n : ℕ) :
    ofHexChars b (Nat.toDigits b n) 0 = n := by
  unfold Nat.toDigits
  rw [ofHexChars_toDigitsCore hb hb16 (n + 1) n [] (Nat.lt_succ_self n)]
  simp [ofHexChars]

theorem toDigits_injective (hb : 1 < b) (hb16 : b ≤ 16) : Function.Injective (Nat.toDigits b) := by
  intro n m h
  calc n = ofHexChars b (Nat.toDigits b n) 0 := (ofHexChars_toDigits hb hb16 n).symm
    _ = ofHexChars b (Nat.toDigits b m) 0 := by rw [h]
    _ = m := ofHexChars_toDigits hb hb16 m

end Base

end Digits
