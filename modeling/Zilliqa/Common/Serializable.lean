import Zilliqa.Lib.Codec

/-!
# `Common.Serializable` — numbers at an offset in a byte vector

`Serializable::SetNumber<T>(dst, offset, value, len)` stores the `len` low bytes of `value`, most
significant first, at `offset`, growing `dst` when it is too short; `GetNumber<T>(src, offset, len)`
reads them back, or answers `0` when `offset + len` passes the size. `SerializableDataBlock` has the
same two functions, and both members below are the one definition each.

The offsets and lengths are `unsigned int`: `offset + len` and each `offset + i` are sums modulo
`2 ^ 32`, and `length_available` is `dst.size() - offset` cut to 32 bits. A read or write through
`at` past the end throws `std::out_of_range`, which is `none` here.

When nothing wraps — the offset within the vector, the vector less than `2 ^ 32` past it, and
`offset + len` at most `2 ^ 32` — `SetNumber` leaves a vector of size `max(|dst|, offset + len)`
that differs from `dst` only in `[offset, offset + len)`, and `GetNumber` reads back the value
modulo `2 ^ (8 * len)` (`setNumberAt_spec`); a read past the end answers `0`
(`getNumberAt_of_lt`). The bound check itself wraps, though: an offset near `2 ^ 32` passes it
and the read throws (`getNumber_throws_on_wrapped_offset`).

## Contents
- `storeBytes`, `loadBytes`: the loops, at `unsigned int` indices.
- `setNumberAt`, `getNumberAt`, and the members `Serializable.setNumber`, `Serializable.getNumber`,
  `SerializableDataBlock.setNumber`, `SerializableDataBlock.getNumber`.
- `storeBytes_eq`, `loadBytes_eq`: the loops when no index wraps; `setNumberAt_spec`.
-/

namespace Zilliqa

open Codec

/-- `vector::resize`: cut to `n`, or filled with zeros up to `n`. -/
def resize (l : List UInt8) (n : ℕ) : List UInt8 := l.take n ++ List.replicate (n - l.length) 0

/-- The loop of `SetNumber`: the bytes stored one by one through `dst.at(offset + i)`. -/
def storeBytes (dst : List UInt8) (offset : ℕ) : List UInt8 → Option (List UInt8)
  | [] => some dst
  | b :: bytes =>
    if offset % 2 ^ 32 < dst.length then storeBytes (dst.set (offset % 2 ^ 32) b) (offset + 1) bytes
    else none

/-- The loop of `GetNumber`: the `len` bytes `src.at(offset + i)`. -/
def loadBytes (src : List UInt8) : ℕ → ℕ → Option (List UInt8)
  | _, 0 => some []
  | offset, len + 1 =>
    match src[offset % 2 ^ 32]? with
    | none => none
    | some b => (loadBytes src (offset + 1) len).map (b :: ·)

/-- `SetNumber<T>(dst, offset, value, len)`: `length_available` is `dst.size() - offset` in an
    `unsigned int`; when it is below `len` the vector grows by the difference; then the `len` bytes
    of `value`, most significant first (`(value >> right_shift) & 0xFF`), are stored. -/
def setNumberAt (dst : List UInt8) (offset value len : ℕ) : Option (List UInt8) :=
  let lengthAvailable := (((dst.length : ℤ) - offset) % 2 ^ 32).toNat
  let dst := if lengthAvailable < len then resize dst (dst.length + len - lengthAvailable) else dst
  storeBytes dst offset (setNumber len value)

/-- `GetNumber<T>(src, offset, len)`: `0` unless `offset + len`, an `unsigned int` sum, is within
    the size; otherwise the sum of byte `i` shifted left by `8 * (len - 1 - i)`. -/
def getNumberAt (src : List UInt8) (offset len : ℕ) : Option ℕ :=
  if (offset + len) % 2 ^ 32 ≤ src.length then
    (loadBytes src offset len).map fun bytes => getNumber bytes len
  else some 0

/-- `Serializable::SetNumber`. -/
def Serializable.setNumber (dst : List UInt8) (offset value len : ℕ) : Option (List UInt8) :=
  setNumberAt dst offset value len

/-- `Serializable::GetNumber`. -/
def Serializable.getNumber (src : List UInt8) (offset len : ℕ) : Option ℕ :=
  getNumberAt src offset len

/-- `SerializableDataBlock::SetNumber`, the same code. -/
def SerializableDataBlock.setNumber (dst : List UInt8) (offset value len : ℕ) :
    Option (List UInt8) :=
  setNumberAt dst offset value len

/-- `SerializableDataBlock::GetNumber`, the same code. -/
def SerializableDataBlock.getNumber (src : List UInt8) (offset len : ℕ) : Option ℕ :=
  getNumberAt src offset len

/-! ## The loops when no index wraps -/

theorem take_add_one_set {l : List UInt8} {o : ℕ} (b : UInt8) (h : o < l.length) :
    (l.set o b).take (o + 1) = l.take o ++ [b] := by
  rw [List.take_add_one, List.take_set_of_le (Nat.le_refl o), List.getElem?_set_self h]
  rfl

/-- **The stores, when every index is below `2 ^ 32` and within the vector**: the bytes replace
    those at `[offset, offset + |bytes|)`. -/
theorem storeBytes_eq : ∀ (bytes dst : List UInt8) (o : ℕ), o + bytes.length ≤ dst.length →
    o + bytes.length ≤ 2 ^ 32 →
      storeBytes dst o bytes = some (dst.take o ++ bytes ++ dst.drop (o + bytes.length))
  | [], dst, o, _, _ => by
    rw [storeBytes, List.append_nil, List.length_nil, Nat.add_zero, List.take_append_drop]
  | b :: bytes, dst, o, hlen, hwrap => by
    simp only [List.length_cons] at hlen hwrap
    have hmod : o % 2 ^ 32 = o := Nat.mod_eq_of_lt (by omega)
    have ih := storeBytes_eq bytes (dst.set o b) (o + 1) (by rw [List.length_set]; omega)
      (by omega)
    rw [storeBytes, hmod, if_pos (by omega), ih, take_add_one_set b (by omega),
      List.drop_set_of_lt (by omega)]
    simp only [List.append_assoc, List.cons_append, List.nil_append, List.length_cons]
    rw [show o + 1 + bytes.length = o + (bytes.length + 1) by omega]

/-- **The loads, when every index is below `2 ^ 32` and within the vector**: the `len` bytes at
    `offset`. -/
theorem loadBytes_eq (src : List UInt8) : ∀ (len o : ℕ), o + len ≤ src.length → o + len ≤ 2 ^ 32 →
    loadBytes src o len = some ((src.drop o).take len)
  | 0, o, _, _ => by rw [loadBytes, List.take_zero]
  | len + 1, o, hlen, hwrap => by
    have hmod : o % 2 ^ 32 = o := Nat.mod_eq_of_lt (by omega)
    have ho : o < src.length := by omega
    rw [loadBytes, hmod, List.getElem?_eq_getElem ho]
    dsimp only
    rw [loadBytes_eq src len (o + 1) (by omega) (by omega), Option.map_some,
      List.drop_eq_getElem_cons ho, List.take_succ_cons]

/-- A read past the end, when `offset + len` does not wrap, answers `0`. -/
theorem getNumberAt_of_lt {src : List UInt8} {o len : ℕ} (hwrap : o + len < 2 ^ 32)
    (hpast : src.length < o + len) : getNumberAt src o len = some 0 := by
  unfold getNumberAt
  rw [Nat.mod_eq_of_lt hwrap, if_neg (by omega)]

/-- A read within the vector, when `offset + len` stays at most `2 ^ 32`, is the number of the
    bytes at `offset`. -/
theorem getNumberAt_of_le {src : List UInt8} {o len : ℕ} (hwrap : o + len ≤ 2 ^ 32)
    (hin : o + len ≤ src.length) : getNumberAt src o len = some (getNumber (src.drop o) len) := by
  have hcheck : (o + len) % 2 ^ 32 ≤ src.length := by
    rcases Nat.lt_or_eq_of_le hwrap with h | h
    · rw [Nat.mod_eq_of_lt h]
      exact hin
    · rw [h, Nat.mod_self]
      exact Nat.zero_le _
  unfold getNumberAt
  rw [if_pos hcheck, loadBytes_eq src len o hin hwrap, Option.map_some]
  -- `getNumber` reads the first `len` bytes only
  have hsplit := getNumber_append_of_le ((src.drop o).take len) ((src.drop o).drop len)
    (show len ≤ ((src.drop o).take len).length by
      simp only [List.length_take, List.length_drop]
      omega)
  rw [List.take_append_drop] at hsplit
  rw [hsplit]

/-! ## `SetNumber` when nothing wraps -/

/-- Filling with zeros up to `n` keeps every byte of the vector and adds nothing readable past
    `n`. -/
theorem getElem?_append_replicate_of_le {l : List UInt8} {n j : ℕ} (hj : n ≤ j) :
    (l ++ List.replicate (n - l.length) 0)[j]? = l[j]? := by
  by_cases hl : j < l.length
  · rw [List.getElem?_append_left hl]
  · rw [List.getElem?_append_right (by omega), List.getElem?_eq_none (by simp; omega),
      List.getElem?_eq_none (by omega)]

/-- The vector `SetNumber` writes into, when the offset is within `dst` and `dst` is less than
    `2 ^ 32` bytes past it: `dst` filled with zeros up to `offset + len`. -/
theorem setNumberAt_eq {dst : List UInt8} {o len : ℕ} (value : ℕ) (ho : o ≤ dst.length)
    (hdst : dst.length < o + 2 ^ 32) :
    setNumberAt dst o value len =
      storeBytes (dst ++ List.replicate (o + len - dst.length) 0) o (setNumber len value) := by
  have havail : (((dst.length : ℤ) - o) % 2 ^ 32).toNat = dst.length - o := by
    rw [Int.emod_eq_of_lt (by omega) (by omega)]
    omega
  unfold setNumberAt
  dsimp only
  rw [havail]
  congr 1
  split_ifs with hshort
  · -- `length_available` is short: the vector grows to `offset + len`
    rw [resize, show dst.length + len - (dst.length - o) = o + len by omega,
      List.take_of_length_le (by omega)]
  · rw [show o + len - dst.length = 0 by omega, List.replicate_zero, List.append_nil]

/-- **`SetNumber` and `GetNumber` when nothing wraps**: the vector has size
    `max(|dst|, offset + len)`, every byte outside `[offset, offset + len)` is kept, and the number
    reads back modulo `2 ^ (8 * len)`. -/
theorem setNumberAt_spec {dst : List UInt8} {o len : ℕ} (value : ℕ) (ho : o ≤ dst.length)
    (hdst : dst.length < o + 2 ^ 32) (hwrap : o + len ≤ 2 ^ 32) :
    ∃ dst', setNumberAt dst o value len = some dst' ∧
      dst'.length = max dst.length (o + len) ∧
      (∀ j, j < o ∨ o + len ≤ j → dst'[j]? = dst[j]?) ∧
      getNumberAt dst' o len = some (value % 2 ^ (8 * len)) := by
  set R := dst ++ List.replicate (o + len - dst.length) 0 with hR
  have hRlen : R.length = max dst.length (o + len) := by
    rw [hR, List.length_append, List.length_replicate]
    omega
  have hstore := storeBytes_eq (setNumber len value) R o
    (by rw [length_setNumber, hRlen]; omega) (by rw [length_setNumber]; exact hwrap)
  rw [length_setNumber] at hstore
  have hfront : (R.take o ++ setNumber len value).length = o + len := by
    rw [List.length_append, List.length_take, length_setNumber]
    omega
  refine ⟨_, (setNumberAt_eq value ho hdst).trans hstore, ?_, fun j hj => ?_, ?_⟩
  · rw [List.length_append, hfront, List.length_drop, hRlen]
    omega
  · rcases hj with hj | hj
    · -- before the number: the kept prefix
      rw [List.getElem?_append_left (by omega), List.getElem?_append_left (by simp; omega),
        List.getElem?_take, if_pos hj, hR, List.getElem?_append_left (by omega)]
    · -- after the number: the kept suffix, or nothing
      rw [List.getElem?_append_right (by omega), hfront, List.getElem?_drop,
        show o + len + (j - (o + len)) = j by omega, hR, getElem?_append_replicate_of_le hj]
  · rw [getNumberAt_of_le hwrap (by rw [List.length_append, hfront]; omega), List.append_assoc,
      List.drop_left' (by rw [List.length_take]; omega), getNumber_setNumber_append]

/-- `SetNumber` on the offset of the vector's end appends the number. -/
example : setNumberAt [7] 1 258 2 = some [7, 1, 2] := by decide

/-- With an offset of `2 ^ 32 - 1`, `offset + len` wraps to `1`, which passes the size check of a
    one-byte vector, and `src.at(offset)` throws. -/
theorem getNumber_throws_on_wrapped_offset :
    [(0 : UInt8)].length < 2 ^ 32 - 1 + 2 ∧ Serializable.getNumber [0] (2 ^ 32 - 1) 2 = none ∧
      SerializableDataBlock.getNumber [0] (2 ^ 32 - 1) 2 = none := by
  decide

end Zilliqa
