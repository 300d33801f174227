import Zilliqa.Lib.Codec

/-!
# `Message.MessengerCommon` — numbers in protobuf byte arrays

`MessengerCommon.h` sends a `uint128_t` as a `ByteArray` of `UINT128_SIZE` bytes, most significant
first (`NumberToProtobufByteArray`), and reads it back with `GetNumber`
(`ProtobufByteArrayToNumber`). Blocks and transactions both send their amounts this way.
-/

namespace Zilliqa

open Codec

/-- `UINT128_SIZE`. -/
def uint128Size : ℕ := 16

/-- `NumberToProtobufByteArray<uint128_t, UINT128_SIZE>`. -/
def numberToProtobufByteArray (number : Fin (2 ^ 128)) : List UInt8 :=
  setNumber uint128Size number.val

/-- `ProtobufByteArrayToNumber<uint128_t, UINT128_SIZE>`: `GetNumber` of the bytes, in `uint128_t`. -/
def protobufByteArrayToNumber (byteArray : List UInt8) : Fin (2 ^ 128) :=
  ⟨getNumber byteArray uint128Size % 2 ^ 128, Nat.mod_lt _ (Nat.two_pow_pos 128)⟩

@[simp] theorem protobufByteArrayToNumber_numberToProtobufByteArray (n : Fin (2 ^ 128)) :
    protobufByteArrayToNumber (numberToProtobufByteArray n) = n := by
  apply Fin.ext
  show getNumber (setNumber uint128Size n.val) uint128Size % 2 ^ 128 = n.val
  -- sixteen bytes hold every 128-bit number
  have hwidth : 8 * uint128Size = 128 := rfl
  rw [getNumber_setNumber, hwidth, Nat.mod_mod, Nat.mod_eq_of_lt n.isLt]

end Zilliqa
