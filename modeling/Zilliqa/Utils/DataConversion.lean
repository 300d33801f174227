import Mathlib

/-!
# `Utils.DataConversion` — hex text and byte strings

`DataConversion::Uint8VecToHexStr` writes bytes with `boost::algorithm::hex`: two digits a byte,
high half first, from the upper-case alphabet `0123456789ABCDEF`. `HexStrToUint8Vec` drops a leading
`0x` and reads the rest with `boost::algorithm::unhex`, which takes two digits at a time, accepts
either case, and throws on a character that is no digit and on a last digit without its partner.
`unhex` writes each byte as soon as its two digits are read, so when it throws, the output holds the
bytes of the pairs read before: `HexStrToUint8Vec` returns false with that output, and
`HexStrToUint8VecRet` returns it as its result.

Text is a list of characters. A `std::string` is a list of bytes, but a character outside ASCII is
no digit in either reading and ends the decoding at the same pair, so nothing here depends on the
difference.

## Contents
- `hexChar`, `hexCharToInt`, `hex`, `unhex`, and the three conversions, as in the source and in
  `boost/algorithm/hex.hpp`.
- `unhex_hex`: reading back what `hex` wrote gives the bytes; `hex_unhex`: writing back what `unhex`
  read from an even number of digits gives them in upper case.
- `unhex_cases`: `unhex` reads to the end exactly on an even number of digits, and otherwise stops
  at the first pair that is not two digits with the bytes of the pairs before written.
- `hexStrToUint8Vec_uint8VecToHexStr`: the round trips through the text, with or without `0x`.
- `hexStrToUint8Vec_ok_iff`: what `HexStrToUint8Vec` accepts, and what it and
  `HexStrToUint8VecRet` give otherwise.
-/

namespace Zilliqa

namespace DataConversion

/-! ## The model -/

/-- The digit `hex` writes for a half byte: `"0123456789ABCDEF"[d]`. -/
def hexChar (d : ℕ) : Char := "0123456789ABCDEF".toList.getD d '0'

/-- `hex_char_to_int`: the value of a digit of either case, `none` where boost throws
    `non_hex_input`. -/
def hexCharToInt (c : Char) : Option ℕ :=
  if '0' ≤ c ∧ c ≤ '9' then some (c.toNat - '0'.toNat)
  else if 'A' ≤ c ∧ c ≤ 'F' then some (c.toNat - 'A'.toNat + 10)
  else if 'a' ≤ c ∧ c ≤ 'f' then some (c.toNat - 'a'.toNat + 10)
  else none

/-- The two digits `hex` writes for a byte, high half first. -/
def hexByte (b : UInt8) : List Char := [hexChar (b.toNat / 16), hexChar (b.toNat % 16)]

/-- `boost::algorithm::hex` over a byte string. -/
def hex (bytes : List UInt8) : List Char := bytes.flatMap hexByte

/-- `boost::algorithm::unhex` into a byte vector: the bytes written, and whether it read to the end
    (`false` where it throws `non_hex_input` or `not_enough_input`). -/
def unhex : List Char → List UInt8 × Bool
  | [] => ([], true)
  | [_] => ([], false)
  | c₁ :: c₂ :: rest =>
    match hexCharToInt c₁, hexCharToInt c₂ with
    | some hi, some lo =>
      let r := unhex rest
      (UInt8.ofNat (16 * hi + lo) :: r.1, r.2)
    | _, _ => ([], false)

/-- `Uint8VecToHexStr`: `hex` never throws, so the result is always true. -/
def uint8VecToHexStr (hexVec : List UInt8) : Bool × String := (true, String.ofList (hex hexVec))

/-- The `offset` of `HexStrToUint8Vec`: a leading `0x` is skipped. -/
def dropHexPrefix : List Char → List Char
  | '0' :: 'x' :: rest => rest
  | cs => cs

/-- **`HexStrToUint8Vec`**: whether `unhex` read to the end, and the bytes it wrote. -/
def hexStrToUint8Vec (hexInput : String) : Bool × List UInt8 :=
  let r := unhex (dropHexPrefix hexInput.toList)
  (r.2, r.1)

/-- `HexStrToUint8VecRet`: the bytes, whether `unhex` threw or not. -/
def hexStrToUint8VecRet (hexInput : String) : List UInt8 := (hexStrToUint8Vec hexInput).2

/-! ## Digits -/

theorem hexCharToInt_hexChar : ∀ d, d < 16 → hexCharToInt (hexChar d) = some d := by
  decide

theorem hexChar_ne_x (d : ℕ) : hexChar d ≠ 'x' := by
  rcases Nat.lt_or_ge d 16 with hd | hd
  · interval_cases d <;> decide
  · have hlen : "0123456789ABCDEF".toList.length ≤ d := by simpa using hd
    rw [hexChar, List.getD_eq_default _ _ hlen]
    decide

/-- A byte is its high half times sixteen plus its low half. -/
theorem byte_halves (b : UInt8) : UInt8.ofNat (16 * (b.toNat / 16) + b.toNat % 16) = b := by
  rw [Nat.div_add_mod]
  exact UInt8.ofNat_toNat

/-- The value of a digit is below sixteen, and `hex` writes the digit back in upper case. -/
theorem hexCharToInt_spec {c : Char} {d : ℕ} (h : hexCharToInt c = some d) :
    d < 16 ∧ hexChar d = c.toUpper := by
  -- each of the three ranges, code point by code point
  have hdigit : ∀ n, 48 ≤ n → n ≤ 57 →
      n - '0'.toNat < 16 ∧ hexChar (n - '0'.toNat) = (Char.ofNat n).toUpper := by
    intro n h₁ h₂
    interval_cases n <;> decide
  have hupper : ∀ n, 65 ≤ n → n ≤ 70 →
      n - 'A'.toNat + 10 < 16 ∧ hexChar (n - 'A'.toNat + 10) = (Char.ofNat n).toUpper := by
    intro n h₁ h₂
    interval_cases n <;> decide
  have hlower : ∀ n, 97 ≤ n → n ≤ 102 →
      n - 'a'.toNat + 10 < 16 ∧ hexChar (n - 'a'.toNat + 10) = (Char.ofNat n).toUpper := by
    intro n h₁ h₂
    interval_cases n <;> decide
  -- `Char`'s order is the order of the code points
  have hle : ∀ a b : Char, a ≤ b ↔ a.toNat ≤ b.toNat := fun _ _ => Iff.rfl
  unfold hexCharToInt at h
  split_ifs at h with h₁ h₂ h₃ <;> cases h
  · have := hdigit c.toNat ((hle _ _).1 h₁.1) ((hle _ _).1 h₁.2)
    rwa [Char.ofNat_toNat] at this
  · have := hupper c.toNat ((hle _ _).1 h₂.1) ((hle _ _).1 h₂.2)
    rwa [Char.ofNat_toNat] at this
  · have := hlower c.toNat ((hle _ _).1 h₃.1) ((hle _ _).1 h₃.2)
    rwa [Char.ofNat_toNat] at this

/-! ## Round trips -/

/-- **Reading back what `hex` wrote gives the bytes**, and reads to the end. The induction is on
    the bytes, two digits each. -/
theorem unhex_hex (bytes : List UInt8) : unhex (hex bytes) = (bytes, true) := by
  induction bytes with
  | nil => rfl
  | cons b rest ih =>
    have hhi : b.toNat / 16 < 16 := by
      have := b.toNat_lt
      omega
    have hlo : b.toNat % 16 < 16 := Nat.mod_lt _ (by norm_num)
    rw [hex, List.flatMap_cons, hexByte, List.cons_append, List.cons_append, List.nil_append,
      unhex, hexCharToInt_hexChar _ hhi, hexCharToInt_hexChar _ hlo]
    dsimp only
    rw [← hex, ih, byte_halves]

/-- `hex` never writes an `x`, so the text it writes has no prefix to drop. -/
theorem dropHexPrefix_hex (bytes : List UInt8) : dropHexPrefix (hex bytes) = hex bytes := by
  cases bytes with
  | nil => rfl
  | cons b rest =>
    rw [hex, List.flatMap_cons, hexByte, List.cons_append, List.cons_append]
    unfold dropHexPrefix
    split
    · rename_i hx
      exact absurd (List.cons.inj hx).2 fun h => hexChar_ne_x _ (List.cons.inj h).1
    · rfl

/-- `HexStrToUint8Vec` reads the bytes back from what `Uint8VecToHexStr` wrote, with or without a
    `0x` in front. -/
theorem hexStrToUint8Vec_hex (bytes : List UInt8) :
    hexStrToUint8Vec (String.ofList (hex bytes)) = (true, bytes) ∧
      hexStrToUint8Vec ("0x" ++ String.ofList (hex bytes)) = (true, bytes) := by
  constructor
  · rw [hexStrToUint8Vec, String.toList_ofList, dropHexPrefix_hex, unhex_hex]
  · rw [hexStrToUint8Vec]
    have h0x : "0x".toList = ['0', 'x'] := rfl
    rw [String.toList_append, h0x, List.cons_append, List.cons_append, List.nil_append]
    -- the `0x` is dropped, and what is left is the text `hex` wrote
    simp only [dropHexPrefix, String.toList_ofList, unhex_hex]

/-! ## What `HexStrToUint8Vec` accepts -/

/-- Text `unhex` reads to the end: an even number of digits. -/
def HexDigits (cs : List Char) : Prop := Even cs.length ∧ ∀ c ∈ cs, (hexCharToInt c).isSome

/-- A pair of digits: its byte is written, and the rest is read on. -/
theorem unhex_of_digits {c₁ c₂ : Char} {hi lo : ℕ} (h₁ : hexCharToInt c₁ = some hi)
    (h₂ : hexCharToInt c₂ = some lo) (rest : List Char) :
    unhex (c₁ :: c₂ :: rest) = (UInt8.ofNat (16 * hi + lo) :: (unhex rest).1, (unhex rest).2) := by
  rw [unhex, h₁, h₂]

/-- A pair that is not two digits: `unhex` throws, having written nothing more. -/
theorem unhex_of_not_digits {c₁ c₂ : Char}
    (hbad : ∀ hi lo, hexCharToInt c₁ = some hi → hexCharToInt c₂ = some lo → False)
    (rest : List Char) : unhex (c₁ :: c₂ :: rest) = ([], false) := by
  rw [unhex]
  cases h₁ : hexCharToInt c₁ with
  | none => rfl
  | some hi =>
    cases h₂ : hexCharToInt c₂ with
    | none => rfl
    | some lo => exact absurd (hbad hi lo h₁ h₂) id

/-- A pair that is not two digits has a character that is no digit. -/
theorem isSome_eq_false_of_not_digits {c₁ c₂ : Char}
    (hbad : ∀ hi lo, hexCharToInt c₁ = some hi → hexCharToInt c₂ = some lo → False) :
    (hexCharToInt c₁).isSome = false ∨ (hexCharToInt c₂).isSome = false := by
  cases h₁ : hexCharToInt c₁ with
  | none => exact Or.inl rfl
  | some hi =>
    cases h₂ : hexCharToInt c₂ with
    | none => exact Or.inr rfl
    | some lo => exact absurd (hbad hi lo h₁ h₂) id

/-- Text that starts with such a pair is not all digits. -/
theorem not_hexDigits_of_isSome_eq_false {c₁ c₂ : Char} (rest : List Char)
    (hpair : (hexCharToInt c₁).isSome = false ∨ (hexCharToInt c₂).isSome = false) :
    ¬ HexDigits (c₁ :: c₂ :: rest) := by
  intro h
  rcases hpair with hp | hp
  · exact absurd (h.2 c₁ List.mem_cons_self) (by simp [hp])
  · exact absurd (h.2 c₂ (List.mem_cons_of_mem _ List.mem_cons_self)) (by simp [hp])

/-- **`unhex` reads to the end exactly on an even number of digits**; otherwise it stops at the
    first pair that is not two digits, having written the bytes of the pairs before. The induction
    follows `unhex`, a pair at a time. -/
theorem unhex_cases (cs : List Char) :
    ((unhex cs).2 = true ∧ HexDigits cs) ∨
      ((unhex cs).2 = false ∧ ¬ HexDigits cs ∧
        ∃ pre rest, cs = pre ++ rest ∧ HexDigits pre ∧ (unhex cs).1 = (unhex pre).1 ∧
          rest ≠ [] ∧ ∀ c₁ c₂ rest', rest = c₁ :: c₂ :: rest' →
            (hexCharToInt c₁).isSome = false ∨ (hexCharToInt c₂).isSome = false) := by
  induction cs using unhex.induct with
  | case1 => exact Or.inl ⟨rfl, by simp [HexDigits]⟩
  | case2 c =>
    -- a last digit without its partner
    right
    refine ⟨rfl, fun h => by simp [HexDigits] at h, [], [c], rfl, by simp [HexDigits], rfl,
      List.cons_ne_nil c [], ?_⟩
    intro c₁ c₂ rest' h
    simp at h
  | case3 c₁ c₂ rest hi lo h₂ h₁ ih =>
    -- a good pair: the byte is written, and the rest decides
    have hdigits : HexDigits (c₁ :: c₂ :: rest) ↔ HexDigits rest := by
      simp [HexDigits, h₁, h₂, Nat.even_add_one]
    rw [unhex_of_digits h₁ h₂]
    rcases ih with ⟨hok, hd⟩ | ⟨hfail, hnd, pre, rest', hsplit, hpre, hout, hne, hbad⟩
    · exact Or.inl ⟨hok, hdigits.2 hd⟩
    · right
      refine ⟨hfail, fun h => hnd (hdigits.1 h), c₁ :: c₂ :: pre, rest', by rw [hsplit]; rfl, ?_,
        ?_, hne, hbad⟩
      · simp [HexDigits, h₁, h₂, Nat.even_add_one] at hpre ⊢
        exact hpre
      · rw [hout, unhex_of_digits h₁ h₂]
  | case4 c₁ c₂ rest hbad =>
    -- the first pair is bad: nothing is written
    right
    have hpair := isSome_eq_false_of_not_digits hbad
    rw [unhex_of_not_digits hbad]
    refine ⟨rfl, not_hexDigits_of_isSome_eq_false rest hpair, [], c₁ :: c₂ :: rest, rfl,
      by simp [HexDigits], rfl, List.cons_ne_nil _ _, ?_⟩
    intro d₁ d₂ rest' h
    obtain ⟨rfl, h'⟩ := List.cons.inj h
    obtain ⟨rfl, -⟩ := List.cons.inj h'
    exact hpair

/-- `unhex` reads to the end exactly on an even number of digits. -/
theorem unhex_snd_eq_true_iff (cs : List Char) : (unhex cs).2 = true ↔ HexDigits cs := by
  rcases unhex_cases cs with ⟨hok, hd⟩ | ⟨hfail, hnd, -⟩
  · exact ⟨fun _ => hd, fun _ => hok⟩
  · rw [hfail]
    exact ⟨fun h => absurd h (by decide), fun h => absurd h hnd⟩

/-- **Writing back what `unhex` read**: from an even number of digits, `hex` gives the digits back
    in upper case. -/
theorem hex_unhex {cs : List Char} (h : HexDigits cs) : hex (unhex cs).1 = cs.map Char.toUpper := by
  induction cs using unhex.induct with
  | case1 => rfl
  | case2 c => simp [HexDigits] at h
  | case3 c₁ c₂ rest hi lo h₂ h₁ ih =>
    obtain ⟨hhi, hc₁⟩ := hexCharToInt_spec h₁
    obtain ⟨hlo, hc₂⟩ := hexCharToInt_spec h₂
    have hrest : HexDigits rest := by
      simp [HexDigits, h₁, h₂, Nat.even_add_one] at h ⊢
      exact h
    -- the byte written is `16 hi + lo`, whose halves are `hi` and `lo`
    have hbyte : (UInt8.ofNat (16 * hi + lo)).toNat = 16 * hi + lo := by
      exact UInt8.toNat_ofNat_of_lt' (by simp only [UInt8.size]; omega)
    rw [unhex_of_digits h₁ h₂, hex, List.flatMap_cons, ← hex, ih hrest, hexByte, hbyte,
      show (16 * hi + lo) / 16 = hi by omega, show (16 * hi + lo) % 16 = lo by omega, hc₁, hc₂]
    rfl
  | case4 c₁ c₂ rest hbad =>
    exact absurd h (not_hexDigits_of_isSome_eq_false rest (isSome_eq_false_of_not_digits hbad))

/-- **The round trips through the text.** `HexStrToUint8Vec` reads back, and accepts, what
    `Uint8VecToHexStr` wrote, with or without a `0x` in front; and `Uint8VecToHexStr` writes back
    what `HexStrToUint8Vec` accepted, without the `0x` and in upper case. -/
theorem hexStrToUint8Vec_uint8VecToHexStr :
    (∀ bytes : List UInt8, (uint8VecToHexStr bytes).1 = true ∧
      hexStrToUint8Vec (uint8VecToHexStr bytes).2 = (true, bytes) ∧
      hexStrToUint8Vec ("0x" ++ (uint8VecToHexStr bytes).2) = (true, bytes)) ∧
    ∀ hexInput : String, (hexStrToUint8Vec hexInput).1 = true →
      (uint8VecToHexStr (hexStrToUint8Vec hexInput).2).2 =
        String.ofList ((dropHexPrefix hexInput.toList).map Char.toUpper) := by
  refine ⟨fun bytes => ⟨rfl, hexStrToUint8Vec_hex bytes⟩, ?_⟩
  intro hexInput hok
  -- an accepted text is an even number of digits
  have hdigits : HexDigits (dropHexPrefix hexInput.toList) :=
    (unhex_snd_eq_true_iff _).1 hok
  rw [uint8VecToHexStr]
  exact congrArg String.ofList (hex_unhex hdigits)

/-- Lower-case text with its `0x`: written back in upper case, without the `0x`. -/
theorem hexStrToUint8Vec_uint8VecToHexStr_lower :
    (hexStrToUint8Vec "0xab").1 = true ∧
      (uint8VecToHexStr (hexStrToUint8Vec "0xab").2).2 =
        String.ofList ((dropHexPrefix "0xab".toList).map Char.toUpper) :=
  ⟨by decide, hexStrToUint8Vec_uint8VecToHexStr.2 "0xab" (by decide)⟩

/-- **What `HexStrToUint8Vec` accepts, and what it gives otherwise.** It returns true exactly when
    the text after an optional `0x` is an even number of digits of either case. When it returns
    false, its output, which `HexStrToUint8VecRet` returns as a result, is the decoding of the
    digit pairs before the first pair that is not two digits: a malformed string is cut short, not
    refused, by `HexStrToUint8VecRet`. -/
theorem hexStrToUint8Vec_ok_iff (hexInput : String) :
    ((hexStrToUint8Vec hexInput).1 = true ↔ HexDigits (dropHexPrefix hexInput.toList)) ∧
      ((hexStrToUint8Vec hexInput).1 = false →
        ∃ pre rest, dropHexPrefix hexInput.toList = pre ++ rest ∧ HexDigits pre ∧
          hexStrToUint8VecRet hexInput = (unhex pre).1 ∧ rest ≠ [] ∧
          ∀ c₁ c₂ rest', rest = c₁ :: c₂ :: rest' →
            (hexCharToInt c₁).isSome = false ∨ (hexCharToInt c₂).isSome = false) := by
  have hfst : (hexStrToUint8Vec hexInput).1 = (unhex (dropHexPrefix hexInput.toList)).2 := rfl
  have hret : hexStrToUint8VecRet hexInput = (unhex (dropHexPrefix hexInput.toList)).1 := rfl
  rw [hfst, hret]
  refine ⟨unhex_snd_eq_true_iff _, fun hfail => ?_⟩
  -- a failed decoding stops at the first pair that is not two digits
  rcases unhex_cases (dropHexPrefix hexInput.toList) with ⟨hok, -⟩ | ⟨-, -, hsplit⟩
  · exact absurd (hok.symm.trans hfail) (by decide)
  · exact hsplit

/-- An odd number of digits: `HexStrToUint8Vec` fails, and its output is the first byte. -/
theorem hexStrToUint8Vec_ok_iff_odd :
    (hexStrToUint8Vec "0x123").1 = false ∧
      ∃ pre rest, dropHexPrefix "0x123".toList = pre ++ rest ∧ HexDigits pre ∧
        hexStrToUint8VecRet "0x123" = (unhex pre).1 ∧ rest ≠ [] ∧
        ∀ c₁ c₂ rest', rest = c₁ :: c₂ :: rest' →
          (hexCharToInt c₁).isSome = false ∨ (hexCharToInt c₂).isSome = false :=
  ⟨by decide, (hexStrToUint8Vec_ok_iff "0x123").2 (by decide)⟩

example : hexStrToUint8Vec "0x123" = (false, [0x12]) := by decide

end DataConversion

end Zilliqa
