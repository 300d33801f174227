import Mathlib.Algebra.BigOperators.Ring.List
import Mathlib.Algebra.Ring.Nat
import Mathlib.Data.Finset.Sort
import Mathlib.Data.List.GetD
import Zilliqa.Lib.FinStore

/-!
# `Lib.Codec` — byte encodings that read back what they write

The pieces a hand-written message encoder is made of, each with its decoder and the law that the
decoder undoes it:

- `LawfulCodec α`: an encoder to bytes with a decoder that reads back every encoding. It stands for
  a serializer that is not looked inside (a key type, a message runtime); the law is a field, so no
  codec without it can be built.
- `setNumber` / `getNumber`: a number as `len` bytes, most significant first, and back
  (`getNumber_setNumber`: exact for numbers below `2 ^ (8 * len)`).
- `FixedBytes n`: a byte array of fixed size, read back from a byte string either by a size-checked
  copy (`copyWithSizeCheck`) or by a truncating copy into a zeroed array (`copyPrefix`).
- `FinStore.entries` / `FinStore.ofEntries`: an ordered map written as its entries in key order
  and rebuilt by assigning them one by one (`ofEntries_entries`).
- `mapM_map_eq_some`: decoding a list of encodings element by element.

Nothing here names the block formats that instantiate it.
-/

namespace Codec

/-- An encoding of `α` into bytes whose decoder reads back every encoding. -/
structure LawfulCodec (α : Type) where
  encode : α → List UInt8
  decode : List UInt8 → Option α
  decode_encode : ∀ a, decode (encode a) = some a

attribute [simp] LawfulCodec.decode_encode

/-- A check that refuses no bytes, then the decoder, then a conversion: the encoding of `a`, when
    it is not empty, passes the check and reads back as `a`. -/
theorem LawfulCodec.bind_decode_encode_of_ne_nil {α β : Type} (codec : LawfulCodec α)
    (f : α → Option β) (a : α) (h : codec.encode a ≠ []) :
    (if (codec.encode a).isEmpty then none else (codec.decode (codec.encode a)).bind f) = f a := by
  rw [if_neg (by simpa using h), codec.decode_encode, Option.bind_some]

/-- Decoding a list of encodings element by element gives the list back. -/
theorem mapM_map_eq_some {α β : Type} (f : α → β) (g : β → Option α) :
    ∀ (l : List α), (∀ a ∈ l, g (f a) = some a) → (l.map f).mapM g = some l
  | [], _ => rfl
  | a :: l, h => by
    have ha := h a List.mem_cons_self
    have hl := mapM_map_eq_some f g l fun b hb => h b (List.mem_cons_of_mem a hb)
    simp [List.mapM_cons, ha, hl]

/-! ## Numbers of a fixed width -/

/-- `SetNumber(dst, 0, value, len)`: byte `i` is `value >> 8 * (len - 1 - i)` masked to its low
    eight bits, so the `len` low bytes of `value` come most significant first. -/
def setNumber (len value : ℕ) : List UInt8 :=
  (List.range len).map fun i => UInt8.ofNat (value >>> (8 * (len - 1 - i)) % 256)

/-- `GetNumber(src, 0, len)`: the sum of byte `i` shifted left by `8 * (len - 1 - i)`, or `0` when
    `src` holds fewer than `len` bytes. -/
def getNumber (src : List UInt8) (len : ℕ) : ℕ :=
  if len ≤ src.length then
    (List.range len).foldl
      (fun result i => result + (src.getD i 0).toNat <<< (8 * (len - 1 - i))) 0
  else 0

@[simp] theorem length_setNumber (len value : ℕ) : (setNumber len value).length = len := by
  simp [setNumber]

/-- One more byte at the end: the low byte of `value`, after the bytes of the rest. -/
theorem setNumber_succ (len value : ℕ) :
    setNumber (len + 1) value =
      setNumber len (value >>> 8) ++ [UInt8.ofNat (value % 256)] := by
  unfold setNumber
  rw [List.range_succ, List.map_append]
  simp only [List.map_cons, List.map_nil, Nat.add_sub_cancel, Nat.sub_self, Nat.mul_zero,
    Nat.shiftRight_zero, List.append_cancel_right_eq]
  apply List.map_congr_left
  intro i hi
  -- the shift of byte `i` is one byte more than in the shorter encoding
  have hshift : 8 * (len - i) = 8 + 8 * (len - 1 - i) := by
    have := List.mem_range.1 hi
    omega
  rw [hshift, Nat.shiftRight_add]

/-- A left fold that adds up terms is the sum of the terms. -/
theorem foldl_add_eq_sum {α : Type} (g : α → ℕ) :
    ∀ (l : List α) (a : ℕ), l.foldl (fun r i => r + g i) a = a + (l.map g).sum
  | [], a => by simp
  | i :: l, a => by
    rw [List.foldl_cons, foldl_add_eq_sum g l (a + g i)]
    simp [Nat.add_assoc]

/-- Reading one byte more: the number of the first bytes, shifted by a byte, plus the last. -/
theorem getNumber_append_singleton (l : List UInt8) (b : UInt8) :
    getNumber (l ++ [b]) (l.length + 1) = getNumber l l.length * 256 + b.toNat := by
  unfold getNumber
  simp only [List.length_append, List.length_singleton, le_refl, if_true]
  rw [foldl_add_eq_sum, foldl_add_eq_sum, List.range_succ, List.map_append, List.sum_append]
  simp only [List.map_cons, List.map_nil, List.sum_cons, List.sum_nil, Nat.zero_add,
    Nat.add_sub_cancel, Nat.sub_self, Nat.mul_zero, Nat.shiftLeft_zero, Nat.add_zero]
  -- every earlier byte is shifted by one byte more than in `l` alone
  have hterms : ∀ i ∈ List.range l.length,
      ((l ++ [b]).getD i 0).toNat <<< (8 * (l.length - i)) =
        (l.getD i 0).toNat <<< (8 * (l.length - 1 - i)) * 256 := by
    intro i hi
    have hlt := List.mem_range.1 hi
    have hshift : 8 * (l.length - i) = 8 * (l.length - 1 - i) + 8 := by omega
    rw [List.getD_append _ _ _ _ hlt, hshift, Nat.shiftLeft_add, Nat.shiftLeft_eq _ 8]
  rw [List.map_congr_left hterms, List.sum_map_mul_right _ _ (256 : ℕ),
    List.getD_append_right _ _ _ _ le_rfl]
  simp

/-- **Reading back a number.** The `len` bytes `setNumber` writes read back as the number, up to
    the `len` bytes it fits in. -/
theorem getNumber_setNumber : ∀ (len value : ℕ),
    getNumber (setNumber len value) len = value % 2 ^ (8 * len)
  | 0, value => by simp [getNumber, setNumber, Nat.mod_one]
  | len + 1, value => by
    have hlast := getNumber_append_singleton (setNumber len (value >>> 8))
      (UInt8.ofNat (value % 256))
    rw [length_setNumber] at hlast
    rw [setNumber_succ, hlast, getNumber_setNumber len (value >>> 8),
      Nat.shiftRight_eq_div_pow, UInt8.toNat_ofNat']
    -- the low byte and the rest make up the number modulo `256 ^ (len + 1)`
    have hpow : 2 ^ (8 * (len + 1)) = 2 ^ 8 * 2 ^ (8 * len) := by
      rw [Nat.mul_succ, Nat.pow_add, Nat.mul_comm]
    rw [hpow, Nat.mod_mul, Nat.mod_mod]
    omega

example : setNumber 2 258 = [1, 2] := by decide

/-- Numbers that fit in `len` bytes are written differently. -/
theorem setNumber_injOn {len i j : ℕ} (hi : i < 2 ^ (8 * len)) (hj : j < 2 ^ (8 * len))
    (h : setNumber len i = setNumber len j) : i = j := by
  have hread := congrArg (fun l => getNumber l len) h
  simp only [getNumber_setNumber, Nat.mod_eq_of_lt hi, Nat.mod_eq_of_lt hj] at hread
  exact hread

/-- Reading a number looks at its `len` bytes only: what follows them does not change it. -/
theorem getNumber_append_of_le {len : ℕ} (l rest : List UInt8) (h : len ≤ l.length) :
    getNumber (l ++ rest) len = getNumber l len := by
  unfold getNumber
  rw [if_pos (by rw [List.length_append]; omega), if_pos h]
  refine List.foldl_ext _ _ _ fun r i hi => ?_
  rw [List.getD_append _ _ _ _ (by have := List.mem_range.1 hi; omega)]

/-- A number written in front of other bytes reads back as itself, up to its width. -/
theorem getNumber_setNumber_append (len value : ℕ) (rest : List UInt8) :
    getNumber (setNumber len value ++ rest) len = value % 2 ^ (8 * len) := by
  rw [getNumber_append_of_le _ _ (by rw [length_setNumber]), getNumber_setNumber]

/-! ## Byte arrays of a fixed size -/

/-- A byte array of fixed size `n`: a `FixedHash<n>` or a `std::array<unsigned char, n>`. -/
abbrev FixedBytes (n : ℕ) := { b : List UInt8 // b.length = n }

/-- `CopyWithSizeCheck`: the bytes when there are exactly `n` of them, nothing otherwise. -/
def copyWithSizeCheck (n : ℕ) (src : List UInt8) : Option (FixedBytes n) :=
  if h : src.length = n then some ⟨src, h⟩ else none

/-- `copy(src.begin(), src.begin() + min(src.size(), n), dst.begin())` into a zeroed array of size
    `n`: the first bytes of `src`, then zeros. -/
def copyPrefix (n : ℕ) (src : List UInt8) : FixedBytes n :=
  ⟨src.take n ++ List.replicate (n - src.length) 0, by simp; omega⟩

theorem FixedBytes.val_ne_nil {n : ℕ} (hn : 0 < n) (b : FixedBytes n) : b.val ≠ [] := by
  intro hnil
  have hlen := b.property
  rw [hnil, List.length_nil] at hlen
  omega

@[simp] theorem copyWithSizeCheck_val {n : ℕ} (b : FixedBytes n) :
    copyWithSizeCheck n b.val = some b := by
  simp [copyWithSizeCheck, b.property]

@[simp] theorem copyPrefix_val {n : ℕ} (b : FixedBytes n) : copyPrefix n b.val = b := by
  apply Subtype.ext
  simp [copyPrefix, b.property, List.take_of_length_le]

/-- Truncating copies of a list of fixed-size arrays give the arrays back. -/
@[simp] theorem map_copyPrefix_unattach {n : ℕ} (l : List (FixedBytes n)) :
    l.unattach.map (copyPrefix n) = l := by
  induction l with
  | nil => rfl
  | cons b l ih => simp [ih]

end Codec

/-! ## Ordered maps as lists of entries -/

namespace FinStore

variable {κ ν : Type}

section Build

variable [DecidableEq κ]

/-- The map `m[k] = v` builds from the entries, assigned in order from an empty map. -/
def ofEntries (l : List (κ × ν)) : FinStore κ ν :=
  l.foldl (fun m e => m.insert e.1 e.2) empty

/-- Assigning entries of distinct keys: a key answers its entry, or what it answered before. -/
theorem find_foldl_insert :
    ∀ (l : List (κ × ν)), (l.map Prod.fst).Nodup → ∀ (m : FinStore κ ν) (k : κ),
      (l.foldl (fun m e => m.insert e.1 e.2) m).find k = (l.lookup k).or (m.find k)
  | [], _, m, k => by simp
  | (a, v) :: l, hl, m, k => by
    rw [List.map_cons, List.nodup_cons] at hl
    rw [List.foldl_cons, find_foldl_insert l hl.2 (m.insert a v) k]
    by_cases hk : k = a
    · -- the later entries never name `k` again
      subst hk
      have hnone : l.lookup k = none := by
        apply List.lookup_eq_none_iff.2
        intro p hp
        have hmem : p.1 ∈ l.map Prod.fst := List.mem_map_of_mem hp
        have hne : k ≠ p.1 := fun h => hl.1 (by rw [h]; exact hmem)
        simpa using hne
      simp [hnone]
    · have hka : (k == a) = false := beq_eq_false_iff_ne.2 hk
      simp [List.lookup_cons, hka, hk]

end Build

variable [LinearOrder κ]

/-- The entries of a map in increasing order of keys, as a `std::map` is iterated. -/
def entries (s : FinStore κ ν) : List (κ × ν) :=
  s.keys.sort.filterMap fun k => (s.find k).map (k, ·)

/-- Over keys that are all stored, the entries name exactly those keys, and each with its value. -/
theorem filterMap_entry (s : FinStore κ ν) :
    ∀ (ks : List κ), (∀ k ∈ ks, k ∈ s.keys) →
      (ks.filterMap fun k => (s.find k).map (k, ·)).map Prod.fst = ks ∧
        ∀ k, (ks.filterMap fun k => (s.find k).map (k, ·)).lookup k =
          if k ∈ ks then s.find k else none
  | [], _ => by simp
  | j :: ks, h => by
    obtain ⟨v, hv⟩ := Option.isSome_iff_exists.1 ((s.mem_keys j).1 (h j List.mem_cons_self))
    obtain ⟨hfst, hlookup⟩ := filterMap_entry s ks fun k hk => h k (List.mem_cons_of_mem j hk)
    refine ⟨by simp [hv, hfst], fun k => ?_⟩
    by_cases hk : k = j
    · subst hk
      simp [hv]
    · have hkj : (k == j) = false := beq_eq_false_iff_ne.2 hk
      simp [hv, List.lookup_cons, hkj, hk, hlookup k]

/-- **Rebuilding a map from its entries gives it back.** -/
theorem ofEntries_entries (s : FinStore κ ν) : ofEntries (entries s) = s := by
  have hsorted : ∀ k ∈ s.keys.sort, k ∈ s.keys := fun k hk => (Finset.mem_sort _).1 hk
  obtain ⟨hfst, hlookup⟩ := filterMap_entry s _ hsorted
  have hnodup : ((entries s).map Prod.fst).Nodup := by
    rw [entries, hfst]
    exact Finset.sort_nodup _ _
  apply FinStore.ext
  intro k
  rw [ofEntries, find_foldl_insert _ hnodup, entries, hlookup k, find_empty, Option.or_none]
  by_cases hk : k ∈ s.keys
  · simp [Finset.mem_sort, hk]
  · rw [if_neg (by simpa [Finset.mem_sort] using hk)]
    exact ((s.find_eq_none_iff k).2 hk).symm

end FinStore
