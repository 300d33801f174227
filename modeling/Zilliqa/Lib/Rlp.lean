import Mathlib.Data.List.Basic
import Mathlib.Algebra.Order.Group.Nat

/-!
# `Lib.Rlp` — Recursive Length Prefix, as a stream writes it and a reader takes it apart

The writer is `RLPStream`: `appendBytes` and `appendNat` write one item, and `listOut` closes a
list of items under its header. The reader is `RLP`: `readHeader` reads what an item's first bytes
say (and fails where the reader throws), `splitItems` walks a list's payload item by item, and
`toBytes` / `toInt` convert one item.

The main facts are that the reader takes apart what the writer writes:
- `appendNat_eq_appendBytes`: a number is written as its big-endian bytes;
- `readHeader_appendBytes`, `readHeader_listOut`: the header of a written item says its kind, where
  its payload starts and how long it is;
- `splitItems_flatten`: the payload of a list of written strings splits back into them;
- `toBytes_appendBytes`, `toInt_appendNat`: each item converts back to what was written.

Nothing here names the transactions that are written this way.
-/

namespace Rlp

/-! ## Numbers as bytes -/

/-- The bytes of `n`, most significant first, without leading zeros; none for `0`. -/
def toBigEndian (n : ℕ) : List UInt8 :=
  if n = 0 then [] else toBigEndian (n / 256) ++ [UInt8.ofNat (n % 256)]
termination_by n
decreasing_by omega

/-- `fromBigEndian`: the number that bytes spell, most significant first. -/
def fromBigEndian (bytes : List UInt8) : ℕ :=
  bytes.foldl (fun acc b => acc * 256 + b.toNat) 0

/-- `bytesRequired`: how many bytes `n` takes. -/
def bytesRequired (n : ℕ) : ℕ := (toBigEndian n).length

@[simp] theorem toBigEndian_zero : toBigEndian 0 = [] := by
  rw [toBigEndian, if_pos rfl]

theorem toBigEndian_of_ne_zero {n : ℕ} (h : n ≠ 0) :
    toBigEndian n = toBigEndian (n / 256) ++ [UInt8.ofNat (n % 256)] := by
  rw [toBigEndian, if_neg h]

/-- A number below `256` takes one byte, itself. -/
theorem toBigEndian_of_lt {n : ℕ} (h0 : n ≠ 0) (h : n < 256) : toBigEndian n = [UInt8.ofNat n] := by
  have hdiv : n / 256 = 0 := Nat.div_eq_of_lt h
  rw [toBigEndian_of_ne_zero h0, hdiv, toBigEndian_zero, Nat.mod_eq_of_lt h, List.nil_append]

theorem fromBigEndian_append_singleton (l : List UInt8) (b : UInt8) :
    fromBigEndian (l ++ [b]) = fromBigEndian l * 256 + b.toNat := by
  simp [fromBigEndian, List.foldl_append]

/-- **Reading back a number.** -/
theorem fromBigEndian_toBigEndian (n : ℕ) : fromBigEndian (toBigEndian n) = n := by
  induction n using Nat.strong_induction_on with
  | _ n ih =>
    by_cases h0 : n = 0
    · subst h0
      rw [toBigEndian_zero]
      rfl
    · have hlt : n / 256 < n := by omega
      rw [toBigEndian_of_ne_zero h0, fromBigEndian_append_singleton, ih _ hlt,
        UInt8.toNat_ofNat', Nat.mod_mod]
      omega

/-- The first byte of a number's bytes is not zero. -/
theorem toBigEndian_head_ne_zero (n : ℕ) : ∀ b, (toBigEndian n).head? = some b → b ≠ 0 := by
  induction n using Nat.strong_induction_on with
  | _ n ih =>
    intro b hb
    by_cases h0 : n = 0
    · subst h0
      simp at hb
    · by_cases hsmall : n < 256
      · -- one byte: the number itself, which is not zero
        rw [toBigEndian_of_lt h0 hsmall] at hb
        have hbn : b = UInt8.ofNat n := by simpa using hb.symm
        subst hbn
        intro hzero
        have hval := congrArg UInt8.toNat hzero
        rw [UInt8.toNat_ofNat', Nat.mod_eq_of_lt hsmall] at hval
        exact h0 hval
      · -- more bytes: the first is the first of the higher part's
        have hq : n / 256 ≠ 0 := by omega
        have hne : toBigEndian (n / 256) ≠ [] := by
          rw [toBigEndian_of_ne_zero hq]
          simp
        rw [toBigEndian_of_ne_zero h0, List.head?_append_of_ne_nil _ hne] at hb
        exact ih _ (by omega) b hb

/-- A number below `256 ^ k` takes at most `k` bytes. -/
theorem bytesRequired_le {n k : ℕ} (h : n < 256 ^ k) : bytesRequired n ≤ k := by
  induction k generalizing n with
  | zero =>
    have hn : n = 0 := by simpa using h
    simp [bytesRequired, hn]
  | succ k ih =>
    by_cases h0 : n = 0
    · simp [bytesRequired, h0]
    · have hq : n / 256 < 256 ^ k := by
        rw [Nat.pow_succ] at h
        exact Nat.div_lt_of_lt_mul (by rw [Nat.mul_comm]; exact h)
      have hk := ih hq
      rw [bytesRequired, toBigEndian_of_ne_zero h0, List.length_append, List.length_singleton]
      exact Nat.succ_le_succ hk

/-- A number below `2 ^ (8 * w)` takes at most `w` bytes. -/
theorem bytesRequired_le_of_lt_two_pow {n w : ℕ} (h : n < 2 ^ (8 * w)) : bytesRequired n ≤ w := by
  apply bytesRequired_le
  rw [pow_mul] at h
  exact h

theorem bytesRequired_pos {n : ℕ} (h : n ≠ 0) : 0 < bytesRequired n := by
  rw [bytesRequired, toBigEndian_of_ne_zero h]
  simp

/-- `toBigEndian<N>` of a fixed-width number: its bytes, with zeros in front up to `width`. -/
def toBigEndianFixed (width n : ℕ) : List UInt8 :=
  List.replicate (width - bytesRequired n) 0 ++ toBigEndian n

/-! ## Writing: `RLPStream` -/

/-- `pushCount(count, base)`: the byte `base + bytesRequired(count)`, then `count` itself. -/
def pushCount (count base : ℕ) : List UInt8 :=
  UInt8.ofNat (base + bytesRequired count) :: toBigEndian count

/-- `RLPStream::append(bytes)`: a single byte below `0x80` stands for itself; any other string is
    written after a header of its length, `0x80 + length` up to 55 bytes and the length's own bytes
    after `0xb7 + bytesRequired` beyond. -/
def appendBytes (s : List UInt8) : List UInt8 :=
  if s.length = 1 ∧ (s.headD 0).toNat < 0x80 then s
  else (if s.length < 56 then [UInt8.ofNat (s.length + 0x80)] else pushCount s.length 0xb7) ++ s

/-- `RLPStream::append(bigint)`: `0x80` for zero, the byte itself below `0x80`, otherwise a header
    of the number's size and then its bytes. -/
def appendNat (i : ℕ) : List UInt8 :=
  if i = 0 then [0x80]
  else if i < 0x80 then [UInt8.ofNat i]
  else
    let br := bytesRequired i
    (if br < 56 then [UInt8.ofNat (br + 0x80)] else pushCount br 0xb7) ++ toBigEndian i

/-- The list header `noteAppended` inserts once the last item of a list is appended. -/
def listHeader (len : ℕ) : List UInt8 :=
  if len < 56 then [UInt8.ofNat (0xc0 + len)] else pushCount len 0xf7

/-- What `RLPStream(n)` holds once its `n` items are appended: the list header, then the items. -/
def listOut (items : List (List UInt8)) : List UInt8 :=
  listHeader items.flatten.length ++ items.flatten

/-- **A number is written as its bytes.** -/
theorem appendNat_eq_appendBytes (i : ℕ) : appendNat i = appendBytes (toBigEndian i) := by
  by_cases h0 : i = 0
  · subst h0
    simp [appendNat, appendBytes]
  · by_cases hsmall : i < 0x80
    · -- one byte below `0x80`: written as itself either way
      have hbyte : (UInt8.ofNat i).toNat = i := by
        rw [UInt8.toNat_ofNat']
        omega
      rw [toBigEndian_of_lt h0 (by omega)]
      simp [appendNat, appendBytes, h0, hsmall, hbyte]
    · -- a header and the bytes; a single byte is at least `0x80`, so it gets a header too
      have hbytes : ¬ ((toBigEndian i).length = 1 ∧ ((toBigEndian i).headD 0).toNat < 0x80) := by
        rintro ⟨hlen, hhead⟩
        by_cases hlt : i < 256
        · rw [toBigEndian_of_lt h0 hlt] at hhead
          simp only [List.headD_cons, UInt8.toNat_ofNat'] at hhead
          omega
        · have hq : i / 256 ≠ 0 := by omega
          have := bytesRequired_pos hq
          rw [toBigEndian_of_ne_zero h0, List.length_append, List.length_singleton] at hlen
          unfold bytesRequired at this
          omega
      rw [appendBytes, if_neg hbytes, appendNat, if_neg h0, if_neg hsmall]
      rfl

/-- **The first byte of a written list is `0xc0` to `0xfe`** while its payload is shorter than
    `2^56` bytes: `0xc0 + length` up to 55 bytes, then `0xf7` plus the size of the length. -/
theorem listOut_cons (items : List (List UInt8)) (h : items.flatten.length < 2 ^ 56) :
    ∃ b rest, listOut items = b :: rest ∧ 0xc0 ≤ b.toNat ∧ b.toNat ≤ 0xfe := by
  by_cases hshort : items.flatten.length < 56
  · refine ⟨UInt8.ofNat (0xc0 + items.flatten.length), items.flatten, ?_, ?_⟩
    · rw [listOut, listHeader, if_pos hshort]
      rfl
    · rw [UInt8.toNat_ofNat']
      omega
  · -- a long payload: its length takes one to seven bytes
    have hpos := bytesRequired_pos (show items.flatten.length ≠ 0 by omega)
    have hle := @bytesRequired_le_of_lt_two_pow _ 7 h
    refine ⟨UInt8.ofNat (0xf7 + bytesRequired items.flatten.length),
      toBigEndian items.flatten.length ++ items.flatten, ?_, ?_⟩
    · rw [listOut, listHeader, if_neg hshort, pushCount]
      rfl
    · rw [UInt8.toNat_ofNat']
      omega

theorem listHeader_ne_nil (len : ℕ) : listHeader len ≠ [] := by
  unfold listHeader pushCount
  split_ifs <;> simp

/-- **A list is never written as its items alone**: its header comes first. -/
theorem listOut_ne_flatten (items : List (List UInt8)) : listOut items ≠ items.flatten := by
  intro h
  have hlen := congrArg List.length h
  have hheader := List.length_pos_of_ne_nil (listHeader_ne_nil items.flatten.length)
  rw [listOut, List.length_append] at hlen
  omega

theorem listOut_ne_nil (items : List (List UInt8)) : listOut items ≠ [] := by
  rw [listOut]
  exact List.append_ne_nil_of_left_ne_nil (listHeader_ne_nil _) _

/-- The string is what `appendBytes` writes last. -/
theorem appendBytes_suffix (s : List UInt8) : ∃ pre, appendBytes s = pre ++ s := by
  unfold appendBytes
  split_ifs
  · exact ⟨[], rfl⟩
  · exact ⟨_, rfl⟩
  · exact ⟨_, rfl⟩

/-! ## Reading: `RLP` -/

/-- What an item's first bytes say, as `RLP::length` and `payloadOffset` read them: whether it is
    a list, where its payload starts, and how long the payload is. -/
structure Header where
  isList : Bool
  offset : ℕ
  length : ℕ
deriving DecidableEq, Repr

/-- `RLP::actualSize`: the bytes the whole item takes. -/
def Header.size (h : Header) : ℕ := h.offset + h.length

/-- `RLP::payload`. -/
def Header.payload (h : Header) (data : List UInt8) : List UInt8 :=
  (data.drop h.offset).take h.length

/-- `RLP::requireGood`: a one-byte string written with a header (`0x81 b`) must have `b ≥ 0x80`. -/
def requireGood : List UInt8 → Bool
  | [] => false
  | n :: rest => n.toNat != 0x81 || match rest with
    | b :: _ => decide (0x80 ≤ b.toNat)
    | [] => false

/-- The long form of `RLP::length`: `lengthSize` bytes of length after the first byte, with no
    leading zero, at most eight of them, spelling a length of at least 56 that leaves room for the
    offset in a `size_t`. -/
def longLength (lengthSize : ℕ) (rest : List UInt8) : Option ℕ :=
  if rest.length < lengthSize then none
  else if (rest.headD 0).toNat = 0 then none
  else if 8 < lengthSize then none
  else
    let ret := fromBigEndian (rest.take lengthSize)
    if ret < 56 then none
    else if 2 ^ 64 - 1 - 0x100 ≤ ret then none
    else some ret

/-- `RLP::length` and `payloadOffset` of the item the bytes start with: `none` where they throw. -/
def readHeader (data : List UInt8) : Option Header :=
  match data with
  | [] => none
  | n :: rest =>
    if !requireGood data then none
    else if n.toNat < 0x80 then some ⟨false, 0, 1⟩
    else if n.toNat ≤ 0xb7 then some ⟨false, 1, n.toNat - 0x80⟩
    else if n.toNat < 0xc0 then
      (longLength (n.toNat - 0xb7) rest).map fun len => ⟨false, 1 + (n.toNat - 0xb7), len⟩
    else if n.toNat ≤ 0xf7 then some ⟨true, 1, n.toNat - 0xc0⟩
    else (longLength (n.toNat - 0xf7) rest).map fun len => ⟨true, 1 + (n.toNat - 0xf7), len⟩

theorem readHeader_size_pos {data : List UInt8} {h : Header} (hh : readHeader data = some h) :
    0 < h.size := by
  unfold readHeader at hh
  split at hh
  · cases hh
  · -- a single byte has size one; every other item has an offset of at least one
    split_ifs at hh
    · cases hh
      simp [Header.size]
    · cases hh
      simp [Header.size]
    · obtain ⟨len, -, rfl⟩ := Option.map_eq_some_iff.1 hh
      simp [Header.size]
    · cases hh
      simp [Header.size]
    · obtain ⟨len, -, rfl⟩ := Option.map_eq_some_iff.1 hh
      simp [Header.size]

/-- The items of a list's payload, as `RLP::iterator` walks them: each is cut to its
    `actualSize`, which must fit in what remains (`FailIfTooSmall`). -/
def splitItems (payload : List UInt8) : Option (List (List UInt8)) :=
  if payload = [] then some [] else
  match _hh : readHeader payload with
  | none => none
  | some h =>
    if _hs : h.size ≤ payload.length then
      (splitItems (payload.drop h.size)).map (payload.take h.size :: ·)
    else none
termination_by payload.length
decreasing_by
  have hpos := readHeader_size_pos _hh
  simp only [List.length_drop]
  omega

/-- `RLP::isData`. -/
def isData : List UInt8 → Bool
  | [] => false
  | n :: _ => n.toNat < 0xc0

/-- `RLP::isInt`: a string with no leading zero (the single byte `0x00` is not one). -/
def isInt : List UInt8 → Bool
  | [] => false
  | n :: rest =>
    if n.toNat < 0x80 then n.toNat != 0
    else if n.toNat = 0x80 then true
    else if n.toNat ≤ 0xb7 then (rest.headD 0).toNat != 0
    else if n.toNat < 0xc0 then (rest.getD (n.toNat - 0xb7) 0).toNat != 0
    else false

/-- `RLP::toBytes` with its default `LaissezFaire` flags: the payload of a string, nothing of a
    list. -/
def toBytes (item : List UInt8) : Option (List UInt8) :=
  if isData item then (readHeader item).map (·.payload item) else some []

/-- `RLP::toInt<T>` with its default `Strict` flags, for a `T` of `maxSize` bytes: the big-endian
    number a string spells; `none` (it throws) for a list, a leading zero or more than `maxSize`
    bytes. -/
def toInt (maxSize : ℕ) (item : List UInt8) : Option ℕ := do
  let h ← readHeader item
  if !isInt item || h.isList then none
  else if maxSize < (h.payload item).length then none
  else some (fromBigEndian (h.payload item))

/-- `RLP(bytes, FailIfTooBig | FailIfTooSmall)`, the reader opened on a whole message: `none` where
    reading the header throws, a null reader (`some none`) where the bytes are not exactly one
    item, and the item's header otherwise. -/
def openExact (bytes : List UInt8) : Option (Option Header) :=
  if bytes = [] then some none
  else (readHeader bytes).map fun h => if h.size = bytes.length then some h else none

/-- Iterating an opened reader: the items of a list, none of a string. -/
def items (bytes : List UInt8) (h : Header) : Option (List (List UInt8)) :=
  if h.isList then splitItems (h.payload bytes) else some []

/-! ## Reading back what was written -/

/-- The longest payload the reader accepts: its offset must still fit in a `size_t`. -/
def maxLength : ℕ := 2 ^ 64 - 1 - 0x100

/-- A length below `maxLength` takes at most eight bytes. -/
theorem bytesRequired_le_eight {len : ℕ} (hlen : len < maxLength) : bytesRequired len ≤ 8 :=
  bytesRequired_le (by unfold maxLength at hlen; omega)

/-- The long form reads back a length that `pushCount` wrote. -/
theorem longLength_toBigEndian (len : ℕ) (rest : List UInt8) (h56 : 56 ≤ len)
    (hlen : len < maxLength) :
    longLength (bytesRequired len) (toBigEndian len ++ rest) = some len := by
  have h8 := bytesRequired_le_eight hlen
  have hne : toBigEndian len ≠ [] := by
    rw [toBigEndian_of_ne_zero (by omega)]
    simp
  -- the first length byte is the leading byte of `len`, which is not zero
  have hhead : ((toBigEndian len ++ rest).headD 0).toNat ≠ 0 := by
    obtain ⟨b, hb⟩ := Option.isSome_iff_exists.1 (List.isSome_head?.2 hne)
    have hb0 := toBigEndian_head_ne_zero len b hb
    rw [List.headD_eq_head?_getD, List.head?_append_of_ne_nil _ hne, hb, Option.getD_some]
    intro h0
    exact hb0 (UInt8.toNat_inj.1 (by simpa using h0))
  have htake : (toBigEndian len ++ rest).take (bytesRequired len) = toBigEndian len :=
    List.take_left' rfl
  have hlong : ¬ (toBigEndian len ++ rest).length < bytesRequired len := by
    simp [bytesRequired]
  unfold longLength
  rw [if_neg hlong, if_neg hhead, if_neg (by omega)]
  simp only [htake, fromBigEndian_toBigEndian]
  rw [if_neg (by omega), if_neg (by unfold maxLength at hlen; omega)]

theorem appendBytes_ne_nil (s : List UInt8) : appendBytes s ≠ [] := by
  unfold appendBytes
  split_ifs with h1 h2
  · intro hs
    rw [hs] at h1
    simp at h1
  · simp
  · simp [pushCount]

/-- **The header of a written string**: a string, whose payload is the string itself, after
    whatever header it was written with. -/
theorem readHeader_appendBytes (s rest : List UInt8) (hs : s.length < maxLength) :
    readHeader (appendBytes s ++ rest) =
      some ⟨false, (appendBytes s).length - s.length, s.length⟩ := by
  by_cases hsingle : s.length = 1 ∧ (s.headD 0).toNat < 0x80
  · -- a single byte below `0x80`, written as itself
    obtain ⟨b, rfl⟩ : ∃ b, s = [b] := List.length_eq_one_iff.1 hsingle.1
    have hb : b.toNat < 0x80 := by simpa using hsingle.2
    rw [appendBytes, if_pos hsingle]
    simp [readHeader, requireGood, hb, show b.toNat ≠ 0x81 by omega]
  · rw [appendBytes, if_neg hsingle]
    by_cases hshort : s.length < 56
    · -- `0x80 + length`, then the string
      have hbyte : (UInt8.ofNat (s.length + 0x80)).toNat = s.length + 0x80 := by
        rw [UInt8.toNat_ofNat']
        omega
      -- a header `0x81` is good: the one byte after it is not below `0x80`
      have hgood : requireGood (UInt8.ofNat (s.length + 0x80) :: (s ++ rest)) = true := by
        by_cases h1 : s.length = 1
        · obtain ⟨b, rfl⟩ : ∃ b, s = [b] := List.length_eq_one_iff.1 h1
          have hb : 0x80 ≤ b.toNat := by simpa using hsingle
          simp [requireGood, hb]
        · simp only [requireGood, hbyte, Bool.or_eq_true, bne_iff_ne]
          left
          omega
      simp only [if_pos hshort, List.cons_append, List.nil_append, List.length_cons]
      simp only [readHeader, hgood, hbyte, Bool.not_true, Bool.false_eq_true, if_false]
      rw [if_neg (by omega), if_pos (by omega)]
      simp
    · -- the length's size over `0xb7`, the length, then the string
      have h8 := bytesRequired_le_eight hs
      have hpos := bytesRequired_pos (show s.length ≠ 0 by omega)
      have hbyte : (UInt8.ofNat (0xb7 + bytesRequired s.length)).toNat =
          0xb7 + bytesRequired s.length := by
        rw [UInt8.toNat_ofNat']
        omega
      have hlen := longLength_toBigEndian s.length (s ++ rest) (by omega) hs
      simp only [if_neg hshort, pushCount, List.cons_append, List.append_assoc, List.length_cons,
        List.length_append]
      simp only [readHeader, requireGood, hbyte]
      simp [show ¬ 0xb7 + bytesRequired s.length < 0x80 by omega,
        show ¬ 0xb7 + bytesRequired s.length ≤ 0xb7 by omega,
        show 0xb7 + bytesRequired s.length < 0xc0 by omega,
        show 0xb7 + bytesRequired s.length ≠ 0x81 by omega, hlen]
      simp [bytesRequired]
      omega

/-- The payload of a written string is the string. -/
theorem payload_appendBytes (s rest : List UInt8) :
    Header.payload ⟨false, (appendBytes s).length - s.length, s.length⟩ (appendBytes s ++ rest) =
      s := by
  obtain ⟨pre, hpre⟩ := appendBytes_suffix s
  rw [hpre, Header.payload]
  simp

/-- **A list of written strings splits back into them.** -/
theorem splitItems_flatten (ss : List (List UInt8)) (hs : ∀ s ∈ ss, s.length < maxLength) :
    splitItems (ss.map appendBytes).flatten = some (ss.map appendBytes) := by
  induction ss with
  | nil =>
    rw [List.map_nil, List.flatten_nil, splitItems, if_pos rfl]
  | cons s ss ih =>
    have hhead := readHeader_appendBytes s (ss.map appendBytes).flatten (hs s List.mem_cons_self)
    have hrest := ih fun t ht => hs t (List.mem_cons_of_mem s ht)
    have hne : appendBytes s ++ (ss.map appendBytes).flatten ≠ [] := by
      simp [appendBytes_ne_nil]
    -- the first item takes exactly the bytes `appendBytes s` wrote
    have hsize : (⟨false, (appendBytes s).length - s.length, s.length⟩ : Header).size =
        (appendBytes s).length := by
      obtain ⟨pre, hpre⟩ := appendBytes_suffix s
      simp [Header.size, hpre]
    rw [List.map_cons, List.flatten_cons, splitItems, if_neg hne]
    split
    · rename_i hnone
      rw [hhead] at hnone
      cases hnone
    · rename_i h hsome
      rw [hhead] at hsome
      cases hsome
      rw [dif_pos (by simp [hsize]), hsize, List.drop_left' rfl, List.take_left' rfl, hrest]
      rfl

/-- **The header of a written list**: a list whose payload is the items. -/
theorem readHeader_listOut (ss : List (List UInt8)) (rest : List UInt8)
    (hn : ss.flatten.length < maxLength) :
    readHeader (listOut ss ++ rest) =
      some ⟨true, (listHeader ss.flatten.length).length, ss.flatten.length⟩ := by
  unfold listOut listHeader
  by_cases hshort : ss.flatten.length < 56
  · -- `0xc0 + length`, then the items
    have hbyte : (UInt8.ofNat (0xc0 + ss.flatten.length)).toNat = 0xc0 + ss.flatten.length := by
      rw [UInt8.toNat_ofNat']
      omega
    simp only [if_pos hshort, List.cons_append, List.nil_append, List.length_singleton]
    simp only [readHeader, requireGood, hbyte]
    rw [if_neg (by simp; omega), if_neg (by omega), if_neg (by omega), if_neg (by omega),
      if_pos (by omega)]
    simp
  · -- the length's size over `0xf7`, the length, then the items
    have h8 := bytesRequired_le_eight hn
    have hpos := bytesRequired_pos (show ss.flatten.length ≠ 0 by omega)
    have hbyte : (UInt8.ofNat (0xf7 + bytesRequired ss.flatten.length)).toNat =
        0xf7 + bytesRequired ss.flatten.length := by
      rw [UInt8.toNat_ofNat']
      omega
    have hlen := longLength_toBigEndian ss.flatten.length (ss.flatten ++ rest) (by omega) hn
    simp only [if_neg hshort, pushCount, List.cons_append, List.append_assoc, List.length_cons]
    simp only [readHeader, requireGood, hbyte]
    rw [if_neg (by simp; omega), if_neg (by omega), if_neg (by omega), if_neg (by omega),
      if_neg (by omega), Nat.add_sub_cancel_left, hlen, Option.map_some]
    simp only [bytesRequired, Nat.add_comm]

/-- **A written list of written strings reads back as those strings**: the reader opened on it
    is a list that takes all the bytes, and its items are the strings as they were written. -/
theorem items_listOut (ss : List (List UInt8)) (hs : ∀ s ∈ ss, s.length < maxLength)
    (hn : (ss.map appendBytes).flatten.length < maxLength) :
    ∃ h, openExact (listOut (ss.map appendBytes)) = some (some h) ∧
      items (listOut (ss.map appendBytes)) h = some (ss.map appendBytes) := by
  have hhead := readHeader_listOut (ss.map appendBytes) [] hn
  rw [List.append_nil] at hhead
  refine ⟨⟨true, (listHeader (ss.map appendBytes).flatten.length).length,
    (ss.map appendBytes).flatten.length⟩, ?_, ?_⟩
  · have hne : listOut (ss.map appendBytes) ≠ [] := by
      unfold listOut listHeader pushCount
      split_ifs <;> simp
    rw [openExact, if_neg hne, hhead]
    simp [Header.size, listOut]
  · have hpayload : Header.payload ⟨true, (listHeader (ss.map appendBytes).flatten.length).length,
        (ss.map appendBytes).flatten.length⟩ (listOut (ss.map appendBytes)) =
          (ss.map appendBytes).flatten := by
      rw [Header.payload, listOut, List.drop_left, List.take_length]
    rw [items, if_pos rfl, hpayload, splitItems_flatten ss hs]

/-- A written string starts with a byte below `0xc0`: the reader takes it for a string. -/
theorem isData_appendBytes (s : List UInt8) (hs : s.length < maxLength) :
    isData (appendBytes s) = true := by
  unfold appendBytes
  split_ifs with hsingle hshort
  · obtain ⟨b, rfl⟩ := List.length_eq_one_iff.1 hsingle.1
    have hb : b.toNat < 0x80 := by simpa using hsingle.2
    simp [isData]
    omega
  · simp [isData]
    omega
  · have h8 := bytesRequired_le_eight hs
    simp [isData, pushCount]
    omega

/-- A written string converts back to itself. -/
theorem toBytes_appendBytes (s : List UInt8) (hs : s.length < maxLength) :
    toBytes (appendBytes s) = some s := by
  have hhead := readHeader_appendBytes s [] hs
  have hpayload := payload_appendBytes s []
  rw [List.append_nil] at hhead hpayload
  rw [toBytes, if_pos (isData_appendBytes s hs), hhead, Option.map_some, hpayload]

/-- A string with no leading zero is written as a canonical number. -/
theorem isInt_appendBytes (s : List UInt8) (hs : s.length < 56)
    (hlead : ∀ b, s.head? = some b → b ≠ 0) : isInt (appendBytes s) = true := by
  unfold appendBytes
  split_ifs with hsingle
  · -- a single byte below `0x80`, written as itself: canonical as it is not zero
    obtain ⟨b, rfl⟩ := List.length_eq_one_iff.1 hsingle.1
    have hb : b.toNat < 0x80 := by simpa using hsingle.2
    have hbn : b.toNat ≠ 0 := fun h => hlead b rfl (UInt8.toNat_inj.1 (by simpa using h))
    simp [isInt, hb, hbn]
  · -- `0x80 + length` and the bytes: canonical when empty or led by a byte that is not zero
    cases s with
    | nil => simp [isInt]
    | cons b tail =>
      have hbn : b.toNat ≠ 0 := fun h => hlead b rfl (UInt8.toNat_inj.1 (by simpa using h))
      have hbyte : (UInt8.ofNat ((b :: tail).length + 0x80)).toNat = (b :: tail).length + 0x80 := by
        rw [UInt8.toNat_ofNat']
        simp only [List.length_cons] at hs ⊢
        omega
      simp only [List.cons_append, List.nil_append, isInt, hbyte]
      simp only [List.length_cons] at hs ⊢
      rw [if_neg (by omega), if_neg (by omega), if_pos (by omega)]
      simpa using hbn

/-- A written number converts back to itself, when it fits the width it is read in. -/
theorem toInt_appendNat (maxSize n : ℕ) (hsize : bytesRequired n ≤ maxSize) (hmax : maxSize < 56) :
    toInt maxSize (appendNat n) = some n := by
  have hshort : (toBigEndian n).length < 56 := by
    unfold bytesRequired at hsize
    omega
  have hhead := readHeader_appendBytes (toBigEndian n) [] (by unfold maxLength; omega)
  have hpayload := payload_appendBytes (toBigEndian n) []
  rw [List.append_nil] at hhead hpayload
  have hint := isInt_appendBytes (toBigEndian n) hshort (toBigEndian_head_ne_zero n)
  rw [appendNat_eq_appendBytes, toInt, hhead]
  simp only [hint, hpayload, Option.bind_eq_bind, Option.bind_some, Bool.not_true, Bool.false_or,
    Bool.false_eq_true, if_false, fromBigEndian_toBigEndian]
  -- the number's bytes fit the width it is read in
  rw [if_neg (by unfold bytesRequired at hsize; omega)]

/-- A written string takes at most nine bytes more than the string. -/
theorem length_appendBytes_le (s : List UInt8) (hs : s.length < maxLength) :
    (appendBytes s).length ≤ s.length + 9 := by
  have h8 := bytesRequired_le_eight hs
  unfold appendBytes
  split_ifs
  · omega
  · simp
  · simp only [pushCount, List.cons_append, List.length_cons, List.length_append]
    unfold bytesRequired at h8
    omega

/-- A number is written as its big-endian bytes (the direction `simp` rewrites back to numbers). -/
@[simp] theorem appendBytes_toBigEndian (n : ℕ) : appendBytes (toBigEndian n) = appendNat n :=
  (appendNat_eq_appendBytes n).symm

/-- The empty string is written as zero is. -/
@[simp] theorem appendBytes_nil : appendBytes [] = appendNat 0 := by
  decide

/-- A written number converts back to its bytes. -/
theorem toBytes_appendNat (n : ℕ) (hn : bytesRequired n < maxLength) :
    toBytes (appendNat n) = some (toBigEndian n) := by
  rw [appendNat_eq_appendBytes]
  exact toBytes_appendBytes _ hn

/-- A fixed-width number takes exactly its width, when it fits. -/
theorem length_toBigEndianFixed {width n : ℕ} (h : bytesRequired n ≤ width) :
    (toBigEndianFixed width n).length = width := by
  simp only [toBigEndianFixed, List.length_append, List.length_replicate]
  unfold bytesRequired at h ⊢
  omega

theorem fromBigEndian_replicate_zero_append (k : ℕ) (l : List UInt8) :
    fromBigEndian (List.replicate k 0 ++ l) = fromBigEndian l := by
  induction k with
  | zero => simp
  | succ k ih =>
    rw [List.replicate_succ, List.cons_append, fromBigEndian, List.foldl_cons]
    simpa [fromBigEndian] using ih

/-- Leading zeros do not change a number: a fixed-width number reads back as itself. -/
@[simp] theorem fromBigEndian_toBigEndianFixed (width n : ℕ) :
    fromBigEndian (toBigEndianFixed width n) = n := by
  rw [toBigEndianFixed, fromBigEndian_replicate_zero_append, fromBigEndian_toBigEndian]

end Rlp
