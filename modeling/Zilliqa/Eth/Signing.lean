import Zilliqa.Eth.Transaction

/-!
# `Eth.Signing` — what the node signs, hashes and forwards for an Ethereum legacy transaction

`LegacyTx` is a signed legacy transaction as Ethereum defines it. A wallet sends its RLP list
(`LegacyTx.encode`) after signing the keccak256 of `LegacyTx.signingPayload`. That payload is an
RLP list of the six signed fields; with EIP-155 it also holds the chain id and two zeros. Over a
well-formed one:

- `parseLegacyTransaction_encode`: the parser reads back its fields (`LegacyTx.fields`).
- `recoverLegacyTransaction_eip155`: with EIP-155 the key is recovered from the keccak256 of the
  standard signing payload. `recoverLegacyTransaction_beforeEip155`: without it, from the keccak256
  of the six fields written one after the other with no list around them
  (`unsignedItems_flatten_ne_signingPayload`).
- `getOriginalHash_txCore`: the signature check hashes the same bytes as the recovery.
- `getTxFromFields_beforeEip155`, `getTxFromFields_eip155`: the stored transaction gets the id of
  its raw bytes (`tranIDOf`).
- `protobufToTransaction_transactionToProtobuf`: between nodes, every transaction whose `v` is
  not `27`/`28` comes back with the same id, fields and signature, and is accepted again.
  `protobufToTransaction_beforeEip155`: one whose `v` is `27`/`28` is refused. Its id is recomputed
  from other bytes, so it is accepted only if keccak256 maps those bytes to the same hash.
-/

namespace Zilliqa

namespace Eth

open Rlp Codec

/-- The id `SetHash` gives a transaction whose rebuilt raw bytes are `bytes`. -/
def tranIDOf {PubKey : Type} (E : EthEnv PubKey) (bytes : List UInt8) : FixedBytes 32 :=
  (copyWithSizeCheck 32 (E.keccak256 bytes)).getD zeroHash

/-! ## Ethereum's legacy format -/

/-- A signed legacy transaction, as Ethereum defines it: the fields of its RLP list. -/
structure LegacyTx where
  nonce : ℕ
  gasPrice : ℕ
  gasLimit : ℕ
  toAddr : List UInt8
  value : ℕ
  data : List UInt8
  v : ℕ
  r : ℕ
  s : ℕ
deriving DecidableEq, Repr

namespace LegacyTx

variable (t : LegacyTx)

/-- The six fields that are signed, as RLP items. -/
def unsignedItems : List (List UInt8) :=
  [appendNat t.nonce, appendNat t.gasPrice, appendNat t.gasLimit, appendBytes t.toAddr,
    appendNat t.value, appendBytes t.data]

/-- The raw transaction: the RLP list of the six fields and `v`, `r`, `s`. -/
def encode : List UInt8 :=
  listOut (t.unsignedItems ++ [appendNat t.v, appendNat t.r, appendNat t.s])

/-- What a wallet signs: before EIP-155 (`v` of `27`/`28`) the RLP list of the six fields; with
    EIP-155 the list of the six fields, the chain id and two zeros. -/
def signingPayload (chainId : ℕ) : List UInt8 :=
  if t.v = 27 ∨ t.v = 28 then listOut t.unsignedItems
  else listOut (t.unsignedItems ++ [appendNat chainId, appendNat 0, appendNat 0])

/-- `r ‖ s`, 32 bytes each. -/
def rs : List UInt8 := toBigEndianFixed 32 t.r ++ toBigEndianFixed 32 t.s

/-- The byte strings of the nine items. -/
def strings : List (List UInt8) :=
  [toBigEndian t.nonce, toBigEndian t.gasPrice, toBigEndian t.gasLimit, t.toAddr, toBigEndian t.value,
    t.data, toBigEndian t.v, toBigEndian t.r, toBigEndian t.s]

/-- What the node's readers need of a transaction: each number fits the width it is read in, `to`
    is empty or a non-zero address, and the data is not huge. -/
structure WF : Prop where
  nonce_lt : t.nonce < 2 ^ 32
  gasPrice_lt : t.gasPrice < 2 ^ 128
  gasLimit_lt : t.gasLimit < 2 ^ 64
  to_ok : t.toAddr = [] ∨ (t.toAddr.length = 20 ∧ t.toAddr.any (· ≠ 0))
  value_lt : t.value < 2 ^ 128
  data_lt : t.data.length < 2 ^ 32
  v_lt : t.v < 2 ^ 31
  r_lt : t.r < 2 ^ 256
  s_lt : t.s < 2 ^ 256

theorem encode_eq_strings : t.encode = listOut (t.strings.map appendBytes) := by
  simp [encode, strings, unsignedItems]

/-- The items of the raw transaction are the nine written strings. -/
theorem items_eq_strings :
    t.unsignedItems ++ [appendNat t.v, appendNat t.r, appendNat t.s] = t.strings.map appendBytes := by
  simp [strings, unsignedItems]

/-- The fields the parser reads from the transaction: the nonce counted from one, the data in
    `code`, and `r ‖ s` as the signature. -/
def fields (cfg : EthConfig) : EthFields where
  version := pack cfg.chainId transactionVersionEthLegacy
  nonce := UInt64.ofNat t.nonce + 1
  toAddr := t.toAddr
  amount := uint128 t.value
  gasPrice := uint128 t.gasPrice
  gasLimit := UInt64.ofNat t.gasLimit
  code := t.data
  data := []
  signature := t.rs
  signatureValidation := t.v

/-- The transaction with `v` replaced, as the node rebuilds it. -/
def withV (w : ℕ) : LegacyTx := { t with v := w }

@[simp] theorem unsignedItems_withV (w : ℕ) : (t.withV w).unsignedItems = t.unsignedItems := rfl

@[simp] theorem rs_withV (w : ℕ) : (t.withV w).rs = t.rs := rfl

@[simp] theorem v_withV (w : ℕ) : (t.withV w).v = w := rfl

theorem withV_of_eq {w : ℕ} (h : t.v = w) : t.withV w = t := by
  rw [← h]
  rfl

namespace WF

variable {t}

theorem bytesRequired_nonce (hwf : t.WF) : bytesRequired t.nonce ≤ 4 :=
  @bytesRequired_le_of_lt_two_pow _ 4 hwf.nonce_lt

theorem bytesRequired_gasPrice (hwf : t.WF) : bytesRequired t.gasPrice ≤ 16 :=
  @bytesRequired_le_of_lt_two_pow _ 16 hwf.gasPrice_lt

theorem bytesRequired_gasLimit (hwf : t.WF) : bytesRequired t.gasLimit ≤ 8 :=
  @bytesRequired_le_of_lt_two_pow _ 8 hwf.gasLimit_lt

theorem bytesRequired_value (hwf : t.WF) : bytesRequired t.value ≤ 16 :=
  @bytesRequired_le_of_lt_two_pow _ 16 hwf.value_lt

theorem bytesRequired_v (hwf : t.WF) : bytesRequired t.v ≤ 4 :=
  @bytesRequired_le_of_lt_two_pow _ 4 (hwf.v_lt.trans (by decide))

theorem bytesRequired_r (hwf : t.WF) : bytesRequired t.r ≤ 32 :=
  @bytesRequired_le_of_lt_two_pow _ 32 hwf.r_lt

theorem bytesRequired_s (hwf : t.WF) : bytesRequired t.s ≤ 32 :=
  @bytesRequired_le_of_lt_two_pow _ 32 hwf.s_lt

theorem toAddr_length_le (hwf : t.WF) : t.toAddr.length ≤ 20 := by
  rcases hwf.to_ok with h | h
  · simp [h]
  · omega

/-- Each of the nine strings is at most `2^32` bytes. -/
theorem length_strings_le (hwf : t.WF) : ∀ s ∈ t.strings, s.length ≤ 2 ^ 32 := by
  have hn := hwf.bytesRequired_nonce
  have hp := hwf.bytesRequired_gasPrice
  have hg := hwf.bytesRequired_gasLimit
  have ha := hwf.toAddr_length_le
  have hval := hwf.bytesRequired_value
  have hd := hwf.data_lt
  have hv := hwf.bytesRequired_v
  have hr := hwf.bytesRequired_r
  have hs := hwf.bytesRequired_s
  unfold bytesRequired at hn hp hg hval hv hr hs
  simp only [strings, List.mem_cons, List.not_mem_nil, or_false]
  rintro s (rfl | rfl | rfl | rfl | rfl | rfl | rfl | rfl | rfl) <;> omega

/-- The nine written items take at most `9 * (2^32 + 9)` bytes. -/
theorem length_items_le (hwf : t.WF) :
    (t.strings.map appendBytes).flatten.length ≤ 9 * (2 ^ 32 + 9) := by
  have hmax : (2 : ℕ) ^ 40 < maxLength := by unfold maxLength; decide
  have hshort := hwf.length_strings_le
  -- every written item is at most nine bytes longer than its string
  have hitem : ∀ s ∈ t.strings, (appendBytes s).length ≤ 2 ^ 32 + 9 := fun s hs' =>
    (length_appendBytes_le s (by have := hshort s hs'; omega)).trans (by have := hshort s hs'; omega)
  rw [List.length_flatten]
  have hlen : (t.strings.map appendBytes).length = 9 := by simp [strings]
  calc ((t.strings.map appendBytes).map List.length).sum
      ≤ ((t.strings.map appendBytes).map List.length).length * (2 ^ 32 + 9) := by
        apply List.sum_le_card_nsmul
        intro x hx
        obtain ⟨item, hitem', rfl⟩ := List.mem_map.1 hx
        obtain ⟨s, hs', rfl⟩ := List.mem_map.1 hitem'
        exact hitem s hs'
    _ = 9 * (2 ^ 32 + 9) := by rw [List.length_map, hlen]

/-- Each of the nine strings fits a payload, and so do all of them written one after another. -/
theorem strings_lt (hwf : t.WF) :
    (∀ s ∈ t.strings, s.length < maxLength) ∧
      (t.strings.map appendBytes).flatten.length < maxLength := by
  have hmax : (2 : ℕ) ^ 40 < maxLength := by unfold maxLength; decide
  have hshort := hwf.length_strings_le
  have hitems := hwf.length_items_le
  exact ⟨fun s hs' => by have := hshort s hs'; omega, by omega⟩

/-- The payload of the raw transaction is shorter than `2^56` bytes. -/
theorem length_flatten_lt (hwf : t.WF) :
    (t.unsignedItems ++ [appendNat t.v, appendNat t.r, appendNat t.s]).flatten.length < 2 ^ 56 := by
  have hitems := hwf.length_items_le
  rw [items_eq_strings]
  omega

/-- `r ‖ s` is 64 bytes, `r` first. -/
theorem length_rs (hwf : t.WF) : t.rs.length = 64 := by
  rw [rs, List.length_append, length_toBigEndianFixed hwf.bytesRequired_r,
    length_toBigEndianFixed hwf.bytesRequired_s]

theorem fromBigEndian_take_rs (hwf : t.WF) : fromBigEndian (t.rs.take 32) = t.r := by
  rw [rs, List.take_left' (length_toBigEndianFixed hwf.bytesRequired_r),
    fromBigEndian_toBigEndianFixed]

theorem fromBigEndian_drop_rs (hwf : t.WF) : fromBigEndian (t.rs.drop 32) = t.s := by
  rw [rs, List.drop_left' (length_toBigEndianFixed hwf.bytesRequired_r),
    fromBigEndian_toBigEndianFixed]

/-- Replacing `v` by another that fits an `int` keeps a transaction well formed. -/
theorem withV (hwf : t.WF) {w : ℕ} (hw : w < 2 ^ 31) : (t.withV w).WF :=
  ⟨hwf.nonce_lt, hwf.gasPrice_lt, hwf.gasLimit_lt, hwf.to_ok, hwf.value_lt, hwf.data_lt, hw,
    hwf.r_lt, hwf.s_lt⟩

/-- **The reader takes the raw transaction for the list of its nine items.** -/
theorem items_encode (hwf : t.WF) :
    ∃ h, openExact t.encode = some (some h) ∧
      items t.encode h = some (t.unsignedItems ++ [appendNat t.v, appendNat t.r, appendNat t.s]) := by
  obtain ⟨hstrings, hflat⟩ := hwf.strings_lt
  rw [encode_eq_strings, items_eq_strings]
  exact items_listOut t.strings hstrings hflat

/-- The raw transaction is parsed as a legacy one. -/
theorem parseRawTxFields_encode {PubKey : Type} (E : EthEnv PubKey) (cfg : EthConfig)
    (hwf : t.WF) : parseRawTxFields E cfg t.encode = parseLegacyTransaction cfg t.encode :=
  parseRawTxFields_listOut E cfg _ hwf.length_flatten_lt

/-- The key of the raw transaction is recovered as that of a legacy one. -/
theorem recoverECDSAPubKey_encode {PubKey : Type} (E : EthEnv PubKey) (cfg : EthConfig)
    (hwf : t.WF) (chainId : ℤ) :
    recoverECDSAPubKey E cfg t.encode chainId = recoverLegacyTransaction E cfg t.encode chainId :=
  recoverECDSAPubKey_listOut E cfg _ hwf.length_flatten_lt chainId

end WF

/-- **The parser reads back the fields of a well-formed legacy transaction.** -/
theorem parseLegacyTransaction_encode {t : LegacyTx} (hwf : t.WF) (cfg : EthConfig) :
    parseLegacyTransaction cfg t.encode = some (t.fields cfg) := by
  obtain ⟨h, hopen, hitems⟩ := hwf.items_encode
  obtain ⟨hstrings, -⟩ := hwf.strings_lt
  have hlt : ∀ s ∈ t.strings, s.length < maxLength := hstrings
  simp only [strings, List.mem_cons, List.not_mem_nil, or_false, forall_eq_or_imp,
    forall_eq] at hlt
  obtain ⟨hn, hp, hg, hto, hval, hdata, hv, hr, hs⟩ := hlt
  -- every item converts back to its string, and every number to itself
  have bn := toBytes_appendNat t.nonce hn
  have bp := toBytes_appendNat t.gasPrice hp
  have bg := toBytes_appendNat t.gasLimit hg
  have bto := toBytes_appendBytes t.toAddr hto
  have bval := toBytes_appendNat t.value hval
  have bdata := toBytes_appendBytes t.data hdata
  have bv := toBytes_appendNat t.v hv
  have br := toBytes_appendNat t.r hr
  have bs := toBytes_appendNat t.s hs
  have in' := toInt_appendNat 4 t.nonce hwf.bytesRequired_nonce (by decide)
  have ip := toInt_appendNat 16 t.gasPrice hwf.bytesRequired_gasPrice (by decide)
  have ig := toInt_appendNat 8 t.gasLimit hwf.bytesRequired_gasLimit (by decide)
  have ival := toInt_appendNat 16 t.value hwf.bytesRequired_value (by decide)
  have iv := toInt_appendNat 4 t.v hwf.bytesRequired_v (by decide)
  have ir := toInt_appendNat 32 t.r hwf.bytesRequired_r (by decide)
  have is := toInt_appendNat 32 t.s hwf.bytesRequired_s (by decide)
  simp [parseLegacyTransaction, hopen, hitems, unsignedItems, parseLegacyItems, parseLegacyStep,
    bn, bp, bg, bto, bval, bdata, bv, br, bs, in', ip, ig, ival, iv, ir, is, fields, rs,
    EthFields.default]

/-! ## Recovering the signer -/

/-- **What the recovery loop builds from a well-formed transaction**: the six items copied into
    both payloads, `v`, and `r ‖ s`; with EIP-155 also the chain id and two empty strings. -/
theorem legacyScan_encode {t : LegacyTx} (hwf : t.WF) (chainId : ℤ) :
    legacyScan chainId 0 LegacyScan.init
        (t.unsignedItems ++ [appendNat t.v, appendNat t.r, appendNat t.s]) =
      some (if t.v = 27 ∨ t.v = 28 then ⟨t.unsignedItems, t.unsignedItems, t.v, true, t.rs⟩
        else ⟨t.unsignedItems ++ [appendNat chainId.toNat, appendNat 0, appendNat 0], t.unsignedItems,
          t.v, false, t.rs⟩) := by
  obtain ⟨hstrings, -⟩ := hwf.strings_lt
  have hlt : ∀ s ∈ t.strings, s.length < maxLength := hstrings
  simp only [strings, List.mem_cons, List.not_mem_nil, or_false, forall_eq_or_imp,
    forall_eq] at hlt
  obtain ⟨hn, hp, hg, hto, hval, hdata, hv, hr, hs⟩ := hlt
  have bn := toBytes_appendNat t.nonce hn
  have bp := toBytes_appendNat t.gasPrice hp
  have bg := toBytes_appendNat t.gasLimit hg
  have bto := toBytes_appendBytes t.toAddr hto
  have bval := toBytes_appendNat t.value hval
  have bdata := toBytes_appendBytes t.data hdata
  have bv := toBytes_appendNat t.v hv
  have br := toBytes_appendNat t.r hr
  have bs := toBytes_appendNat t.s hs
  have iv := toInt_appendNat 4 t.v hwf.bytesRequired_v (by decide)
  have ir := toInt_appendNat 32 t.r hwf.bytesRequired_r (by decide)
  have is := toInt_appendNat 32 t.s hwf.bytesRequired_s (by decide)
  have hint := int32OfUInt32_of_lt hwf.v_lt
  by_cases hpre : t.v = 27 ∨ t.v = 28
  · -- `v` read as an `int` is `27`/`28` as well
    have hpre' : (t.v : ℤ) = 27 ∨ (t.v : ℤ) = 28 := by omega
    simp [legacyScan, legacyScanStep, unsignedItems, bn, bp, bg, bto, bval, bdata, bv, br, bs,
      iv, ir, is, hint, hpre, hpre', LegacyScan.init, rs]
  · have hpre' : ¬ ((t.v : ℤ) = 27 ∨ (t.v : ℤ) = 28) := by omega
    simp [legacyScan, legacyScanStep, unsignedItems, bn, bp, bg, bto, bval, bdata, bv, br, bs,
      iv, ir, is, hint, hpre, hpre', LegacyScan.init, rs]

section Recover

variable {PubKey : Type} (E : EthEnv PubKey) (cfg : EthConfig)

/-- **Before EIP-155 the key is recovered from the keccak256 of the six fields written one after
    the other**, with the recovery id `v - 27`, and only where such transactions are accepted. -/
theorem recoverLegacyTransaction_beforeEip155 {t : LegacyTx} (hwf : t.WF)
    (hv : t.v = 27 ∨ t.v = 28) (chainId : ℤ) :
    recoverLegacyTransaction E cfg t.encode chainId =
      some (if cfg.acceptEthTransactionsWithoutChainId then
        E.derivePubkey t.rs (t.v - 27) (E.keccak256 t.unsignedItems.flatten) else []) := by
  obtain ⟨h, hopen, hitems⟩ := hwf.items_encode
  have hscan := legacyScan_encode hwf chainId
  rw [if_pos hv] at hscan
  -- `27`/`28` select the recovery ids `0`/`1`
  have hsel : legacyVSelect chainId ⟨t.unsignedItems, t.unsignedItems, t.v, true, t.rs⟩ =
      ((t.v - 27 : ℕ) : ℤ) := by
    rcases hv with hv | hv <;> simp [legacyVSelect, hv]
  cases hacc : cfg.acceptEthTransactionsWithoutChainId
  case false => simp [recoverLegacyTransaction, hopen, hitems, hscan, hacc]
  case true =>
    simp [recoverLegacyTransaction, hopen, hitems, hscan, hacc, hsel]
    omega

/-- **With EIP-155 the key is recovered from the keccak256 of the standard signing payload**, with
    the recovery id `k` that `v = 2 * chainId + 35 + k` carries. -/
theorem recoverLegacyTransaction_eip155 {t : LegacyTx} (hwf : t.WF) (chainId k : ℕ) (hk : k < 2)
    (hv : t.v = 2 * chainId + 35 + k) :
    recoverLegacyTransaction E cfg t.encode chainId =
      some (E.derivePubkey t.rs k (E.keccak256 (t.signingPayload chainId))) := by
  obtain ⟨h, hopen, hitems⟩ := hwf.items_encode
  have hpre : ¬ (t.v = 27 ∨ t.v = 28) := by omega
  have hscan := legacyScan_encode hwf chainId
  rw [if_neg hpre, Int.toNat_natCast] at hscan
  have hsel : legacyVSelect chainId ⟨t.unsignedItems ++ [appendNat chainId, appendNat 0,
      appendNat 0], t.unsignedItems, t.v, false, t.rs⟩ = k := by
    simp only [legacyVSelect, Bool.false_eq_true, if_false]
    split_ifs <;> omega
  have hout : listStreamOut 9 (t.unsignedItems ++ [appendNat chainId, appendNat 0, appendNat 0]) =
      some (t.signingPayload chainId) := by
    rw [listStreamOut, if_pos (by simp [unsignedItems]), signingPayload, if_neg hpre]
  simp [recoverLegacyTransaction, hopen, hitems, hscan, hsel, hout]
  omega

end Recover

/-! ## The stored transaction -/

/-- The core fields `GetTxFromFields` stores for a legacy transaction with sender `pubKey`: the
    nonce counted from one, and without `to` the data as code with the `EVM` prefix. -/
def txCore {PubKey : Type} (cfg : EthConfig) (pubKey : PubKey) : TransactionCoreInfo PubKey where
  version := pack cfg.chainId transactionVersionEthLegacy
  nonce := UInt64.ofNat t.nonce + 1
  toAddr := addressOfBytes t.toAddr
  senderPubKey := pubKey
  amount := uint128 t.value
  gasPrice := uint128 t.gasPrice
  gasLimit := UInt64.ofNat t.gasLimit
  code := if t.toAddr = [] then toEVM t.data else []
  data := if t.toAddr = [] then [] else t.data

@[simp] theorem txCore_withV {PubKey : Type} (cfg : EthConfig) (pubKey : PubKey) (w : ℕ) :
    (t.withV w).txCore cfg pubKey = t.txCore cfg pubKey := rfl

/-- `to` is the null address exactly when it is empty. -/
theorem WF.isNullAddress_addressOfBytes {t : LegacyTx} (hwf : t.WF) :
    isNullAddress (addressOfBytes t.toAddr) = decide (t.toAddr = []) := by
  rcases hwf.to_ok with h0 | ⟨h20, hnz⟩
  · simp [h0, addressOfBytes, isNullAddress]
  · have hne : t.toAddr ≠ [] := by
      intro h
      simp [h] at h20
    simp only [isNullAddress, addressOfBytes, dif_pos h20, hne, decide_false]
    simpa using hnz

section Stored

variable {PubKey : Type} (E : EthEnv PubKey) (cfg : EthConfig)

/-- **The node stores the parsed fields as `txCore`.** -/
theorem getTxFromFields_fields [DecidableEq PubKey] {t : LegacyTx} (hwf : t.WF) (pubKey : List UInt8) :
    getTxFromFields E cfg (t.fields cfg) pubKey =
      Transaction.make E cfg (t.txCore cfg (E.pubKeyOfBytes pubKey)) t.rs t.v := by
  simp only [getTxFromFields, fields, hwf.isNullAddress_addressOfBytes, decide_eq_true_eq]
  rfl

/-- **The re-encoders write back the six signed items**: the nonce less one, the numbers within
    their widths, and the data out of the code it was stored as. -/
theorem legacyItems_txCore {t : LegacyTx} (hwf : t.WF) (pubKey : PubKey) :
    legacyItems (t.txCore cfg pubKey) = t.unsignedItems := by
  have hn : (UInt64.ofNat t.nonce).toNat = t.nonce :=
    (UInt64.toNat_ofNat').trans (Nat.mod_eq_of_lt (hwf.nonce_lt.trans (by decide)))
  have hg : (UInt64.ofNat t.gasLimit).toNat = t.gasLimit :=
    (UInt64.toNat_ofNat').trans (Nat.mod_eq_of_lt hwf.gasLimit_lt)
  have hp : (uint128 t.gasPrice).val = t.gasPrice := Nat.mod_eq_of_lt hwf.gasPrice_lt
  have hval : (uint128 t.value).val = t.value := Nat.mod_eq_of_lt hwf.value_lt
  -- the null-address tests become tests of an empty `to` before `to` is split on
  simp only [legacyItems, txCore, hwf.isNullAddress_addressOfBytes, decide_eq_true_eq]
  by_cases h0 : t.toAddr = []
  · simp [unsignedItems, hn, hg, hp, hval, h0]
  · have h20 : t.toAddr.length = 20 := by
      rcases hwf.to_ok with h | h
      · exact absurd h h0
      · exact h.1
    simp [unsignedItems, hn, hg, hp, hval, h0, addressOfBytes, h20]

/-- **The signature check hashes what the recovery hashed**: the bare six items before EIP-155,
    the EIP-155 payload for `chainId` otherwise. -/
theorem getOriginalHash_txCore {t : LegacyTx} (hwf : t.WF) (pubKey : PubKey) (chainId v : ℕ) :
    getOriginalHash E (t.txCore cfg pubKey) chainId v =
      E.keccak256 (if v = 27 ∨ v = 28 then t.unsignedItems.flatten
        else listOut (t.unsignedItems ++ [appendNat chainId, appendNat 0, appendNat 0])) := by
  simp only [getOriginalHash, legacyItems_txCore cfg hwf, appendBytes_nil]

/-- Before EIP-155 a pass of `GetTransmittedRLP` rebuilds the transaction with its own `v`. -/
theorem transmittedAttempt_txCore_beforeEip155 {t : LegacyTx} (hwf : t.WF) (pubKey : PubKey)
    (chainId i : ℕ) {v : ℕ} (hv : v = 27 ∨ v = 28) :
    transmittedAttempt (t.txCore cfg pubKey) chainId i v t.r t.s = ((t.withV v).encode, v) := by
  rw [transmittedAttempt, if_pos hv, legacyItems_txCore cfg hwf]
  rfl

/-- Otherwise pass `i` rebuilds it with `v = 2 * chainId + 35 + i`. -/
theorem transmittedAttempt_txCore_eip155 {t : LegacyTx} (hwf : t.WF) (pubKey : PubKey)
    (chainId i : ℕ) {v : ℕ} (hv : ¬ (v = 27 ∨ v = 28)) (hc : 2 * chainId + 35 + i < 2 ^ 32) :
    transmittedAttempt (t.txCore cfg pubKey) chainId i v t.r t.s =
      ((t.withV (2 * chainId + 35 + i)).encode, 2 * chainId + 35 + i) := by
  rw [transmittedAttempt, if_neg hv, Nat.mul_comm chainId 2, Nat.mod_eq_of_lt hc,
    legacyItems_txCore cfg hwf]
  rfl

/-- The key recovered from the transaction rebuilt with `v = 2 * chainId + 35 + i`. -/
theorem recoverECDSAPubKey_withV_eip155 {t : LegacyTx} (hwf : t.WF) (chainId i : ℕ) (hi : i < 2)
    (hc : 2 * chainId + 36 < 2 ^ 31) :
    recoverECDSAPubKey E cfg (t.withV (2 * chainId + 35 + i)).encode
        (int32OfUInt32 (chainId % 2 ^ 32)) =
      some (E.derivePubkey t.rs i (E.keccak256
        (listOut (t.unsignedItems ++ [appendNat chainId, appendNat 0, appendNat 0])))) := by
  have hwf' := hwf.withV (show 2 * chainId + 35 + i < 2 ^ 31 by omega)
  have hint : int32OfUInt32 (chainId % 2 ^ 32) = (chainId : ℤ) := by
    rw [Nat.mod_eq_of_lt (by omega), int32OfUInt32_of_lt (by omega)]
  have hpre : ¬ ((t.withV (2 * chainId + 35 + i)).v = 27 ∨
      (t.withV (2 * chainId + 35 + i)).v = 28) := by
    rw [v_withV]
    omega
  rw [hint, WF.recoverECDSAPubKey_encode E cfg hwf',
    recoverLegacyTransaction_eip155 E cfg hwf' chainId i hi rfl, signingPayload, if_neg hpre,
    rs_withV, unsignedItems_withV]

/-- **Before EIP-155 the raw transaction is rebuilt as it came**, under the key recovered from
    it. -/
theorem getTransmittedRLP_beforeEip155 [DecidableEq PubKey] {t : LegacyTx} (hwf : t.WF)
    (hv : t.v = 27 ∨ t.v = 28) (hacc : cfg.acceptEthTransactionsWithoutChainId = true)
    (chainId : ℕ) :
    getTransmittedRLP E cfg (t.txCore cfg (E.pubKeyOfBytes
        (E.derivePubkey t.rs (t.v - 27) (E.keccak256 t.unsignedItems.flatten)))) chainId t.rs t.v =
      some t.encode := by
  have hrec := recoverLegacyTransaction_beforeEip155 E cfg hwf hv
    (int32OfUInt32 (chainId % 2 ^ 32))
  rw [hacc, if_pos rfl] at hrec
  have h0 := transmittedAttempt_txCore_beforeEip155 cfg hwf (E.pubKeyOfBytes
    (E.derivePubkey t.rs (t.v - 27) (E.keccak256 t.unsignedItems.flatten))) chainId 0 hv
  -- the first pass re-encodes the transaction itself, and its key is the sender's
  simp only [getTransmittedRLP, hwf.length_rs, hwf.fromBigEndian_take_rs,
    hwf.fromBigEndian_drop_rs, h0, withV_of_eq t rfl, WF.recoverECDSAPubKey_encode E cfg hwf, hrec]
  simp [txCore]

/-- **With EIP-155, or `v` dropped to `0`, the two passes rebuild the transaction with `v` of
    `2 * chainId + 35` and `+ 36`**; the first whose recovered key is the sender's is kept. -/
theorem getTransmittedRLP_txCore_eip155 [DecidableEq PubKey] {t : LegacyTx} (hwf : t.WF)
    (sender : PubKey) (chainId : ℕ) {v : ℕ} (hv : ¬ (v = 27 ∨ v = 28))
    (hc : 2 * chainId + 36 < 2 ^ 31) :
    getTransmittedRLP E cfg (t.txCore cfg sender) chainId t.rs v =
      if E.pubKeyOfBytes (E.derivePubkey t.rs 0 (E.keccak256
          (listOut (t.unsignedItems ++ [appendNat chainId, appendNat 0, appendNat 0])))) = sender
        then some (t.withV (2 * chainId + 35)).encode
      else if E.pubKeyOfBytes (E.derivePubkey t.rs 1 (E.keccak256
          (listOut (t.unsignedItems ++ [appendNat chainId, appendNat 0, appendNat 0])))) = sender
        then some (t.withV (2 * chainId + 36)).encode
      else some [] := by
  have h0 := transmittedAttempt_txCore_eip155 cfg hwf sender chainId 0 hv (by omega)
  have hv0 : ¬ (2 * chainId + 35 + 0 = 27 ∨ 2 * chainId + 35 + 0 = 28) := by omega
  have h1 := transmittedAttempt_txCore_eip155 cfg hwf sender chainId 1 hv0 (by omega)
  have r0 := recoverECDSAPubKey_withV_eip155 E cfg hwf chainId 0 (by omega) hc
  have r1 := recoverECDSAPubKey_withV_eip155 E cfg hwf chainId 1 (by omega) hc
  have h36 : 2 * chainId + 35 + 1 = 2 * chainId + 36 := rfl
  simp only [getTransmittedRLP, hwf.length_rs, hwf.fromBigEndian_take_rs,
    hwf.fromBigEndian_drop_rs, h0, h1, r0, r1]
  simp [txCore, h36]

/-- **A pre-EIP-155 transaction keeps the id of its raw bytes**: `GetTxFromFields`, under the key
    recovered from it, stores `txCore` and `v`. -/
theorem getTxFromFields_beforeEip155 [DecidableEq PubKey] {t : LegacyTx} (hwf : t.WF)
    (hv : t.v = 27 ∨ t.v = 28) (hacc : cfg.acceptEthTransactionsWithoutChainId = true) :
    getTxFromFields E cfg (t.fields cfg)
        (E.derivePubkey t.rs (t.v - 27) (E.keccak256 t.unsignedItems.flatten)) =
      some ⟨tranIDOf E t.encode, t.txCore cfg (E.pubKeyOfBytes
        (E.derivePubkey t.rs (t.v - 27) (E.keccak256 t.unsignedItems.flatten))), t.rs, t.v⟩ := by
  rw [getTxFromFields_fields E cfg hwf, Transaction.make,
    getTransmittedRLP_beforeEip155 E cfg hwf hv hacc]
  rfl

/-- **An EIP-155 transaction keeps the id of its raw bytes** under the key recovered from it, when
    its recovery id is `0`, or when the other recovery id gives another key. -/
theorem getTxFromFields_eip155 [DecidableEq PubKey] {t : LegacyTx} (hwf : t.WF) (k : ℕ)
    (hk : k < 2) (hv : t.v = 2 * cfg.ethChainId + 35 + k) (hc : 2 * cfg.ethChainId + 36 < 2 ^ 31)
    (hkey : k = 0 ∨ E.pubKeyOfBytes (E.derivePubkey t.rs 0
        (E.keccak256 (t.signingPayload cfg.ethChainId))) ≠
      E.pubKeyOfBytes (E.derivePubkey t.rs 1 (E.keccak256 (t.signingPayload cfg.ethChainId)))) :
    getTxFromFields E cfg (t.fields cfg)
        (E.derivePubkey t.rs k (E.keccak256 (t.signingPayload cfg.ethChainId))) =
      some ⟨tranIDOf E t.encode, t.txCore cfg (E.pubKeyOfBytes
        (E.derivePubkey t.rs k (E.keccak256 (t.signingPayload cfg.ethChainId)))), t.rs, t.v⟩ := by
  have hpre : ¬ (t.v = 27 ∨ t.v = 28) := by omega
  rw [getTxFromFields_fields E cfg hwf, Transaction.make,
    getTransmittedRLP_txCore_eip155 E cfg hwf _ cfg.ethChainId hpre hc]
  rw [signingPayload, if_neg hpre] at hkey ⊢
  -- the pass that re-encodes `v` itself is the first whose key is the sender's
  obtain rfl | rfl : k = 0 ∨ k = 1 := by omega
  · rw [if_pos rfl, withV_of_eq t hv]
    rfl
  · have hne : E.pubKeyOfBytes (E.derivePubkey t.rs 0 (E.keccak256 (listOut (t.unsignedItems ++
        [appendNat cfg.ethChainId, appendNat 0, appendNat 0])))) ≠ E.pubKeyOfBytes
        (E.derivePubkey t.rs 1 (E.keccak256 (listOut (t.unsignedItems ++
        [appendNat cfg.ethChainId, appendNat 0, appendNat 0])))) := by
      rcases hkey with h | h
      · omega
      · exact h
    rw [if_neg hne, if_pos rfl, withV_of_eq t hv]
    rfl

end Stored

/-- **The raw transaction determines `v`**: the parser reads it back. -/
theorem encode_withV_inj {t : LegacyTx} (hwf : t.WF) {w : ℕ} (hw : w < 2 ^ 31)
    (h : (t.withV w).encode = t.encode) : w = t.v := by
  have hparse := parseLegacyTransaction_encode (hwf.withV hw) ⟨0, 0, false⟩
  rw [h, parseLegacyTransaction_encode hwf] at hparse
  exact (congrArg EthFields.signatureValidation (Option.some.inj hparse)).symm

/-- **What the wallet signed is never what the node hashes before EIP-155**: the six fields are
    hashed without the list header of the signing payload. -/
theorem unsignedItems_flatten_ne_signingPayload (t : LegacyTx) (hv : t.v = 27 ∨ t.v = 28)
    (chainId : ℕ) : t.unsignedItems.flatten ≠ t.signingPayload chainId := by
  rw [signingPayload, if_pos hv]
  exact (listOut_ne_flatten _).symm

/-! ## Between nodes -/

section BetweenNodes

variable {PubKey : Type} [DecidableEq PubKey] (E : EthEnv PubKey) (cfg : EthConfig)

/-- **Between nodes, a transaction whose `v` is not `27`/`28` comes back with its id, fields and
    signature, and is accepted again**; only `v` is lost, and neither the id nor the signing hash
    depends on it. -/
theorem protobufToTransaction_transactionToProtobuf {info : TransactionCoreInfo PubKey}
    {signature : List UInt8} {v : ℕ} {tx : Transaction PubKey}
    (hmake : Transaction.make E cfg info signature v = some tx) (hv : ¬ (v = 27 ∨ v = 28))
    (hsigned : tx.isSignedECDSA E cfg = true) :
    protobufToTransaction E cfg (transactionToProtobuf E tx) =
        some { tx with signatureValidation := 0 } ∧
      ({ tx with signatureValidation := 0 } : Transaction PubKey).isSignedECDSA E cfg = true := by
  obtain ⟨asRLP, hrlp, rfl⟩ := Transaction.make_eq_some.1 hmake
  have h0 : ¬ ((0 : ℕ) = 27 ∨ (0 : ℕ) = 28) := by decide
  have hrlp0 : getTransmittedRLP E cfg info cfg.ethChainId signature 0 = some asRLP := by
    rw [getTransmittedRLP_of_not_beforeEip155 E cfg info _ signature h0 hv, hrlp]
  have hsigned0 : (⟨(copyWithSizeCheck 32 (E.keccak256 asRLP)).getD zeroHash, info, signature, 0⟩ :
      Transaction PubKey).isSignedECDSA E cfg = true := by
    rw [Transaction.isSignedECDSA, getOriginalHash_of_not_beforeEip155 E info _ h0 hv]
    exact hsigned
  exact ⟨(protobufToTransaction_transactionToProtobuf_eq_some E cfg _ _).2
    ⟨Transaction.make_eq_some.2 ⟨asRLP, hrlp0, rfl⟩, rfl, hsigned0⟩, hsigned0⟩

/-- **Between nodes, a pre-EIP-155 transaction is refused, unless keccak256 maps other bytes to its
    id**: it is rebuilt with `v` dropped to `0`, that is as an EIP-155 one, whose raw bytes differ
    from the ones its id was computed from. -/
theorem protobufToTransaction_beforeEip155 {t : LegacyTx} (hwf : t.WF) (hv : t.v = 27 ∨ t.v = 28)
    (hc : 2 * cfg.ethChainId + 36 < 2 ^ 31) (sender : PubKey) :
    protobufToTransaction E cfg
        (transactionToProtobuf E ⟨tranIDOf E t.encode, t.txCore cfg sender, t.rs, t.v⟩) = none ∨
      ∃ X, X ≠ t.encode ∧ tranIDOf E X = tranIDOf E t.encode := by
  cases hround : protobufToTransaction E cfg
      (transactionToProtobuf E ⟨tranIDOf E t.encode, t.txCore cfg sender, t.rs, t.v⟩) with
  | none => exact Or.inl rfl
  | some tx' =>
    right
    obtain ⟨hmake, hid, -⟩ := (protobufToTransaction_transactionToProtobuf_eq_some E cfg _ _).1 hround
    obtain ⟨asRLP, hrlp, rfl⟩ := Transaction.make_eq_some.1 hmake
    refine ⟨asRLP, ?_, hid⟩
    -- the rebuilt bytes are one of the two EIP-155 re-encodings, or nothing
    rw [LegacyTx.getTransmittedRLP_txCore_eip155 E cfg hwf sender cfg.ethChainId (by decide) hc]
      at hrlp
    split_ifs at hrlp
    · cases hrlp
      intro h
      have := LegacyTx.encode_withV_inj hwf (by omega) h
      omega
    · cases hrlp
      intro h
      have := LegacyTx.encode_withV_inj hwf (by omega) h
      omega
    · cases hrlp
      exact (listOut_ne_nil _).symm

end BetweenNodes

end LegacyTx

/-- A pre-EIP-155 transaction: nonce, gas and value zero, no `to`, no data, and `v = 27`. -/
def preEip155Tx : LegacyTx := ⟨0, 0, 0, [], 0, [], 27, 1, 1⟩

/-- A node with `CHAIN_ID` `1`, so `ETH_CHAINID` `0x8001`, that accepts transactions without a
    chain id. -/
def acceptingConfig : EthConfig := ⟨0x8001, 1, true⟩

theorem preEip155Tx_wf : preEip155Tx.WF :=
  ⟨by decide, by decide, by decide, Or.inl rfl, by decide, by decide, by decide, by decide,
    by decide⟩

/-- **A pre-EIP-155 transaction is checked against a hash of other bytes than its signing payload,
    and is refused between nodes**: its key is recovered from the keccak256 of the six fields
    without their list header, the stored transaction checks its signature against that same
    hash, and once sent to another node it is refused unless keccak256 maps other bytes to its
    id. -/
theorem beforeEip155_signed_hash_and_relay {PubKey : Type} [DecidableEq PubKey]
    (E : EthEnv PubKey) :
    recoverECDSAPubKey E acceptingConfig preEip155Tx.encode acceptingConfig.ethChainId =
        some (E.derivePubkey preEip155Tx.rs 0 (E.keccak256 preEip155Tx.unsignedItems.flatten)) ∧
      preEip155Tx.unsignedItems.flatten ≠ preEip155Tx.signingPayload acceptingConfig.ethChainId ∧
      ∃ T, (parseRawTxFields E acceptingConfig preEip155Tx.encode).bind (fun fields =>
          getTxFromFields E acceptingConfig fields (E.derivePubkey preEip155Tx.rs 0
            (E.keccak256 preEip155Tx.unsignedItems.flatten))) = some T ∧
        T.tranID = tranIDOf E preEip155Tx.encode ∧
        getOriginalHash E T.coreInfo acceptingConfig.ethChainId T.signatureValidation =
          E.keccak256 preEip155Tx.unsignedItems.flatten ∧
        (protobufToTransaction E acceptingConfig (transactionToProtobuf E T) = none ∨
          ∃ X, X ≠ preEip155Tx.encode ∧ tranIDOf E X = tranIDOf E preEip155Tx.encode) := by
  have hwf := preEip155Tx_wf
  have hv : preEip155Tx.v = 27 ∨ preEip155Tx.v = 28 := Or.inl rfl
  have hacc : acceptingConfig.acceptEthTransactionsWithoutChainId = true := rfl
  have hrec := LegacyTx.recoverLegacyTransaction_beforeEip155 E acceptingConfig hwf hv
    acceptingConfig.ethChainId
  rw [if_pos hacc] at hrec
  refine ⟨?_, LegacyTx.unsignedItems_flatten_ne_signingPayload _ hv _,
    ⟨tranIDOf E preEip155Tx.encode, preEip155Tx.txCore acceptingConfig (E.pubKeyOfBytes
      (E.derivePubkey preEip155Tx.rs 0 (E.keccak256 preEip155Tx.unsignedItems.flatten))),
      preEip155Tx.rs, 27⟩, ?_, rfl, ?_,
    LegacyTx.protobufToTransaction_beforeEip155 E acceptingConfig hwf hv (by decide) _⟩
  · rw [LegacyTx.WF.recoverECDSAPubKey_encode E acceptingConfig hwf, hrec]
    rfl
  · -- the parser reads the fields back, and the node stores them under the recovered key
    rw [LegacyTx.WF.parseRawTxFields_encode E acceptingConfig hwf,
      LegacyTx.parseLegacyTransaction_encode hwf, Option.bind_some]
    exact LegacyTx.getTxFromFields_beforeEip155 E acceptingConfig hwf hv hacc
  · rw [LegacyTx.getOriginalHash_txCore E acceptingConfig hwf, if_pos (Or.inl rfl)]

end Eth

end Zilliqa
