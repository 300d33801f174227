import Zilliqa.Lib.Rlp
import Zilliqa.Message.MessengerCommon

/-!
# `Eth.Transaction` — an Ethereum legacy transaction from raw bytes to a node-to-node message

A raw Ethereum transaction reaches the node as RLP. The node recovers the signer's key from it
(`recoverECDSAPubKey`), parses its fields (`parseRawTxFields`) and builds a `Transaction` from both
(`getTxFromFields`). The transaction keeps `v` as `signatureValidation`. Its signature is checked
against the signing hash `getOriginalHash` rebuilds from the stored fields (`isSignedECDSA`). Its
id is the keccak256 of the raw transaction `getTransmittedRLP` rebuilds (`Transaction.make`).
Between nodes it travels as a protobuf message (`transactionToProtobuf`,
`protobufToTransaction`). That message does not carry `signatureValidation`.

This module models the legacy format (the first byte of the raw transaction between `0xc0` and
`0xfe`) and the legacy case of each function that dispatches on the format. The two typed formats
(EIP-2930, EIP-1559) are parsed and recovered by functions of `EthEnv` that are not looked inside.
Keccak256 and secp256k1 are not looked inside either.

## Contents
- `EthEnv`, `EthConfig`: what the path rests on, and the constants it reads.
- `EthFields`, `parseLegacyTransaction`, `parseRawTxFields`: the parsed fields.
- `recoverLegacyTransaction`, `recoverECDSAPubKey`: the signer's key.
- `TransactionCoreInfo`, `getOriginalHash`, `getTransmittedRLP`: the two re-encodings of the stored
  fields.
- `Transaction`, `Transaction.make`, `Transaction.isSignedECDSA`, `getTxFromFields`.
- `transactionToProtobuf`, `protobufToTransaction`.
-/

namespace Zilliqa

namespace Eth

open Rlp Codec

/-! ## Fields -/

/-- `Eth::EthFields`, without the access list and the two EIP-1559 fees, which a legacy
    transaction leaves empty and zero. -/
structure EthFields where
  version : ℕ
  nonce : UInt64
  toAddr : List UInt8
  amount : Fin (2 ^ 128)
  gasPrice : Fin (2 ^ 128)
  gasLimit : UInt64
  code : List UInt8
  data : List UInt8
  signature : List UInt8
  signatureValidation : ℕ
deriving DecidableEq, Repr

/-- The value-initialised `EthFields{}`. -/
def EthFields.default : EthFields :=
  ⟨0, 0, [], 0, 0, 0, [], [], [], 0⟩

/-- What the Ethereum transaction path rests on and is not looked inside: keccak256; secp256k1
    signer recovery (`DerivePubkey`) and verification (`VerifyEcdsaSecp256k1`); the `PubKey`
    built from bytes (`PubKey(bytes, 0)`) and its serialization; and the parsing and recovery of
    the two typed formats, by their type byte. -/
structure EthEnv (PubKey : Type) where
  keccak256 : List UInt8 → List UInt8
  derivePubkey : List UInt8 → ℕ → List UInt8 → List UInt8
  verifyEcdsaSecp256k1 : List UInt8 → List UInt8 → PubKey → Bool
  pubKeyOfBytes : List UInt8 → PubKey
  pubKey : LawfulCodec PubKey
  parseTypedTransaction : UInt8 → List UInt8 → Option EthFields
  recoverTypedTransaction : UInt8 → List UInt8 → ℤ → Option (List UInt8)

/-- The constants the path reads: `ETH_CHAINID`, `CHAIN_ID` and
    `ACCEPT_ETH_TRANSACTIONS_WITHOUT_CHAIN_ID`. -/
structure EthConfig where
  ethChainId : ℕ
  chainId : ℕ
  acceptEthTransactionsWithoutChainId : Bool

/-- `TRANSACTION_VERSION_ETH_LEGACY`. -/
def transactionVersionEthLegacy : ℕ := 2

/-- `DataConversion::Pack`: two 16-bit halves in a 32-bit word. -/
def pack (a b : ℕ) : ℕ := a % 2 ^ 16 * 2 ^ 16 + b % 2 ^ 16

/-- A `uint128_t` assigned from a number. -/
def uint128 (n : ℕ) : Fin (2 ^ 128) := ⟨n % 2 ^ 128, Nat.mod_lt _ (Nat.two_pow_pos 128)⟩

/-- A `uint32_t` assigned to an `int`. -/
def int32OfUInt32 (v : ℕ) : ℤ := if v < 2 ^ 31 then v else (v : ℤ) - 2 ^ 32

theorem int32OfUInt32_of_lt {v : ℕ} (h : v < 2 ^ 31) : int32OfUInt32 v = v := by
  rw [int32OfUInt32, if_pos h]

/-! ## Parsing -/

/-- One item of the loop of `parseLegacyTransaction`, at index `i`: nonce, gas price, gas limit,
    `to`, value, data, `v`, `r`, `s`. Every item is also read as bytes, and a number that is not
    canonical or too wide throws. -/
def parseLegacyStep (ret : EthFields) (i : ℕ) (item : List UInt8) : Option EthFields := do
  let byteIt ← toBytes item
  match i with
  | 0 => return { ret with nonce := UInt64.ofNat (← toInt 4 item) }
  | 1 => return { ret with gasPrice := uint128 (← toInt 16 item) }
  | 2 => return { ret with gasLimit := UInt64.ofNat (← toInt 8 item) }
  | 3 => return { ret with toAddr := byteIt }
  | 4 => return { ret with amount := uint128 (← toInt 16 item) }
  | 5 => return { ret with code := byteIt }
  | 6 => return { ret with signatureValidation := ← toInt 4 item }
  | 7 | 8 => return { ret with signature := ret.signature ++ toBigEndianFixed 32 (← toInt 32 item) }
  | _ => return ret

/-- The loop of `parseLegacyTransaction` over the items from index `i`. -/
def parseLegacyItems : ℕ → EthFields → List (List UInt8) → Option EthFields
  | _, ret, [] => some ret
  | i, ret, item :: rest => do
    let ret ← parseLegacyStep ret i item
    parseLegacyItems (i + 1) ret rest

/-- `Eth::parseLegacyTransaction`: the fields of the list's items, with the nonce incremented
    (Zilliqa counts nonces from one); the default fields when the bytes are not exactly one item. -/
def parseLegacyTransaction (cfg : EthConfig) (asBytes : List UInt8) : Option EthFields := do
  let some h ← openExact asBytes | pure EthFields.default
  let items ← items asBytes h
  let ret ← parseLegacyItems 0
    { EthFields.default with version := pack cfg.chainId transactionVersionEthLegacy } items
  pure { ret with nonce := ret.nonce + 1 }

/-- `Eth::parseRawTxFields`, on the bytes of the hex string: the format is chosen by the first
    byte. -/
def parseRawTxFields {PubKey : Type} (E : EthEnv PubKey) (cfg : EthConfig) :
    List UInt8 → Option EthFields
  | [] => some EthFields.default
  | firstByte :: rest =>
    if firstByte = 0x01 ∨ firstByte = 0x02 then E.parseTypedTransaction firstByte rest
    else if 0xc0 ≤ firstByte.toNat ∧ firstByte.toNat ≤ 0xfe then
      parseLegacyTransaction cfg (firstByte :: rest)
    else some EthFields.default

/-- A written list is parsed as a legacy transaction. -/
theorem parseRawTxFields_listOut {PubKey : Type} (E : EthEnv PubKey) (cfg : EthConfig)
    (items : List (List UInt8)) (h : items.flatten.length < 2 ^ 56) :
    parseRawTxFields E cfg (listOut items) = parseLegacyTransaction cfg (listOut items) := by
  obtain ⟨b, rest, hout, hlo, hhi⟩ := listOut_cons items h
  have htyped : ¬ (b = 0x01 ∨ b = 0x02) := by
    rintro (rfl | rfl) <;> exact absurd hlo (by decide)
  rw [hout, parseRawTxFields, if_neg htyped, if_pos ⟨hlo, hhi⟩]

/-! ## Recovering the signer -/

/-- What the loop of `RecoverLegacyTransaction` builds: the items of the EIP-155 signing payload
    (`rlpStreamRecreated`, an `RLPStream(9)`), the items of the pre-EIP-155 one
    (`rlpStreamRecreatedBeforeEip155`, an `RLPStream()` that is never made a list), `v`, whether
    `v` marks a pre-EIP-155 transaction, and `r ‖ s`. -/
structure LegacyScan where
  recreated : List (List UInt8)
  recreatedBeforeEip155 : List (List UInt8)
  v : ℤ
  beforeEip155Tx : Bool
  rs : List UInt8

/-- The scan before the first item. -/
def LegacyScan.init : LegacyScan := ⟨[], [], 0, false, []⟩

/-- One item of the loop of `RecoverLegacyTransaction`, at index `i`: the first six are copied into
    both payloads; `v` adds the chain id to the EIP-155 payload unless it is `27` or `28`; `r` and
    `s` add empty strings to it and are collected as 32 bytes each. -/
def legacyScanStep (chainId : ℤ) (st : LegacyScan) (i : ℕ) (item : List UInt8) :
    Option LegacyScan := do
  let itemBytes ← toBytes item
  let st := if i < 6 then
      { st with
        recreated := st.recreated ++ [appendBytes itemBytes]
        recreatedBeforeEip155 := st.recreatedBeforeEip155 ++ [appendBytes itemBytes] }
    else st
  let st ← if i = 6 then do
      let v := int32OfUInt32 (← toInt 4 item)
      if v = 27 ∨ v = 28 then pure { st with v := v, beforeEip155Tx := true }
      else pure { st with v := v, recreated := st.recreated ++ [appendNat chainId.toNat] }
    else pure st
  if i = 7 ∨ i = 8 then do
    let st := if st.beforeEip155Tx then st
      else { st with recreated := st.recreated ++ [appendBytes []] }
    pure { st with rs := st.rs ++ toBigEndianFixed 32 (← toInt 32 item) }
  else pure st

/-- The loop of `RecoverLegacyTransaction` over the items from index `i`. -/
def legacyScan (chainId : ℤ) : ℕ → LegacyScan → List (List UInt8) → Option LegacyScan
  | _, st, [] => some st
  | i, st, item :: rest => do
    let st ← legacyScanStep chainId st i item
    legacyScan chainId (i + 1) st rest

/-- The `out()` of an `RLPStream(n)`: the list, once exactly `n` items are appended; it throws
    while the list is still open. -/
def listStreamOut (n : ℕ) (items : List (List UInt8)) : Option (List UInt8) :=
  if items.length = n then some (listOut items) else none

/-- The recovery id `RecoverLegacyTransaction` derives from `v`: `27`/`28` give `0`/`1`; otherwise
    `v - 2 * chainId`, where `35`/`36` give `0`/`1`. -/
def legacyVSelect (chainId : ℤ) (st : LegacyScan) : ℤ :=
  if st.beforeEip155Tx then (if st.v = 27 then 0 else if st.v = 28 then 1 else 0)
  else
    let d := st.v - chainId * 2
    if d = 35 then 0 else if d = 36 then 1 else d

/-- `RecoverLegacyTransaction`: the key recovered from `r ‖ s` and the keccak256 of the signing
    payload rebuilt from the items: the EIP-155 list with the chain id and two empty strings, or,
    for `v` of `27`/`28`, the six items in a bare stream. Nothing for a null reader, a pre-EIP-155
    transaction when those are not accepted, or a recovery id out of range. -/
def recoverLegacyTransaction {PubKey : Type} (E : EthEnv PubKey) (cfg : EthConfig)
    (transaction : List UInt8) (chainId : ℤ) : Option (List UInt8) := do
  let some h ← openExact transaction | pure []
  let items ← items transaction h
  let st ← legacyScan chainId 0 LegacyScan.init items
  if !cfg.acceptEthTransactionsWithoutChainId && st.beforeEip155Tx then pure [] else
  let vSelect := legacyVSelect chainId st
  if !(0 ≤ vSelect ∧ vSelect ≤ 3) then pure [] else
  let messageRecreatedBytes ← if st.beforeEip155Tx then pure st.recreatedBeforeEip155.flatten
    else listStreamOut 9 st.recreated
  pure (E.derivePubkey st.rs vSelect.toNat (E.keccak256 messageRecreatedBytes))

/-- `RecoverECDSAPubKey`, on the bytes of the hex string: the format is chosen by the first byte. -/
def recoverECDSAPubKey {PubKey : Type} (E : EthEnv PubKey) (cfg : EthConfig)
    (message : List UInt8) (chainId : ℤ) : Option (List UInt8) :=
  match message with
  | [] => some []
  | firstByte :: rest =>
    if firstByte = 0x01 ∨ firstByte = 0x02 then E.recoverTypedTransaction firstByte rest chainId
    else if 0xc0 ≤ firstByte.toNat ∧ firstByte.toNat ≤ 0xfe then
      recoverLegacyTransaction E cfg (firstByte :: rest) chainId
    else some []

/-- The key of a written list is recovered as that of a legacy transaction. -/
theorem recoverECDSAPubKey_listOut {PubKey : Type} (E : EthEnv PubKey) (cfg : EthConfig)
    (items : List (List UInt8)) (h : items.flatten.length < 2 ^ 56) (chainId : ℤ) :
    recoverECDSAPubKey E cfg (listOut items) chainId =
      recoverLegacyTransaction E cfg (listOut items) chainId := by
  obtain ⟨b, rest, hout, hlo, hhi⟩ := listOut_cons items h
  have htyped : ¬ (b = 0x01 ∨ b = 0x02) := by
    rintro (rfl | rfl) <;> exact absurd hlo (by decide)
  rw [hout, recoverECDSAPubKey, if_neg htyped, if_pos ⟨hlo, hhi⟩]

/-! ## Re-encoding the stored fields -/

/-- `TransactionCoreInfo`, without the access list and the two EIP-1559 fees. -/
structure TransactionCoreInfo (PubKey : Type) where
  version : ℕ
  nonce : UInt64
  toAddr : FixedBytes 20
  senderPubKey : PubKey
  amount : Fin (2 ^ 128)
  gasPrice : Fin (2 ^ 128)
  gasLimit : UInt64
  code : List UInt8
  data : List UInt8

/-- `IsNullAddress`: every byte is zero. -/
def isNullAddress (addr : FixedBytes 20) : Bool :=
  addr.val.all (· = 0)

/-- `Address(bytes)`: the bytes when there are twenty, the zero address otherwise. -/
def addressOfBytes (bytes : List UInt8) : FixedBytes 20 :=
  if h : bytes.length = 20 then ⟨bytes, h⟩ else ⟨List.replicate 20 0, List.length_replicate⟩

/-- `ToEVM`: code with the `EVM` prefix. -/
def toEVM (code : List UInt8) : List UInt8 :=
  if code = [] then code else [0x45, 0x56, 0x4d] ++ code

/-- `FromEVM`: code without its first three bytes, unless it is shorter than four. -/
def fromEVM (code : List UInt8) : List UInt8 :=
  if code.length < 4 then code else code.drop 3

@[simp] theorem fromEVM_toEVM (code : List UInt8) : fromEVM (toEVM code) = code := by
  by_cases h0 : code = []
  · simp [toEVM, fromEVM, h0]
  · have hlen := List.length_pos_of_ne_nil h0
    rw [toEVM, if_neg h0, fromEVM, if_neg (by simp; omega)]
    rfl

/-- The six items both re-encoders write first: the nonce less one (Zilliqa counts from one), the
    gas price, the gas limit, `to` (empty for a contract creation), the value, and the code without
    its `EVM` prefix for a contract creation or the data otherwise. -/
def legacyItems {PubKey : Type} (info : TransactionCoreInfo PubKey) : List (List UInt8) :=
  [appendNat (info.nonce - 1).toNat, appendNat info.gasPrice.val, appendNat info.gasLimit.toNat,
    appendBytes (if isNullAddress info.toAddr then [] else info.toAddr.val),
    appendNat info.amount.val,
    appendBytes (if isNullAddress info.toAddr then fromEVM info.code else info.data)]

/-- `GetOriginalHash` of a legacy transaction: the keccak256 of the signing payload rebuilt from the
    stored fields, the EIP-155 list with the chain id and two empty strings, or, for `v` of
    `27`/`28`, the six items in a bare stream. -/
def getOriginalHash {PubKey : Type} (E : EthEnv PubKey) (info : TransactionCoreInfo PubKey)
    (chainId v : ℕ) : List UInt8 :=
  let beforeEip155Tx := v = 27 ∨ v = 28
  E.keccak256 (if beforeEip155Tx then (legacyItems info).flatten
    else listOut (legacyItems info ++ [appendNat chainId, appendBytes [], appendBytes []]))

/-- Outside `27`/`28` the signing hash does not depend on `v`. -/
theorem getOriginalHash_of_not_beforeEip155 {PubKey : Type} (E : EthEnv PubKey)
    (info : TransactionCoreInfo PubKey) (chainId : ℕ) {v v' : ℕ} (hv : ¬ (v = 27 ∨ v = 28))
    (hv' : ¬ (v' = 27 ∨ v' = 28)) :
    getOriginalHash E info chainId v = getOriginalHash E info chainId v' := by
  rw [getOriginalHash, getOriginalHash, if_neg hv, if_neg hv']

/-- One pass of the loop of `GetTransmittedRLP`: the raw transaction rebuilt with `v` when it is
    `27`/`28`, and otherwise with `v` set to `chainId * 2 + 35 + i` (which the next pass sees). -/
def transmittedAttempt {PubKey : Type} (info : TransactionCoreInfo PubKey) (chainId i v r s : ℕ) :
    List UInt8 × ℕ :=
  let v := if v = 27 ∨ v = 28 then v else (chainId * 2 + 35 + i) % 2 ^ 32
  (listOut (legacyItems info ++ [appendNat v, appendNat r, appendNat s]), v)

/-- `GetTransmittedRLP` of a legacy transaction: the first of the two rebuilt raw transactions from
    which the sender's key is recovered, or nothing when neither is. -/
def getTransmittedRLP {PubKey : Type} [DecidableEq PubKey] (E : EthEnv PubKey) (cfg : EthConfig)
    (info : TransactionCoreInfo PubKey) (chainId : ℕ) (signature : List UInt8) (v : ℕ) :
    Option (List UInt8) :=
  if signature.length ≠ 64 then some [] else do
  let r := fromBigEndian (signature.take 32)
  let s := fromBigEndian (signature.drop 32)
  let (data0, v0) := transmittedAttempt info chainId 0 v r s
  let pubK0 ← recoverECDSAPubKey E cfg data0 (int32OfUInt32 (chainId % 2 ^ 32))
  if E.pubKeyOfBytes pubK0 = info.senderPubKey then pure data0 else
  let (data1, _) := transmittedAttempt info chainId 1 v0 r s
  let pubK1 ← recoverECDSAPubKey E cfg data1 (int32OfUInt32 (chainId % 2 ^ 32))
  if E.pubKeyOfBytes pubK1 = info.senderPubKey then pure data1 else pure []

/-- Outside `27`/`28` the rebuilt raw transaction does not depend on `v`: both passes overwrite
    it. -/
theorem getTransmittedRLP_of_not_beforeEip155 {PubKey : Type} [DecidableEq PubKey]
    (E : EthEnv PubKey) (cfg : EthConfig) (info : TransactionCoreInfo PubKey) (chainId : ℕ)
    (signature : List UInt8) {v v' : ℕ} (hv : ¬ (v = 27 ∨ v = 28)) (hv' : ¬ (v' = 27 ∨ v' = 28)) :
    getTransmittedRLP E cfg info chainId signature v =
      getTransmittedRLP E cfg info chainId signature v' := by
  simp only [getTransmittedRLP, transmittedAttempt, if_neg hv, if_neg hv']

/-! ## Transactions -/

/-- A `TxnHash` of zeros, the id a transaction keeps when its hash cannot be set. -/
def zeroHash : FixedBytes 32 := ⟨List.replicate 32 0, List.length_replicate⟩

/-- An Ethereum `Transaction`: its id, its core fields, its signature (`r ‖ s`, as the 64 bytes
    it serializes to) and `v` (`m_signature_validation`). -/
structure Transaction (PubKey : Type) where
  tranID : FixedBytes 32
  coreInfo : TransactionCoreInfo PubKey
  signature : List UInt8
  signatureValidation : ℕ

/-- The constructor `Transaction(version, …, signature, accessList, maxPriorityFeePerGas,
    maxFeePerGas, signature_validation)`: `SetHash` sets the id to the keccak256 (`CreateHash`) of
    `GetTransmittedRLP`; its signature check only logs. -/
def Transaction.make {PubKey : Type} [DecidableEq PubKey] (E : EthEnv PubKey) (cfg : EthConfig)
    (coreInfo : TransactionCoreInfo PubKey) (signature : List UInt8) (signatureValidation : ℕ) :
    Option (Transaction PubKey) := do
  let asRLP ← getTransmittedRLP E cfg coreInfo cfg.ethChainId signature signatureValidation
  let tranID := (copyWithSizeCheck 32 (E.keccak256 asRLP)).getD zeroHash
  pure ⟨tranID, coreInfo, signature, signatureValidation⟩

/-- What the constructor builds: the id of the rebuilt raw transaction, and the fields as given. -/
theorem Transaction.make_eq_some {PubKey : Type} [DecidableEq PubKey] {E : EthEnv PubKey}
    {cfg : EthConfig} {coreInfo : TransactionCoreInfo PubKey} {signature : List UInt8}
    {signatureValidation : ℕ} {tx : Transaction PubKey} :
    Transaction.make E cfg coreInfo signature signatureValidation = some tx ↔
      ∃ asRLP, getTransmittedRLP E cfg coreInfo cfg.ethChainId signature signatureValidation =
          some asRLP ∧
        tx = ⟨(copyWithSizeCheck 32 (E.keccak256 asRLP)).getD zeroHash, coreInfo, signature,
          signatureValidation⟩ := by
  simp only [Transaction.make, Option.pure_def, Option.bind_eq_bind, Option.bind_eq_some_iff,
    Option.some.injEq]
  constructor
  · rintro ⟨asRLP, hrlp, htx⟩
    exact ⟨asRLP, hrlp, htx.symm⟩
  · rintro ⟨asRLP, hrlp, rfl⟩
    exact ⟨asRLP, hrlp, rfl⟩

/-- `Transaction::IsSignedECDSA`: the signature verifies, under the sender's key, against the
    signing hash `GetOriginalHash` rebuilds with `ETH_CHAINID` and the stored `v`. -/
def Transaction.isSignedECDSA {PubKey : Type} (E : EthEnv PubKey) (cfg : EthConfig)
    (tx : Transaction PubKey) : Bool :=
  E.verifyEcdsaSecp256k1 (getOriginalHash E tx.coreInfo cfg.ethChainId tx.signatureValidation)
    tx.signature tx.coreInfo.senderPubKey

/-- `Eth::GetTxFromFields`: the transaction of the parsed fields under the recovered key; without
    a `to`, the data is the code, with the `EVM` prefix. -/
def getTxFromFields {PubKey : Type} [DecidableEq PubKey] (E : EthEnv PubKey) (cfg : EthConfig)
    (fields : EthFields) (pubKey : List UInt8) : Option (Transaction PubKey) :=
  let toAddr := addressOfBytes fields.toAddr
  let code := if isNullAddress toAddr then toEVM fields.code else []
  let data := if isNullAddress toAddr then [] else fields.code
  Transaction.make E cfg
    ⟨fields.version, fields.nonce, toAddr, E.pubKeyOfBytes pubKey, fields.amount, fields.gasPrice,
      fields.gasLimit, code, data⟩
    fields.signature fields.signatureValidation

/-! ## The node-to-node message -/

/-- `ProtoTransactionCoreInfo`, without the access list and the two fees. -/
structure ProtoTransactionCoreInfo where
  version : ℕ
  nonce : ℕ
  toaddr : List UInt8
  senderpubkey : List UInt8
  amount : List UInt8
  gasprice : List UInt8
  gaslimit : ℕ
  code : List UInt8
  data : List UInt8

/-- `ProtoTransaction`. -/
structure ProtoTransaction where
  tranid : List UInt8
  info : ProtoTransactionCoreInfo
  signature : List UInt8

/-- `TransactionCoreInfoToProtobuf`. -/
def transactionCoreInfoToProtobuf {PubKey : Type} (E : EthEnv PubKey)
    (info : TransactionCoreInfo PubKey) : ProtoTransactionCoreInfo :=
  ⟨info.version, info.nonce.toNat, info.toAddr.val, E.pubKey.encode info.senderPubKey,
    numberToProtobufByteArray info.amount, numberToProtobufByteArray info.gasPrice,
    info.gasLimit.toNat, info.code, info.data⟩

/-- `ProtobufToTransactionCoreInfo`: `to` is truncated into an address; the sender's key must
    deserialize. -/
def protobufToTransactionCoreInfo {PubKey : Type} (E : EthEnv PubKey)
    (p : ProtoTransactionCoreInfo) : Option (TransactionCoreInfo PubKey) := do
  let senderPubKey ← E.pubKey.decode p.senderpubkey
  pure ⟨p.version, UInt64.ofNat p.nonce, copyPrefix 20 p.toaddr, senderPubKey,
    protobufByteArrayToNumber p.amount, protobufByteArrayToNumber p.gasprice,
    UInt64.ofNat p.gaslimit, p.code, p.data⟩

/-- **The core fields come back from their message.** -/
theorem protobufToTransactionCoreInfo_transactionCoreInfoToProtobuf {PubKey : Type}
    (E : EthEnv PubKey) (info : TransactionCoreInfo PubKey) :
    protobufToTransactionCoreInfo E (transactionCoreInfoToProtobuf E info) = some info := by
  cases info
  simp [protobufToTransactionCoreInfo, transactionCoreInfoToProtobuf, E.pubKey.decode_encode]

/-- `TransactionToProtobuf`: the id, the core fields and the signature. `v` is not sent. -/
def transactionToProtobuf {PubKey : Type} (E : EthEnv PubKey) (tx : Transaction PubKey) :
    ProtoTransaction :=
  ⟨tx.tranID.val, transactionCoreInfoToProtobuf E tx.coreInfo, tx.signature⟩

/-- `ProtobufToTransaction`: the transaction is built again from the core fields and the
    signature, with `signature_validation` left at its default `0`; it is refused unless its
    recomputed id is the one sent and its signature checks. -/
def protobufToTransaction {PubKey : Type} [DecidableEq PubKey] (E : EthEnv PubKey)
    (cfg : EthConfig) (p : ProtoTransaction) : Option (Transaction PubKey) := do
  let tranID := copyPrefix 32 p.tranid
  let txnCoreInfo ← protobufToTransactionCoreInfo E p.info
  let transaction ← Transaction.make E cfg txnCoreInfo p.signature 0
  if transaction.tranID ≠ tranID then none
  else if !transaction.isSignedECDSA E cfg then none
  else pure transaction

/-- **What comes back from a transaction's message**: the transaction built again with `v` of `0`,
    when it has the id that was sent and its signature checks. -/
theorem protobufToTransaction_transactionToProtobuf_eq_some {PubKey : Type} [DecidableEq PubKey]
    (E : EthEnv PubKey) (cfg : EthConfig) (tx tx' : Transaction PubKey) :
    protobufToTransaction E cfg (transactionToProtobuf E tx) = some tx' ↔
      Transaction.make E cfg tx.coreInfo tx.signature 0 = some tx' ∧ tx'.tranID = tx.tranID ∧
        tx'.isSignedECDSA E cfg = true := by
  simp only [protobufToTransaction, transactionToProtobuf, copyPrefix_val,
    protobufToTransactionCoreInfo_transactionCoreInfoToProtobuf, Option.bind_eq_bind,
    Option.bind_some]
  cases hmake : Transaction.make E cfg tx.coreInfo tx.signature 0 with
  | none => simp
  | some tx'' =>
    constructor
    · intro h
      simp only [Option.bind_some] at h
      split_ifs at h with hid hsig
      cases h
      exact ⟨rfl, not_not.1 hid, by simpa using hsig⟩
    · rintro ⟨h, hid, hsig⟩
      cases h
      simp [hid, hsig]

end Eth

end Zilliqa
