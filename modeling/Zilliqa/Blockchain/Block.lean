import Zilliqa.Message.MessengerCommon

/-!
# `Blockchain.Block` — the four block types and their protobuf encoders and decoders

A DS block, a microblock, a transaction block and a view-change block each have a header (over the
common `BlockHeaderBase`) and a `BlockBase`: the block hash, the two co-signatures with their
bitmaps, and a timestamp. `Serialization.cpp` copies each of them field by field into a protobuf
message and back, and `Serialize` / `Deserialize` run the protobuf runtime on that message.

## Contents
- The blocks (`DSBlock`, `MicroBlock`, `TxBlock`, `VCBlock`, with their headers), over the key,
  peer, software-info and signature types, which stay parameters.
- The protobuf messages they are copied into (`ProtoDSBlock`, …): bytes, numbers, lists.
- `BlockCodecs`: what serialization rests on and is not looked inside: the `Serialize` /
  `Deserialize` of keys, peers, software info and signatures, the protobuf runtime of each message
  (each a `LawfulCodec`), and SHA-256.
- The encoders and decoders of `Serialization.cpp` (`dsBlockHeaderToProtobuf`,
  `protobufToDSBlockHeader`, …), the block hash (`getMyHash`), the constructors (`DSBlock.make`, …)
  and `serialize` / `deserialize`.

Numbers whose C++ type matches the protobuf field's are `ℕ`; `uint8_t` fields sent as `uint32`
are `UInt8`; `uint128_t` fields are `Fin (2 ^ 128)`, sent as 16 bytes. The deprecated `prevhash`
fields of the header messages are never written nor read and are left out.
-/

namespace Zilliqa

namespace Blockchain

open Codec

/-- A 32-byte hash, `dev::h256`: `BlockHash`, `CommitteeHash`, `TxnHash`, `StateHash`,
    `ShardingHash`, `MBInfoHash`. -/
abbrev H256 := FixedBytes 32

/-- `RESERVED_FIELD_SIZE`. -/
def reservedFieldSize : ℕ := 128

/-! ## Blocks -/

/-- `BlockHeaderBase`. -/
structure BlockHeaderBase where
  version : ℕ
  committeeHash : H256
  prevHash : H256

/-- `DSBlockHashSet`. -/
structure DSBlockHashSet where
  shardingHash : H256
  reservedField : FixedBytes reservedFieldSize

/-- `GovDSShardVotesMap`: per proposal id, the DS committee's and the shards' votes, each a map
    from vote value to count. -/
abbrev GovDSShardVotesMap := FinStore ℕ (FinStore ℕ ℕ × FinStore ℕ ℕ)

/-- `DSBlockHeader`. -/
structure DSBlockHeader (PubKey Peer SWInfo : Type) [LinearOrder PubKey] where
  base : BlockHeaderBase
  dsDifficulty : UInt8
  difficulty : UInt8
  leaderPubKey : PubKey
  blockNum : ℕ
  epochNum : ℕ
  gasPrice : Fin (2 ^ 128)
  swInfo : SWInfo
  powDSWinners : FinStore PubKey Peer
  removeDSNodePubkeys : List PubKey
  hashset : DSBlockHashSet
  govProposalMap : GovDSShardVotesMap

/-- `MicroBlockHashSet`. -/
structure MicroBlockHashSet where
  txRootHash : H256
  stateDeltaHash : H256
  tranReceiptHash : H256

/-- `MicroBlockHeader`. -/
structure MicroBlockHeader (PubKey : Type) where
  base : BlockHeaderBase
  shardId : ℕ
  gasLimit : ℕ
  gasUsed : ℕ
  rewards : Fin (2 ^ 128)
  epochNum : ℕ
  hashset : MicroBlockHashSet
  numTxs : ℕ
  minerPubKey : PubKey
  dsBlockNum : ℕ

/-- `TxBlockHashSet`. -/
structure TxBlockHashSet where
  stateRootHash : H256
  stateDeltaHash : H256
  mbInfoHash : H256

/-- `TxBlockHeader`. -/
structure TxBlockHeader (PubKey : Type) where
  base : BlockHeaderBase
  gasLimit : ℕ
  gasUsed : ℕ
  rewards : Fin (2 ^ 128)
  blockNum : ℕ
  hashset : TxBlockHashSet
  numTxs : ℕ
  minerPubKey : PubKey
  dsBlockNum : ℕ

/-- `VCBlockHeader`. -/
structure VCBlockHeader (PubKey Peer : Type) where
  base : BlockHeaderBase
  viewChangeDSEpochNo : ℕ
  viewChangeEpochNo : ℕ
  viewChangeState : UInt8
  candidateLeaderNetworkInfo : Peer
  candidateLeaderPubKey : PubKey
  vcCounter : ℕ
  faultyLeaders : List (PubKey × Peer)

/-- `CoSignatures`: the two collective signatures and their bitmaps. -/
structure CoSignatures (Signature : Type) where
  cs1 : Signature
  b1 : List Bool
  cs2 : Signature
  b2 : List Bool

/-- `BlockBase`. -/
structure BlockBase (Signature : Type) where
  blockHash : H256
  cosigs : CoSignatures Signature
  timestamp : ℕ

/-- `MicroBlockInfo`. -/
structure MicroBlockInfo where
  microBlockHash : H256
  txnRootHash : H256
  shardId : ℕ

/-- `DSBlock`. -/
structure DSBlock (PubKey Peer SWInfo Signature : Type) [LinearOrder PubKey] where
  header : DSBlockHeader PubKey Peer SWInfo
  blockBase : BlockBase Signature

/-- `MicroBlock`. -/
structure MicroBlock (PubKey Signature : Type) where
  header : MicroBlockHeader PubKey
  tranHashes : List H256
  blockBase : BlockBase Signature

/-- `TxBlock`. -/
structure TxBlock (PubKey Signature : Type) where
  header : TxBlockHeader PubKey
  mbInfos : List MicroBlockInfo
  blockBase : BlockBase Signature

/-- `VCBlock`. -/
structure VCBlock (PubKey Peer Signature : Type) where
  header : VCBlockHeader PubKey Peer
  blockBase : BlockBase Signature

/-! ## The protobuf messages

A `ByteArray` message is its `data` bytes. -/

/-- `ProtoBlockHeaderBase`. -/
structure ProtoBlockHeaderBase where
  version : ℕ
  committeehash : List UInt8
  prevhash : List UInt8

/-- `ProtoDSBlock.DSBlockHashSet`. -/
structure ProtoDSBlockHashSet where
  shardinghash : List UInt8
  reservedfield : List UInt8

/-- `ProtoDSBlock.DSBlockHeader.PowDSWinners`. -/
structure ProtoPowDSWinners where
  key : List UInt8
  val : List UInt8

/-- `ProtoDSBlock.DSBlockHeader.Vote`. -/
structure ProtoVote where
  value : ℕ
  count : ℕ

/-- `ProtoDSBlock.DSBlockHeader.Proposal`. -/
structure ProtoProposal where
  proposalid : ℕ
  dsvotes : List ProtoVote
  minervotes : List ProtoVote

/-- `ProtoDSBlock.DSBlockHeader`. -/
structure ProtoDSBlockHeader where
  blockheaderbase : ProtoBlockHeaderBase
  dsdifficulty : ℕ
  difficulty : ℕ
  leaderpubkey : List UInt8
  blocknum : ℕ
  epochnum : ℕ
  gasprice : List UInt8
  swinfo : List UInt8
  dswinners : List ProtoPowDSWinners
  hash : ProtoDSBlockHashSet
  dsremoved : List (List UInt8)
  proposals : List ProtoProposal

/-- `ProtoMicroBlock.MicroBlockHeader`. -/
structure ProtoMicroBlockHeader where
  blockheaderbase : ProtoBlockHeaderBase
  shardid : ℕ
  gaslimit : ℕ
  gasused : ℕ
  rewards : List UInt8
  epochnum : ℕ
  txroothash : List UInt8
  numtxs : ℕ
  minerpubkey : List UInt8
  dsblocknum : ℕ
  statedeltahash : List UInt8
  tranreceipthash : List UInt8

/-- `ProtoTxBlock.TxBlockHashSet`. -/
structure ProtoTxBlockHashSet where
  stateroothash : List UInt8
  statedeltahash : List UInt8
  mbinfohash : List UInt8

/-- `ProtoTxBlock.TxBlockHeader`. -/
structure ProtoTxBlockHeader where
  blockheaderbase : ProtoBlockHeaderBase
  gaslimit : ℕ
  gasused : ℕ
  rewards : List UInt8
  blocknum : ℕ
  hash : ProtoTxBlockHashSet
  numtxs : ℕ
  minerpubkey : List UInt8
  dsblocknum : ℕ

/-- `ProtoDSNode`. -/
structure ProtoDSNode where
  pubkey : List UInt8
  peer : List UInt8

/-- `ProtoVCBlock.VCBlockHeader`. -/
structure ProtoVCBlockHeader where
  blockheaderbase : ProtoBlockHeaderBase
  viewchangedsepochno : ℕ
  viewchangeepochno : ℕ
  viewchangestate : ℕ
  candidateleadernetworkinfo : List UInt8
  candidateleaderpubkey : List UInt8
  vccounter : ℕ
  faultyleaders : List ProtoDSNode

/-- `ProtoBlockBase.CoSignatures`. -/
structure ProtoCoSignatures where
  cs1 : List UInt8
  b1 : List Bool
  cs2 : List UInt8
  b2 : List Bool

/-- `ProtoBlockBase`. -/
structure ProtoBlockBase where
  blockhash : List UInt8
  cosigs : ProtoCoSignatures
  timestamp : ℕ

/-- `ProtoMbInfo`. -/
structure ProtoMbInfo where
  mbhash : List UInt8
  txroot : List UInt8
  shardid : ℕ

/-- `ProtoDSBlock`. -/
structure ProtoDSBlock where
  header : ProtoDSBlockHeader
  blockbase : ProtoBlockBase

/-- `ProtoMicroBlock`. -/
structure ProtoMicroBlock where
  header : ProtoMicroBlockHeader
  tranhashes : List (List UInt8)
  blockbase : ProtoBlockBase

/-- `ProtoTxBlock`. -/
structure ProtoTxBlock where
  header : ProtoTxBlockHeader
  mbinfos : List ProtoMbInfo
  blockbase : ProtoBlockBase

/-- `ProtoVCBlock`. -/
structure ProtoVCBlock where
  header : ProtoVCBlockHeader
  blockbase : ProtoBlockBase

/-- What block serialization rests on and is not looked inside: the `Serialize` and `Deserialize`
    of keys, peers, software information and signatures; the protobuf runtime's `SerializeToArray`
    and `ParseFromArray` of each message, which serializes a message whose block hash is set to
    some bytes; and SHA-256. -/
structure BlockCodecs (PubKey Peer SWInfo Signature : Type) where
  pubKey : LawfulCodec PubKey
  peer : LawfulCodec Peer
  swInfo : LawfulCodec SWInfo
  signature : LawfulCodec Signature
  protoDSBlockHeader : LawfulCodec ProtoDSBlockHeader
  protoMicroBlockHeader : LawfulCodec ProtoMicroBlockHeader
  protoTxBlockHeader : LawfulCodec ProtoTxBlockHeader
  protoVCBlockHeader : LawfulCodec ProtoVCBlockHeader
  protoDSBlock : LawfulCodec ProtoDSBlock
  protoMicroBlock : LawfulCodec ProtoMicroBlock
  protoTxBlock : LawfulCodec ProtoTxBlock
  protoVCBlock : LawfulCodec ProtoVCBlock
  protoDSBlock_ne_nil : ∀ m, m.blockbase.blockhash ≠ [] → protoDSBlock.encode m ≠ []
  protoMicroBlock_ne_nil : ∀ m, m.blockbase.blockhash ≠ [] → protoMicroBlock.encode m ≠ []
  protoTxBlock_ne_nil : ∀ m, m.blockbase.blockhash ≠ [] → protoTxBlock.encode m ≠ []
  protoVCBlock_ne_nil : ∀ m, m.blockbase.blockhash ≠ [] → protoVCBlock.encode m ≠ []
  sha256 : List UInt8 → List UInt8

variable {PubKey Peer SWInfo Signature : Type} [LinearOrder PubKey]
  (C : BlockCodecs PubKey Peer SWInfo Signature)

/-! ## Headers -/

/-- `BlockHeaderBaseToProtobuf`. -/
def blockHeaderBaseToProtobuf (b : BlockHeaderBase) : ProtoBlockHeaderBase :=
  ⟨b.version, b.committeeHash.val, b.prevHash.val⟩

/-- `ProtobufToBlockHeaderBase`: both hashes must have 32 bytes. -/
def protobufToBlockHeaderBase (p : ProtoBlockHeaderBase) : Option BlockHeaderBase := do
  let committeeHash ← copyWithSizeCheck 32 p.committeehash
  let prevHash ← copyWithSizeCheck 32 p.prevhash
  pure ⟨p.version, committeeHash, prevHash⟩

/-- One PoW winner, as the loop of `DSBlockHeaderToProtobuf` writes it. -/
def powDSWinnerToProtobuf (winner : PubKey × Peer) : ProtoPowDSWinners :=
  ⟨C.pubKey.encode winner.1, C.peer.encode winner.2⟩

/-- One PoW winner, as the loop of `ProtobufToDSBlockHeader` reads it. -/
def protobufToPowDSWinner (dswinner : ProtoPowDSWinners) : Option (PubKey × Peer) := do
  let key ← C.pubKey.decode dswinner.key
  let val ← C.peer.decode dswinner.val
  pure (key, val)

/-- The votes of one side of a proposal, in increasing order of value. -/
def votesToProtobuf (votes : FinStore ℕ ℕ) : List ProtoVote :=
  votes.entries.map fun e => ⟨e.1, e.2⟩

/-- `votes[value] = count` for each vote in turn. -/
def protobufToVotes (votes : List ProtoVote) : FinStore ℕ ℕ :=
  FinStore.ofEntries (votes.map fun v => (v.value, v.count))

/-- One governance proposal with its two sides of votes. -/
def proposalToProtobuf (govProposal : ℕ × (FinStore ℕ ℕ × FinStore ℕ ℕ)) : ProtoProposal :=
  ⟨govProposal.1, votesToProtobuf govProposal.2.1, votesToProtobuf govProposal.2.2⟩

/-- One proposal read back: its id with the DS committee's and the shards' vote maps. -/
def protobufToProposal (protoProposal : ProtoProposal) : ℕ × (FinStore ℕ ℕ × FinStore ℕ ℕ) :=
  (protoProposal.proposalid,
    (protobufToVotes protoProposal.dsvotes, protobufToVotes protoProposal.minervotes))

/-- `DSBlockHeaderToProtobuf`. With `concreteVarsOnly` (the hash for randomness) the difficulties,
    the gas price, the PoW winners, the proposals and the removed DS members are left unset. -/
def dsBlockHeaderToProtobuf (h : DSBlockHeader PubKey Peer SWInfo) (concreteVarsOnly : Bool) :
    ProtoDSBlockHeader where
  blockheaderbase := blockHeaderBaseToProtobuf h.base
  dsdifficulty := if concreteVarsOnly then 0 else h.dsDifficulty.toNat
  difficulty := if concreteVarsOnly then 0 else h.difficulty.toNat
  gasprice := if concreteVarsOnly then [] else numberToProtobufByteArray h.gasPrice
  dswinners := if concreteVarsOnly then [] else h.powDSWinners.entries.map (powDSWinnerToProtobuf C)
  proposals := if concreteVarsOnly then [] else h.govProposalMap.entries.map proposalToProtobuf
  dsremoved := if concreteVarsOnly then [] else h.removeDSNodePubkeys.map C.pubKey.encode
  leaderpubkey := C.pubKey.encode h.leaderPubKey
  blocknum := h.blockNum
  epochnum := h.epochNum
  swinfo := C.swInfo.encode h.swInfo
  hash := ⟨h.hashset.shardingHash.val, h.hashset.reservedField.val⟩

/-- `ProtobufToDSBlockHeader`. The two difficulties narrow to `uint8_t`; a proposal's two vote maps
    are assigned through `operator[]`, which leaves exactly the pair; the sharding hash is copied
    with a size check and the reserved field truncated. -/
def protobufToDSBlockHeader (p : ProtoDSBlockHeader) :
    Option (DSBlockHeader PubKey Peer SWInfo) := do
  let leaderPubKey ← C.pubKey.decode p.leaderpubkey
  let swInfo ← C.swInfo.decode p.swinfo
  let powDSWinners ← p.dswinners.mapM (protobufToPowDSWinner C)
  let govProposalMap : GovDSShardVotesMap := FinStore.ofEntries (p.proposals.map protobufToProposal)
  let removeDSNodePubKeys ← p.dsremoved.mapM C.pubKey.decode
  let shardingHash ← copyWithSizeCheck 32 p.hash.shardinghash
  let reservedField := copyPrefix reservedFieldSize p.hash.reservedfield
  let gasprice := protobufByteArrayToNumber p.gasprice
  let base ← protobufToBlockHeaderBase p.blockheaderbase
  pure
    { base := base
      dsDifficulty := UInt8.ofNat p.dsdifficulty
      difficulty := UInt8.ofNat p.difficulty
      leaderPubKey := leaderPubKey
      blockNum := p.blocknum
      epochNum := p.epochnum
      gasPrice := gasprice
      swInfo := swInfo
      powDSWinners := FinStore.ofEntries powDSWinners
      removeDSNodePubkeys := removeDSNodePubKeys
      hashset := ⟨shardingHash, reservedField⟩
      govProposalMap := govProposalMap }

/-- `MicroBlockHeaderToProtobuf`. -/
def microBlockHeaderToProtobuf (h : MicroBlockHeader PubKey) : ProtoMicroBlockHeader where
  blockheaderbase := blockHeaderBaseToProtobuf h.base
  shardid := h.shardId
  gaslimit := h.gasLimit
  gasused := h.gasUsed
  rewards := numberToProtobufByteArray h.rewards
  epochnum := h.epochNum
  txroothash := h.hashset.txRootHash.val
  numtxs := h.numTxs
  minerpubkey := C.pubKey.encode h.minerPubKey
  dsblocknum := h.dsBlockNum
  statedeltahash := h.hashset.stateDeltaHash.val
  tranreceipthash := h.hashset.tranReceiptHash.val

/-- `ProtobufToMicroBlockHeader`: the three hashes are copied with a size check. -/
def protobufToMicroBlockHeader (p : ProtoMicroBlockHeader) : Option (MicroBlockHeader PubKey) := do
  let rewards := protobufByteArrayToNumber p.rewards
  let txRootHash ← copyWithSizeCheck 32 p.txroothash
  let minerPubKey ← C.pubKey.decode p.minerpubkey
  let stateDeltaHash ← copyWithSizeCheck 32 p.statedeltahash
  let tranReceiptHash ← copyWithSizeCheck 32 p.tranreceipthash
  let base ← protobufToBlockHeaderBase p.blockheaderbase
  pure
    { base := base
      shardId := p.shardid
      gasLimit := p.gaslimit
      gasUsed := p.gasused
      rewards := rewards
      epochNum := p.epochnum
      hashset := ⟨txRootHash, stateDeltaHash, tranReceiptHash⟩
      numTxs := p.numtxs
      minerPubKey := minerPubKey
      dsBlockNum := p.dsblocknum }

/-- `TxBlockHeaderToProtobuf`. -/
def txBlockHeaderToProtobuf (h : TxBlockHeader PubKey) : ProtoTxBlockHeader where
  blockheaderbase := blockHeaderBaseToProtobuf h.base
  gaslimit := h.gasLimit
  gasused := h.gasUsed
  rewards := numberToProtobufByteArray h.rewards
  blocknum := h.blockNum
  hash := ⟨h.hashset.stateRootHash.val, h.hashset.stateDeltaHash.val, h.hashset.mbInfoHash.val⟩
  numtxs := h.numTxs
  minerpubkey := C.pubKey.encode h.minerPubKey
  dsblocknum := h.dsBlockNum

/-- `ProtobufToTxBlockHeader`: the three hashes are truncated, not size-checked. -/
def protobufToTxBlockHeader (p : ProtoTxBlockHeader) : Option (TxBlockHeader PubKey) := do
  let rewards := protobufByteArrayToNumber p.rewards
  let hash : TxBlockHashSet :=
    ⟨copyPrefix 32 p.hash.stateroothash, copyPrefix 32 p.hash.statedeltahash,
      copyPrefix 32 p.hash.mbinfohash⟩
  let minerPubKey ← C.pubKey.decode p.minerpubkey
  let base ← protobufToBlockHeaderBase p.blockheaderbase
  pure
    { base := base
      gasLimit := p.gaslimit
      gasUsed := p.gasused
      rewards := rewards
      blockNum := p.blocknum
      hashset := hash
      numTxs := p.numtxs
      minerPubKey := minerPubKey
      dsBlockNum := p.dsblocknum }

/-- `FaultyLeaderToProtobuf`. -/
def faultyLeaderToProtobuf (faultyLeaders : List (PubKey × Peer)) : List ProtoDSNode :=
  faultyLeaders.map fun node => ⟨C.pubKey.encode node.1, C.peer.encode node.2⟩

/-- `ProtobufToFaultyDSMembers`. -/
def protobufToFaultyDSMembers (nodes : List ProtoDSNode) : Option (List (PubKey × Peer)) :=
  nodes.mapM fun dsnode => do
    let pubkey ← C.pubKey.decode dsnode.pubkey
    let peer ← C.peer.decode dsnode.peer
    pure (pubkey, peer)

/-- `VCBlockHeaderToProtobuf`. -/
def vcBlockHeaderToProtobuf (h : VCBlockHeader PubKey Peer) : ProtoVCBlockHeader where
  blockheaderbase := blockHeaderBaseToProtobuf h.base
  viewchangedsepochno := h.viewChangeDSEpochNo
  viewchangeepochno := h.viewChangeEpochNo
  viewchangestate := h.viewChangeState.toNat
  candidateleadernetworkinfo := C.peer.encode h.candidateLeaderNetworkInfo
  candidateleaderpubkey := C.pubKey.encode h.candidateLeaderPubKey
  vccounter := h.vcCounter
  faultyleaders := faultyLeaderToProtobuf C h.faultyLeaders

/-- `ProtobufToVCBlockHeader`: the view-change state narrows to `unsigned char`. -/
def protobufToVCBlockHeader (p : ProtoVCBlockHeader) : Option (VCBlockHeader PubKey Peer) := do
  let candidateLeaderNetworkInfo ← C.peer.decode p.candidateleadernetworkinfo
  let candidateLeaderPubKey ← C.pubKey.decode p.candidateleaderpubkey
  let faultyLeaders ← protobufToFaultyDSMembers C p.faultyleaders
  let base ← protobufToBlockHeaderBase p.blockheaderbase
  pure
    { base := base
      viewChangeDSEpochNo := p.viewchangedsepochno
      viewChangeEpochNo := p.viewchangeepochno
      viewChangeState := UInt8.ofNat p.viewchangestate
      candidateLeaderNetworkInfo := candidateLeaderNetworkInfo
      candidateLeaderPubKey := candidateLeaderPubKey
      vcCounter := p.vccounter
      faultyLeaders := faultyLeaders }

/-! ## Block hashes -/

/-- `BlockHeaderBase::GetMyHash` of a DS block header: SHA-256 of its `Serialize`, copied into a
    `BlockHash`. -/
def DSBlockHeader.getMyHash (h : DSBlockHeader PubKey Peer SWInfo) : H256 :=
  copyPrefix 32 (C.sha256 (C.protoDSBlockHeader.encode (dsBlockHeaderToProtobuf C h false)))

/-- `GetMyHash` of a microblock header. -/
def MicroBlockHeader.getMyHash (h : MicroBlockHeader PubKey) : H256 :=
  copyPrefix 32 (C.sha256 (C.protoMicroBlockHeader.encode (microBlockHeaderToProtobuf C h)))

/-- `GetMyHash` of a transaction block header. -/
def TxBlockHeader.getMyHash (h : TxBlockHeader PubKey) : H256 :=
  copyPrefix 32 (C.sha256 (C.protoTxBlockHeader.encode (txBlockHeaderToProtobuf C h)))

/-- `GetMyHash` of a view-change block header. -/
def VCBlockHeader.getMyHash (h : VCBlockHeader PubKey Peer) : H256 :=
  copyPrefix 32 (C.sha256 (C.protoVCBlockHeader.encode (vcBlockHeaderToProtobuf C h)))

/-! ## Block bases and bodies -/

/-- `BlockBaseToProtobuf`. -/
def blockBaseToProtobuf (b : BlockBase Signature) : ProtoBlockBase where
  blockhash := b.blockHash.val
  cosigs := ⟨C.signature.encode b.cosigs.cs1, b.cosigs.b1, C.signature.encode b.cosigs.cs2,
    b.cosigs.b2⟩
  timestamp := b.timestamp

/-- `ProtobufToBlockBase`: the block hash (checked for its size), the co-signatures and the
    timestamp. -/
def protobufToBlockBase (p : ProtoBlockBase) : Option (H256 × CoSignatures Signature × ℕ) := do
  let cs1 ← C.signature.decode p.cosigs.cs1
  let cs2 ← C.signature.decode p.cosigs.cs2
  let blockHash ← copyWithSizeCheck 32 p.blockhash
  pure (blockHash, ⟨cs1, p.cosigs.b1, cs2, p.cosigs.b2⟩, p.timestamp)

/-- `MbInfoToProtobuf`. -/
def mbInfoToProtobuf (mbInfo : MicroBlockInfo) : ProtoMbInfo :=
  ⟨mbInfo.microBlockHash.val, mbInfo.txnRootHash.val, mbInfo.shardId⟩

/-- `ProtobufToMbInfo`: both hashes truncated. -/
def protobufToMbInfo (p : ProtoMbInfo) : MicroBlockInfo :=
  ⟨copyPrefix 32 p.mbhash, copyPrefix 32 p.txroot, p.shardid⟩

/-! ## Blocks: constructors, encoders, decoders -/

/-- The constructor `DSBlock(header, coSigs, timestamp)`: the block hash is the header's. -/
def DSBlock.make (header : DSBlockHeader PubKey Peer SWInfo) (coSigs : CoSignatures Signature)
    (timestamp : ℕ) : DSBlock PubKey Peer SWInfo Signature :=
  ⟨header, ⟨header.getMyHash C, coSigs, timestamp⟩⟩

/-- The constructor `MicroBlock(header, tranHashes, coSigs, timestamp)`. A count of transactions
    that differs from the hashes given is only logged. -/
def MicroBlock.make (header : MicroBlockHeader PubKey) (tranHashes : List H256)
    (coSigs : CoSignatures Signature) (timestamp : ℕ) : MicroBlock PubKey Signature :=
  ⟨header, tranHashes, ⟨header.getMyHash C, coSigs, timestamp⟩⟩

/-- The constructor `TxBlock(header, mbInfos, coSigs, timestamp)`. -/
def TxBlock.make (header : TxBlockHeader PubKey) (mbInfos : List MicroBlockInfo)
    (coSigs : CoSignatures Signature) (timestamp : ℕ) : TxBlock PubKey Signature :=
  ⟨header, mbInfos, ⟨header.getMyHash C, coSigs, timestamp⟩⟩

/-- The constructor `VCBlock(header, coSigs, timestamp)`. -/
def VCBlock.make (header : VCBlockHeader PubKey Peer) (coSigs : CoSignatures Signature)
    (timestamp : ℕ) : VCBlock PubKey Peer Signature :=
  ⟨header, ⟨header.getMyHash C, coSigs, timestamp⟩⟩

/-- `DSBlockToProtobuf`. -/
def dsBlockToProtobuf (b : DSBlock PubKey Peer SWInfo Signature) : ProtoDSBlock :=
  ⟨dsBlockHeaderToProtobuf C b.header false, blockBaseToProtobuf C b.blockBase⟩

/-- `ProtobufToDSBlock`: the transmitted block hash is dropped and the constructor computes it
    again. -/
def protobufToDSBlock (p : ProtoDSBlock) : Option (DSBlock PubKey Peer SWInfo Signature) := do
  let header ← protobufToDSBlockHeader C p.header
  let (_, coSigs, timestamp) ← protobufToBlockBase C p.blockbase
  pure (DSBlock.make C header coSigs timestamp)

/-- `MicroBlockToProtobuf`. -/
def microBlockToProtobuf (b : MicroBlock PubKey Signature) : ProtoMicroBlock :=
  ⟨microBlockHeaderToProtobuf C b.header, b.tranHashes.map (·.val),
    blockBaseToProtobuf C b.blockBase⟩

/-- `ProtobufToMicroBlock`: each transaction hash is truncated into a `TxnHash`. -/
def protobufToMicroBlock (p : ProtoMicroBlock) : Option (MicroBlock PubKey Signature) := do
  let header ← protobufToMicroBlockHeader C p.header
  let tranHashes := p.tranhashes.map (copyPrefix 32)
  let (_, coSigs, timestamp) ← protobufToBlockBase C p.blockbase
  pure (MicroBlock.make C header tranHashes coSigs timestamp)

/-- `TxBlockToProtobuf`. -/
def txBlockToProtobuf (b : TxBlock PubKey Signature) : ProtoTxBlock :=
  ⟨txBlockHeaderToProtobuf C b.header, b.mbInfos.map mbInfoToProtobuf,
    blockBaseToProtobuf C b.blockBase⟩

/-- `ProtobufToTxBlock`. -/
def protobufToTxBlock (p : ProtoTxBlock) : Option (TxBlock PubKey Signature) := do
  let header ← protobufToTxBlockHeader C p.header
  let mbInfos := p.mbinfos.map protobufToMbInfo
  let (_, coSigs, timestamp) ← protobufToBlockBase C p.blockbase
  pure (TxBlock.make C header mbInfos coSigs timestamp)

/-- `VCBlockToProtobuf`. -/
def vcBlockToProtobuf (b : VCBlock PubKey Peer Signature) : ProtoVCBlock :=
  ⟨vcBlockHeaderToProtobuf C b.header, blockBaseToProtobuf C b.blockBase⟩

/-- `ProtobufToVCBlock`. -/
def protobufToVCBlock (p : ProtoVCBlock) : Option (VCBlock PubKey Peer Signature) := do
  let header ← protobufToVCBlockHeader C p.header
  let (_, coSigs, timestamp) ← protobufToBlockBase C p.blockbase
  pure (VCBlock.make C header coSigs timestamp)

/-- `DSBlock::Serialize(dst, 0)`. -/
def DSBlock.serialize (b : DSBlock PubKey Peer SWInfo Signature) : List UInt8 :=
  C.protoDSBlock.encode (dsBlockToProtobuf C b)

/-- `DSBlock::Deserialize(src, 0)`: nothing from no bytes; otherwise the message the runtime
    parses, converted. -/
def DSBlock.deserialize (src : List UInt8) : Option (DSBlock PubKey Peer SWInfo Signature) :=
  if src.isEmpty then none else (C.protoDSBlock.decode src).bind (protobufToDSBlock C)

/-- `MicroBlock::Serialize(dst, 0)`. -/
def MicroBlock.serialize (b : MicroBlock PubKey Signature) : List UInt8 :=
  C.protoMicroBlock.encode (microBlockToProtobuf C b)

/-- `MicroBlock::Deserialize(src, 0)`. -/
def MicroBlock.deserialize (src : List UInt8) : Option (MicroBlock PubKey Signature) :=
  if src.isEmpty then none else (C.protoMicroBlock.decode src).bind (protobufToMicroBlock C)

/-- `TxBlock::Serialize(dst, 0)`. -/
def TxBlock.serialize (b : TxBlock PubKey Signature) : List UInt8 :=
  C.protoTxBlock.encode (txBlockToProtobuf C b)

/-- `TxBlock::Deserialize(src, 0)`. -/
def TxBlock.deserialize (src : List UInt8) : Option (TxBlock PubKey Signature) :=
  if src.isEmpty then none else (C.protoTxBlock.decode src).bind (protobufToTxBlock C)

/-- `VCBlock::Serialize(dst, 0)`. -/
def VCBlock.serialize (b : VCBlock PubKey Peer Signature) : List UInt8 :=
  C.protoVCBlock.encode (vcBlockToProtobuf C b)

/-- `VCBlock::Deserialize(src, 0)`. -/
def VCBlock.deserialize (src : List UInt8) : Option (VCBlock PubKey Peer Signature) :=
  if src.isEmpty then none else (C.protoVCBlock.decode src).bind (protobufToVCBlock C)

end Blockchain

end Zilliqa
