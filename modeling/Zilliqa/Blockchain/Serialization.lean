import Zilliqa.Blockchain.Block

/-!
# `Blockchain.Serialization` — a block reads back from the bytes it serializes to

Every part of a block decodes from what its encoder writes: each number, each hash, each map, each
list, then each header and the block base. A block built by its constructor then reads back from
its `serialize` as exactly itself: the decoder drops the transmitted block hash and the
constructor computes it again from the same header.

The assumptions are those of `BlockCodecs`: the protobuf runtime parses what it serializes, and so
do the serializers of keys, peers, software information and signatures.
-/

namespace Zilliqa

namespace Blockchain

open Codec

variable {PubKey Peer SWInfo Signature : Type} (C : BlockCodecs PubKey Peer SWInfo Signature)

/-! ## Parts -/

@[simp] theorem protobufToBlockHeaderBase_blockHeaderBaseToProtobuf (b : BlockHeaderBase) :
    protobufToBlockHeaderBase (blockHeaderBaseToProtobuf b) = some b := by
  simp [protobufToBlockHeaderBase, blockHeaderBaseToProtobuf]

@[simp] theorem protobufToPowDSWinner_powDSWinnerToProtobuf (winner : PubKey × Peer) :
    protobufToPowDSWinner C (powDSWinnerToProtobuf C winner) = some winner := by
  simp [protobufToPowDSWinner, powDSWinnerToProtobuf]

@[simp] theorem protobufToVotes_votesToProtobuf (votes : FinStore ℕ ℕ) :
    protobufToVotes (votesToProtobuf votes) = votes := by
  simp [protobufToVotes, votesToProtobuf, Function.comp_def, FinStore.ofEntries_entries]

@[simp] theorem protobufToProposal_proposalToProtobuf
    (govProposal : ℕ × (FinStore ℕ ℕ × FinStore ℕ ℕ)) :
    protobufToProposal (proposalToProtobuf govProposal) = govProposal := by
  simp [protobufToProposal, proposalToProtobuf]

/-- Each proposal reads back as it was written, so the proposals rebuild their map. -/
@[simp] theorem protobufToProposal_comp_proposalToProtobuf :
    protobufToProposal ∘ proposalToProtobuf = id := by
  funext govProposal
  simp

/-- The faulty leaders read back as the list they were written from. -/
theorem protobufToFaultyDSMembers_faultyLeaderToProtobuf (faultyLeaders : List (PubKey × Peer)) :
    protobufToFaultyDSMembers C (faultyLeaderToProtobuf C faultyLeaders) = some faultyLeaders :=
  mapM_map_eq_some _ _ _ fun node _ => by simp

/-! ## Headers -/

section Ordered

variable [LinearOrder PubKey]

/-- The PoW winners read back as the map they were written from. -/
theorem powDSWinners_decode (winners : FinStore PubKey Peer) :
    (winners.entries.map (powDSWinnerToProtobuf C)).mapM (protobufToPowDSWinner C) =
      some winners.entries :=
  mapM_map_eq_some _ _ _ fun winner _ => protobufToPowDSWinner_powDSWinnerToProtobuf C winner

theorem protobufToDSBlockHeader_dsBlockHeaderToProtobuf (h : DSBlockHeader PubKey Peer SWInfo) :
    protobufToDSBlockHeader C (dsBlockHeaderToProtobuf C h false) = some h := by
  have hwinners := powDSWinners_decode C h.powDSWinners
  have hremoved : (h.removeDSNodePubkeys.map C.pubKey.encode).mapM C.pubKey.decode =
      some h.removeDSNodePubkeys :=
    mapM_map_eq_some _ _ _ fun k _ => C.pubKey.decode_encode k
  simp [protobufToDSBlockHeader, dsBlockHeaderToProtobuf, hwinners, hremoved,
    FinStore.ofEntries_entries]

end Ordered

theorem protobufToMicroBlockHeader_microBlockHeaderToProtobuf (h : MicroBlockHeader PubKey) :
    protobufToMicroBlockHeader C (microBlockHeaderToProtobuf C h) = some h := by
  simp [protobufToMicroBlockHeader, microBlockHeaderToProtobuf]

theorem protobufToTxBlockHeader_txBlockHeaderToProtobuf (h : TxBlockHeader PubKey) :
    protobufToTxBlockHeader C (txBlockHeaderToProtobuf C h) = some h := by
  simp [protobufToTxBlockHeader, txBlockHeaderToProtobuf]

theorem protobufToVCBlockHeader_vcBlockHeaderToProtobuf (h : VCBlockHeader PubKey Peer) :
    protobufToVCBlockHeader C (vcBlockHeaderToProtobuf C h) = some h := by
  simp [protobufToVCBlockHeader, vcBlockHeaderToProtobuf,
    protobufToFaultyDSMembers_faultyLeaderToProtobuf]

/-! ## Block bases and bodies -/

theorem protobufToBlockBase_blockBaseToProtobuf (b : BlockBase Signature) :
    protobufToBlockBase C (blockBaseToProtobuf C b) = some (b.blockHash, b.cosigs, b.timestamp) := by
  simp [protobufToBlockBase, blockBaseToProtobuf]

@[simp] theorem protobufToMbInfo_mbInfoToProtobuf (mbInfo : MicroBlockInfo) :
    protobufToMbInfo (mbInfoToProtobuf mbInfo) = mbInfo := by
  simp [protobufToMbInfo, mbInfoToProtobuf]

/-! ## Blocks

The decoder drops the transmitted block hash and rebuilds the block with its constructor, which
hashes the decoded header: a block built by its constructor comes back as itself. -/

section Ordered

variable [LinearOrder PubKey]

theorem protobufToDSBlock_dsBlockToProtobuf (header : DSBlockHeader PubKey Peer SWInfo)
    (coSigs : CoSignatures Signature) (timestamp : ℕ) :
    protobufToDSBlock C (dsBlockToProtobuf C (DSBlock.make C header coSigs timestamp)) =
      some (DSBlock.make C header coSigs timestamp) := by
  simp [protobufToDSBlock, dsBlockToProtobuf, DSBlock.make,
    protobufToDSBlockHeader_dsBlockHeaderToProtobuf, protobufToBlockBase_blockBaseToProtobuf]

theorem DSBlock.deserialize_serialize (header : DSBlockHeader PubKey Peer SWInfo)
    (coSigs : CoSignatures Signature) (timestamp : ℕ) :
    DSBlock.deserialize C ((DSBlock.make C header coSigs timestamp).serialize C) =
      some (DSBlock.make C header coSigs timestamp) := by
  -- the message carries a 32-byte block hash, so its bytes are not empty
  have hne := C.protoDSBlock_ne_nil (dsBlockToProtobuf C (DSBlock.make C header coSigs timestamp))
    (FixedBytes.val_ne_nil (by decide) (header.getMyHash C))
  rw [DSBlock.deserialize, DSBlock.serialize, C.protoDSBlock.bind_decode_encode_of_ne_nil _ _ hne,
    protobufToDSBlock_dsBlockToProtobuf]

end Ordered

theorem protobufToMicroBlock_microBlockToProtobuf (header : MicroBlockHeader PubKey)
    (tranHashes : List H256) (coSigs : CoSignatures Signature) (timestamp : ℕ) :
    protobufToMicroBlock C (microBlockToProtobuf C (MicroBlock.make C header tranHashes coSigs timestamp)) =
      some (MicroBlock.make C header tranHashes coSigs timestamp) := by
  simp [protobufToMicroBlock, microBlockToProtobuf, MicroBlock.make,
    protobufToMicroBlockHeader_microBlockHeaderToProtobuf, protobufToBlockBase_blockBaseToProtobuf]

theorem MicroBlock.deserialize_serialize (header : MicroBlockHeader PubKey)
    (tranHashes : List H256) (coSigs : CoSignatures Signature) (timestamp : ℕ) :
    MicroBlock.deserialize C ((MicroBlock.make C header tranHashes coSigs timestamp).serialize C) =
      some (MicroBlock.make C header tranHashes coSigs timestamp) := by
  have hne := C.protoMicroBlock_ne_nil (microBlockToProtobuf C (MicroBlock.make C header tranHashes coSigs timestamp))
    (FixedBytes.val_ne_nil (by decide) (header.getMyHash C))
  rw [MicroBlock.deserialize, MicroBlock.serialize,
    C.protoMicroBlock.bind_decode_encode_of_ne_nil _ _ hne,
    protobufToMicroBlock_microBlockToProtobuf]

theorem protobufToTxBlock_txBlockToProtobuf (header : TxBlockHeader PubKey)
    (mbInfos : List MicroBlockInfo) (coSigs : CoSignatures Signature) (timestamp : ℕ) :
    protobufToTxBlock C (txBlockToProtobuf C (TxBlock.make C header mbInfos coSigs timestamp)) =
      some (TxBlock.make C header mbInfos coSigs timestamp) := by
  simp [protobufToTxBlock, txBlockToProtobuf, TxBlock.make, Function.comp_def,
    protobufToTxBlockHeader_txBlockHeaderToProtobuf, protobufToBlockBase_blockBaseToProtobuf]

theorem TxBlock.deserialize_serialize (header : TxBlockHeader PubKey)
    (mbInfos : List MicroBlockInfo) (coSigs : CoSignatures Signature) (timestamp : ℕ) :
    TxBlock.deserialize C ((TxBlock.make C header mbInfos coSigs timestamp).serialize C) =
      some (TxBlock.make C header mbInfos coSigs timestamp) := by
  have hne := C.protoTxBlock_ne_nil (txBlockToProtobuf C (TxBlock.make C header mbInfos coSigs timestamp))
    (FixedBytes.val_ne_nil (by decide) (header.getMyHash C))
  rw [TxBlock.deserialize, TxBlock.serialize, C.protoTxBlock.bind_decode_encode_of_ne_nil _ _ hne,
    protobufToTxBlock_txBlockToProtobuf]

theorem protobufToVCBlock_vcBlockToProtobuf (header : VCBlockHeader PubKey Peer)
    (coSigs : CoSignatures Signature) (timestamp : ℕ) :
    protobufToVCBlock C (vcBlockToProtobuf C (VCBlock.make C header coSigs timestamp)) =
      some (VCBlock.make C header coSigs timestamp) := by
  simp [protobufToVCBlock, vcBlockToProtobuf, VCBlock.make,
    protobufToVCBlockHeader_vcBlockHeaderToProtobuf, protobufToBlockBase_blockBaseToProtobuf]

theorem VCBlock.deserialize_serialize (header : VCBlockHeader PubKey Peer)
    (coSigs : CoSignatures Signature) (timestamp : ℕ) :
    VCBlock.deserialize C ((VCBlock.make C header coSigs timestamp).serialize C) =
      some (VCBlock.make C header coSigs timestamp) := by
  have hne := C.protoVCBlock_ne_nil (vcBlockToProtobuf C (VCBlock.make C header coSigs timestamp))
    (FixedBytes.val_ne_nil (by decide) (header.getMyHash C))
  rw [VCBlock.deserialize, VCBlock.serialize, C.protoVCBlock.bind_decode_encode_of_ne_nil _ _ hne,
    protobufToVCBlock_vcBlockToProtobuf]

end Blockchain

end Zilliqa
