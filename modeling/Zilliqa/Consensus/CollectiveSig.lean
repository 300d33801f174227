import Zilliqa.Consensus.Backup

/-!
# `Consensus.CollectiveSig` — what the backup checks of a collective signature's response map

`ConsensusBackup::ProcessMessageCollectiveSigCore` takes the response map of a COLLECTIVESIG or
FINALCOLLECTIVESIG as `Messenger::GetConsensusCollectiveSig` parsed it, and verifies the collective
signature against `ConsensusCommon::AggregateKeys` of the map: the aggregate of the keys of the
committee members whose bit is set, found by walking the committee in lock-step with the map.
Neither function compares the map's length with the committee's or counts its set bits, so the
map is checked only through the signature (`processMessageCollectiveSigCore_final_of_verify`,
`processMessageCollectiveSigCore_first_of_verify`). `AggregateKeys` stays within the committee
exactly when no bit is set past its end (`aggregateKeysReads_lt_iff`).

A leader that signs alone, with a map holding only its own bit, therefore takes a backup through
both rounds to `DONE`, two signers short of the quorum of a committee of four; and a map one entry
longer than the committee, with that entry set, has `AggregateKeys` read a member that does not
exist (`collectiveSig_accepts_leader_only`).

## Contents
- `aggregateKeysReads`, `aggregateKeys`, `ConsensusCommon.numForConsensus`.
- `withCommittee`: the backup's primitives with the signature checked against `AggregateKeys`;
  `collectiveSigReads`, the members the handler has `AggregateKeys` read.
- A verified signature is accepted whatever its map; a leader-only run.
-/

namespace Zilliqa.Consensus

/-- The committee indices `ConsensusCommon::AggregateKeys` dereferences: its loop advances the
    committee iterator with the map's index and reads the member's key at every set bit. -/
def aggregateKeysReads (peerMap : List Bool) : List ℕ :=
  (List.range peerMap.length).filter fun i => peerMap.getD i false

/-- The keys `AggregateKeys` passes to `MultiSig::AggregatePubKeys`; a read past the end of the
    committee, which the loop does not guard, gives `default` here. -/
def aggregateKeys {Key : Type} [Inhabited Key] (committee : List Key) (peerMap : List Bool) :
    List Key :=
  (aggregateKeysReads peerMap).map fun i => committee.getD i default

namespace ConsensusCommon

/-- `ConsensusCommon::NumForConsensus`: `ceil(shardSize * TOLERANCE_FRACTION)` with the deployed
    `TOLERANCE_FRACTION` of `0.667`. Below `1000` members `667 * shardSize` is never a multiple of
    `1000`, so the `double` product has the ceiling of the exact one. -/
def numForConsensus (shardSize : ℕ) : ℕ := (shardSize * 667 + 999) / 1000

end ConsensusCommon

theorem mem_aggregateKeysReads {peerMap : List Bool} {i : ℕ} :
    i ∈ aggregateKeysReads peerMap ↔ peerMap[i]? = some true := by
  unfold aggregateKeysReads
  rw [List.mem_filter, List.mem_range]
  constructor
  · rintro ⟨hi, hbit⟩
    rw [List.getD_eq_getElem?_getD, List.getElem?_eq_getElem hi, Option.getD_some] at hbit
    rw [List.getElem?_eq_getElem hi, hbit]
  · intro h
    obtain ⟨hi, -⟩ := List.getElem?_eq_some_iff.1 h
    refine ⟨hi, ?_⟩
    rw [List.getD_eq_getElem?_getD, h, Option.getD_some]

/-- **`AggregateKeys` stays within a committee of `n` members** exactly when the map has no bit
    set at an index of `n` or more; in particular when the map has at most `n` entries. -/
theorem aggregateKeysReads_lt_iff (peerMap : List Bool) (n : ℕ) :
    (∀ i ∈ aggregateKeysReads peerMap, i < n) ↔ ∀ i, n ≤ i → peerMap[i]? ≠ some true := by
  constructor
  · intro h i hi hbit
    have := h i (mem_aggregateKeysReads.2 hbit)
    omega
  · intro h i hread
    by_contra hge
    exact h i (by omega) (mem_aggregateKeysReads.1 hread)

namespace ConsensusBackup

variable {Point Chal Sig : Type}

/-- The backup's primitives with the collective signature verified as the code does it:
    `MultiSig::MultiSigVerify` against `MultiSig::AggregatePubKeys` of `AggregateKeys` of the map. -/
def withCommittee {Key : Type} [Inhabited Key] (P : Primitives Point Chal Sig)
    (committee : List Key) (aggregatePubKeys : List Key → Key)
    (multiSigVerify : Bytes → Sig → Key → Bool) : Primitives Point Chal Sig :=
  { P with multiSigVerify := fun message collectiveSig peerMap =>
      multiSigVerify message collectiveSig (aggregatePubKeys (aggregateKeys committee peerMap)) }

/-- The committee members `ProcessMessageCollectiveSigCore` has `AggregateKeys` read: those of the
    map's set bits, once `CheckState` lets the message through. -/
def collectiveSigReads (b : ConsensusBackup Sig) (responseMap : List Bool) (action : Action) :
    List ℕ :=
  if checkState b.state action then aggregateKeysReads responseMap else []

variable (P : Primitives Point Chal Sig)

/-- **A verified final-round signature is accepted whatever its map**: the backup stores the
    signature and the map as `CS2` and `B2` and moves to the next state. -/
theorem processMessageCollectiveSigCore_final_of_verify (b : ConsensusBackup Sig)
    (responseMap : List Bool) (collectiveSig : Sig) (newAnnouncement : Bytes) (ready : Bool)
    {action : Action} (nextstate : State) (hcheck : checkState b.state action = true)
    (hverify : P.multiSigVerify b.messageToCosign collectiveSig responseMap = true)
    (hfinal : action ≠ .processCollectiveSig) :
    processMessageCollectiveSigCore P b responseMap collectiveSig newAnnouncement ready action
        nextstate =
      (true, { b with cs2 := some collectiveSig, b2 := responseMap, state := nextstate }, none) := by
  unfold processMessageCollectiveSigCore
  rw [hcheck, hverify]
  simp only [Bool.not_true, Bool.false_eq_true, if_false, if_neg hfinal]

/-- **A verified first-round signature is accepted whatever its map**, once the readiness
    function and the new announcement's validator agree: the map becomes `B1` and the backup
    moves to the next state. -/
theorem processMessageCollectiveSigCore_first_of_verify (b : ConsensusBackup Sig)
    (responseMap : List Bool) (collectiveSig : Sig) (newAnnouncement : Bytes) (nextstate : State)
    (hcheck : checkState b.state .processCollectiveSig = true)
    (hverify : P.multiSigVerify b.messageToCosign collectiveSig responseMap = true)
    (hok : (validateNewAnnouncement P newAnnouncement).ok = true) :
    (processMessageCollectiveSigCore P b responseMap collectiveSig newAnnouncement true
        .processCollectiveSig nextstate).2.1.state = nextstate ∧
      (processMessageCollectiveSigCore P b responseMap collectiveSig newAnnouncement true
        .processCollectiveSig nextstate).2.1.b1 = responseMap := by
  unfold processMessageCollectiveSigCore
  rw [hcheck, hverify]
  simp only [Bool.not_true, Bool.false_eq_true, if_false, if_true, hok, and_self]

/-! ## A leader signing alone -/

/-- Primitives over an ideal multi-signature scheme on member ids: member `i`'s key is `[i]`,
    aggregating keys joins them, and a collective signature is the message with the ids of the
    members who signed it, which verifies against exactly their aggregated key. Every announcement
    is valid and is itself the block content to co-sign, and a challenge is the message it is
    computed from. -/
def idealPrimitives (committee : List (List ℕ)) : Primitives Unit Bytes (Bytes × List ℕ) :=
  withCommittee
    { msgContentValidator := fun announcement => ⟨true, [], some announcement⟩
      prePrepMsgContentValidator := none
      commitInitialized := fun _ => true
      challengeInitialized := fun _ => true
      getChallenge := fun messageToCosign _ _ => messageToCosign
      multiSigVerify := fun _ _ _ => false
      serializeSig := fun _ => [] }
    committee List.flatten
    (fun message collectiveSig key => decide (collectiveSig = (message, key)))

/-- The response map of a committee of four in which only the leader, member `0`, signed. -/
def leaderOnly : List Bool := [true, false, false, false]

/-- A consensus on the block `[1]` whose two collective signatures the leader made alone. -/
def leaderOnlyRun : List (Incoming Unit Bytes (Bytes × List ℕ)) :=
  [.announce [1], .collectiveSig leaderOnly ([1], [0]) [] true,
   .finalChallenge [⟨(), (), [1] ++ setBitVector leaderOnly⟩],
   .finalCollectiveSig leaderOnly ([1] ++ setBitVector leaderOnly, [0])]

/-- A backup in a committee of four ends the consensus in `DONE` with a map of one set bit, below
    the quorum of three; and once it has committed, a map of five entries with the last one set
    has `AggregateKeys` read member `4`, past the end of the committee. -/
theorem collectiveSig_accepts_leader_only :
    leaderOnly.count true < ConsensusCommon.numForConsensus leaderOnly.length ∧
      (Mealy.run (step (idealPrimitives [[0], [1], [2], [3]])) (init 1) leaderOnlyRun).1.state =
        .done ∧
      (Mealy.run (step (idealPrimitives [[0], [1], [2], [3]])) (init 1) leaderOnlyRun).1.b2 =
        leaderOnly ∧
      collectiveSigReads
        (Mealy.run (step (idealPrimitives [[0], [1], [2], [3]])) (init 1) [.announce [1]]).1
        [false, false, false, false, true] .processFinalCollectiveSig = [4] := by
  decide

end ConsensusBackup

end Zilliqa.Consensus
