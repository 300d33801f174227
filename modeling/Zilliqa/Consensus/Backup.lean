import Zilliqa.Cps.AccountStore
import Zilliqa.Lib.Mealy

/-!
# `Consensus.Backup` — the backup's side of the two-round multi-signature consensus

A `ConsensusBackup` takes part in one consensus (one consensus id and block number) that a leader
runs. It answers ANNOUNCE with a COMMIT (one commit point per subset, from freshly drawn
`CommitSecret`s), CHALLENGE with a RESPONSE computed from those secrets, COLLECTIVESIG with a
FINALCOMMIT over the second-round message (the new block content followed by CS1 and B1), and
FINALCHALLENGE with a FINALRESPONSE. `CheckState` gates every handler but the one for
CONSENSUSFAILURE, which puts the backup back to `INITIAL` from any state.

The messages reach the model parsed, with the leader's signature and the consensus id checked
(`Messenger::GetConsensus*`; a message that fails there changes nothing the model keeps). The
content validators, the multi-signature scheme and `Signature::Serialize` are `Primitives`, and
`Messenger::SetConsensus*` is taken to succeed. A `CommitSecret` is drawn at random; the model names
the secrets `0, 1, 2, …` in the order they are drawn (`numSecrets`), which is all the proofs use of
their randomness: a new secret differs from every earlier one.

What the backup sends keeps what it is computed from: the secrets behind a COMMIT's points, and for
a RESPONSE each subset's secret and the challenge it answers. Both also record `m_messageToCosign` at
the time of sending (`cosigning`), the message the commit and the challenges are bound to.

## Contents
- `State`, `Action`, `ConsensusMessageType`, `checkState` and its table.
- `setBitVector`, the encoding of B1 appended to the second-round message.
- The handlers `processMessageAnnounce`, `processMessageConsensusFailure`,
  `processMessageChallengeCore` and `processMessageCollectiveSigCore` with their instances, and
  `processMessage`; `step` is the machine `Mealy.run` runs.
- `processMessage_cases`: everything one message can do to the state, and what it sends.
-/

namespace Zilliqa.Consensus

/-- `ConsensusCommon::State`. -/
inductive State where
  | initial | announceDone | commitDone | challengeDone | responseDone | collectiveSigDone
  | finalCommitDone | finalChallengeDone | finalResponseDone | done | error
deriving DecidableEq, Repr

/-- `ConsensusBackup::Action`. -/
inductive Action where
  | processAnnounce | processChallenge | processCollectiveSig | processFinalChallenge
  | processFinalCollectiveSig
deriving DecidableEq, Repr

/-- `ConsensusCommon::ConsensusMessageType`. -/
inductive ConsensusMessageType where
  | announce | commit | challenge | response | collectiveSig | finalCommit | finalChallenge
  | finalResponse | finalCollectiveSig | commitFailure | consensusFailure
deriving DecidableEq, Repr

/-- `ACTIONS_FOR_STATE` of `ConsensusBackup::CheckState`. -/
def actionsForState : List (State × Action) :=
  [(.initial, .processAnnounce),
   (.commitDone, .processChallenge),
   (.commitDone, .processCollectiveSig),
   (.commitDone, .processFinalCollectiveSig),
   (.responseDone, .processCollectiveSig),
   (.responseDone, .processFinalCollectiveSig),
   (.finalCommitDone, .processFinalChallenge),
   (.finalCommitDone, .processFinalCollectiveSig),
   (.finalResponseDone, .processFinalCollectiveSig)]

/-- `ConsensusBackup::CheckState`. -/
def checkState (state : State) (action : Action) : Bool :=
  decide ((state, action) ∈ actionsForState)

@[simp] theorem checkState_processAnnounce (state : State) :
    checkState state .processAnnounce = true ↔ state = .initial := by
  cases state <;> decide

@[simp] theorem checkState_processChallenge (state : State) :
    checkState state .processChallenge = true ↔ state = .commitDone := by
  cases state <;> decide

@[simp] theorem checkState_processFinalChallenge (state : State) :
    checkState state .processFinalChallenge = true ↔ state = .finalCommitDone := by
  cases state <;> decide

@[simp] theorem checkState_processCollectiveSig (state : State) :
    checkState state .processCollectiveSig = true ↔
      state = .commitDone ∨ state = .responseDone := by
  cases state <;> decide

@[simp] theorem checkState_processFinalCollectiveSig (state : State) :
    checkState state .processFinalCollectiveSig = true ↔
      state = .commitDone ∨ state = .responseDone ∨ state = .finalCommitDone ∨
        state = .finalResponseDone := by
  cases state <;> decide

/-- Each bit of a chunk of at most eight, most significant first, zero-padded on the right. -/
def packBits (chunk : List Bool) : UInt8 :=
  UInt8.ofNat ((chunk ++ List.replicate (8 - chunk.length) false).foldl
    (fun acc b => 2 * acc + b.toNat) 0)

/-- `BitVector::SetBitVector` at the end of `dst`: the length in two bytes, big-endian, then the
    bits eight to a byte. -/
def setBitVector (value : List Bool) : Bytes :=
  [UInt8.ofNat (value.length / 256), UInt8.ofNat value.length] ++
    (value.toChunks 8).map packBits

example : setBitVector [true, false, true] = [0, 3, 0xa0] := by decide

/-- What a content validator (`MsgContentValidatorFunc`) answers for an announcement: its verdict,
    the error message for the leader, and the `messageToCosign` it wrote, if it got that far (it
    writes it while parsing, before its checks, so a failed validation may have written it too). -/
structure Validation where
  ok : Bool
  errorMsg : Bytes
  messageToCosign : Option Bytes

/-- The functions the backup calls and the model does not define. -/
structure Primitives (Point Chal Sig : Type) where
  /-- `m_msgContentValidator`. -/
  msgContentValidator : Bytes → Validation
  /-- `m_prePrepMsgContentValidator`, which ANNOUNCE uses instead when it is set. -/
  prePrepMsgContentValidator : Option (Bytes → Validation)
  /-- `CommitPoint::Initialized`. -/
  commitInitialized : Point → Bool
  /-- `Challenge::Initialized`. -/
  challengeInitialized : Chal → Bool
  /-- `ConsensusCommon::GetChallenge` of the message, the aggregated commit and key. -/
  getChallenge : Bytes → Point → Point → Chal
  /-- `MultiSig::MultiSigVerify` against the key `AggregateKeys` builds from the response map. -/
  multiSigVerify : Bytes → Sig → List Bool → Bool
  /-- `Signature::Serialize`. -/
  serializeSig : Sig → Bytes

/-- `ChallengeSubsetInfo`. -/
structure ChallengeSubsetInfo (Point Chal : Type) where
  aggregatedCommit : Point
  aggregatedKey : Point
  challenge : Chal
deriving DecidableEq

/-- A subset's `Response(m_commitSecrets.at(subsetID), challenge, m_myPrivKey)`, kept as the secret
    it is computed from and the subset it answers. -/
structure Response (Point Chal : Type) where
  secret : ℕ
  answered : ChallengeSubsetInfo Point Chal
deriving DecidableEq

/-- A message from the leader, as `Messenger::GetConsensus*` returns it. The collective signatures
    carry the answer of `m_readinessFunc` at the time they are handled (`true` when none is set). -/
inductive Incoming (Point Chal Sig : Type) where
  | announce (announcement : Bytes)
  | consensusFailure
  | challenge (subsets : List (ChallengeSubsetInfo Point Chal))
  | collectiveSig (responseMap : List Bool) (collectiveSig : Sig) (newAnnouncement : Bytes)
      (ready : Bool)
  | finalChallenge (subsets : List (ChallengeSubsetInfo Point Chal))
  | finalCollectiveSig (responseMap : List Bool) (collectiveSig : Sig)

/-- A message the backup unicasts to the leader. -/
inductive Sent (Point Chal : Type) where
  | commitFailure (errorMsg : Bytes)
  /-- COMMIT or FINALCOMMIT: the points of these secrets, committed while `cosigning` was the
      message to co-sign. -/
  | commit (type : ConsensusMessageType) (secrets : List ℕ) (cosigning : Bytes)
  /-- RESPONSE or FINALRESPONSE, to challenges checked against `cosigning`. -/
  | response (type : ConsensusMessageType) (cosigning : Bytes)
      (responses : List (Response Point Chal))
deriving DecidableEq

/-- The part of `ConsensusBackup` the handlers read and write. -/
structure ConsensusBackup (Sig : Type) where
  state : State
  messageToCosign : Bytes
  commitSecrets : List ℕ
  /-- How many secrets have been drawn, the name of the next one. -/
  numSecrets : ℕ
  numOfSubsets : ℕ
  cs1 : Option Sig
  b1 : List Bool
  cs2 : Option Sig
  b2 : List Bool

namespace ConsensusBackup

variable {Point Chal Sig : Type} [DecidableEq Chal] (P : Primitives Point Chal Sig)

/-- The constructor: `INITIAL`, nothing to co-sign yet and no secret drawn. -/
def init (numOfSubsets : ℕ) : ConsensusBackup Sig :=
  ⟨.initial, [], [], 0, numOfSubsets, none, [], none, []⟩

/-- The secrets `GenerateCommitMessage` draws: `numOfSubsets` new ones. -/
def drawSecrets (b : ConsensusBackup Sig) : ConsensusBackup Sig :=
  { b with commitSecrets := List.range' b.numSecrets b.numOfSubsets,
           numSecrets := b.numSecrets + b.numOfSubsets }

/-- `GenerateCommitMessage` under the message type `type`: new secrets, and the commit message
    with their points. -/
def generateCommitMessage (b : ConsensusBackup Sig) (type : ConsensusMessageType) :
    ConsensusBackup Sig × Sent Point Chal :=
  (b.drawSecrets, .commit type b.drawSecrets.commitSecrets b.messageToCosign)

/-- `ProcessMessageAnnounce`. A rejected announcement is answered with COMMITFAILURE when the
    validator gave a reason, and otherwise ignored. -/
def processMessageAnnounce (b : ConsensusBackup Sig) (announcement : Bytes) :
    Bool × ConsensusBackup Sig × Option (Sent Point Chal) :=
  if !checkState b.state .processAnnounce then (false, b, none) else
    let v := (P.prePrepMsgContentValidator.getD P.msgContentValidator) announcement
    let b := { b with messageToCosign := v.messageToCosign.getD b.messageToCosign }
    if !v.ok then
      if v.errorMsg.isEmpty then (false, b, none)
      else (true, { b with state := .error }, some (.commitFailure v.errorMsg))
    else
      let gen := b.generateCommitMessage .commit
      (true, { gen.1 with state := .commitDone }, some gen.2)

/-- `ProcessMessageConsensusFailure`: back to `INITIAL`, whatever the state. -/
def processMessageConsensusFailure (b : ConsensusBackup Sig) :
    Bool × ConsensusBackup Sig × Option (Sent Point Chal) :=
  (true, { b with state := .initial }, none)

/-- How the loop of `ProcessMessageChallengeCore` over the subsets ends. -/
inductive Responses (Point Chal : Type) where
  | ok (responses : List (Response Point Chal))
  /-- A subset failed a check: `m_state = ERROR`. -/
  | invalid
  /-- `m_commitSecrets.at(subsetID)` threw: more subsets than secrets. -/
  | outOfRange

/-- The loop of `ProcessMessageChallengeCore`: subset by subset, the aggregated commit and the
    challenge must be initialized and the challenge must be `GetChallenge` of the message to
    co-sign; the subset's response then uses the secret of the same index. -/
def subsetResponses (messageToCosign : Bytes) :
    List ℕ → List (ChallengeSubsetInfo Point Chal) → Responses Point Chal
  | _, [] => .ok []
  | secrets, ci :: rest =>
    if !P.commitInitialized ci.aggregatedCommit || !P.challengeInitialized ci.challenge ||
        P.getChallenge messageToCosign ci.aggregatedCommit ci.aggregatedKey ≠ ci.challenge then
      .invalid
    else
      match secrets with
      | [] => .outOfRange
      | secret :: secrets =>
        match subsetResponses messageToCosign secrets rest with
        | .ok responses => .ok (⟨secret, ci⟩ :: responses)
        | r => r

/-- `ProcessMessageChallengeCore`. An exception from the loop leaves the state as it was. -/
def processMessageChallengeCore (b : ConsensusBackup Sig)
    (subsets : List (ChallengeSubsetInfo Point Chal)) (action : Action)
    (returnmsgtype : ConsensusMessageType) (nextstate : State) :
    Bool × ConsensusBackup Sig × Option (Sent Point Chal) :=
  if !checkState b.state action then (false, b, none) else
    match subsetResponses P b.messageToCosign b.commitSecrets subsets with
    | .invalid => (false, { b with state := .error }, none)
    | .outOfRange => (false, b, none)
    | .ok responses =>
      (true, { b with state := nextstate },
        some (.response returnmsgtype b.messageToCosign responses))

/-- `ProcessMessageChallenge`. -/
def processMessageChallenge (b : ConsensusBackup Sig)
    (subsets : List (ChallengeSubsetInfo Point Chal)) :
    Bool × ConsensusBackup Sig × Option (Sent Point Chal) :=
  processMessageChallengeCore P b subsets .processChallenge .response .responseDone

/-- `ProcessMessageFinalChallenge`. -/
def processMessageFinalChallenge (b : ConsensusBackup Sig)
    (subsets : List (ChallengeSubsetInfo Point Chal)) :
    Bool × ConsensusBackup Sig × Option (Sent Point Chal) :=
  processMessageChallengeCore P b subsets .processFinalChallenge .finalResponse .finalResponseDone

/-- The validation of the new announcement a first-round collective signature carries, when it
    carries one. -/
def validateNewAnnouncement (newAnnouncement : Bytes) : Validation :=
  if newAnnouncement.isEmpty then ⟨true, [], none⟩ else P.msgContentValidator newAnnouncement

/-- `ProcessMessageCollectiveSigCore`. In the first round, the second-round message is the new
    block content followed by the collective signature and the response map, and new secrets are
    drawn for it; in the final round the signature is only stored. -/
def processMessageCollectiveSigCore (b : ConsensusBackup Sig) (responseMap : List Bool)
    (collectiveSig : Sig) (newAnnouncement : Bytes) (ready : Bool) (action : Action)
    (nextstate : State) : Bool × ConsensusBackup Sig × Option (Sent Point Chal) :=
  if !checkState b.state action then (false, b, none) else
  if !P.multiSigVerify b.messageToCosign collectiveSig responseMap then
    (false, { b with state := .error }, none)
  else if action = .processCollectiveSig then
    if !ready then (false, b, none) else
      let v := validateNewAnnouncement P newAnnouncement
      let b := { b with messageToCosign := v.messageToCosign.getD b.messageToCosign }
      if !v.ok then (false, { b with state := .error }, none) else
        let b := { b with messageToCosign :=
          b.messageToCosign ++ P.serializeSig collectiveSig ++ setBitVector responseMap }
        let gen := b.generateCommitMessage .finalCommit
        (true, { gen.1 with state := nextstate, cs1 := some collectiveSig, b1 := responseMap },
          some gen.2)
  else
    (true, { b with cs2 := some collectiveSig, b2 := responseMap, state := nextstate }, none)

/-- `ProcessMessageCollectiveSig`. -/
def processMessageCollectiveSig (b : ConsensusBackup Sig) (responseMap : List Bool)
    (collectiveSig : Sig) (newAnnouncement : Bytes) (ready : Bool) :
    Bool × ConsensusBackup Sig × Option (Sent Point Chal) :=
  processMessageCollectiveSigCore P b responseMap collectiveSig newAnnouncement ready
    .processCollectiveSig .finalCommitDone

/-- `ProcessMessageFinalCollectiveSig`; the readiness function and a new announcement are only
    read in the first round. -/
def processMessageFinalCollectiveSig (b : ConsensusBackup Sig) (responseMap : List Bool)
    (collectiveSig : Sig) : Bool × ConsensusBackup Sig × Option (Sent Point Chal) :=
  processMessageCollectiveSigCore P b responseMap collectiveSig [] true
    .processFinalCollectiveSig .done

/-- `ConsensusBackup::ProcessMessage`: dispatch on the message type. -/
def processMessage (b : ConsensusBackup Sig) :
    Incoming Point Chal Sig → Bool × ConsensusBackup Sig × Option (Sent Point Chal)
  | .announce announcement => processMessageAnnounce P b announcement
  | .consensusFailure => processMessageConsensusFailure b
  | .challenge subsets => processMessageChallenge P b subsets
  | .collectiveSig responseMap collectiveSig newAnnouncement ready =>
    processMessageCollectiveSig P b responseMap collectiveSig newAnnouncement ready
  | .finalChallenge subsets => processMessageFinalChallenge P b subsets
  | .finalCollectiveSig responseMap collectiveSig =>
    processMessageFinalCollectiveSig P b responseMap collectiveSig

/-- The backup as a machine for `Mealy.run`: the state after a message and what it sent. -/
def step (b : ConsensusBackup Sig) (msg : Incoming Point Chal Sig) :
    ConsensusBackup Sig × List (Sent Point Chal) :=
  ((processMessage P b msg).2.1, (processMessage P b msg).2.2.toList)

/-! ## What one message can do -/

/-- Everything a handler can do to the backup (`b` before, `b'` after) and what it sends. -/
inductive Outcome (b : ConsensusBackup Sig) :
    ConsensusBackup Sig → Option (Sent Point Chal) → Prop
  /-- Nothing sent, no secret drawn; the state and the message to co-sign stay, or the state falls
      back to `INITIAL`, `ERROR` or `DONE`. -/
  | quiet {b' : ConsensusBackup Sig} (secrets : b'.commitSecrets = b.commitSecrets)
      (num : b'.numSecrets = b.numSecrets)
      (fallback : (b'.state = b.state ∧ b'.messageToCosign = b.messageToCosign) ∨
        b'.state = .initial ∨ b'.state = .error ∨ b'.state = .done) :
      Outcome b b' none
  /-- COMMITFAILURE, and the backup is in `ERROR`. -/
  | commitFailure {b' : ConsensusBackup Sig} {errorMsg : Bytes}
      (secrets : b'.commitSecrets = b.commitSecrets) (num : b'.numSecrets = b.numSecrets)
      (error : b'.state = .error) :
      Outcome b b' (some (.commitFailure errorMsg))
  /-- COMMIT from `INITIAL`, or FINALCOMMIT after the first round, with newly drawn secrets. -/
  | commit {b' : ConsensusBackup Sig} {type : ConsensusMessageType}
      (draw : b'.commitSecrets = List.range' b.numSecrets b.numOfSubsets)
      (num : b'.numSecrets = b.numSecrets + b.numOfSubsets)
      (round : (b.state = .initial ∧ type = .commit ∧ b'.state = .commitDone) ∨
        ((b.state = .commitDone ∨ b.state = .responseDone) ∧ type = .finalCommit ∧
          b'.state = .finalCommitDone)) :
      Outcome b b' (some (.commit type b'.commitSecrets b'.messageToCosign))
  /-- RESPONSE or FINALRESPONSE right after the matching commit: the responses use the current
      secrets in order, and each answers the challenge of the message to co-sign. -/
  | response {b' : ConsensusBackup Sig} {type : ConsensusMessageType}
      {responses : List (Response Point Chal)}
      (secrets : b'.commitSecrets = b.commitSecrets) (num : b'.numSecrets = b.numSecrets)
      (round : (b.state = .commitDone ∧ type = .response ∧ b'.state = .responseDone) ∨
        (b.state = .finalCommitDone ∧ type = .finalResponse ∧ b'.state = .finalResponseDone))
      (order : responses.map (·.secret) <+: b.commitSecrets)
      (answers : ∀ r ∈ responses, r.answered.challenge =
        P.getChallenge b.messageToCosign r.answered.aggregatedCommit r.answered.aggregatedKey) :
      Outcome b b' (some (.response type b.messageToCosign responses))

omit [DecidableEq Chal] in
theorem Outcome.unchanged (b : ConsensusBackup Sig) : Outcome P b b (none : Option (Sent Point Chal)) :=
  .quiet rfl rfl (.inl ⟨rfl, rfl⟩)

/-- The loop's responses use the secrets in order, and each answers the challenge of the message to
    co-sign. -/
theorem subsetResponses_ok {messageToCosign : Bytes} :
    ∀ (subsets : List (ChallengeSubsetInfo Point Chal)) (secrets : List ℕ)
      (responses : List (Response Point Chal)),
      subsetResponses P messageToCosign secrets subsets = .ok responses →
      responses.map (·.secret) <+: secrets ∧
        ∀ r ∈ responses, r.answered.challenge =
          P.getChallenge messageToCosign r.answered.aggregatedCommit r.answered.aggregatedKey := by
  intro subsets
  induction subsets with
  | nil =>
    intro secrets responses h
    simp only [subsetResponses, Responses.ok.injEq] at h
    subst h
    simp
  | cons ci rest ih =>
    intro secrets responses h
    cases secrets with
    | nil =>
      -- no secret is left for this subset: the loop fails or throws
      simp only [subsetResponses] at h
      split at h <;> cases h
    | cons secret secrets =>
      simp only [subsetResponses] at h
      split at h
      · cases h
      · rename_i hvalid
        -- the subset passed its checks, so its challenge is the one of the message to co-sign
        have hchal : ci.challenge =
            P.getChallenge messageToCosign ci.aggregatedCommit ci.aggregatedKey := by
          simp only [Bool.or_eq_true, Bool.not_eq_true', decide_eq_true_eq, not_or,
            not_not] at hvalid
          exact hvalid.2.symm
        split at h
        · rename_i rs hrest
          simp only [Responses.ok.injEq] at h
          subst h
          obtain ⟨hpre, hans⟩ := ih secrets rs hrest
          refine ⟨by simpa using hpre, ?_⟩
          intro r hr
          rcases List.mem_cons.1 hr with rfl | hr
          · exact hchal
          · exact hans r hr
        · rename_i r hr
          exact absurd h (hr responses)

omit [DecidableEq Chal] in
theorem outcome_processMessageAnnounce (b : ConsensusBackup Sig) (announcement : Bytes) :
    Outcome P b (processMessageAnnounce P b announcement).2.1
      (processMessageAnnounce P b announcement).2.2 := by
  unfold processMessageAnnounce
  by_cases hstate : b.state = .initial
  · have hcheck : checkState b.state .processAnnounce = true :=
      (checkState_processAnnounce _).2 hstate
    simp only [hcheck, Bool.not_true, Bool.false_eq_true, if_false]
    -- rejected without a reason, rejected with one, or accepted
    split_ifs with hok hempty
    · exact .quiet rfl rfl (.inr (.inl hstate))
    · exact .commitFailure rfl rfl rfl
    · exact .commit rfl rfl (.inl ⟨hstate, rfl, rfl⟩)
  · have hcheck : checkState b.state .processAnnounce = false := by
      rw [← Bool.not_eq_true, checkState_processAnnounce]
      exact hstate
    simp only [hcheck, Bool.not_false, if_true]
    exact Outcome.unchanged P b

theorem outcome_processMessageChallengeCore (b : ConsensusBackup Sig)
    (subsets : List (ChallengeSubsetInfo Point Chal)) (action : Action)
    (returnmsgtype : ConsensusMessageType) (nextstate : State)
    (hround : checkState b.state action = true →
      (b.state = .commitDone ∧ returnmsgtype = .response ∧ nextstate = .responseDone) ∨
      (b.state = .finalCommitDone ∧ returnmsgtype = .finalResponse ∧
        nextstate = .finalResponseDone)) :
    Outcome P b (processMessageChallengeCore P b subsets action returnmsgtype nextstate).2.1
      (processMessageChallengeCore P b subsets action returnmsgtype nextstate).2.2 := by
  unfold processMessageChallengeCore
  cases hcheck : checkState b.state action
  · simp only [Bool.not_false, if_true]
    exact Outcome.unchanged P b
  · simp only [Bool.not_true, Bool.false_eq_true, if_false]
    -- how the loop over the subsets ended
    split
    · exact .quiet rfl rfl (.inr (.inr (.inl rfl)))
    · exact Outcome.unchanged P b
    · rename_i responses hloop
      obtain ⟨horder, hanswers⟩ := subsetResponses_ok P subsets b.commitSecrets responses hloop
      have hround' := hround hcheck
      exact .response rfl rfl (by simpa using hround') horder hanswers

omit [DecidableEq Chal] in
theorem outcome_processMessageCollectiveSigCore (b : ConsensusBackup Sig)
    (responseMap : List Bool) (collectiveSig : Sig) (newAnnouncement : Bytes) (ready : Bool)
    (action : Action) (nextstate : State)
    (hfirst : action = .processCollectiveSig → nextstate = .finalCommitDone)
    (hfinal : action ≠ .processCollectiveSig → nextstate = .done) :
    Outcome P b (processMessageCollectiveSigCore P b responseMap collectiveSig newAnnouncement
        ready action nextstate).2.1
      (processMessageCollectiveSigCore P b responseMap collectiveSig newAnnouncement
        ready action nextstate).2.2 := by
  unfold processMessageCollectiveSigCore
  cases hcheck : checkState b.state action
  · simp only [Bool.not_false, if_true]
    exact Outcome.unchanged P b
  · simp only [Bool.not_true, Bool.false_eq_true, if_false]
    split_ifs with hverify hround hready hok
    · -- the collective signature does not verify
      exact .quiet rfl rfl (.inr (.inr (.inl rfl)))
    · -- not ready yet
      exact Outcome.unchanged P b
    · -- the new announcement is rejected
      exact .quiet rfl rfl (.inr (.inr (.inl rfl)))
    · -- first round: the second-round message, and new secrets for it
      subst hround
      have hstate : b.state = .commitDone ∨ b.state = .responseDone :=
        (checkState_processCollectiveSig _).1 hcheck
      exact .commit rfl rfl (.inr ⟨hstate, rfl, hfirst rfl⟩)
    · -- final round: the signature is stored
      exact .quiet rfl rfl (.inr (.inr (.inr (hfinal hround))))

/-- **What one message can do.** Whatever message arrives, the backup's handler has one of the
    outcomes of `Outcome`. -/
theorem outcome_processMessage (b : ConsensusBackup Sig) (msg : Incoming Point Chal Sig) :
    Outcome P b (processMessage P b msg).2.1 (processMessage P b msg).2.2 := by
  cases msg with
  | announce announcement => exact outcome_processMessageAnnounce P b announcement
  | consensusFailure => exact .quiet rfl rfl (.inr (.inl rfl))
  | challenge subsets =>
    refine outcome_processMessageChallengeCore P b subsets _ _ _ (fun h => .inl ?_)
    exact ⟨(checkState_processChallenge _).1 h, rfl, rfl⟩
  | collectiveSig responseMap collectiveSig newAnnouncement ready =>
    exact outcome_processMessageCollectiveSigCore P b _ _ _ _ _ _ (fun _ => rfl)
      (fun h => absurd rfl h)
  | finalChallenge subsets =>
    refine outcome_processMessageChallengeCore P b subsets _ _ _ (fun h => .inr ?_)
    exact ⟨(checkState_processFinalChallenge _).1 h, rfl, rfl⟩
  | finalCollectiveSig responseMap collectiveSig =>
    exact outcome_processMessageCollectiveSigCore P b _ _ _ _ _ _ (fun h => by cases h)
      (fun _ => rfl)

/-! ## After the final response -/

/-- The states after the final response: `FINALRESPONSE_DONE`, `DONE`, and `ERROR`. -/
def Settled (state : State) : Prop :=
  state = .finalResponseDone ∨ state = .done ∨ state = .error

/-- A settled backup sends nothing and stays settled, whatever arrives but CONSENSUSFAILURE: in
    those states `CheckState` lets only the final collective signature through, and that one ends
    in `DONE` or `ERROR`. -/
theorem settled_processMessage (b : ConsensusBackup Sig) (msg : Incoming Point Chal Sig)
    (hmsg : msg ≠ .consensusFailure) (h : Settled b.state) :
    Settled (processMessage P b msg).2.1.state ∧ (processMessage P b msg).2.2 = none := by
  have hcheck : ∀ action, action ≠ .processFinalCollectiveSig →
      checkState b.state action = false := by
    intro action haction
    rcases h with h | h | h <;> rw [h] <;> cases action <;> simp_all <;> decide
  cases msg with
  | announce announcement =>
    simp [processMessage, processMessageAnnounce, hcheck .processAnnounce (by decide), h]
  | consensusFailure => exact absurd rfl hmsg
  | challenge subsets =>
    simp [processMessage, processMessageChallenge, processMessageChallengeCore,
      hcheck .processChallenge (by decide), h]
  | collectiveSig responseMap collectiveSig newAnnouncement ready =>
    simp [processMessage, processMessageCollectiveSig, processMessageCollectiveSigCore,
      hcheck .processCollectiveSig (by decide), h]
  | finalChallenge subsets =>
    simp [processMessage, processMessageFinalChallenge, processMessageChallengeCore,
      hcheck .processFinalChallenge (by decide), h]
  | finalCollectiveSig responseMap collectiveSig =>
    -- let through: the backup ends in `DONE`, or in `ERROR` when the signature does not verify
    simp only [processMessage, processMessageFinalCollectiveSig, processMessageCollectiveSigCore]
    split_ifs <;> simp_all [Settled]

end ConsensusBackup

end Zilliqa.Consensus
