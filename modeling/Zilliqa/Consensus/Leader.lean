import Zilliqa.Consensus.Backup


/-!
# `Consensus.Leader` — the leader's side: commits, subsets, responses and the co-signature maps

A `ConsensusLeader` runs one consensus over a committee of `n` members, itself at index `m_myID`.
After the announcement it collects COMMITs, one commit point per subset from each backup. Once it has
enough, `GenerateConsensusSubsets` builds the subsets: each holds the leader and `numForConsensus - 1`
committers (in DS `GUARD_MODE` the first one is filled with guards first), picked from the list of
committers, which is shuffled after each subset. `StartConsensusSubsets` computes each subset's
challenge and puts the leader's own response in. A RESPONSE carries one response per subset; the
leader takes it into every subset that is still collecting, in which the backup committed and has not
answered yet, and where `MultiSig::VerifyResponse` accepts it. The first subset whose counter reaches
`numForConsensus` ends the round: its response map becomes `m_B1` (or `m_B2` in the final round) and
the others are reset. With more than one subset, the subsets are built by a detached thread when the
commit window closes, in each round.

The messages reach the model parsed (`Messenger::GetConsensus*` has checked the signature, the
consensus id and that the backup id is a committee index), and the multi-signature functions are
`LeaderPrimitives`. The leader's commit secrets are named by the subset they serve. What the leader
sends is not modelled; the co-signature maps it publishes are the state's `b1` and `b2`.

The invariant `LeaderInv` holds in every state a run of messages and commit-window closings reaches
(`leaderInv_runLeader`): every subset's counter is the number of bits of its response map, and each of
those bits is the leader's, or a backup of the subset's commit map whose response verified; in the
states that end a round the published map is that of such a subset, full to `numForConsensus` and with
the leader's bit (`cosigMaps_of_runLeader`). Then `B2` passes the signer count of
`Validator::CheckBlockCosignature`.

## Contents
- `ConsensusSubset`, `LeaderPrimitives`, `LeaderConfig`, `ConsensusLeader`, `Shuffle`.
- `checkState`, `checkStateSubset`, `setStateSubset`.
- `generateConsensusSubsets`, `startConsensusSubsets`, `processMessageCommitCore`,
  `processMessageCommitFailure`, `processMessageResponseCore` with `generateCollectiveSigMessage` and
  `subsetEnded`, `subsetTimerFires`, `step`, `runLeader`.
- `checkBlockCosignatureCount`, the signer count of `Validator::CheckBlockCosignature`.
- The invariant `LeaderInv`, one lemma per handler, and the run theorem.
-/

namespace Zilliqa.Consensus

/-- The order of the enumerators of `ConsensusCommon::State`, which `SetStateSubset` compares. -/
def State.rank : State → ℕ
  | .initial => 0
  | .announceDone => 1
  | .commitDone => 2
  | .challengeDone => 3
  | .responseDone => 4
  | .collectiveSigDone => 5
  | .finalCommitDone => 6
  | .finalChallengeDone => 7
  | .finalResponseDone => 8
  | .done => 9
  | .error => 10

/-- `ConsensusLeader::ConsensusSubset`. -/
structure ConsensusSubset (Point Chal Resp Sig : Type) where
  commitMap : List Bool
  commitPointMap : List Point
  commitPoints : List Point
  responseCounter : ℕ
  challenge : Chal
  responseDataMap : List Resp
  responseMap : List Bool
  responseData : List Resp
  collectiveSig : Sig
  state : State

/-- The multi-signature functions the leader calls and the model does not define. -/
structure LeaderPrimitives (Key Point Hash Chal Resp Sig : Type) where
  /-- `CommitPoint::Initialized`. -/
  commitInitialized : Point → Bool
  /-- `CommitPointHash::Initialized`. -/
  hashInitialized : Hash → Bool
  /-- `CommitPointHash(commit)`. -/
  commitPointHash : Point → Hash
  /-- `CommitPoint(cs)` of the leader's secret for a subset. -/
  commitPoint : ℕ → Point
  /-- `ConsensusCommon::AggregateCommits`. -/
  aggregateCommits : List Point → Point
  /-- `ConsensusCommon::AggregateKeys` of a map over the committee. -/
  aggregateKeys : List Bool → Key
  /-- `ConsensusCommon::GetChallenge`. -/
  getChallenge : Bytes → Point → Key → Chal
  /-- `Challenge::Initialized`. -/
  challengeInitialized : Chal → Bool
  /-- `Response(m_commitSecrets.at(subset), challenge, m_myPrivKey)`. -/
  response : ℕ → Chal → Resp
  /-- `MultiSig::VerifyResponse`. -/
  verifyResponse : Resp → Chal → Key → Point → Bool
  /-- `ConsensusCommon::AggregateResponses`. -/
  aggregateResponses : List Resp → Resp
  /-- `Response::Initialized`. -/
  responseInitialized : Resp → Bool
  /-- `ConsensusCommon::AggregateSign`. -/
  aggregateSign : Chal → Resp → Sig
  /-- `MultiSig::MultiSigVerify`. -/
  multiSigVerify : Bytes → Sig → Key → Bool
  /-- `Signature::Serialize`. -/
  serializeSig : Sig → Bytes
  /-- `m_collSigAnnouncementGeneratorFunc`, when set: the new `m_messageToCosign`, or a failure. -/
  collSigAnnouncement : Option (Bytes → Option Bytes)

/-- What the constructor fixes for the session. -/
structure LeaderConfig (Key Ip : Type) where
  /-- `m_myID`. -/
  myID : ℕ
  /-- `m_committee`: each member's key and the IP address of its peer. -/
  committee : List (Key × Ip)
  /-- `m_numOfSubsets`: `DS_NUM_CONSENSUS_SUBSETS` or `SHARD_NUM_CONSENSUS_SUBSETS`. -/
  numOfSubsets : ℕ
  /-- `m_DS`. -/
  isDS : Bool
  guardMode : Bool
  /-- `Guard::GetNumOfDSGuard()`. -/
  numOfDSGuard : ℕ
  /-- `ConsensusCommon::NumForConsensus`, `ceil(size * TOLERANCE_FRACTION)`. -/
  numForConsensusOf : ℕ → ℕ

namespace LeaderConfig

variable {Key Ip : Type} (cfg : LeaderConfig Key Ip)

/-- `m_numForConsensus`. -/
def numForConsensus : ℕ := cfg.numForConsensusOf cfg.committee.length

/-- `m_numForConsensusFailure`. -/
def numForConsensusFailure : ℕ := cfg.committee.length - cfg.numForConsensus

/-- `GetCommitteeMember(index).first`. -/
def pubKey [Inhabited Key] [Inhabited Ip] (index : ℕ) : Key := (cfg.committee.getD index default).1

end LeaderConfig

/-- The part of `ConsensusLeader` the handlers read and write. -/
structure ConsensusLeader (Point Chal Resp Sig : Type) where
  state : State
  commitCounter : ℕ
  commitMap : List Bool
  commitPointMap : List (List Point)
  commitFailureCounter : ℕ
  commitFailureMap : List (ℕ × Bytes)
  consensusSubsets : List (ConsensusSubset Point Chal Resp Sig)
  numSubsetsRunning : ℕ
  messageToCosign : Bytes
  cs1 : Option Sig
  b1 : List Bool
  cs2 : Option Sig
  b2 : List Bool
  /-- A detached commit-window thread is waiting to build and start the subsets. -/
  subsetTimer : Bool

/-- The orders `std::shuffle` draws for the subsets after the first: each a permutation. -/
structure Shuffle where
  run : ℕ → List ℕ → List ℕ
  perm : ∀ i l, (run i l).Perm l

/-- The shuffle that leaves every order as it is. -/
def Shuffle.none : Shuffle := ⟨fun _ l => l, fun _ l => List.Perm.refl l⟩

/-- The committers in the order subset `i` reads them: shuffled once after each earlier subset. -/
def Shuffle.order (sh : Shuffle) : ℕ → List ℕ → List ℕ
  | 0, l => l
  | i + 1, l => sh.run i (sh.order i l)

namespace ConsensusLeader

/-- `ConsensusLeader::Action`. -/
inductive Action where
  | sendAnnouncement | processCommit | processResponse | processFinalCommit
  | processFinalResponse | processCommitFailure
deriving DecidableEq, Repr

/-- `ACTIONS_FOR_STATE` of `ConsensusLeader::CheckState`. -/
def actionsForState : List (State × Action) :=
  [(.initial, .sendAnnouncement),
   (.initial, .processCommitFailure),
   (.announceDone, .processCommit),
   (.announceDone, .processCommitFailure),
   (.challengeDone, .processResponse),
   (.challengeDone, .processCommitFailure),
   (.collectiveSigDone, .processFinalCommit),
   (.collectiveSigDone, .processCommitFailure),
   (.finalChallengeDone, .processFinalResponse),
   (.finalChallengeDone, .processCommitFailure),
   (.done, .processCommitFailure)]

/-- `ConsensusLeader::CheckState`. -/
def checkState (state : State) (action : Action) : Bool :=
  decide ((state, action) ∈ actionsForState)

/-- `ACTIONS_FOR_STATE` of `ConsensusLeader::CheckStateSubset`. -/
def subsetActionsForState : List (State × Action) :=
  [(.challengeDone, .processResponse),
   (.finalChallengeDone, .processFinalResponse)]

/-- `ConsensusLeader::CheckStateSubset`, on the subset's state. -/
def checkStateSubset (state : State) (action : Action) : Bool :=
  decide ((state, action) ∈ subsetActionsForState)

variable {Key Ip Point Hash Chal Resp Sig : Type}

/-- `ConsensusLeader::SetStateSubset`: back to `INITIAL`, or forward only. -/
def setStateSubset (s : ConsensusSubset Point Chal Resp Sig) (newState : State) :
    ConsensusSubset Point Chal Resp Sig :=
  if newState = .initial ∨ s.state.rank < newState.rank then { s with state := newState } else s

variable [Inhabited Point] [Inhabited Chal] [Inhabited Resp] [Inhabited Sig]
  (P : LeaderPrimitives Key Point Hash Chal Resp Sig) (cfg : LeaderConfig Key Ip)

/-- The leader's own commit points, one per subset. -/
def myCommits : List Point := (List.range cfg.numOfSubsets).map P.commitPoint

/-- The constructor followed by a successful `StartConsensus`: `ANNOUNCE_DONE`, with the leader's own
    commit counted, and a commit-window thread waiting when there is more than one subset. -/
def init (messageToCosign : Bytes) : ConsensusLeader Point Chal Resp Sig where
  state := .announceDone
  commitCounter := 1
  commitMap := (List.replicate cfg.committee.length false).set cfg.myID true
  commitPointMap :=
    (List.replicate cfg.committee.length (List.replicate cfg.numOfSubsets default)).set cfg.myID
      (myCommits P cfg)
  commitFailureCounter := 0
  commitFailureMap := []
  consensusSubsets := []
  numSubsetsRunning := 0
  messageToCosign := messageToCosign
  cs1 := none
  b1 := []
  cs2 := none
  b2 := []
  subsetTimer := decide (1 < cfg.numOfSubsets)

/-! ## Building and starting the subsets -/

/-- `peersWhoCommitted`: the indices in the commit map, the leader's excepted, in order. -/
def peersWhoCommitted (commitMap : List Bool) (myID : ℕ) : List ℕ :=
  (List.range commitMap.length).filter fun index => commitMap.getD index false && index != myID

/-- A new subset `i` of `GenerateConsensusSubsets`, holding the leader's own commit. -/
def freshSubset (commitPointMap : List (List Point)) (state : State) (i : ℕ) :
    ConsensusSubset Point Chal Resp Sig where
  commitMap := (List.replicate cfg.committee.length false).set cfg.myID true
  commitPointMap := (List.replicate cfg.committee.length default).set cfg.myID
    ((commitPointMap.getD cfg.myID []).getD i default)
  commitPoints := [(commitPointMap.getD cfg.myID []).getD i default]
  responseCounter := 0
  challenge := default
  responseDataMap := List.replicate cfg.committee.length default
  responseMap := List.replicate cfg.committee.length false
  responseData := []
  collectiveSig := default
  state := state

/-- A committer's commit for subset `i` goes into the subset. -/
def addCommit (commitPointMap : List (List Point)) (i : ℕ) (s : ConsensusSubset Point Chal Resp Sig)
    (index : ℕ) : ConsensusSubset Point Chal Resp Sig :=
  let point := (commitPointMap.getD index []).getD i default
  { s with commitPointMap := s.commitPointMap.set index point,
           commitPoints := s.commitPoints ++ [point],
           commitMap := s.commitMap.set index true }

section Fill

variable (add : ConsensusSubset Point Chal Resp Sig → ℕ → ConsensusSubset Point Chal Resp Sig)

/-- The guards' pass over the committers for subset 0 in DS `GUARD_MODE`: a guard's commit goes in,
    until the subset holds `numForConsensus` members; the other committers are set aside in order.
    Returns the subset, its size, and the committers set aside. -/
def addGuardCommits (numOfDSGuard numForConsensus : ℕ) :
    ConsensusSubset Point Chal Resp Sig → ℕ → List ℕ →
      ConsensusSubset Point Chal Resp Sig × ℕ × List ℕ
  | s, subsetPeers, [] => (s, subsetPeers, [])
  | s, subsetPeers, index :: rest =>
    if index < numOfDSGuard then
      if subsetPeers + 1 = numForConsensus then (add s index, subsetPeers + 1, [])
      else addGuardCommits numOfDSGuard numForConsensus (add s index) (subsetPeers + 1) rest
    else
      let r := addGuardCommits numOfDSGuard numForConsensus s subsetPeers rest
      (r.1, r.2.1, index :: r.2.2)

/-- The fill from the committers set aside, up to `numForConsensus` members. -/
def addNonGuardCommits (numForConsensus : ℕ) :
    ConsensusSubset Point Chal Resp Sig → ℕ → List ℕ → ConsensusSubset Point Chal Resp Sig
  | s, _, [] => s
  | s, subsetPeers, index :: rest =>
    if numForConsensus ≤ subsetPeers + 1 then add s index
    else addNonGuardCommits numForConsensus (add s index) (subsetPeers + 1) rest

end Fill

/-- Subset `i` of `GenerateConsensusSubsets`, filled from the committers in the order `peers`: the
    guards first for subset 0 of a DS consensus in `GUARD_MODE`, otherwise the first
    `numForConsensus - 1` committers. -/
def buildSubset (L : ConsensusLeader Point Chal Resp Sig) (i : ℕ) (peers : List ℕ) :
    ConsensusSubset Point Chal Resp Sig :=
  let fresh := freshSubset cfg L.commitPointMap L.state i
  let add := addCommit L.commitPointMap i
  if cfg.isDS && cfg.guardMode && i == 0 then
    let r := addGuardCommits add cfg.numOfDSGuard cfg.numForConsensus fresh 1 peers
    if r.2.1 < cfg.numForConsensus then addNonGuardCommits add cfg.numForConsensus r.1 r.2.1 r.2.2
    else r.1
  else
    -- `peersWhoCommitted.at(j)` for `j < numForConsensus - 1`
    (peers.take (cfg.numForConsensus - 1)).foldl add fresh

/-- **`ConsensusLeader::GenerateConsensusSubsets`**: one subset when there are no more committers
    than `numForConsensus`, otherwise `m_numOfSubsets`; each starts in the leader's current state.
    The commit maps of the round are cleared. -/
def generateConsensusSubsets (L : ConsensusLeader Point Chal Resp Sig) (shuffle : Shuffle) :
    ConsensusLeader Point Chal Resp Sig :=
  let peers := peersWhoCommitted L.commitMap cfg.myID
  let numSubsets := if peers.length ≤ cfg.numForConsensus then 1 else cfg.numOfSubsets
  { L with consensusSubsets :=
             (List.range numSubsets).map fun i => buildSubset cfg L i (shuffle.order i peers),
           commitPointMap := [],
           commitMap := [] }

/-- The loop of `GenerateChallengeMessage`: each subset's challenge, from its aggregated commit and
    key. Stops at the first aggregated commit or challenge that is not initialized, and reports it. -/
def generateChallenge (messageToCosign : Bytes) :
    List (ConsensusSubset Point Chal Resp Sig) → List (ConsensusSubset Point Chal Resp Sig) × Bool
  | [] => ([], true)
  | s :: rest =>
    let aggregatedCommit := P.aggregateCommits s.commitPoints
    if !P.commitInitialized aggregatedCommit then (s :: rest, false)
    else
      let challenge := P.getChallenge messageToCosign aggregatedCommit (P.aggregateKeys s.commitMap)
      let s := { s with challenge := challenge }
      if !P.challengeInitialized s.challenge then (s :: rest, false)
      else
        let r := generateChallenge messageToCosign rest
        (s :: r.1, r.2)

/-- A subset as `StartConsensusSubsets` starts it: in the leader's new state, with the leader's own
    response to its challenge. -/
def startSubset (state : State) (index : ℕ) (s : ConsensusSubset Point Chal Resp Sig) :
    ConsensusSubset Point Chal Resp Sig :=
  let s := setStateSubset s state
  let r := P.response index s.challenge
  { s with responseData := s.responseData ++ [r],
           responseDataMap := s.responseDataMap.set cfg.myID r,
           responseMap := s.responseMap.set cfg.myID true,
           responseCounter := 1 }

/-- **`ConsensusLeader::StartConsensusSubsets`**: from `ANNOUNCE_DONE` to `CHALLENGE_DONE`, or from
    `COLLECTIVESIG_DONE` to `FINALCHALLENGE_DONE`; the challenges, then each subset started. A failed
    challenge leaves the leader in `ERROR`. -/
def startConsensusSubsets (L : ConsensusLeader Point Chal Resp Sig) :
    Bool × ConsensusLeader Point Chal Resp Sig :=
  let next : Option State :=
    if L.state = .announceDone then some .challengeDone
    else if L.state = .collectiveSigDone then some .finalChallengeDone
    else none
  match next with
  | none => (false, L)
  | some state =>
    let L := { L with state := state, numSubsetsRunning := L.consensusSubsets.length }
    let r := generateChallenge P L.messageToCosign L.consensusSubsets
    if !r.2 then (false, { L with consensusSubsets := r.1, state := .error })
    else (true, { L with consensusSubsets := r.1.mapIdx (startSubset P cfg state) })

/-! ## The handlers -/

/-- **`ConsensusLeader::ProcessMessageCommitCore`** for COMMIT and FINALCOMMIT: a backup's first
    commit, with one valid commit point per subset, is recorded; with one subset, the subsets are
    built and started when the counter reaches `numForConsensus` (with several, that is the waiting
    thread's task). -/
def processMessageCommitCore [DecidableEq Hash] [Inhabited Key] [Inhabited Ip] [DecidableEq Ip]
    (L : ConsensusLeader Point Chal Resp Sig) (backupID : ℕ) (commitInfo : List (Point × Hash))
    (fromPeer : Ip) (action : Action) : Bool × ConsensusLeader Point Chal Resp Sig :=
  if !checkState L.state action then (false, L)
  else if cfg.committee.length ≤ backupID then (false, L)
  else if (cfg.committee.getD backupID default).2 ≠ fromPeer then (false, L)
  else if commitInfo.length ≠ cfg.numOfSubsets then (false, L)
  else if L.commitMap.getD backupID false then (false, L)
  else if !commitInfo.all (fun ci => P.commitInitialized ci.1 && P.hashInitialized ci.2 &&
      decide (P.commitPointHash ci.1 = ci.2)) then (false, L)
  else
    let L := { L with commitPointMap := L.commitPointMap.set backupID (commitInfo.map Prod.fst),
                      commitMap := L.commitMap.set backupID true,
                      commitCounter := L.commitCounter + 1 }
    if 1 < cfg.numOfSubsets then (true, L)
    else if L.commitCounter = cfg.numForConsensus then
      -- one subset: the shuffle after it is never read
      (true, (startConsensusSubsets P cfg (generateConsensusSubsets cfg L .none)).2)
    else (true, L)

/-- **`ConsensusLeader::ProcessMessageCommitFailure`**: a backup's first COMMITFAILURE is recorded;
    the one past `m_numForConsensusFailure` puts the leader back to `INITIAL`. -/
def processMessageCommitFailure (L : ConsensusLeader Point Chal Resp Sig) (backupID : ℕ)
    (errorMsg : Bytes) : Bool × ConsensusLeader Point Chal Resp Sig :=
  if !checkState L.state .processCommitFailure then (false, L)
  else if cfg.committee.length ≤ backupID then (false, L)
  else if (L.commitFailureMap.lookup backupID).isSome then (false, L)
  else
    let L := { L with commitFailureCounter := L.commitFailureCounter + 1,
                      commitFailureMap := L.commitFailureMap ++ [(backupID, errorMsg)] }
    if L.commitFailureCounter = cfg.numForConsensusFailure + 1 then (true, { L with state := .initial })
    else (true, L)

/-- `SetStateSubset` on the subset at `subsetID`. -/
def setStateSubsetAt (L : ConsensusLeader Point Chal Resp Sig) (subsetID : ℕ) (newState : State) :
    ConsensusLeader Point Chal Resp Sig :=
  { L with consensusSubsets := L.consensusSubsets.modify subsetID fun s => setStateSubset s newState }

/-- **`ConsensusLeader::GenerateCollectiveSigMessage`** for the subset `s` at `subsetID`: the
    aggregated response and the collective signature over `m_messageToCosign`, checked; then the new
    announcement, when a generator is set, which replaces the message to co-sign. A failed check puts
    the subset in `ERROR`. -/
def generateCollectiveSigMessage [Inhabited Key] (L : ConsensusLeader Point Chal Resp Sig)
    (subsetID : ℕ) (s : ConsensusSubset Point Chal Resp Sig) :
    Bool × ConsensusLeader Point Chal Resp Sig :=
  let aggregatedResponse := P.aggregateResponses s.responseData
  if !P.responseInitialized aggregatedResponse then (false, setStateSubsetAt L subsetID .error)
  else
    let collectiveSig := P.aggregateSign s.challenge aggregatedResponse
    let L := { L with consensusSubsets :=
      L.consensusSubsets.modify subsetID fun s => { s with collectiveSig := collectiveSig } }
    if !P.multiSigVerify L.messageToCosign collectiveSig (P.aggregateKeys s.responseMap) then
      (false, setStateSubsetAt L subsetID .error)
    else
      match P.collSigAnnouncement with
      | none => (true, L)
      | some generate =>
        match generate L.messageToCosign with
        | none => (false, L)
        | some messageToCosign => (true, { L with messageToCosign := messageToCosign })

/-- **`ConsensusLeader::SubsetEnded`**: a subset that reached consensus resets the others to
    `INITIAL` and gives the leader its state; a failed one is counted off the running subsets (an
    `unsigned int`), and the last failure puts the leader in `ERROR`. -/
def subsetEnded (L : ConsensusLeader Point Chal Resp Sig) (subsetID : ℕ) :
    ConsensusLeader Point Chal Resp Sig :=
  match L.consensusSubsets[subsetID]? with
  | none => L
  | some s =>
    if s.state = .collectiveSigDone ∨ s.state = .done then
      { L with consensusSubsets := L.consensusSubsets.mapIdx fun i t =>
                 if i = subsetID then t else setStateSubset t .initial,
               state := s.state }
    else
      let running := (L.numSubsetsRunning + (2 ^ 32 - 1)) % 2 ^ 32
      if running = 0 then { L with numSubsetsRunning := running, state := .error }
      else { L with numSubsetsRunning := running }

/-- What the end of a round records: in the first round `CS1`, `B1`, the second-round message (the
    new message followed by `CS1` and `B1`) and the commits reset to the leader's own; in the final
    round `CS2` and `B2`. -/
def recordRound (L : ConsensusLeader Point Chal Resp Sig) (action : Action) (collectiveSig : Sig)
    (responseMap : List Bool) : ConsensusLeader Point Chal Resp Sig :=
  if action = .processResponse then
    { L with messageToCosign := L.messageToCosign ++ P.serializeSig collectiveSig ++
               setBitVector responseMap,
             cs1 := some collectiveSig,
             b1 := responseMap,
             commitMap := (List.replicate cfg.committee.length false).set cfg.myID true,
             commitPointMap := (List.replicate cfg.committee.length []).set cfg.myID (myCommits P cfg),
             commitCounter := 1,
             commitFailureCounter := 0,
             commitFailureMap := [] }
  else { L with cs2 := some collectiveSig, b2 := responseMap }

/-- The end of a round, once the collective signature of subset `subsetID` checked: the subset's and
    the leader's new state, the round's record, and the subset ends the round. After the first round
    of several subsets a commit-window thread waits again. -/
def endRound (L : ConsensusLeader Point Chal Resp Sig) (subsetID : ℕ)
    (s : ConsensusSubset Point Chal Resp Sig) (action : Action) (nextstate : State) :
    ConsensusLeader Point Chal Resp Sig :=
  let L := { setStateSubsetAt L subsetID nextstate with state := nextstate }
  let L := subsetEnded (recordRound P cfg L action (L.consensusSubsets.getD subsetID s).collectiveSig
    s.responseMap) subsetID
  { L with subsetTimer := L.subsetTimer ||
             (decide (L.state = .collectiveSigDone) && decide (1 < cfg.numOfSubsets)) }

/-- What the leader does once subset `subsetID` holds `numForConsensus` responses: the collective
    signature, and on success the end of the round. -/
def subsetReachedConsensus [Inhabited Key] (L : ConsensusLeader Point Chal Resp Sig) (subsetID : ℕ)
    (s : ConsensusSubset Point Chal Resp Sig) (action : Action) (nextstate : State) :
    Bool × ConsensusLeader Point Chal Resp Sig :=
  let r := generateCollectiveSigMessage P L subsetID s
  if !r.1 then (false, r.2)
  else (true, endRound P cfg r.2 subsetID s action nextstate)

/-- The loop of `ProcessMessageResponseCore` over the subsets, from the last one the message answers
    down: a subset that is collecting, in which the backup committed and has not answered, takes the
    backup's response if it verifies; the first to reach `numForConsensus` ends the loop. -/
def responseLoop [Inhabited Key] [Inhabited Ip] (backupID : ℕ) (subsetInfo : List Resp)
    (action : Action) (nextstate : State) :
    ConsensusLeader Point Chal Resp Sig → List ℕ → Bool × ConsensusLeader Point Chal Resp Sig
  | L, [] => (true, L)
  | L, subsetID :: rest =>
    match L.consensusSubsets[subsetID]? with
    | none => responseLoop backupID subsetInfo action nextstate L rest
    | some s =>
      let response := subsetInfo.getD subsetID default
      if !checkStateSubset s.state action then responseLoop backupID subsetInfo action nextstate L rest
      else if s.responseDataMap.length ≤ backupID then
        responseLoop backupID subsetInfo action nextstate L rest
      else if !s.commitMap.getD backupID false then
        responseLoop backupID subsetInfo action nextstate L rest
      else if s.responseMap.getD backupID false then
        responseLoop backupID subsetInfo action nextstate L rest
      else if !P.verifyResponse response s.challenge (cfg.pubKey backupID)
          (s.commitPointMap.getD backupID default) then
        responseLoop backupID subsetInfo action nextstate L rest
      else if !checkState L.state action then (false, L)
      else
        let s := { s with responseData := s.responseData ++ [response],
                          responseDataMap := s.responseDataMap.set backupID response,
                          responseMap := s.responseMap.set backupID true,
                          responseCounter := s.responseCounter + 1 }
        let L := { L with consensusSubsets := L.consensusSubsets.set subsetID s }
        if s.responseCounter = cfg.numForConsensus then
          subsetReachedConsensus P cfg L subsetID s action nextstate
        else responseLoop backupID subsetInfo action nextstate L rest

/-- **`ConsensusLeader::ProcessMessageResponseCore`** for RESPONSE and FINALRESPONSE. -/
def processMessageResponseCore [Inhabited Key] [Inhabited Ip] [DecidableEq Ip]
    (L : ConsensusLeader Point Chal Resp Sig) (backupID : ℕ) (subsetInfo : List Resp) (fromPeer : Ip)
    (action : Action) (nextstate : State) : Bool × ConsensusLeader Point Chal Resp Sig :=
  if !checkState L.state action then (false, L)
  else if cfg.committee.length ≤ backupID then (false, L)
  else if (cfg.committee.getD backupID default).2 ≠ fromPeer then (false, L)
  else if L.consensusSubsets.length < subsetInfo.length then (false, L)
  else if subsetInfo.isEmpty then (false, L)
  else responseLoop P cfg backupID subsetInfo action nextstate L (List.range subsetInfo.length).reverse

/-- The detached commit-window thread, once its window closes: with too few commits the leader is
    in `ERROR`, otherwise the subsets are built and started. -/
def subsetTimerFires (L : ConsensusLeader Point Chal Resp Sig) (shuffle : Shuffle) :
    ConsensusLeader Point Chal Resp Sig :=
  if !L.subsetTimer then L
  else
    let L := { L with subsetTimer := false }
    if L.commitCounter < cfg.numForConsensus then { L with state := .error }
    else (startConsensusSubsets P cfg (generateConsensusSubsets cfg L shuffle)).2

end ConsensusLeader

/-- What reaches the leader, in the order it handles it: a parsed message, or the close of a
    commit-window thread's wait with the shuffles it draws. -/
inductive LeaderEvent (Point Hash Resp Ip : Type) where
  | commit (backupID : ℕ) (commitInfo : List (Point × Hash)) (fromPeer : Ip)
  | commitFailure (backupID : ℕ) (errorMsg : Bytes)
  | response (backupID : ℕ) (subsetInfo : List Resp) (fromPeer : Ip)
  | finalCommit (backupID : ℕ) (commitInfo : List (Point × Hash)) (fromPeer : Ip)
  | finalResponse (backupID : ℕ) (subsetInfo : List Resp) (fromPeer : Ip)
  | subsetTimer (shuffle : Shuffle)

namespace ConsensusLeader

variable {Key Ip Point Hash Chal Resp Sig : Type} [Inhabited Point] [Inhabited Chal]
  [Inhabited Resp] [Inhabited Sig] [Inhabited Key] [Inhabited Ip] [DecidableEq Ip] [DecidableEq Hash]
  (P : LeaderPrimitives Key Point Hash Chal Resp Sig) (cfg : LeaderConfig Key Ip)

/-- `ConsensusLeader::ProcessMessage`, and the commit-window thread. -/
def step (L : ConsensusLeader Point Chal Resp Sig) :
    LeaderEvent Point Hash Resp Ip → ConsensusLeader Point Chal Resp Sig
  | .commit backupID commitInfo fromPeer =>
    (processMessageCommitCore P cfg L backupID commitInfo fromPeer .processCommit).2
  | .commitFailure backupID errorMsg => (processMessageCommitFailure cfg L backupID errorMsg).2
  | .response backupID subsetInfo fromPeer =>
    (processMessageResponseCore P cfg L backupID subsetInfo fromPeer .processResponse
      .collectiveSigDone).2
  | .finalCommit backupID commitInfo fromPeer =>
    (processMessageCommitCore P cfg L backupID commitInfo fromPeer .processFinalCommit).2
  | .finalResponse backupID subsetInfo fromPeer =>
    (processMessageResponseCore P cfg L backupID subsetInfo fromPeer .processFinalResponse .done).2
  | .subsetTimer shuffle => subsetTimerFires P cfg L shuffle

/-- The leader after a sequence of events. -/
def runLeader (L : ConsensusLeader Point Chal Resp Sig)
    (events : List (LeaderEvent Point Hash Resp Ip)) : ConsensusLeader Point Chal Resp Sig :=
  events.foldl (step P cfg) L

end ConsensusLeader

/-- The signer count of **`Validator::CheckBlockCosignature`**: the bitmap has the committee's size,
    and the members it marks are `NumForConsensus(B2.size())`. -/
def checkBlockCosignatureCount {Key : Type} (numForConsensusOf : ℕ → ℕ) (commKeys : List Key)
    (b2 : List Bool) : Bool :=
  if commKeys.length ≠ b2.length then false
  else ((commKeys.zip b2).filter fun kv => kv.2).length == numForConsensusOf b2.length

/-! ## List facts the invariants use -/

section ListFacts

variable {α : Type}

theorem getD_set_eq (l : List α) (i j : ℕ) (a d : α) :
    (l.set j a).getD i d = if i = j ∧ j < l.length then a else l.getD i d := by
  simp only [List.getD_eq_getElem?_getD, List.getElem?_set]
  by_cases hij : j = i
  · subst hij
    by_cases hl : j < l.length
    · simp [hl]
    · simp [hl]
  · simp [hij, Ne.symm hij]

theorem getD_replicate_false (n i : ℕ) : (List.replicate n false).getD i false = false := by
  simp only [List.getD_eq_getElem?_getD, List.getElem?_replicate]
  split_ifs <;> rfl

/-- Setting a clear bit counts one more. -/
theorem count_set_true {l : List Bool} {i : ℕ} (hi : i < l.length) (hclear : l.getD i false = false) :
    (l.set i true).count true = l.count true + 1 := by
  have hget : l[i] = false := by
    rw [List.getD_eq_getElem?_getD, List.getElem?_eq_getElem hi] at hclear
    exact hclear
  rw [List.count_set hi, hget]
  simp

theorem forall_mem_set {Q : α → Prop} {l : List α} (i : ℕ) {a : α} (hl : ∀ x ∈ l, Q x)
    (ha : Q a) : ∀ x ∈ l.set i a, Q x := by
  intro x hx
  rcases List.mem_or_eq_of_mem_set hx with hx | rfl
  · exact hl x hx
  · exact ha

theorem forall_mem_modify {Q : α → Prop} {l : List α} (i : ℕ) {f : α → α} (hl : ∀ x ∈ l, Q x)
    (hf : ∀ x ∈ l, Q (f x)) : ∀ x ∈ l.modify i f, Q x := by
  rw [List.modify_eq_set_getElem?]
  cases h : l[i]? with
  | none => exact hl
  | some a => exact forall_mem_set i hl (hf a (List.mem_of_getElem? h))

theorem getElem?_modify_of_getElem? {l : List α} {i : ℕ} {a : α} (f : α → α) (h : l[i]? = some a) :
    (l.modify i f)[i]? = some (f a) := by
  rw [List.getElem?_modify, h]
  simp

theorem forall_mem_mapIdx {β : Type} {Q : β → Prop} {l : List α} {f : ℕ → α → β}
    (hf : ∀ i, ∀ x ∈ l, Q (f i x)) : ∀ y ∈ l.mapIdx f, Q y := by
  intro y hy
  obtain ⟨i, h, rfl⟩ := List.mem_mapIdx.1 hy
  exact hf i _ (List.getElem_mem h)

end ListFacts

/-! ## What every subset keeps -/

namespace ConsensusLeader

section Invariant

variable {Key Ip Point Hash Chal Resp Sig : Type} [Inhabited Point] [Inhabited Chal]
  [Inhabited Resp] [Inhabited Sig] [Inhabited Key] [Inhabited Ip]
  {P : LeaderPrimitives Key Point Hash Chal Resp Sig} {cfg : LeaderConfig Key Ip}

variable (P cfg) in
/-- What every subset keeps: maps of the committee's size; a counter that is the number of bits set,
    so that no backup is counted twice; a bit set only for a backup of the subset's commit map whose
    response to the subset's challenge verified, or for the leader; and the leader's bit while the
    subset collects responses. -/
structure SubsetInv (s : ConsensusSubset Point Chal Resp Sig) : Prop where
  commitMap_length : s.commitMap.length = cfg.committee.length
  commitPointMap_length : s.commitPointMap.length = cfg.committee.length
  responseDataMap_length : s.responseDataMap.length = cfg.committee.length
  responseMap_length : s.responseMap.length = cfg.committee.length
  counter_eq : s.responseCounter = s.responseMap.count true
  committed : ∀ i, s.responseMap.getD i false = true → s.commitMap.getD i false = true
  verified : ∀ i, i ≠ cfg.myID → s.responseMap.getD i false = true →
    P.verifyResponse (s.responseDataMap.getD i default) s.challenge (cfg.pubKey i)
      (s.commitPointMap.getD i default) = true
  leader_bit : s.state = .challengeDone ∨ s.state = .finalChallengeDone →
    s.responseMap.getD cfg.myID false = true

variable (cfg) in
/-- A subset as `GenerateConsensusSubsets` leaves it: maps of the committee's size, the leader
    committed, no response yet, in the state `state`. -/
structure Fresh (state : State) (s : ConsensusSubset Point Chal Resp Sig) : Prop where
  commitMap_length : s.commitMap.length = cfg.committee.length
  commitPointMap_length : s.commitPointMap.length = cfg.committee.length
  responseDataMap_length : s.responseDataMap.length = cfg.committee.length
  responseMap_eq : s.responseMap = List.replicate cfg.committee.length false
  responseCounter_eq : s.responseCounter = 0
  state_eq : s.state = state
  leader_committed : s.commitMap.getD cfg.myID false = true


omit [Inhabited Chal] [Inhabited Sig] in
/-- A fresh subset outside the challenge states keeps the invariant: it has no bit set. -/
theorem Fresh.subsetInv {state : State} {s : ConsensusSubset Point Chal Resp Sig}
    (h : Fresh cfg state s) (hstate : state ≠ .challengeDone ∧ state ≠ .finalChallengeDone) :
    SubsetInv P cfg s := by
  have hclear : ∀ i, s.responseMap.getD i false = false := by
    intro i
    rw [h.responseMap_eq]
    exact getD_replicate_false _ i
  refine ⟨h.commitMap_length, h.commitPointMap_length, h.responseDataMap_length, ?_, ?_, ?_, ?_, ?_⟩
  · rw [h.responseMap_eq, List.length_replicate]
  · rw [h.responseCounter_eq, h.responseMap_eq, List.count_replicate]
    rfl
  · intro i hi
    rw [hclear i] at hi
    exact absurd hi Bool.false_ne_true
  · intro i _ hi
    rw [hclear i] at hi
    exact absurd hi Bool.false_ne_true
  · rintro (hs | hs) <;> rw [h.state_eq] at hs
    · exact absurd hs hstate.1
    · exact absurd hs hstate.2

omit [Inhabited Chal] [Inhabited Resp] [Inhabited Sig] [Inhabited Key] [Inhabited Ip] in
theorem Fresh.addCommit {state : State} {s : ConsensusSubset Point Chal Resp Sig}
    (h : Fresh cfg state s) (commitPointMap : List (List Point)) (i index : ℕ) :
    Fresh cfg state (addCommit commitPointMap i s index) := by
  refine ⟨?_, ?_, h.responseDataMap_length, h.responseMap_eq, h.responseCounter_eq, h.state_eq, ?_⟩
  · simp only [ConsensusLeader.addCommit, List.length_set, h.commitMap_length]
  · simp only [ConsensusLeader.addCommit, List.length_set, h.commitPointMap_length]
  · simp only [ConsensusLeader.addCommit, getD_set_eq]
    split_ifs
    · rfl
    · exact h.leader_committed

section Fill

variable {state : State}
  {add : ConsensusSubset Point Chal Resp Sig → ℕ → ConsensusSubset Point Chal Resp Sig}
  (hadd : ∀ s index, Fresh cfg state s → Fresh cfg state (add s index))
include hadd

omit [Inhabited Point] [Inhabited Chal] [Inhabited Resp] [Inhabited Sig] [Inhabited Key] [Inhabited Ip] in
theorem fresh_addGuardCommits (numOfDSGuard numForConsensus : ℕ) :
    ∀ (s : ConsensusSubset Point Chal Resp Sig) (subsetPeers : ℕ) (peers : List ℕ),
      Fresh cfg state s →
        Fresh cfg state (addGuardCommits add numOfDSGuard numForConsensus s subsetPeers peers).1
  | s, _, [], h => h
  | s, subsetPeers, index :: rest, h => by
    rw [addGuardCommits]
    split_ifs
    · exact hadd s index h
    · exact fresh_addGuardCommits numOfDSGuard numForConsensus _ _ rest (hadd s index h)
    · exact fresh_addGuardCommits numOfDSGuard numForConsensus s subsetPeers rest h

omit [Inhabited Point] [Inhabited Chal] [Inhabited Resp] [Inhabited Sig] [Inhabited Key] [Inhabited Ip] in
theorem fresh_addNonGuardCommits (numForConsensus : ℕ) :
    ∀ (s : ConsensusSubset Point Chal Resp Sig) (subsetPeers : ℕ) (peers : List ℕ),
      Fresh cfg state s → Fresh cfg state (addNonGuardCommits add numForConsensus s subsetPeers peers)
  | s, _, [], h => h
  | s, subsetPeers, index :: rest, h => by
    rw [addNonGuardCommits]
    split_ifs
    · exact hadd s index h
    · exact fresh_addNonGuardCommits numForConsensus _ _ rest (hadd s index h)

omit [Inhabited Point] [Inhabited Chal] [Inhabited Resp] [Inhabited Sig] [Inhabited Key] [Inhabited Ip] in
theorem fresh_foldl : ∀ (peers : List ℕ) (s : ConsensusSubset Point Chal Resp Sig),
    Fresh cfg state s → Fresh cfg state (peers.foldl add s)
  | [], _, h => h
  | index :: rest, s, h => fresh_foldl rest (add s index) (hadd s index h)

end Fill

omit [Inhabited Key] [Inhabited Ip] in
theorem fresh_freshSubset (hmy : cfg.myID < cfg.committee.length)
    (commitPointMap : List (List Point)) (state : State) (i : ℕ) :
    Fresh cfg state (freshSubset cfg commitPointMap state i : ConsensusSubset Point Chal Resp Sig) := by
  refine ⟨?_, ?_, ?_, rfl, rfl, rfl, ?_⟩
  · simp [freshSubset]
  · simp [freshSubset]
  · simp [freshSubset]
  · simp only [freshSubset, getD_set_eq, List.length_replicate]
    simp [hmy]

omit [Inhabited Key] [Inhabited Ip] in
/-- **Every subset `GenerateConsensusSubsets` builds is fresh**, in the leader's state. -/
theorem fresh_generateConsensusSubsets (hmy : cfg.myID < cfg.committee.length)
    (L : ConsensusLeader Point Chal Resp Sig) (shuffle : Shuffle) :
    ∀ s ∈ (generateConsensusSubsets cfg L shuffle).consensusSubsets, Fresh cfg L.state s := by
  intro s hs
  simp only [generateConsensusSubsets, List.mem_map, List.mem_range] at hs
  obtain ⟨i, -, rfl⟩ := hs
  have hadd : ∀ (s : ConsensusSubset Point Chal Resp Sig) index, Fresh cfg L.state s →
      Fresh cfg L.state (addCommit L.commitPointMap i s index) :=
    fun s index h => h.addCommit L.commitPointMap i index
  have hfresh : Fresh cfg L.state
      (freshSubset cfg L.commitPointMap L.state i : ConsensusSubset Point Chal Resp Sig) :=
    fresh_freshSubset hmy L.commitPointMap L.state i
  unfold buildSubset
  dsimp only
  split_ifs
  · exact fresh_addNonGuardCommits hadd _ _ _ _ (fresh_addGuardCommits hadd _ _ _ _ _ hfresh)
  · exact fresh_addGuardCommits hadd _ _ _ _ _ hfresh
  · exact fresh_foldl hadd _ _ hfresh

omit [Inhabited Point] [Inhabited Chal] [Inhabited Resp] [Inhabited Sig] [Inhabited Key] [Inhabited Ip] in
theorem Fresh.with_challenge {state : State} {s : ConsensusSubset Point Chal Resp Sig}
    (h : Fresh cfg state s) (c : Chal) : Fresh cfg state { s with challenge := c } :=
  ⟨h.commitMap_length, h.commitPointMap_length, h.responseDataMap_length, h.responseMap_eq,
    h.responseCounter_eq, h.state_eq, h.leader_committed⟩

omit [Inhabited Point] [Inhabited Chal] [Inhabited Resp] [Inhabited Sig] [Inhabited Key] [Inhabited Ip] in
/-- The challenges leave the subsets fresh. -/
theorem fresh_generateChallenge {state : State} (messageToCosign : Bytes) :
    ∀ (l : List (ConsensusSubset Point Chal Resp Sig)), (∀ s ∈ l, Fresh cfg state s) →
      ∀ s ∈ (generateChallenge P messageToCosign l).1, Fresh cfg state s
  | [], _ => by simp [generateChallenge]
  | s :: rest, h => by
    have hs := h s List.mem_cons_self
    have hrest : ∀ t ∈ rest, Fresh cfg state t := fun t ht => h t (List.mem_cons_of_mem _ ht)
    unfold generateChallenge
    dsimp only
    split_ifs
    · exact h
    · exact List.forall_mem_cons.2 ⟨hs.with_challenge _, hrest⟩
    · exact List.forall_mem_cons.2
        ⟨hs.with_challenge _, fresh_generateChallenge messageToCosign rest hrest⟩

omit [Inhabited Chal] [Inhabited Sig] in
/-- **A started subset keeps the invariant**: its only bit is the leader's, counted once. -/
theorem subsetInv_startSubset (hmy : cfg.myID < cfg.committee.length) {state₀ state : State}
    {s : ConsensusSubset Point Chal Resp Sig} (h : Fresh cfg state₀ s)
    (hrank : state₀.rank < state.rank) (index : ℕ) :
    SubsetInv P cfg (startSubset P cfg state index s) := by
  have hset : setStateSubset s state = { s with state := state } := by
    rw [setStateSubset, if_pos (Or.inr (h.state_eq ▸ hrank))]
  have hlen : cfg.myID < s.responseMap.length := by
    rw [h.responseMap_eq, List.length_replicate]
    exact hmy
  -- the only bit set is the leader's
  have hbit : ∀ i, (s.responseMap.set cfg.myID true).getD i false = true ↔ i = cfg.myID := by
    intro i
    rw [getD_set_eq, h.responseMap_eq, getD_replicate_false, List.length_replicate]
    simp [hmy]
  unfold startSubset
  rw [hset]
  refine ⟨h.commitMap_length, h.commitPointMap_length, ?_, ?_, ?_, ?_, ?_, ?_⟩
  · rw [List.length_set, h.responseDataMap_length]
  · rw [List.length_set, h.responseMap_eq, List.length_replicate]
  · have hclear : s.responseMap.getD cfg.myID false = false := by
      rw [h.responseMap_eq]
      exact getD_replicate_false _ _
    rw [count_set_true hlen hclear, h.responseMap_eq, List.count_replicate]
    rfl
  · intro i hi
    rw [(hbit i).1 hi]
    exact h.leader_committed
  · intro i hne hi
    exact absurd ((hbit i).1 hi) hne
  · intro _
    exact (hbit _).2 rfl

variable (P cfg) in
/-- `b` is the response map of a subset that reached consensus: one that keeps `SubsetInv`, holds
    `numForConsensus` responses, and has the leader's bit. -/
def Cosigned (subsets : List (ConsensusSubset Point Chal Resp Sig))
    (b : List Bool) : Prop :=
  ∃ s ∈ subsets, s.responseMap = b ∧ SubsetInv P cfg s ∧
    s.responseCounter = cfg.numForConsensus ∧ s.responseMap.getD cfg.myID false = true

variable (P cfg) in
/-- **The leader's invariant.** Every subset keeps `SubsetInv`; a commit-window thread only waits
    when there are several subsets, and outside the states where subsets collect or the consensus is
    done; and the state that ends a round publishes the map of a subset that reached consensus. -/
structure LeaderInv (L : ConsensusLeader Point Chal Resp Sig) :
    Prop where
  subsets : ∀ s ∈ L.consensusSubsets, SubsetInv P cfg s
  timer : L.subsetTimer = true → 1 < cfg.numOfSubsets ∧ L.state ≠ .challengeDone ∧
    L.state ≠ .finalChallengeDone ∧ L.state ≠ .done
  round1 : L.state = .collectiveSigDone → Cosigned P cfg L.consensusSubsets L.b1
  round2 : L.state = .done → Cosigned P cfg L.consensusSubsets L.b2

omit [Inhabited Chal] [Inhabited Sig] in
/-- A step that keeps the subsets and the published maps, has no more waiting threads than before,
    and keeps the state or falls back to `INITIAL` or `ERROR`, keeps the invariant. -/
theorem LeaderInv.of_quiet {L L' : ConsensusLeader Point Chal Resp Sig} (h : LeaderInv P cfg L)
    (hsubsets : L'.consensusSubsets = L.consensusSubsets) (hb1 : L'.b1 = L.b1) (hb2 : L'.b2 = L.b2)
    (htimer : L'.subsetTimer = true → L.subsetTimer = true)
    (hstate : L'.state = L.state ∨ L'.state = .initial ∨ L'.state = .error) :
    LeaderInv P cfg L' := by
  refine ⟨hsubsets ▸ h.subsets, ?_, ?_, ?_⟩
  · intro ht
    obtain ⟨hk, hcd, hfcd, hdone⟩ := h.timer (htimer ht)
    rcases hstate with hs | hs | hs <;> rw [hs]
    · exact ⟨hk, hcd, hfcd, hdone⟩
    · exact ⟨hk, by decide, by decide, by decide⟩
    · exact ⟨hk, by decide, by decide, by decide⟩
  · intro hs
    rcases hstate with h' | h' | h' <;> rw [h'] at hs
    · rw [hsubsets, hb1]
      exact h.round1 hs
    · cases hs
    · cases hs
  · intro hs
    rcases hstate with h' | h' | h' <;> rw [h'] at hs
    · rw [hsubsets, hb2]
      exact h.round2 hs
    · cases hs
    · cases hs

omit [Inhabited Chal] [Inhabited Sig] in
/-- **`StartConsensusSubsets` on fresh subsets keeps the invariant**, from any state but those where
    subsets collect or the consensus is done, and with no thread waiting. -/
theorem LeaderInv.start (hmy : cfg.myID < cfg.committee.length)
    {G : ConsensusLeader Point Chal Resp Sig} (hfresh : ∀ s ∈ G.consensusSubsets, Fresh cfg G.state s)
    (hstate : G.state ≠ .challengeDone ∧ G.state ≠ .finalChallengeDone ∧ G.state ≠ .done)
    (htimer : G.subsetTimer = false) :
    LeaderInv P cfg (startConsensusSubsets P cfg G).2 := by
  have hch := fresh_generateChallenge (P := P) G.messageToCosign _ hfresh
  have hold : ∀ s ∈ (generateChallenge P G.messageToCosign G.consensusSubsets).1,
      SubsetInv P cfg s := fun s hs => (hch s hs).subsetInv ⟨hstate.1, hstate.2.1⟩
  have hnowait : ∀ {L : ConsensusLeader Point Chal Resp Sig}, L.subsetTimer = G.subsetTimer →
      L.subsetTimer = true → 1 < cfg.numOfSubsets ∧ L.state ≠ .challengeDone ∧
        L.state ≠ .finalChallengeDone ∧ L.state ≠ .done := by
    intro L hL ht
    rw [hL, htimer] at ht
    cases ht
  unfold ConsensusLeader.startConsensusSubsets
  by_cases hA : G.state = .announceDone
  · -- the first round starts
    rw [if_pos hA]
    dsimp only
    split_ifs
    · exact ⟨hold, hnowait rfl, (fun hs => by cases hs), (fun hs => by cases hs)⟩
    · refine ⟨forall_mem_mapIdx fun i s hs => ?_, hnowait rfl, (fun hs => by cases hs),
        (fun hs => by cases hs)⟩
      exact subsetInv_startSubset hmy (hch s hs) (by rw [hA]; decide) i
  · by_cases hC : G.state = .collectiveSigDone
    · -- the final round starts
      rw [if_neg hA, if_pos hC]
      dsimp only
      split_ifs
      · exact ⟨hold, hnowait rfl, (fun hs => by cases hs), (fun hs => by cases hs)⟩
      · refine ⟨forall_mem_mapIdx fun i s hs => ?_, hnowait rfl, (fun hs => by cases hs),
          (fun hs => by cases hs)⟩
        exact subsetInv_startSubset hmy (hch s hs) (by rw [hC]; decide) i
    · -- the wrong state: nothing starts
      rw [if_neg hA, if_neg hC]
      exact ⟨fun s hs => (hfresh s hs).subsetInv ⟨hstate.1, hstate.2.1⟩, hnowait rfl,
        fun hs => absurd hs hC, fun hs => absurd hs hstate.2.2⟩

/-- Building the subsets and starting them keeps the invariant. -/
theorem LeaderInv.restart (hmy : cfg.myID < cfg.committee.length)
    {L : ConsensusLeader Point Chal Resp Sig}
    (hstate : L.state ≠ .challengeDone ∧ L.state ≠ .finalChallengeDone ∧ L.state ≠ .done)
    (htimer : L.subsetTimer = false) (shuffle : Shuffle) :
    LeaderInv P cfg (startConsensusSubsets P cfg (generateConsensusSubsets cfg L shuffle)).2 :=
  LeaderInv.start hmy (fresh_generateConsensusSubsets hmy L shuffle) hstate htimer

end Invariant

@[simp] theorem checkState_processCommit (state : State) :
    checkState state .processCommit = true ↔ state = .announceDone := by
  cases state <;> decide

@[simp] theorem checkState_processFinalCommit (state : State) :
    checkState state .processFinalCommit = true ↔ state = .collectiveSigDone := by
  cases state <;> decide

@[simp] theorem checkState_processResponse (state : State) :
    checkState state .processResponse = true ↔ state = .challengeDone := by
  cases state <;> decide

@[simp] theorem checkState_processFinalResponse (state : State) :
    checkState state .processFinalResponse = true ↔ state = .finalChallengeDone := by
  cases state <;> decide

@[simp] theorem checkStateSubset_processResponse (state : State) :
    checkStateSubset state .processResponse = true ↔ state = .challengeDone := by
  cases state <;> decide

@[simp] theorem checkStateSubset_processFinalResponse (state : State) :
    checkStateSubset state .processFinalResponse = true ↔ state = .finalChallengeDone := by
  cases state <;> decide

/-- The two rounds' response handlers: RESPONSE ends in `COLLECTIVESIG_DONE`, FINALRESPONSE in
    `DONE`. -/
def RoundAction (action : Action) (nextstate : State) : Prop :=
  (action = .processResponse ∧ nextstate = .collectiveSigDone) ∨
    (action = .processFinalResponse ∧ nextstate = .done)

/-! ## One lemma per handler -/

section Handlers

variable {Key Ip Point Hash Chal Resp Sig : Type} [Inhabited Point] [Inhabited Chal]
  [Inhabited Resp] [Inhabited Sig] [Inhabited Key] [Inhabited Ip] [DecidableEq Ip] [DecidableEq Hash]
  {P : LeaderPrimitives Key Point Hash Chal Resp Sig} {cfg : LeaderConfig Key Ip}

/-! ### Commits and the commit window -/

theorem not_collecting_of_checkState_commit {state : State} {action : Action}
    (haction : action = .processCommit ∨ action = .processFinalCommit)
    (h : checkState state action = true) :
    state ≠ .challengeDone ∧ state ≠ .finalChallengeDone ∧ state ≠ .done := by
  rcases haction with rfl | rfl
  · rw [(checkState_processCommit state).1 h]
    decide
  · rw [(checkState_processFinalCommit state).1 h]
    decide

/-- A leader that collects responses has not ended a round. -/
theorem not_roundEnd_of_collecting {state : State}
    (h : state = .challengeDone ∨ state = .finalChallengeDone) :
    state ≠ .collectiveSigDone ∧ state ≠ .done := by
  rcases h with rfl | rfl <;> decide

omit [Inhabited Chal] [Inhabited Sig] [DecidableEq Ip] [DecidableEq Hash] in
/-- No commit-window thread waits while the leader collects responses. -/
theorem LeaderInv.timer_eq_false {L : ConsensusLeader Point Chal Resp Sig} (h : LeaderInv P cfg L)
    (hstate : L.state = .challengeDone ∨ L.state = .finalChallengeDone) : L.subsetTimer = false := by
  cases ht : L.subsetTimer
  · rfl
  · obtain ⟨-, hcd, hfcd, -⟩ := h.timer ht
    rcases hstate with hs | hs
    · exact absurd hs hcd
    · exact absurd hs hfcd

/-- **A COMMIT or FINALCOMMIT keeps the invariant**: a recorded commit touches no subset, and with
    one subset the subsets are built and started from the round's waiting state. -/
theorem LeaderInv.commitCore (hmy : cfg.myID < cfg.committee.length)
    {L : ConsensusLeader Point Chal Resp Sig} (h : LeaderInv P cfg L) (backupID : ℕ)
    (commitInfo : List (Point × Hash)) (fromPeer : Ip) {action : Action}
    (haction : action = .processCommit ∨ action = .processFinalCommit) :
    LeaderInv P cfg (processMessageCommitCore P cfg L backupID commitInfo fromPeer action).2 := by
  unfold ConsensusLeader.processMessageCommitCore
  dsimp only
  -- the six checks: a refused commit leaves the leader as it was
  split
  · exact h
  rename_i hst
  split
  · exact h
  split
  · exact h
  split
  · exact h
  split
  · exact h
  split
  · exact h
  split
  · -- several subsets: the waiting thread starts them
    exact h.of_quiet rfl rfl rfl id (.inl rfl)
  rename_i hmany
  split
  · -- one subset, and enough commits: no thread waits, and no round runs
    have hstate := not_collecting_of_checkState_commit haction (by simpa using hst)
    refine LeaderInv.restart hmy ?_ ?_ Shuffle.none
    · exact hstate
    · cases ht : L.subsetTimer
      · rfl
      · exact absurd (h.timer ht).1 hmany
  · exact h.of_quiet rfl rfl rfl id (.inl rfl)

omit [DecidableEq Ip] [DecidableEq Hash] [Inhabited Chal] [Inhabited Sig] in
/-- A COMMITFAILURE touches no subset, and at most puts the leader back to `INITIAL`. -/
theorem LeaderInv.commitFailure {L : ConsensusLeader Point Chal Resp Sig} (h : LeaderInv P cfg L)
    (backupID : ℕ) (errorMsg : Bytes) :
    LeaderInv P cfg (processMessageCommitFailure cfg L backupID errorMsg).2 := by
  unfold ConsensusLeader.processMessageCommitFailure
  dsimp only
  split_ifs
  · exact h
  · exact h
  · exact h
  · exact h.of_quiet rfl rfl rfl id (.inr (.inl rfl))
  · exact h.of_quiet rfl rfl rfl id (.inl rfl)

omit [DecidableEq Ip] [DecidableEq Hash] in
/-- **The close of a commit window keeps the invariant**: the thread only waited outside the
    states where subsets collect or the consensus is done. -/
theorem LeaderInv.timerFires (hmy : cfg.myID < cfg.committee.length)
    {L : ConsensusLeader Point Chal Resp Sig} (h : LeaderInv P cfg L) (shuffle : Shuffle) :
    LeaderInv P cfg (subsetTimerFires P cfg L shuffle) := by
  unfold ConsensusLeader.subsetTimerFires
  dsimp only
  split_ifs with hidle
  · exact h
  · exact h.of_quiet rfl rfl rfl (fun ht => absurd ht Bool.false_ne_true) (.inr (.inr rfl))
  · have hwait := h.timer (by simpa using hidle)
    refine LeaderInv.restart hmy ?_ ?_ shuffle
    · exact hwait.2
    · rfl

/-! ### Responses -/

omit [Inhabited Chal] [Inhabited Sig] [DecidableEq Ip] [DecidableEq Hash] in
/-- The collective signature is not read by the subset's invariant. -/
theorem SubsetInv.with_collectiveSig {s : ConsensusSubset Point Chal Resp Sig}
    (h : SubsetInv P cfg s) (sig : Sig) : SubsetInv P cfg { s with collectiveSig := sig } :=
  ⟨h.commitMap_length, h.commitPointMap_length, h.responseDataMap_length, h.responseMap_length,
    h.counter_eq, h.committed, h.verified, h.leader_bit⟩

omit [Inhabited Chal] [Inhabited Sig] [DecidableEq Ip] [DecidableEq Hash] in
/-- A new state in which the subset does not collect keeps its invariant. -/
theorem SubsetInv.setState {s : ConsensusSubset Point Chal Resp Sig} (h : SubsetInv P cfg s)
    {state : State} (hstate : state ≠ .challengeDone ∧ state ≠ .finalChallengeDone) :
    SubsetInv P cfg (setStateSubset s state) := by
  unfold ConsensusLeader.setStateSubset
  split_ifs
  · exact ⟨h.commitMap_length, h.commitPointMap_length, h.responseDataMap_length,
      h.responseMap_length, h.counter_eq, h.committed, h.verified,
      fun hs => (hs.elim hstate.1 hstate.2).elim⟩
  · exact h

omit [Inhabited Point] [Inhabited Chal] [Inhabited Resp] [Inhabited Sig] in
@[simp] theorem setStateSubset_responseMap (s : ConsensusSubset Point Chal Resp Sig) (state : State) :
    (setStateSubset s state).responseMap = s.responseMap := by
  unfold ConsensusLeader.setStateSubset
  split_ifs <;> rfl

omit [Inhabited Point] [Inhabited Chal] [Inhabited Resp] [Inhabited Sig] in
@[simp] theorem setStateSubset_responseCounter (s : ConsensusSubset Point Chal Resp Sig)
    (state : State) : (setStateSubset s state).responseCounter = s.responseCounter := by
  unfold ConsensusLeader.setStateSubset
  split_ifs <;> rfl

omit [Inhabited Point] [Inhabited Chal] [Inhabited Resp] [Inhabited Sig] in
theorem setStateSubset_state_of_lt {s : ConsensusSubset Point Chal Resp Sig} {state : State}
    (h : s.state.rank < state.rank) : (setStateSubset s state).state = state := by
  unfold ConsensusLeader.setStateSubset
  rw [if_pos (.inr h)]

omit [Inhabited Chal] [Inhabited Sig] [DecidableEq Ip] [DecidableEq Hash] in
/-- **An accepted response keeps the subset's invariant**: the backup's bit was clear, so the
    counter stays the number of bits set; the backup committed to the subset, and its response
    verified. -/
theorem SubsetInv.accept {s : ConsensusSubset Point Chal Resp Sig} (h : SubsetInv P cfg s)
    {backupID : ℕ} {response : Resp} (hrange : ¬ s.responseDataMap.length ≤ backupID)
    (hcommitted : s.commitMap.getD backupID false = true)
    (hnew : s.responseMap.getD backupID false = false)
    (hverify : P.verifyResponse response s.challenge (cfg.pubKey backupID)
      (s.commitPointMap.getD backupID default) = true) :
    SubsetInv P cfg { s with responseData := s.responseData ++ [response],
                             responseDataMap := s.responseDataMap.set backupID response,
                             responseMap := s.responseMap.set backupID true,
                             responseCounter := s.responseCounter + 1 } := by
  have hlt : backupID < s.responseMap.length := by
    rw [h.responseMap_length, ← h.responseDataMap_length]
    omega
  refine ⟨h.commitMap_length, h.commitPointMap_length, ?_, ?_, ?_, ?_, ?_, ?_⟩
  · rw [List.length_set]
    exact h.responseDataMap_length
  · rw [List.length_set]
    exact h.responseMap_length
  · show s.responseCounter + 1 = (s.responseMap.set backupID true).count true
    rw [count_set_true hlt hnew, h.counter_eq]
  · intro i hi
    rw [getD_set_eq] at hi
    split_ifs at hi with hib
    · rw [hib.1]
      exact hcommitted
    · exact h.committed i hi
  · intro i hne hi
    show P.verifyResponse ((s.responseDataMap.set backupID response).getD i default) s.challenge
      (cfg.pubKey i) (s.commitPointMap.getD i default) = true
    rw [getD_set_eq] at hi ⊢
    by_cases hib : i = backupID
    · subst hib
      rw [if_pos ⟨rfl, by omega⟩]
      exact hverify
    · rw [if_neg fun hb => hib hb.1] at hi ⊢
      exact h.verified i hne hi
  · intro hs
    show (s.responseMap.set backupID true).getD cfg.myID false = true
    rw [getD_set_eq]
    split_ifs
    · rfl
    · exact h.leader_bit hs

omit [Inhabited Chal] [Inhabited Sig] [DecidableEq Ip] [DecidableEq Hash] in
/-- While the leader collects responses, replacing one subset by one that keeps `SubsetInv` keeps
    the invariant. -/
theorem LeaderInv.set_collecting {L : ConsensusLeader Point Chal Resp Sig} (h : LeaderInv P cfg L)
    (hstate : L.state = .challengeDone ∨ L.state = .finalChallengeDone)
    {t : ConsensusSubset Point Chal Resp Sig} (ht : SubsetInv P cfg t) (i : ℕ) :
    LeaderInv P cfg { L with consensusSubsets := L.consensusSubsets.set i t } := by
  have hne := not_roundEnd_of_collecting hstate
  exact ⟨forall_mem_set i h.subsets ht, h.timer, fun hs => absurd hs hne.1, fun hs => absurd hs hne.2⟩

omit [Inhabited Point] [Inhabited Chal] [Inhabited Resp] [Inhabited Sig] [DecidableEq Hash] in
/-- What `GenerateCollectiveSigMessage` changes: the collective signature of the subset at
    `subsetID` and, when a check fails, that subset's state, which becomes `ERROR`; on success the
    subsets only carry the signature. The leader's state, the published maps and the waiting thread
    stay. -/
theorem generateCollectiveSigMessage_spec {L : ConsensusLeader Point Chal Resp Sig} {subsetID : ℕ}
    {s : ConsensusSubset Point Chal Resp Sig} {r : Bool × ConsensusLeader Point Chal Resp Sig}
    (hr : generateCollectiveSigMessage P L subsetID s = r) :
    ∃ sig : Sig,
      (r.2.consensusSubsets =
          L.consensusSubsets.modify subsetID (fun t => { t with collectiveSig := sig }) ∨
        r.1 = false ∧
          (r.2.consensusSubsets =
              L.consensusSubsets.modify subsetID (fun t => setStateSubset t .error) ∨
            r.2.consensusSubsets =
              (L.consensusSubsets.modify subsetID fun t => { t with collectiveSig := sig }).modify
                subsetID fun t => setStateSubset t .error)) ∧
      r.2.state = L.state ∧ r.2.b1 = L.b1 ∧ r.2.b2 = L.b2 ∧ r.2.subsetTimer = L.subsetTimer := by
  subst hr
  refine ⟨P.aggregateSign s.challenge (P.aggregateResponses s.responseData), ?_⟩
  unfold ConsensusLeader.generateCollectiveSigMessage
  dsimp only
  split_ifs
  · -- no aggregated response
    exact ⟨.inr ⟨rfl, .inl rfl⟩, rfl, rfl, rfl, rfl⟩
  · -- the signature does not verify
    exact ⟨.inr ⟨rfl, .inr rfl⟩, rfl, rfl, rfl, rfl⟩
  · -- the signature verified; the new announcement may replace the message
    split
    · exact ⟨.inl rfl, rfl, rfl, rfl, rfl⟩
    · split
      · exact ⟨.inl rfl, rfl, rfl, rfl, rfl⟩
      · exact ⟨.inl rfl, rfl, rfl, rfl, rfl⟩

omit [Inhabited Point] [Inhabited Chal] [Inhabited Resp] [Inhabited Sig] [Inhabited Key] [Inhabited Ip] [DecidableEq Ip] [DecidableEq Hash] in
@[simp] theorem recordRound_consensusSubsets (L : ConsensusLeader Point Chal Resp Sig)
    (action : Action) (sig : Sig) (b : List Bool) :
    (recordRound P cfg L action sig b).consensusSubsets = L.consensusSubsets := by
  unfold ConsensusLeader.recordRound
  split_ifs <;> rfl

omit [Inhabited Point] [Inhabited Chal] [Inhabited Resp] [Inhabited Sig] [Inhabited Key] [Inhabited Ip] [DecidableEq Ip] [DecidableEq Hash] in
@[simp] theorem recordRound_subsetTimer (L : ConsensusLeader Point Chal Resp Sig)
    (action : Action) (sig : Sig) (b : List Bool) :
    (recordRound P cfg L action sig b).subsetTimer = L.subsetTimer := by
  unfold ConsensusLeader.recordRound
  split_ifs <;> rfl

omit [Inhabited Point] [Inhabited Chal] [Inhabited Resp] [Inhabited Sig] [Inhabited Key] [Inhabited Ip] [DecidableEq Ip] [DecidableEq Hash] in
theorem recordRound_b1 {L : ConsensusLeader Point Chal Resp Sig} {action : Action} {sig : Sig}
    {b : List Bool} (h : action = .processResponse) : (recordRound P cfg L action sig b).b1 = b := by
  rw [ConsensusLeader.recordRound, if_pos h]

omit [Inhabited Point] [Inhabited Chal] [Inhabited Resp] [Inhabited Sig] [Inhabited Key] [Inhabited Ip] [DecidableEq Ip] [DecidableEq Hash] in
theorem recordRound_b2 {L : ConsensusLeader Point Chal Resp Sig} {action : Action} {sig : Sig}
    {b : List Bool} (h : action ≠ .processResponse) : (recordRound P cfg L action sig b).b2 = b := by
  rw [ConsensusLeader.recordRound, if_neg h]

omit [Inhabited Point] [Inhabited Chal] [Inhabited Resp] [Inhabited Sig] in
/-- A subset that reached consensus ends the round: the others are reset, and the leader takes its
    state. -/
theorem subsetEnded_of_reached {L : ConsensusLeader Point Chal Resp Sig} {subsetID : ℕ}
    {w : ConsensusSubset Point Chal Resp Sig} (hget : L.consensusSubsets[subsetID]? = some w)
    (hw : w.state = .collectiveSigDone ∨ w.state = .done) :
    subsetEnded L subsetID =
      { L with consensusSubsets := L.consensusSubsets.mapIdx fun i t =>
                 if i = subsetID then t else setStateSubset t .initial,
               state := w.state } := by
  unfold ConsensusLeader.subsetEnded
  rw [hget]
  exact if_pos hw

omit [Inhabited Point] [Inhabited Chal] [Inhabited Resp] [Inhabited Sig] [Inhabited Key] [Inhabited Ip] [DecidableEq Ip] [DecidableEq Hash] in
variable (P cfg) in
/-- **What the end of a round does**, when the subset at `subsetID` moves on to the round's end
    state: every other subset is reset, the leader takes that state, a thread waits after the first
    round of several subsets, and the round's map is recorded. -/
theorem endRound_of_reached {L : ConsensusLeader Point Chal Resp Sig} {subsetID : ℕ}
    {u : ConsensusSubset Point Chal Resp Sig} (s : ConsensusSubset Point Chal Resp Sig)
    (action : Action) {nextstate : State} (hget : L.consensusSubsets[subsetID]? = some u)
    (hrank : u.state.rank < nextstate.rank)
    (hend : nextstate = .collectiveSigDone ∨ nextstate = .done) :
    (endRound P cfg L subsetID s action nextstate).consensusSubsets =
        (L.consensusSubsets.modify subsetID fun t => setStateSubset t nextstate).mapIdx
          (fun i t => if i = subsetID then t else setStateSubset t .initial) ∧
      (endRound P cfg L subsetID s action nextstate).state = nextstate ∧
      (endRound P cfg L subsetID s action nextstate).subsetTimer =
        (L.subsetTimer || (decide (nextstate = .collectiveSigDone) && decide (1 < cfg.numOfSubsets))) ∧
      (action = .processResponse → (endRound P cfg L subsetID s action nextstate).b1 = s.responseMap) ∧
      (action ≠ .processResponse → (endRound P cfg L subsetID s action nextstate).b2 = s.responseMap) := by
  have hw : (setStateSubset u nextstate).state = nextstate := setStateSubset_state_of_lt hrank
  have hget₁ := getElem?_modify_of_getElem? (fun t => setStateSubset t nextstate) hget
  unfold ConsensusLeader.endRound
  dsimp only
  rw [subsetEnded_of_reached (by rw [recordRound_consensusSubsets]; exact hget₁) (by rw [hw]; exact hend)]
  dsimp only
  refine ⟨?_, hw, ?_, fun ha => recordRound_b1 ha, fun ha => recordRound_b2 ha⟩
  · rw [recordRound_consensusSubsets]
    rfl
  · rw [recordRound_subsetTimer, hw]
    rfl

omit [Inhabited Chal] [Inhabited Sig] [DecidableEq Ip] [DecidableEq Hash] in
/-- **The end of a round publishes a subset that reached consensus**: the subset at `subsetID`
    holds `numForConsensus` responses and the leader's bit, and the round's map is its map. -/
theorem LeaderInv.roundEnd {L : ConsensusLeader Point Chal Resp Sig}
    (hsubsets : ∀ t ∈ L.consensusSubsets, SubsetInv P cfg t) (hidle : L.subsetTimer = false)
    {subsetID : ℕ} {u : ConsensusSubset Point Chal Resp Sig} (s : ConsensusSubset Point Chal Resp Sig)
    (hget : L.consensusSubsets[subsetID]? = some u) (hmap : u.responseMap = s.responseMap)
    (hcount : u.responseCounter = cfg.numForConsensus)
    (hleader : u.responseMap.getD cfg.myID false = true)
    {action : Action} {nextstate : State} (hround : RoundAction action nextstate)
    (hrank : u.state.rank < nextstate.rank) :
    LeaderInv P cfg (endRound P cfg L subsetID s action nextstate) := by
  have hend : nextstate = .collectiveSigDone ∨ nextstate = .done := by
    rcases hround with ⟨-, rfl⟩ | ⟨-, rfl⟩
    · exact .inl rfl
    · exact .inr rfl
  have hnext : nextstate ≠ .challengeDone ∧ nextstate ≠ .finalChallengeDone := by
    rcases hend with rfl | rfl <;> decide
  obtain ⟨hsub, hstate, htimer, hb1, hb2⟩ := endRound_of_reached P cfg s action hget hrank hend
  have hmoved : ∀ t ∈ L.consensusSubsets.modify subsetID (fun t => setStateSubset t nextstate),
      SubsetInv P cfg t :=
    forall_mem_modify subsetID hsubsets fun t ht => (hsubsets t ht).setState hnext
  -- the subset that reached consensus stays in place
  have hmem : setStateSubset u nextstate ∈ (endRound P cfg L subsetID s action nextstate).consensusSubsets := by
    rw [hsub]
    apply List.mem_of_getElem?
    rw [List.getElem?_mapIdx, getElem?_modify_of_getElem? _ hget]
    simp
  have hcos : Cosigned P cfg (endRound P cfg L subsetID s action nextstate).consensusSubsets
      s.responseMap := by
    unfold ConsensusLeader.Cosigned
    refine ⟨_, hmem, ?_, (hsubsets u (List.mem_of_getElem? hget)).setState hnext, ?_, ?_⟩
    · rw [setStateSubset_responseMap, hmap]
    · rw [setStateSubset_responseCounter, hcount]
    · rw [setStateSubset_responseMap]
      exact hleader
  refine ⟨?_, ?_, ?_, ?_⟩
  · -- the other subsets are reset to `INITIAL`
    rw [hsub]
    refine forall_mem_mapIdx fun i t ht => ?_
    split_ifs
    · exact hmoved t ht
    · exact (hmoved t ht).setState (by decide)
  · intro ht
    rw [htimer, hidle, Bool.false_or, Bool.and_eq_true, decide_eq_true_eq, decide_eq_true_eq] at ht
    rw [hstate, ht.1]
    exact ⟨ht.2, by decide, by decide, by decide⟩
  · intro hs
    rw [hstate] at hs
    have ha : action = .processResponse := by
      rcases hround with ⟨ha, -⟩ | ⟨-, rfl⟩
      · exact ha
      · cases hs
    rw [hb1 ha]
    exact hcos
  · intro hs
    rw [hstate] at hs
    have ha : action ≠ .processResponse := by
      rcases hround with ⟨-, rfl⟩ | ⟨ha, -⟩
      · cases hs
      · rw [ha]
        decide
    rw [hb2 ha]
    exact hcos

omit [Inhabited Chal] [Inhabited Sig] [DecidableEq Ip] [DecidableEq Hash] in
/-- **A subset that reached consensus keeps the invariant**: a failed collective signature only
    marks the subset `ERROR`, and a good one ends the round. -/
theorem LeaderInv.reached {L : ConsensusLeader Point Chal Resp Sig} (h : LeaderInv P cfg L)
    (hstate : L.state = .challengeDone ∨ L.state = .finalChallengeDone) {subsetID : ℕ}
    {s : ConsensusSubset Point Chal Resp Sig} (hget : L.consensusSubsets[subsetID]? = some s)
    (hcount : s.responseCounter = cfg.numForConsensus)
    (hcollect : s.state = .challengeDone ∨ s.state = .finalChallengeDone) {action : Action}
    {nextstate : State} (hround : RoundAction action nextstate)
    (hrank : s.state.rank < nextstate.rank) :
    LeaderInv P cfg (subsetReachedConsensus P cfg L subsetID s action nextstate).2 := by
  have hidle := h.timer_eq_false hstate
  obtain ⟨sig, hsubs, hst, -, -, htimer⟩ :=
    generateCollectiveSigMessage_spec (rfl : generateCollectiveSigMessage P L subsetID s = _)
  have hsigned : ∀ t ∈ L.consensusSubsets.modify subsetID (fun t => { t with collectiveSig := sig }),
      SubsetInv P cfg t :=
    forall_mem_modify subsetID h.subsets fun t ht => (h.subsets t ht).with_collectiveSig sig
  unfold ConsensusLeader.subsetReachedConsensus
  dsimp only
  by_cases hok : (generateCollectiveSigMessage P L subsetID s).1 = true
  · -- the signature checked: the round ends
    rw [if_neg (by simp [hok])]
    have hsub := hsubs.resolve_right fun hf => by rw [hok] at hf; cases hf.1
    have hget' : (generateCollectiveSigMessage P L subsetID s).2.consensusSubsets[subsetID]? =
        some { s with collectiveSig := sig } := by
      rw [hsub]
      exact getElem?_modify_of_getElem? _ hget
    exact LeaderInv.roundEnd (by rw [hsub]; exact hsigned) (by rw [htimer]; exact hidle) s hget'
      rfl hcount ((h.subsets s (List.mem_of_getElem? hget)).leader_bit hcollect) hround hrank
  · -- a failed check marks the subset `ERROR`; the leader still collects
    rw [if_pos (by simpa using hok)]
    refine ⟨?_, fun ht => ?_, fun hs => ?_, fun hs => ?_⟩
    · rcases hsubs with hsub | ⟨-, hsub | hsub⟩ <;> rw [hsub]
      · exact hsigned
      · exact forall_mem_modify subsetID h.subsets fun t ht => (h.subsets t ht).setState (by decide)
      · exact forall_mem_modify subsetID hsigned fun t ht => (hsigned t ht).setState (by decide)
    · rw [htimer, hidle] at ht
      cases ht
    · rw [hst] at hs
      exact absurd hs (not_roundEnd_of_collecting hstate).1
    · rw [hst] at hs
      exact absurd hs (not_roundEnd_of_collecting hstate).2

/-- A response is taken only while the leader and the subset collect, and the subset's next state
    comes after its current one. -/
theorem RoundAction.collecting {action : Action} {nextstate state sstate : State}
    (hround : RoundAction action nextstate) (hL : checkState state action = true)
    (hs : checkStateSubset sstate action = true) :
    (state = .challengeDone ∨ state = .finalChallengeDone) ∧
      (sstate = .challengeDone ∨ sstate = .finalChallengeDone) ∧ sstate.rank < nextstate.rank := by
  rcases hround with ⟨rfl, rfl⟩ | ⟨rfl, rfl⟩
  · rw [(checkState_processResponse state).1 hL, (checkStateSubset_processResponse sstate).1 hs]
    decide
  · rw [(checkState_processFinalResponse state).1 hL,
      (checkStateSubset_processFinalResponse sstate).1 hs]
    decide

omit [Inhabited Chal] [Inhabited Sig] [DecidableEq Ip] [DecidableEq Hash] in
/-- **The loop over the subsets keeps the invariant**: a response is taken into a subset only while
    the leader and the subset collect, and the first subset to fill ends the round. -/
theorem LeaderInv.loop {action : Action} {nextstate : State} (hround : RoundAction action nextstate)
    (backupID : ℕ) (subsetInfo : List Resp) :
    ∀ (ids : List ℕ) (L : ConsensusLeader Point Chal Resp Sig), LeaderInv P cfg L →
      LeaderInv P cfg (responseLoop P cfg backupID subsetInfo action nextstate L ids).2
  | [], _, h => h
  | subsetID :: rest, L, h => by
    have ih := LeaderInv.loop hround backupID subsetInfo rest
    rw [ConsensusLeader.responseLoop]
    cases hget : L.consensusSubsets[subsetID]? with
    | none => exact ih L h
    | some s =>
      dsimp only
      -- the five checks on the subset pass the response on to the next subset
      split
      · exact ih L h
      rename_i hst
      split
      · exact ih L h
      rename_i hlen
      split
      · exact ih L h
      rename_i hcom
      split
      · exact ih L h
      rename_i hdup
      split
      · exact ih L h
      rename_i hver
      split
      · exact h
      rename_i hstate
      -- the response is taken: the leader and the subset collect
      obtain ⟨hcol, hscol, hrank⟩ :=
        hround.collecting (by simpa using hstate) (by simpa using hst)
      have hacc := (h.subsets s (List.mem_of_getElem? hget)).accept hlen
        (by simpa using hcom) (by simpa using hdup) (by simpa using hver)
      have hset := h.set_collecting hcol hacc subsetID
      split
      · -- the subset is full: the round may end
        rename_i hfull
        exact LeaderInv.reached hset hcol
          (List.getElem?_set_self (List.getElem?_eq_some_iff.1 hget).1) hfull hscol hround hrank
      · exact ih _ hset

omit [Inhabited Chal] [Inhabited Sig] [DecidableEq Hash] in
/-- **A RESPONSE or FINALRESPONSE keeps the invariant.** -/
theorem LeaderInv.responseCore {L : ConsensusLeader Point Chal Resp Sig} (h : LeaderInv P cfg L)
    (backupID : ℕ) (subsetInfo : List Resp) (fromPeer : Ip) {action : Action} {nextstate : State}
    (hround : RoundAction action nextstate) :
    LeaderInv P cfg
      (processMessageResponseCore P cfg L backupID subsetInfo fromPeer action nextstate).2 := by
  unfold ConsensusLeader.processMessageResponseCore
  split_ifs
  · exact h
  · exact h
  · exact h
  · exact h
  · exact h
  · exact LeaderInv.loop hround backupID subsetInfo _ L h

/-! ### Runs -/

/-- **Every event keeps the invariant.** -/
theorem LeaderInv.next (hmy : cfg.myID < cfg.committee.length)
    {L : ConsensusLeader Point Chal Resp Sig} (h : LeaderInv P cfg L) :
    ∀ ev : LeaderEvent Point Hash Resp Ip, LeaderInv P cfg (step P cfg L ev)
  | .commit backupID commitInfo fromPeer => h.commitCore hmy backupID commitInfo fromPeer (.inl rfl)
  | .commitFailure backupID errorMsg => h.commitFailure backupID errorMsg
  | .response backupID subsetInfo fromPeer => h.responseCore backupID subsetInfo fromPeer (.inl ⟨rfl, rfl⟩)
  | .finalCommit backupID commitInfo fromPeer =>
    h.commitCore hmy backupID commitInfo fromPeer (.inr rfl)
  | .finalResponse backupID subsetInfo fromPeer =>
    h.responseCore backupID subsetInfo fromPeer (.inr ⟨rfl, rfl⟩)
  | .subsetTimer shuffle => h.timerFires hmy shuffle

omit [Inhabited Chal] [Inhabited Sig] [DecidableEq Ip] [DecidableEq Hash] in
/-- The leader after the announcement keeps the invariant: no subset yet, and the commit-window
    thread waits only with several subsets. -/
theorem leaderInv_init (messageToCosign : Bytes) :
    LeaderInv P cfg (init P cfg messageToCosign : ConsensusLeader Point Chal Resp Sig) := by
  have hstate : (init P cfg messageToCosign : ConsensusLeader Point Chal Resp Sig).state =
      .announceDone := rfl
  refine ⟨fun s hs => (by cases hs), fun ht => ⟨of_decide_eq_true ht, ?_⟩, (fun hs => by cases hs),
    (fun hs => by cases hs)⟩
  rw [hstate]
  decide

/-- **The run theorem**: every state a run of events reaches from a state with the invariant keeps
    it. -/
theorem leaderInv_runLeader (hmy : cfg.myID < cfg.committee.length)
    {L : ConsensusLeader Point Chal Resp Sig} (h : LeaderInv P cfg L) :
    ∀ events : List (LeaderEvent Point Hash Resp Ip), LeaderInv P cfg (runLeader P cfg L events)
  | [] => h
  | ev :: events => leaderInv_runLeader hmy (h.next hmy ev) events

/-! ## The published maps -/

/-- The validator's count of the keys paired with a set bit is the number of set bits, when the
    committee and the bitmap have one size. -/
theorem length_filter_zip_snd {α : Type} :
    ∀ (l : List α) (b : List Bool), l.length = b.length →
      ((l.zip b).filter fun kv => kv.2).length = b.count true
  | [], [], _ => rfl
  | _ :: l, x :: b, h => by
    have ih := length_filter_zip_snd l b (by simpa using h)
    cases x
    · simp [ih]
    · simp [ih]

variable (P cfg) in
/-- A co-signature map the leader may publish from `subsets`: one bit per committee member,
    `numForConsensus` of them set, the leader's among them; and the response map of one of the
    subsets, in which every other set bit belongs to a backup of the subset's commit map whose
    response to the subset's challenge verified. -/
def CosigMap (subsets : List (ConsensusSubset Point Chal Resp Sig)) (b : List Bool) : Prop :=
  b.length = cfg.committee.length ∧ b.count true = cfg.numForConsensus ∧
    b.getD cfg.myID false = true ∧
    ∃ s ∈ subsets, s.responseMap = b ∧ ∀ i, i ≠ cfg.myID → b.getD i false = true →
      s.commitMap.getD i false = true ∧
        P.verifyResponse (s.responseDataMap.getD i default) s.challenge (cfg.pubKey i)
          (s.commitPointMap.getD i default) = true

variable (P cfg) in
/-- What the leader publishes in a state: no subset counts a backup twice, and in the states that
    end a round the round's map is a `CosigMap`; then `B2` passes the signer count of
    `Validator::CheckBlockCosignature` for the committee. -/
def PublishesCosigMaps (L : ConsensusLeader Point Chal Resp Sig) : Prop :=
  (∀ s ∈ L.consensusSubsets, s.responseCounter = s.responseMap.count true) ∧
    (L.state = .collectiveSigDone → CosigMap P cfg L.consensusSubsets L.b1) ∧
    (L.state = .done → CosigMap P cfg L.consensusSubsets L.b2 ∧
      checkBlockCosignatureCount cfg.numForConsensusOf (cfg.committee.map Prod.fst) L.b2 = true)

omit [Inhabited Chal] [Inhabited Sig] [DecidableEq Ip] [DecidableEq Hash] in
/-- The map of a subset that reached consensus is a `CosigMap`. -/
theorem Cosigned.cosigMap {subsets : List (ConsensusSubset Point Chal Resp Sig)} {b : List Bool}
    (h : Cosigned P cfg subsets b) : CosigMap P cfg subsets b := by
  obtain ⟨s, hmem, rfl, hs, hcount, hleader⟩ := h
  refine ⟨hs.responseMap_length, by rw [← hs.counter_eq, hcount], hleader, s, hmem, rfl,
    fun i hne hi => ⟨hs.committed i hi, hs.verified i hne hi⟩⟩

omit [Inhabited Chal] [Inhabited Sig] [DecidableEq Ip] [DecidableEq Hash] in
/-- A `CosigMap` passes the signer count of `Validator::CheckBlockCosignature`. -/
theorem CosigMap.checkBlockCosignatureCount {subsets : List (ConsensusSubset Point Chal Resp Sig)}
    {b : List Bool} (h : CosigMap P cfg subsets b) :
    checkBlockCosignatureCount cfg.numForConsensusOf (cfg.committee.map Prod.fst) b = true := by
  obtain ⟨hlen, hcount, -⟩ := h
  have hsize : (cfg.committee.map Prod.fst).length = b.length := by
    rw [List.length_map, hlen]
  unfold Zilliqa.Consensus.checkBlockCosignatureCount
  rw [if_neg (not_not.2 hsize), length_filter_zip_snd _ _ hsize, hcount, hlen]
  exact beq_self_eq_true _

omit [Inhabited Chal] [Inhabited Sig] [DecidableEq Ip] [DecidableEq Hash] in
/-- The invariant gives what the leader publishes. -/
theorem LeaderInv.publishes {L : ConsensusLeader Point Chal Resp Sig} (h : LeaderInv P cfg L) :
    PublishesCosigMaps P cfg L := by
  refine ⟨fun s hs => (h.subsets s hs).counter_eq, fun hs => (h.round1 hs).cosigMap, fun hs => ?_⟩
  have hmap := (h.round2 hs).cosigMap
  exact ⟨hmap, hmap.checkBlockCosignatureCount⟩

theorem cosigMaps_of_runLeader (hmy : cfg.myID < cfg.committee.length) (messageToCosign : Bytes)
    (events : List (LeaderEvent Point Hash Resp Ip)) :
    PublishesCosigMaps P cfg
      (runLeader P cfg (init P cfg messageToCosign : ConsensusLeader Point Chal Resp Sig) events) :=
  (leaderInv_runLeader hmy (leaderInv_init messageToCosign) events).publishes

end Handlers

/-- Multi-signature functions under which every check passes. -/
def acceptingPrimitives : LeaderPrimitives ℕ ℕ ℕ ℕ ℕ ℕ where
  commitInitialized _ := true
  hashInitialized _ := true
  commitPointHash _ := 0
  commitPoint _ := 0
  aggregateCommits _ := 0
  aggregateKeys _ := 0
  getChallenge _ _ _ := 0
  challengeInitialized _ := true
  response _ _ := 0
  verifyResponse _ _ _ _ := true
  aggregateResponses _ := 0
  responseInitialized _ := true
  aggregateSign _ _ := 0
  multiSigVerify _ _ _ := true
  serializeSig _ := []
  collSigAnnouncement := none

/-- A committee of three with the leader first, one subset, and every member needed. -/
def threeMembers : LeaderConfig ℕ ℕ where
  myID := 0
  committee := [(0, 0), (1, 1), (2, 2)]
  numOfSubsets := 1
  isDS := false
  guardMode := false
  numOfDSGuard := 0
  numForConsensusOf n := n

/-- Both backups commit, then both respond: the first round ends. -/
def firstRound : List (LeaderEvent ℕ ℕ ℕ ℕ) :=
  [.commit 1 [(0, 0)] 1, .commit 2 [(0, 0)] 2, .response 1 [0] 1, .response 2 [0] 2]

theorem cosigMaps_of_runLeader_firstRound :
    threeMembers.myID < threeMembers.committee.length ∧
      PublishesCosigMaps acceptingPrimitives threeMembers
        (runLeader acceptingPrimitives threeMembers
          (init acceptingPrimitives threeMembers [] : ConsensusLeader ℕ ℕ ℕ ℕ) firstRound) :=
  ⟨by decide, cosigMaps_of_runLeader (by decide) [] firstRound⟩

example : (runLeader acceptingPrimitives threeMembers
    (init acceptingPrimitives threeMembers [] : ConsensusLeader ℕ ℕ ℕ ℕ) firstRound).state =
      .collectiveSigDone := by decide

end ConsensusLeader

end Zilliqa.Consensus
