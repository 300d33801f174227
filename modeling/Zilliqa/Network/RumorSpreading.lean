import Mathlib.Data.Finset.Basic
import Zilliqa.Lib.FinStore

/-!
# `Network.RumorSpreading` — the rumor state machine and the rumor holder of the gossip layer

Each rumor a node knows of has a `RumorStateMachine`: NEW while the node is still pushing it (the
B phase), KNOWN once most members have it (the C phase), and OLD when its rounds are used up. A
`RumorHolder` keeps one machine per rumor id; `receivedMessage` records what a peer advertised and
answers a first push of the round with a LAZY_PULL for each live rumor, and `advanceRound` moves
every machine that is not OLD by one round and advertises the live ones with LAZY_PUSH.

What one call can do to a rumor the holder already has is said once, by `Moves`, and everything
about whole runs is derived from it:

- `find_runCalls_of_old`, `lazy_runCalls_of_old`: an OLD rumor is never touched again and no
  LAZY_PUSH or LAZY_PULL carries its id.
- `rank_runCalls`: a rumor's state only moves forward, NEW, KNOWN, OLD.
- `bounded_runCalls`: with `maxRoundsTotal ≥ 0` and `maxRoundsInC ≥ 1`, every round counter stays in
  `[0, maxRoundsTotal]`.
- `old_runCalls_of_insert`: a holder with peers makes a rumor OLD at the latest after
  `maxRoundsTotal + 1` rounds following its insertion.
- `rumor_round_bounds_fail`: the last two need their side conditions: with no peers a rumor is
  never advanced, and with `maxRoundsInC = 0` a rumor first heard of in the C phase ends OLD with
  round counter `-1`.
-/

namespace Zilliqa

namespace RRS

/-- `NetworkConfig`: the size of the network and the three round limits. The constructor from the
    number of peers alone derives the limits from floating-point logarithms; the model takes the
    four numbers as given. -/
structure NetworkConfig where
  networkSize : ℕ
  maxRoundsInB : ℤ
  maxRoundsInC : ℤ
  maxRoundsTotal : ℤ
deriving DecidableEq, Repr

/-- `RumorStateMachine::State`, without `UNKNOWN` and `NUM_STATES`, which no machine holds. -/
inductive State
  | new
  | known
  | old
deriving DecidableEq, Repr

/-- Position of a state in the order NEW, KNOWN, OLD. -/
def State.rank : State → ℕ
  | .new => 0
  | .known => 1
  | .old => 2

/-- `RumorStateMachine`: the state, the total rounds and the rounds spent in the B and C phases,
    and the latest round each member reported for the rumor in this round. -/
structure RumorStateMachine where
  state : State
  rounds : ℤ
  roundsInB : ℤ
  roundsInC : ℤ
  memberRounds : FinStore ℤ ℤ
deriving DecidableEq

namespace RumorStateMachine

variable (cfg : NetworkConfig)

/-- `isOld`. -/
def isOld (m : RumorStateMachine) : Bool := m.state = .old

/-- `advanceToOld`. -/
def advanceToOld (m : RumorStateMachine) : RumorStateMachine :=
  { m with state := .old, memberRounds := FinStore.empty }

/-- `m_memberRounds[k]`, zero for a member that reported nothing. -/
def memberRound (mr : FinStore ℤ ℤ) (k : ℤ) : ℤ := (mr.find k).getD 0

/-- The count `numLess` of the loop of `advanceFromNew`: members behind our round. -/
def numLess (rounds : ℤ) (mr : FinStore ℤ ℤ) : ℕ :=
  (mr.keys.filter fun k => memberRound mr k < rounds).card

/-- The count `numGreaterOrEqual` of the same loop: members level or ahead, still in the B phase. -/
def numGreaterOrEqual (maxRoundsInB rounds : ℤ) (mr : FinStore ℤ ℤ) : ℕ :=
  (mr.keys.filter fun k => ¬ memberRound mr k < rounds ∧ ¬ memberRound mr k > maxRoundsInB).card

/-- Whether the same loop sets the state to KNOWN: a member level or ahead is past the B phase. -/
def seesKnown (maxRoundsInB rounds : ℤ) (mr : FinStore ℤ ℤ) : Bool :=
  decide (∃ k ∈ mr.keys, ¬ memberRound mr k < rounds ∧ memberRound mr k > maxRoundsInB)

/-- `advanceFromNew`. The loop over `m_memberRounds` only counts and sets the state, so its result
    does not depend on the map's order and is given by `numLess`, `numGreaterOrEqual` and
    `seesKnown`. -/
def advanceFromNew (membersInRound : Finset ℤ) (m : RumorStateMachine) : RumorStateMachine :=
  let m := { m with roundsInB := m.roundsInB + 1 }
  if m.rounds > cfg.maxRoundsTotal then
    -- the total is corrected before the switch to OLD
    advanceToOld { m with rounds := m.rounds - 1 }
  else
    -- members of this round that reported nothing count with round 0
    let mr := m.memberRounds.merge (FinStore.ofFinset membersInRound fun _ => 0)
    let state := if seesKnown cfg.maxRoundsInB m.rounds mr then State.known else m.state
    let roundsInB :=
      if numGreaterOrEqual cfg.maxRoundsInB m.rounds mr > numLess m.rounds mr then m.roundsInB + 1
      else m.roundsInB
    let state := if roundsInB > cfg.maxRoundsInB then State.known else state
    if state = .known then
      -- the round just ended counts for the C phase, not the B phase
      { m with state, roundsInB := roundsInB - 1, roundsInC := m.roundsInC + 1,
               memberRounds := FinStore.empty }
    else
      { m with state, roundsInB, memberRounds := FinStore.empty }

/-- `advanceFromKnown`. -/
def advanceFromKnown (m : RumorStateMachine) : RumorStateMachine :=
  let m := { m with roundsInC := m.roundsInC + 1, state := .known }
  if m.rounds > cfg.maxRoundsTotal ∨ m.roundsInC > cfg.maxRoundsInC then
    -- both counters are corrected before the switch to OLD
    advanceToOld { m with roundsInC := m.roundsInC - 1, rounds := m.rounds - 1 }
  else m

/-- The constructor `RumorStateMachine(networkConfigPtr)`: a rumor this node starts. -/
def init : RumorStateMachine := ⟨.new, 0, 0, 0, FinStore.empty⟩

/-- The constructor `RumorStateMachine(networkConfigPtr, fromMember, theirRound)`: a rumor first
    heard of from a peer that is at round `theirRound` with it. -/
def ofPeer (fromMember theirRound : ℤ) : RumorStateMachine :=
  if theirRound > cfg.maxRoundsTotal then advanceToOld init
  else if theirRound > cfg.maxRoundsInB then
    -- straight to the C phase, through `advanceFromKnown` with no round counted
    advanceFromKnown cfg init
  else { init with memberRounds := FinStore.empty.insert fromMember theirRound }

/-- `rumorReceived`: only a NEW rumor records the round a member reports. -/
def rumorReceived (memberId theirRound : ℤ) (m : RumorStateMachine) : RumorStateMachine :=
  if m.state = .new then
    -- `m_memberRounds[memberId]` creates a zero entry even when it is not raised
    let mine := memberRound m.memberRounds memberId
    { m with memberRounds := m.memberRounds.insert memberId (if mine < theirRound then theirRound else mine) }
  else m

/-- `advanceRound`: count the round, then move on from the current state. -/
def advanceRound (peersInCurrentRound : Finset ℤ) (m : RumorStateMachine) : RumorStateMachine :=
  match m.state with
  | .new => advanceFromNew cfg peersInCurrentRound { m with rounds := m.rounds + 1 }
  | .known => advanceFromKnown cfg { m with rounds := m.rounds + 1 }
  | .old => { m with rounds := m.rounds + 1 }

@[simp] theorem state_advanceToOld (m : RumorStateMachine) : (advanceToOld m).state = .old := rfl

@[simp] theorem rounds_advanceToOld (m : RumorStateMachine) : (advanceToOld m).rounds = m.rounds :=
  rfl

@[simp] theorem isOld_eq_false {m : RumorStateMachine} : m.isOld = false ↔ m.state ≠ .old := by
  simp [isOld]

@[simp] theorem isOld_eq_true {m : RumorStateMachine} : m.isOld = true ↔ m.state = .old := by
  simp [isOld]

/-- Past the total, the B-phase step puts the counter back and ends OLD. -/
theorem advanceFromNew_of_gt (P : Finset ℤ) (m : RumorStateMachine)
    (h : m.rounds > cfg.maxRoundsTotal) :
    advanceFromNew cfg P m =
      advanceToOld { m with roundsInB := m.roundsInB + 1, rounds := m.rounds - 1 } :=
  if_pos h

/-- Within the total, the B-phase step keeps the counter and either moves to KNOWN or keeps the
    state. -/
theorem advanceFromNew_of_le (P : Finset ℤ) (m : RumorStateMachine)
    (h : ¬ m.rounds > cfg.maxRoundsTotal) :
    (advanceFromNew cfg P m).rounds = m.rounds ∧
      ((advanceFromNew cfg P m).state = .known ∨ (advanceFromNew cfg P m).state = m.state) := by
  unfold advanceFromNew
  rw [if_neg h]
  dsimp only
  split_ifs <;> simp_all

/-- The C-phase step ends OLD with the counter put back, or stays KNOWN within the total. -/
theorem advanceFromKnown_cases (m : RumorStateMachine) :
    ((advanceFromKnown cfg m).state = .old ∧ (advanceFromKnown cfg m).rounds = m.rounds - 1) ∨
      ((advanceFromKnown cfg m).state = .known ∧ (advanceFromKnown cfg m).rounds = m.rounds ∧
        m.rounds ≤ cfg.maxRoundsTotal) := by
  unfold advanceFromKnown
  dsimp only
  split_ifs with h
  · exact Or.inl ⟨rfl, rfl⟩
  · exact Or.inr ⟨rfl, rfl, by omega⟩

theorem advanceRound_of_new (P : Finset ℤ) {m : RumorStateMachine} (hs : m.state = .new) :
    m.advanceRound cfg P = advanceFromNew cfg P { m with rounds := m.rounds + 1 } := by
  simp only [advanceRound, hs]

theorem advanceRound_of_known (P : Finset ℤ) {m : RumorStateMachine} (hs : m.state = .known) :
    m.advanceRound cfg P = advanceFromKnown cfg { m with rounds := m.rounds + 1 } := by
  simp only [advanceRound, hs]

/-- One round of a machine that is not OLD: its state does not move back, and it either ends OLD
    with its counter where it was, or stays out of OLD one round further and within
    `maxRoundsTotal`. -/
theorem advanceRound_cases (P : Finset ℤ) {m : RumorStateMachine} (hm : m.state ≠ .old) :
    m.state.rank ≤ (m.advanceRound cfg P).state.rank ∧
      (((m.advanceRound cfg P).state = .old ∧ (m.advanceRound cfg P).rounds = m.rounds) ∨
        ((m.advanceRound cfg P).state ≠ .old ∧ (m.advanceRound cfg P).rounds = m.rounds + 1 ∧
          m.rounds + 1 ≤ cfg.maxRoundsTotal)) := by
  cases hs : m.state with
  | new =>
    rw [advanceRound_of_new cfg P hs]
    by_cases hgt : m.rounds + 1 > cfg.maxRoundsTotal
    · rw [advanceFromNew_of_gt cfg P { m with rounds := m.rounds + 1 } hgt]
      exact ⟨Nat.zero_le _, Or.inl ⟨rfl, by simp⟩⟩
    · obtain ⟨hr, hst⟩ := advanceFromNew_of_le cfg P { m with rounds := m.rounds + 1 } hgt
      -- within the total the B-phase step never ends OLD
      have hne : (advanceFromNew cfg P { m with rounds := m.rounds + 1 }).state ≠ .old := by
        rcases hst with hst | hst <;> rw [hst] <;> simp [hs]
      exact ⟨Nat.zero_le _, Or.inr ⟨hne, hr, by omega⟩⟩
  | known =>
    rw [advanceRound_of_known cfg P hs]
    rcases advanceFromKnown_cases cfg { m with rounds := m.rounds + 1 } with
      ⟨hst, hr⟩ | ⟨hst, hr, hle⟩
    · rw [hst, hr]
      exact ⟨by decide, Or.inl ⟨rfl, by simp⟩⟩
    · rw [hst, hr]
      exact ⟨le_rfl, Or.inr ⟨by decide, rfl, hle⟩⟩
  | old => exact absurd hs hm

@[simp] theorem state_rumorReceived (memberId theirRound : ℤ) (m : RumorStateMachine) :
    (m.rumorReceived memberId theirRound).state = m.state := by
  unfold rumorReceived
  split_ifs <;> rfl

@[simp] theorem rounds_rumorReceived (memberId theirRound : ℤ) (m : RumorStateMachine) :
    (m.rumorReceived memberId theirRound).rounds = m.rounds := by
  unfold rumorReceived
  split_ifs <;> rfl

/-- A machine built from a peer's advertisement that is not OLD starts at round 0. -/
theorem rounds_ofPeer_of_ne_old {fromMember theirRound : ℤ}
    (h : (ofPeer cfg fromMember theirRound).state ≠ .old) :
    (ofPeer cfg fromMember theirRound).rounds = 0 := by
  unfold ofPeer at h ⊢
  split_ifs at h ⊢
  · exact absurd rfl h
  · rcases advanceFromKnown_cases cfg init with ⟨hst, -⟩ | ⟨-, hr, -⟩
    · exact absurd hst h
    · exact hr
  · rfl

/-- With `maxRoundsTotal ≥ 0` and `maxRoundsInC ≥ 1`, every machine built from a peer's
    advertisement starts at round 0. -/
theorem rounds_ofPeer (h0 : 0 ≤ cfg.maxRoundsTotal) (hC : 1 ≤ cfg.maxRoundsInC)
    (fromMember theirRound : ℤ) : (ofPeer cfg fromMember theirRound).rounds = 0 := by
  unfold ofPeer
  split_ifs
  · rfl
  · have hkeep : ¬ ((init.rounds > cfg.maxRoundsTotal) ∨ init.roundsInC + 1 > cfg.maxRoundsInC) := by
      simp only [init]
      omega
    unfold advanceFromKnown
    rw [if_neg hkeep]
    rfl
  · rfl

/-- The round counter is within `[0, maxRoundsTotal]`. -/
structure Bounded (m : RumorStateMachine) : Prop where
  nonneg : 0 ≤ m.rounds
  le_maxRoundsTotal : m.rounds ≤ cfg.maxRoundsTotal

/-- A machine that is not OLD is within `maxRoundsTotal`. -/
def Live (m : RumorStateMachine) : Prop := m.state ≠ .old → m.rounds ≤ cfg.maxRoundsTotal

/-- The rounds a machine can still spend before it is OLD. -/
def life (m : RumorStateMachine) : ℕ :=
  if m.state = .old then 0 else (cfg.maxRoundsTotal + 1 - m.rounds).toNat

theorem bounded_init (h0 : 0 ≤ cfg.maxRoundsTotal) : Bounded cfg init := ⟨le_rfl, h0⟩

theorem bounded_ofPeer (h0 : 0 ≤ cfg.maxRoundsTotal) (hC : 1 ≤ cfg.maxRoundsInC)
    (fromMember theirRound : ℤ) : Bounded cfg (ofPeer cfg fromMember theirRound) := by
  have hr := rounds_ofPeer cfg h0 hC fromMember theirRound
  exact ⟨hr ▸ le_rfl, hr ▸ h0⟩

theorem live_init (h0 : 0 ≤ cfg.maxRoundsTotal) : Live cfg init := fun _ => h0

theorem live_ofPeer (h0 : 0 ≤ cfg.maxRoundsTotal) (fromMember theirRound : ℤ) :
    Live cfg (ofPeer cfg fromMember theirRound) := fun hne => by
  rw [rounds_ofPeer_of_ne_old cfg hne]
  exact h0

/-- A fresh machine has at most `maxRoundsTotal + 1` rounds to live. -/
theorem life_le_of_rounds (m : RumorStateMachine) (hr : m.state ≠ .old → m.rounds = 0) :
    life cfg m ≤ (cfg.maxRoundsTotal + 1).toNat := by
  unfold life
  split_ifs with hold
  · exact Nat.zero_le _
  · rw [hr hold]
    omega

/-- A machine within the total that is not OLD has a round left. -/
theorem old_of_life_eq_zero {m : RumorStateMachine} (hl : Live cfg m) (h : life cfg m = 0) :
    m.state = .old := by
  by_contra hne
  have hle := hl hne
  simp only [life, if_neg hne] at h
  omega

/-- A round spends at least one of the rounds a machine has left. -/
theorem life_advanceRound (P : Finset ℤ) {m : RumorStateMachine} (hne : m.state ≠ .old)
    (hl : Live cfg m) : life cfg (m.advanceRound cfg P) + 1 ≤ life cfg m := by
  have hle := hl hne
  rcases (advanceRound_cases cfg P hne).2 with ⟨hold, -⟩ | ⟨hne', hr, hle'⟩
  · simp only [life, hold, if_pos, if_neg hne]
    omega
  · simp only [life, if_neg hne', if_neg hne, hr]
    omega

end RumorStateMachine

/-- `Message::Type`. -/
inductive MessageType
  | undefined
  | push
  | pull
  | emptyPush
  | emptyPull
  | forward
  | lazyPush
  | lazyPull
deriving DecidableEq, Repr

/-- `Message`: its type, the rumor it is about (`-1` for none) and the sender's round for it. -/
structure Message where
  type : MessageType
  rumorId : ℤ
  rounds : ℤ
deriving DecidableEq, Repr

/-- `RumorHolder`: the network configuration, the peers, the peers heard from in this round and the
    machine of every rumor. Neighbour selection is left out; it does not touch the machines. -/
structure RumorHolder where
  networkConfig : NetworkConfig
  peers : List ℤ
  peersInCurrentRound : Finset ℤ
  rumors : FinStore ℤ RumorStateMachine

namespace RumorHolder

/-- A holder with no rumors yet. -/
def init (networkConfig : NetworkConfig) (peers : List ℤ) : RumorHolder :=
  ⟨networkConfig, peers, ∅, FinStore.empty⟩

/-- The constructor `RumorHolder(peers, networkConfig, id)`: when the configuration's size is not
    the number of peers it only logs, and the holder is left with no peers. -/
def withConfig (peers : List ℤ) (networkConfig : NetworkConfig) : RumorHolder :=
  init networkConfig (if networkConfig.networkSize = peers.length then peers else [])

/-- One message of type `type` for every rumor whose machine satisfies `p`, carrying the machine's
    round. The source walks an `unordered_map`, so the messages come in no particular order. -/
def advertise (type : MessageType) (p : RumorStateMachine → Bool)
    (rumors : FinStore ℤ RumorStateMachine) : Multiset Message :=
  rumors.keys.val.filterMap fun rumorId =>
    (rumors.find rumorId).bind fun m => if p m then some ⟨type, rumorId, m.rounds⟩ else none

/-- `addRumor`: a new NEW machine, unless the rumor is already held. -/
def addRumor (rumorId : ℤ) (h : RumorHolder) : RumorHolder × Bool :=
  match h.rumors.find rumorId with
  | some _ => (h, false)
  | none => ({ h with rumors := h.rumors.insert rumorId RumorStateMachine.init }, true)

section Received

variable (sendResponseForLazyPush : Bool)

/-- `receivedMessage`: the sender's first push of the round is answered with a LAZY_PULL for each
    rumor that has started and is not OLD (EMPTY_PULL if there is none); then the advertised rumor
    is recorded, in a new machine when it is not held yet. `sendResponseForLazyPush` is
    `SEND_RESPONSE_FOR_LAZY_PUSH`. -/
def receivedMessage (message : Message) (fromPeer : ℤ) (h : RumorHolder) :
    RumorHolder × ℤ × Multiset Message :=
  let isNewPeer := fromPeer ∉ h.peersInCurrentRound
  let pullMessages :=
    if isNewPeer ∧ ((message.type = .lazyPush ∧ sendResponseForLazyPush = true) ∨
        message.type = .emptyPush) then
      let pulls := advertise .lazyPull (fun m => m.rounds > 0 && !m.isOld) h.rumors
      if pulls = 0 then {⟨.emptyPull, -1, 0⟩} else pulls
    else 0
  let rumors :=
    if message.rumorId ≥ 0 then
      match h.rumors.find message.rumorId with
      | some m => h.rumors.insert message.rumorId (m.rumorReceived fromPeer message.rounds)
      | none => h.rumors.insert message.rumorId
          (RumorStateMachine.ofPeer h.networkConfig fromPeer message.rounds)
    else h.rumors
  ({ h with peersInCurrentRound := insert fromPeer h.peersInCurrentRound, rumors },
   fromPeer, pullMessages)

end Received

/-- `advanceRound`: with no peers only the round state is cleared; otherwise every machine that
    is not OLD advances by a round, and those still not OLD are advertised with LAZY_PUSH
    (EMPTY_PUSH if there is none). -/
def advanceRound (h : RumorHolder) : RumorHolder × Multiset Message :=
  if h.peers = [] then ({ h with peersInCurrentRound := ∅ }, 0)
  else
    let rumors := h.rumors.map fun _ m =>
      if m.isOld then m else m.advanceRound h.networkConfig h.peersInCurrentRound
    let pushMessages := advertise .lazyPush (fun m => !m.isOld) rumors
    ({ h with peersInCurrentRound := ∅, rumors },
     if pushMessages = 0 then {⟨.emptyPush, -1, 0⟩} else pushMessages)

end RumorHolder

/-- A call to the holder's interface. -/
inductive HolderCall
  | addRumor (rumorId : ℤ)
  | receivedMessage (message : Message) (fromPeer : ℤ)
  | advanceRound
deriving DecidableEq

namespace RumorHolder

variable (sendResponseForLazyPush : Bool)

/-- One call: the holder after it and the messages it returns. -/
def step (h : RumorHolder) : HolderCall → RumorHolder × Multiset Message
  | .addRumor rumorId => ((h.addRumor rumorId).1, 0)
  | .receivedMessage message fromPeer =>
      let r := h.receivedMessage sendResponseForLazyPush message fromPeer
      (r.1, r.2.2)
  | .advanceRound => h.advanceRound

/-- A run of calls: the holder at the end and every message returned on the way. -/
def runCalls (h : RumorHolder) : List HolderCall → RumorHolder × Multiset Message
  | [] => (h, 0)
  | c :: cs =>
      let r := step sendResponseForLazyPush h c
      let rest := runCalls r.1 cs
      (rest.1, r.2 + rest.2)

@[simp] theorem networkConfig_step (h : RumorHolder) (c : HolderCall) :
    (step sendResponseForLazyPush h c).1.networkConfig = h.networkConfig := by
  cases c with
  | addRumor rumorId =>
    simp only [step, addRumor]
    split <;> rfl
  | receivedMessage message fromPeer => rfl
  | advanceRound =>
    simp only [step, advanceRound]
    split_ifs <;> rfl

@[simp] theorem peers_step (h : RumorHolder) (c : HolderCall) :
    (step sendResponseForLazyPush h c).1.peers = h.peers := by
  cases c with
  | addRumor rumorId =>
    simp only [step, addRumor]
    split <;> rfl
  | receivedMessage message fromPeer => rfl
  | advanceRound =>
    simp only [step, advanceRound]
    split_ifs <;> rfl

/-- `addRumor` only creates a machine for an id it does not hold. -/
theorem find_addRumor (rumorId r : ℤ) (h : RumorHolder) :
    (h.addRumor rumorId).1.rumors.find r =
      if r = rumorId ∧ h.rumors.find r = none then some RumorStateMachine.init
      else h.rumors.find r := by
  unfold addRumor
  split
  · rename_i m hm
    by_cases hr : r = rumorId
    · subst hr
      simp [hm]
    · simp [hr]
  · rename_i hm
    by_cases hr : r = rumorId
    · subst hr
      simp [hm]
    · simp [hr]

/-- `receivedMessage` touches only the advertised rumor, and only for an id that is not
    negative. -/
theorem find_receivedMessage (message : Message) (fromPeer r : ℤ) (h : RumorHolder) :
    (h.receivedMessage sendResponseForLazyPush message fromPeer).1.rumors.find r =
      if message.rumorId ≥ 0 ∧ message.rumorId = r then
        some (match h.rumors.find r with
          | some m => m.rumorReceived fromPeer message.rounds
          | none => RumorStateMachine.ofPeer h.networkConfig fromPeer message.rounds)
      else h.rumors.find r := by
  simp only [receivedMessage]
  by_cases hid : message.rumorId ≥ 0
  · by_cases hr : message.rumorId = r
    · subst hr
      rw [if_pos hid, if_pos ⟨hid, rfl⟩]
      split <;> simp
    · rw [if_pos hid, if_neg (fun hc => hr hc.2)]
      split <;> simp [FinStore.find_insert_ne _ _ (Ne.symm hr)]
  · rw [if_neg hid, if_neg (fun hc => hid hc.1)]

/-- A holder with no peers leaves its machines as they are; otherwise every machine that is not
    OLD advances by a round. -/
theorem find_advanceRound (r : ℤ) (h : RumorHolder) :
    h.advanceRound.1.rumors.find r =
      if h.peers = [] then h.rumors.find r
      else (h.rumors.find r).map fun m =>
        if m.isOld then m else m.advanceRound h.networkConfig h.peersInCurrentRound := by
  unfold advanceRound
  split_ifs <;> simp

/-- What one call can do to a rumor the holder already has: leave it, record a member's round, or
    advance it by a round, which only a holder with peers does and only to a machine that is not
    OLD. -/
inductive Moves (cfg : NetworkConfig) (peers : List ℤ) :
    RumorStateMachine → RumorStateMachine → Prop
  | stay (m : RumorStateMachine) : Moves cfg peers m m
  | received (m : RumorStateMachine) (memberId theirRound : ℤ) :
      Moves cfg peers m (m.rumorReceived memberId theirRound)
  | advanced (m : RumorStateMachine) (P : Finset ℤ) :
      peers ≠ [] → m.state ≠ .old → Moves cfg peers m (m.advanceRound cfg P)

/-- A rumor the holder has stays, and moves as `Moves` says. -/
theorem moves_step {h : RumorHolder} {r : ℤ} {m : RumorStateMachine}
    (hm : h.rumors.find r = some m) (c : HolderCall) :
    ∃ m', (step sendResponseForLazyPush h c).1.rumors.find r = some m' ∧
      Moves h.networkConfig h.peers m m' := by
  cases c with
  | addRumor rumorId => exact ⟨m, by simp [step, find_addRumor, hm], .stay m⟩
  | receivedMessage message fromPeer =>
    by_cases hc : message.rumorId ≥ 0 ∧ message.rumorId = r
    · obtain ⟨hid, rfl⟩ := hc
      exact ⟨_, by simp [step, find_receivedMessage, hid, hm], .received m fromPeer message.rounds⟩
    · exact ⟨m, by simp [step, find_receivedMessage, hc, hm], .stay m⟩
  | advanceRound =>
    by_cases hp : h.peers = []
    · exact ⟨m, by simp [step, find_advanceRound, hp, hm], .stay m⟩
    · by_cases hold : m.state = .old
      · exact ⟨m, by simp [step, find_advanceRound, hp, hm, hold], .stay m⟩
      · exact ⟨_, by simp [step, find_advanceRound, hp, hm, hold],
          .advanced m h.peersInCurrentRound hp hold⟩

/-- A rumor the holder did not have is, after a call, a machine one of the two constructors
    built. -/
theorem fresh_step {h : RumorHolder} {r : ℤ} {m' : RumorStateMachine}
    (hr : h.rumors.find r = none) (c : HolderCall)
    (hm' : (step sendResponseForLazyPush h c).1.rumors.find r = some m') :
    m' = RumorStateMachine.init ∨
      ∃ fromPeer theirRound, m' = RumorStateMachine.ofPeer h.networkConfig fromPeer theirRound := by
  cases c with
  | addRumor rumorId =>
    simp only [step, find_addRumor, hr] at hm'
    split_ifs at hm' with hc
    exact Or.inl (Option.some.inj hm').symm
  | receivedMessage message fromPeer =>
    simp only [step, find_receivedMessage, hr] at hm'
    split_ifs at hm' with hc
    exact Or.inr ⟨fromPeer, message.rounds, (Option.some.inj hm').symm⟩
  | advanceRound =>
    simp only [step, find_advanceRound, hr] at hm'
    -- with no peers nothing changes; otherwise only held machines are rewritten
    split_ifs at hm'
    simp at hm'

/-- Every message `advertise` builds has its type and is about a machine satisfying `p`. -/
theorem of_mem_advertise {type : MessageType} {p : RumorStateMachine → Bool}
    {rumors : FinStore ℤ RumorStateMachine} {msg : Message}
    (hmsg : msg ∈ advertise type p rumors) :
    msg.type = type ∧ ∃ m, rumors.find msg.rumorId = some m ∧ p m = true := by
  obtain ⟨rumorId, -, hsome⟩ := (Multiset.mem_filterMap _ _).1 hmsg
  obtain ⟨m, hm, hmsg'⟩ := Option.bind_eq_some_iff.1 hsome
  split_ifs at hmsg' with hp
  obtain rfl := Option.some.inj hmsg'
  exact ⟨rfl, m, hm, hp⟩

/-- Every LAZY_PUSH or LAZY_PULL a call returns is about a rumor that is not OLD: a pull about one
    the holder had before the call, a push about one it has after. -/
theorem advertised_step {h : RumorHolder} {c : HolderCall} {msg : Message}
    (hmsg : msg ∈ (step sendResponseForLazyPush h c).2)
    (hty : msg.type = .lazyPush ∨ msg.type = .lazyPull) :
    ∃ m, (h.rumors.find msg.rumorId = some m ∨
      (step sendResponseForLazyPush h c).1.rumors.find msg.rumorId = some m) ∧
      m.state ≠ .old := by
  cases c with
  | addRumor rumorId => simp [step] at hmsg
  | receivedMessage message fromPeer =>
    simp only [step, receivedMessage] at hmsg
    split_ifs at hmsg
    · -- the EMPTY_PULL answering a push when no rumor has started
      rw [Multiset.mem_singleton] at hmsg
      subst hmsg
      simp at hty
    · obtain ⟨-, m, hm, hp⟩ := of_mem_advertise hmsg
      simp only [Bool.and_eq_true, Bool.not_eq_eq_eq_not, Bool.not_true,
        RumorStateMachine.isOld_eq_false] at hp
      exact ⟨m, Or.inl hm, hp.2⟩
    · simp at hmsg
  | advanceRound =>
    simp only [step, advanceRound] at hmsg ⊢
    split_ifs at hmsg ⊢
    · simp at hmsg
    · -- the EMPTY_PUSH sent when no rumor is live
      rw [Multiset.mem_singleton] at hmsg
      subst hmsg
      simp at hty
    · obtain ⟨-, m, hm, hp⟩ := of_mem_advertise hmsg
      simp only [Bool.not_eq_eq_eq_not, Bool.not_true, RumorStateMachine.isOld_eq_false] at hp
      exact ⟨m, Or.inr hm, hp⟩

section Moves

variable {cfg : NetworkConfig} {peers : List ℤ} {m m' : RumorStateMachine}

/-- An OLD machine does not move. -/
theorem Moves.eq_of_old (hmv : Moves cfg peers m m') (hold : m.state = .old) : m' = m := by
  cases hmv with
  | stay => rfl
  | received memberId theirRound =>
    unfold RumorStateMachine.rumorReceived
    rw [if_neg (by rw [hold]; decide)]
  | advanced P _ hne => exact absurd hold hne

/-- A machine's state does not move back. -/
theorem Moves.rank_le (hmv : Moves cfg peers m m') : m.state.rank ≤ m'.state.rank := by
  cases hmv with
  | stay => exact le_rfl
  | received memberId theirRound => rw [RumorStateMachine.state_rumorReceived]
  | advanced P _ hne => exact (RumorStateMachine.advanceRound_cases cfg P hne).1

theorem Moves.bounded (hmv : Moves cfg peers m m') (hb : RumorStateMachine.Bounded cfg m) :
    RumorStateMachine.Bounded cfg m' := by
  cases hmv with
  | stay => exact hb
  | received memberId theirRound =>
    have hr := RumorStateMachine.rounds_rumorReceived memberId theirRound m
    exact ⟨hr ▸ hb.nonneg, hr ▸ hb.le_maxRoundsTotal⟩
  | advanced P _ hne =>
    rcases (RumorStateMachine.advanceRound_cases cfg P hne).2 with ⟨-, hr⟩ | ⟨-, hr, hle⟩
    · exact ⟨hr ▸ hb.nonneg, hr ▸ hb.le_maxRoundsTotal⟩
    · have h0 := hb.nonneg
      exact ⟨by omega, by omega⟩

theorem Moves.live (hmv : Moves cfg peers m m') (hl : RumorStateMachine.Live cfg m) :
    RumorStateMachine.Live cfg m' := by
  cases hmv with
  | stay => exact hl
  | received memberId theirRound =>
    intro hne
    rw [RumorStateMachine.rounds_rumorReceived]
    exact hl (by rwa [RumorStateMachine.state_rumorReceived] at hne)
  | advanced P _ hne =>
    intro hne'
    rcases (RumorStateMachine.advanceRound_cases cfg P hne).2 with ⟨hold, -⟩ | ⟨-, hr, hle⟩
    · exact absurd hold hne'
    · omega

/-- No move adds to the rounds a machine has left. -/
theorem Moves.life_le (hmv : Moves cfg peers m m') (hl : RumorStateMachine.Live cfg m) :
    RumorStateMachine.life cfg m' ≤ RumorStateMachine.life cfg m := by
  cases hmv with
  | stay => exact le_rfl
  | received memberId theirRound => simp [RumorStateMachine.life]
  | advanced P _ hne =>
    have := RumorStateMachine.life_advanceRound cfg P hne hl
    omega

theorem Moves.eq_of_old_of_reflTransGen (hrt : Relation.ReflTransGen (Moves cfg peers) m m')
    (hold : m.state = .old) : m' = m := by
  induction hrt with
  | refl => rfl
  | tail _ hmv ih =>
    rw [hmv.eq_of_old (by rw [ih]; exact hold), ih]

theorem Moves.rank_le_of_reflTransGen (hrt : Relation.ReflTransGen (Moves cfg peers) m m') :
    m.state.rank ≤ m'.state.rank := by
  induction hrt with
  | refl => exact le_rfl
  | tail _ hmv ih => exact ih.trans hmv.rank_le

end Moves

/-- Over a run, a rumor the holder has stays, and its machine moves by a chain of `Moves`. -/
theorem moves_runCalls {h : RumorHolder} {r : ℤ} {m : RumorStateMachine}
    (hm : h.rumors.find r = some m) (calls : List HolderCall) :
    ∃ m', (runCalls sendResponseForLazyPush h calls).1.rumors.find r = some m' ∧
      Relation.ReflTransGen (Moves h.networkConfig h.peers) m m' := by
  induction calls generalizing h m with
  | nil => exact ⟨m, hm, .refl⟩
  | cons c cs ih =>
    obtain ⟨m₁, hm₁, hmv⟩ := moves_step sendResponseForLazyPush hm c
    obtain ⟨m', hm', hrt⟩ := ih hm₁
    rw [networkConfig_step, peers_step] at hrt
    exact ⟨m', hm', .head hmv hrt⟩

/-- An OLD rumor is never touched again. -/
theorem find_runCalls_of_old {h : RumorHolder} {r : ℤ} {m : RumorStateMachine}
    (hm : h.rumors.find r = some m) (hold : m.state = .old) (calls : List HolderCall) :
    (runCalls sendResponseForLazyPush h calls).1.rumors.find r = some m := by
  obtain ⟨m', hm', hrt⟩ := moves_runCalls sendResponseForLazyPush hm calls
  rwa [Moves.eq_of_old_of_reflTransGen hrt hold] at hm'

/-- Once a rumor is OLD, no LAZY_PUSH or LAZY_PULL the holder returns carries its id. -/
theorem lazy_runCalls_of_old {h : RumorHolder} {r : ℤ} {m : RumorStateMachine}
    (hm : h.rumors.find r = some m) (hold : m.state = .old) (calls : List HolderCall)
    {msg : Message} (hmsg : msg ∈ (runCalls sendResponseForLazyPush h calls).2)
    (hid : msg.rumorId = r) : msg.type ≠ .lazyPush ∧ msg.type ≠ .lazyPull := by
  induction calls generalizing h with
  | nil => simp [runCalls] at hmsg
  | cons c cs ih =>
    have hm₁ := find_runCalls_of_old sendResponseForLazyPush hm hold [c]
    rcases Multiset.mem_add.1 hmsg with hmsg | hmsg
    · -- a message of this call: it would be about a machine that is not OLD
      by_contra hty
      have hty' : msg.type = .lazyPush ∨ msg.type = .lazyPull := by tauto
      obtain ⟨m₀, hm₀, hne⟩ := advertised_step sendResponseForLazyPush hmsg hty'
      rw [hid] at hm₀
      rcases hm₀ with hm₀ | hm₀
      · exact hne (Option.some.inj (hm₀.symm.trans hm) ▸ hold)
      · exact hne (Option.some.inj (hm₀.symm.trans hm₁) ▸ hold)
    · exact ih hm₁ hmsg

/-- A rumor's state only moves forward: NEW, KNOWN, OLD. -/
theorem rank_runCalls {h : RumorHolder} {r : ℤ} {m : RumorStateMachine}
    (hm : h.rumors.find r = some m) (calls : List HolderCall) :
    ∃ m', (runCalls sendResponseForLazyPush h calls).1.rumors.find r = some m' ∧
      m.state.rank ≤ m'.state.rank := by
  obtain ⟨m', hm', hrt⟩ := moves_runCalls sendResponseForLazyPush hm calls
  exact ⟨m', hm', Moves.rank_le_of_reflTransGen hrt⟩

/-- Every rumor's machine satisfies `P`. -/
def Holds (P : RumorStateMachine → Prop) (h : RumorHolder) : Prop :=
  ∀ r m, h.rumors.find r = some m → P m

/-- A property of machines that every move keeps and both constructors establish holds of every
    rumor after a call. -/
theorem holds_step {P : RumorStateMachine → Prop} {h : RumorHolder}
    (hmoves : ∀ m m', Moves h.networkConfig h.peers m m' → P m → P m')
    (hinit : P RumorStateMachine.init)
    (hpeer : ∀ fromPeer theirRound,
      P (RumorStateMachine.ofPeer h.networkConfig fromPeer theirRound))
    (hh : Holds P h) (c : HolderCall) : Holds P (step sendResponseForLazyPush h c).1 := by
  intro r m' hm'
  cases hr : h.rumors.find r with
  | none =>
    rcases fresh_step sendResponseForLazyPush hr c hm' with rfl | ⟨fromPeer, theirRound, rfl⟩
    · exact hinit
    · exact hpeer fromPeer theirRound
  | some m =>
    obtain ⟨m₁, hm₁, hmv⟩ := moves_step sendResponseForLazyPush hr c
    obtain rfl : m₁ = m' := Option.some.inj (hm₁.symm.trans hm')
    exact hmoves m m₁ hmv (hh r m hr)

/-- The same over a run. -/
theorem holds_runCalls {P : RumorStateMachine → Prop} {h : RumorHolder}
    (hmoves : ∀ m m', Moves h.networkConfig h.peers m m' → P m → P m')
    (hinit : P RumorStateMachine.init)
    (hpeer : ∀ fromPeer theirRound,
      P (RumorStateMachine.ofPeer h.networkConfig fromPeer theirRound))
    (hh : Holds P h) (calls : List HolderCall) :
    Holds P (runCalls sendResponseForLazyPush h calls).1 := by
  induction calls generalizing h with
  | nil => exact hh
  | cons c cs ih =>
    have hstep := holds_step sendResponseForLazyPush hmoves hinit hpeer hh c
    exact ih (by rw [networkConfig_step, peers_step]; exact hmoves)
      (by rw [networkConfig_step]; exact hpeer) hstep

theorem holds_init (P : RumorStateMachine → Prop) (cfg : NetworkConfig) (peers : List ℤ) :
    Holds P (init cfg peers) := by
  intro r m hm
  simp [init] at hm

/-- With `maxRoundsTotal ≥ 0` and `maxRoundsInC ≥ 1`, every round counter stays in
    `[0, maxRoundsTotal]` over any run from a holder with no rumors. -/
theorem bounded_runCalls (cfg : NetworkConfig) (peers : List ℤ) (h0 : 0 ≤ cfg.maxRoundsTotal)
    (hC : 1 ≤ cfg.maxRoundsInC) (calls : List HolderCall) :
    Holds (RumorStateMachine.Bounded cfg) (runCalls sendResponseForLazyPush (init cfg peers) calls).1 :=
  holds_runCalls sendResponseForLazyPush (fun _ _ hmv hb => hmv.bounded hb)
    (RumorStateMachine.bounded_init cfg h0) (RumorStateMachine.bounded_ofPeer cfg h0 hC)
    (holds_init _ cfg peers) calls

/-- A rumor added on a holder with one peer, then three rounds. -/
theorem bounded_runCalls_three :
    (0 : ℤ) ≤ (⟨2, 1, 1, 3⟩ : NetworkConfig).maxRoundsTotal ∧
      (1 : ℤ) ≤ (⟨2, 1, 1, 3⟩ : NetworkConfig).maxRoundsInC ∧
      Holds (RumorStateMachine.Bounded ⟨2, 1, 1, 3⟩)
        (runCalls true (init ⟨2, 1, 1, 3⟩ [1])
          [.addRumor 7, .advanceRound, .advanceRound, .advanceRound]).1 :=
  ⟨by decide, by decide, bounded_runCalls true ⟨2, 1, 1, 3⟩ [1] (by decide) (by decide) _⟩

/-- One call of a holder with peers: the rumor moves, and an `advanceRound` spends at least one of
    the rounds it has left. -/
theorem life_step {h : RumorHolder} (hp : h.peers ≠ []) {r : ℤ} {m : RumorStateMachine}
    (hm : h.rumors.find r = some m) (hl : RumorStateMachine.Live h.networkConfig m)
    (c : HolderCall) :
    ∃ m₁, (step sendResponseForLazyPush h c).1.rumors.find r = some m₁ ∧
      Moves h.networkConfig h.peers m m₁ ∧
      RumorStateMachine.life h.networkConfig m₁ ≤
        RumorStateMachine.life h.networkConfig m - if c = .advanceRound then 1 else 0 := by
  obtain ⟨m₁, hm₁, hmv⟩ := moves_step sendResponseForLazyPush hm c
  refine ⟨m₁, hm₁, hmv, ?_⟩
  split_ifs with hc
  · subst hc
    simp only [step, find_advanceRound, if_neg hp, hm, Option.map_some, Option.some.injEq] at hm₁
    subst hm₁
    by_cases hold : m.state = .old
    · simp [hold, RumorStateMachine.life]
    · have := RumorStateMachine.life_advanceRound h.networkConfig h.peersInCurrentRound hold hl
      simp only [RumorStateMachine.isOld_eq_true, hold, if_false]
      omega
  · exact hmv.life_le hl

/-- Over a run of a holder with peers, every `advanceRound` spends at least one of the rounds a
    rumor has left. -/
theorem life_runCalls {h : RumorHolder} (hp : h.peers ≠ []) {r : ℤ} {m : RumorStateMachine}
    (hm : h.rumors.find r = some m) (hl : RumorStateMachine.Live h.networkConfig m)
    (calls : List HolderCall) :
    ∃ m', (runCalls sendResponseForLazyPush h calls).1.rumors.find r = some m' ∧
      RumorStateMachine.Live h.networkConfig m' ∧
      RumorStateMachine.life h.networkConfig m' ≤
        RumorStateMachine.life h.networkConfig m - calls.count .advanceRound := by
  induction calls generalizing h m with
  | nil => exact ⟨m, hm, hl, by simp⟩
  | cons c cs ih =>
    obtain ⟨m₁, hm₁, hmv, hlife⟩ := life_step sendResponseForLazyPush hp hm hl c
    obtain ⟨m', hm', hl', hlife'⟩ :=
      ih (by rwa [peers_step]) hm₁ (by rw [networkConfig_step]; exact hmv.live hl)
    rw [networkConfig_step] at hl' hlife'
    refine ⟨m', hm', hl', ?_⟩
    rw [List.count_cons]
    split_ifs at hlife with hc
    · simp only [hc, beq_self_eq_true, if_true]
      omega
    · simp only [beq_iff_eq, hc, if_false, Nat.add_zero]
      omega

/-- A holder with peers makes a rumor OLD at the latest after `maxRoundsTotal + 1` rounds
    following the call that inserted it. -/
theorem old_runCalls_of_insert {h : RumorHolder} (hp : h.peers ≠ [])
    (h0 : 0 ≤ h.networkConfig.maxRoundsTotal) {r : ℤ} (hr : h.rumors.find r = none)
    (c : HolderCall) {m : RumorStateMachine}
    (hm : (step sendResponseForLazyPush h c).1.rumors.find r = some m) (calls : List HolderCall)
    (hn : (h.networkConfig.maxRoundsTotal + 1).toNat ≤ calls.count .advanceRound) :
    ∃ m', (runCalls sendResponseForLazyPush (step sendResponseForLazyPush h c).1 calls).1.rumors.find r =
      some m' ∧ m'.state = .old := by
  -- the inserted machine is fresh: within the total, and at round 0 unless it is OLD
  have hfresh := fresh_step sendResponseForLazyPush hr c hm
  have hl : RumorStateMachine.Live h.networkConfig m := by
    rcases hfresh with rfl | ⟨fromPeer, theirRound, rfl⟩
    · exact RumorStateMachine.live_init _ h0
    · exact RumorStateMachine.live_ofPeer _ h0 fromPeer theirRound
  have hlife : RumorStateMachine.life h.networkConfig m ≤ (h.networkConfig.maxRoundsTotal + 1).toNat := by
    refine RumorStateMachine.life_le_of_rounds _ m fun hne => ?_
    rcases hfresh with rfl | ⟨fromPeer, theirRound, rfl⟩
    · rfl
    · exact RumorStateMachine.rounds_ofPeer_of_ne_old _ hne
  obtain ⟨m', hm', hl', hlife'⟩ :=
    life_runCalls sendResponseForLazyPush (by rwa [peers_step]) hm
      (by rwa [networkConfig_step]) calls
  rw [networkConfig_step] at hl' hlife'
  exact ⟨m', hm', RumorStateMachine.old_of_life_eq_zero _ hl' (by omega)⟩

/-- A holder with no peers never advances a rumor, however many rounds pass. -/
theorem rumors_runCalls_advanceRound_of_nil {h : RumorHolder} (hp : h.peers = []) (n : ℕ) :
    (runCalls sendResponseForLazyPush h (List.replicate n .advanceRound)).1.rumors = h.rumors := by
  induction n generalizing h with
  | zero => rfl
  | succ n ih =>
    have hstep : (step sendResponseForLazyPush h .advanceRound).1 =
        { h with peersInCurrentRound := ∅ } := by
      simp [step, advanceRound, hp]
    show (runCalls sendResponseForLazyPush (step sendResponseForLazyPush h .advanceRound).1
      (List.replicate n .advanceRound)).1.rumors = h.rumors
    rw [hstep]
    exact ih (show ({ h with peersInCurrentRound := ∅ } : RumorHolder).peers = [] from hp)

end RumorHolder

/-- With no peers a rumor stays NEW at round 0 whatever the number of rounds, and with
    `maxRoundsInC = 0` a rumor first heard of in the C phase is OLD with round counter `-1`. -/
theorem rumor_round_bounds_fail :
    (∀ (sendResponseForLazyPush : Bool) (cfg : NetworkConfig) (rumorId : ℤ) (n : ℕ),
      (RumorHolder.runCalls sendResponseForLazyPush (RumorHolder.init cfg [])
        (.addRumor rumorId :: List.replicate n .advanceRound)).1.rumors.find rumorId =
        some RumorStateMachine.init) ∧
    ((RumorHolder.runCalls true (RumorHolder.init ⟨1, 0, 0, 1⟩ [1])
        [.receivedMessage ⟨.lazyPush, 7, 1⟩ 1]).1.rumors.find 7).map
        (fun m => (m.state, m.rounds)) = some (.old, -1) := by
  refine ⟨fun sendResponseForLazyPush cfg rumorId n => ?_, by decide⟩
  show (RumorHolder.runCalls sendResponseForLazyPush
    (RumorHolder.step sendResponseForLazyPush (RumorHolder.init cfg []) (.addRumor rumorId)).1
      (List.replicate n .advanceRound)).1.rumors.find rumorId = _
  rw [RumorHolder.rumors_runCalls_advanceRound_of_nil sendResponseForLazyPush
    (by rw [RumorHolder.peers_step]; rfl) n]
  simp [RumorHolder.step, RumorHolder.find_addRumor, RumorHolder.init]

end RRS

end Zilliqa
