import Zilliqa.Lib.Bimap
import Zilliqa.Lib.Codec
import Zilliqa.Network.RumorSpreading

/-!
# `Network.RumorManager` — the gossip tables of a node

`RumorManager` ties the rumor holder of `Network.RumorSpreading` to the messages themselves. Three
tables hold what the node knows: `m_rumorIdHashBimap` pairs each rumor id with the hash of its
message, `m_rumorHashRawMsgBimap` pairs a hash with the raw message once it has arrived, and the
deque `m_rumorRawMsgTimestamp` lists the raw entries with the time they arrived, oldest first, so
that `CleanUp` can drop the expired ones. A hash is learned from a LAZY_PUSH / LAZY_PULL or from a
local `AddRumor`; a raw message is accepted from a PUSH only for a learned hash.

- `timestamps_runCalls`: over every run, the deque lists exactly the raw entries, in the order they
  were added.
- `dispatched_nodup`: between two `CleanUp` calls no raw message is reported for dispatch twice.
- `announced_of_dispatched`: a message is reported for dispatch only if an earlier call of the run
  announced its hash.
- `hash_without_rumorId`: rumor ids are generated as `int64_t` but stored as `int`; after `2^32`
  announced hashes a new id collides with the first, its insertion is dropped, and `AddRumor` stores
  a raw message whose hash has no rumor id.
-/

namespace Zilliqa

namespace P2P

open Codec

/-- `RawBytes`. -/
abbrev RawBytes := List UInt8

/-- `COMMON_HASH_SIZE`. -/
def commonHashSize : ℕ := 32

/-- An `int64_t` converted to `int`: the value modulo `2^32`, read as signed. -/
def toInt32 (x : ℤ) : ℤ := (x + 2 ^ 31) % 2 ^ 32 - 2 ^ 31

/-- `Peer`, compared as the source compares peers: by address and listening port. -/
structure Peer where
  ipAddress : ℕ
  listenPortHost : ℕ
deriving DecidableEq, Repr

/-- `convertType`: the message type byte, `UNDEFINED` out of range. -/
def convertType (type : UInt8) : RRS.MessageType :=
  match type.toNat with
  | 1 => .push
  | 2 => .pull
  | 3 => .emptyPush
  | 4 => .emptyPull
  | 5 => .forward
  | 6 => .lazyPush
  | 7 => .lazyPull
  | _ => .undefined

/-- What the manager takes from outside: SHA-256, the check of a message's key and signature
    (the message without them, or nothing when the check fails), and the configuration constants
    `SIGN_VERIFY_EMPTY_MSGTYP`, `SIGN_VERIFY_NONEMPTY_MSGTYP`, `MAX_GOSSIP_MSG_SIZE_IN_BYTES` and
    `SEND_RESPONSE_FOR_LAZY_PUSH`. -/
structure GossipEnv where
  sha256 : RawBytes → RawBytes
  checkKeySig : RawBytes → Peer → Option RawBytes
  signVerifyEmptyMsgTyp : Bool
  signVerifyNonEmptyMsgTyp : Bool
  maxGossipMsgSizeInBytes : ℕ
  sendResponseForLazyPush : Bool

/-- `RumorManager`: the rumor holder, the peers with their ids, the three rumor tables, the peers
    waiting for a raw message, the messages buffered while rounds are stopped, the id generator,
    whether rounds are running, and the age after which a raw message is dropped. A deque entry
    names the raw entry its iterator points to by that entry's hash. -/
structure RumorManager where
  rumorHolder : RRS.RumorHolder
  peerIdPeerBimap : Bimap ℤ Peer
  peerIdSet : Finset ℤ
  rumorIdHashBimap : Bimap ℤ RawBytes
  rumorHashRawMsgBimap : Bimap RawBytes RawBytes
  hashesSubscriberMap : FinStore RawBytes (Finset Peer)
  bufferRawMsg : List RawBytes
  rumorRawMsgTimestamp : List (RawBytes × ℤ)
  rumorIdGenerator : ℤ
  continueRound : Bool
  rawMessageExpiryInMs : ℤ

namespace RumorManager

variable (env : GossipEnv)

/-- The constructor: nothing known, rounds stopped. -/
def create (holder : RRS.RumorHolder) : RumorManager :=
  ⟨holder, Bimap.empty, ∅, Bimap.empty, Bimap.empty, FinStore.empty, [], [], 0, false, 0⟩

/-- The peer table `Initialize` builds: the peers with a listening port, numbered from 1 in
    order. -/
def addPeers : List Peer → ℤ → Bimap ℤ Peer × Finset ℤ → Bimap ℤ Peer × Finset ℤ
  | [], _, acc => acc
  | p :: ps, peerIdGenerator, acc =>
    if p.listenPortHost ≠ 0 then
      addPeers ps (peerIdGenerator + 1)
        ((acc.1.insert (peerIdGenerator + 1) p).1, insert (peerIdGenerator + 1) acc.2)
    else addPeers ps peerIdGenerator acc

/-- `Initialize`: refused while rounds run; otherwise every table is cleared, the peers are
    numbered and a new holder is made over their ids (`holderConfig` is the configuration the
    holder's constructor computes). -/
def initTables (peers : List Peer) (holderConfig : RRS.NetworkConfig) (holderPeers : List ℤ)
    (rawMessageExpiryInMs : ℤ) (s : RumorManager) : RumorManager × Bool :=
  if s.continueRound then (s, false)
  else
    let table := addPeers peers 0 (Bimap.empty, ∅)
    ({ s with
        rumorIdGenerator := 0, peerIdPeerBimap := table.1, rumorIdHashBimap := Bimap.empty,
        peerIdSet := table.2, rumorHashRawMsgBimap := Bimap.empty, rumorRawMsgTimestamp := [],
        hashesSubscriberMap := FinStore.empty,
        rumorHolder := RRS.RumorHolder.init holderConfig holderPeers,
        rawMessageExpiryInMs := rawMessageExpiryInMs }, true)

/-- `StartRounds`, for the tables: rounds are running. -/
def startRounds (s : RumorManager) : RumorManager := { s with continueRound := true }

/-- `AddRumor`: a message of acceptable size is buffered while rounds are stopped; otherwise, when
    the node has peers and the hash is new, it gets the next rumor id, its raw entry and its
    timestamp, and the holder a new rumor. The id is stored as an `int` and the result of its
    insertion is not checked. -/
def addRumor (message : RawBytes) (now : ℤ) (s : RumorManager) : RumorManager × Bool :=
  if 0 < message.length ∧ message.length ≤ env.maxGossipMsgSizeInBytes then
    let hash := env.sha256 message
    if !s.continueRound then ({ s with bufferRawMsg := s.bufferRawMsg ++ [message] }, false)
    else if s.peerIdSet = ∅ then (s, true)
    else
      match s.rumorIdHashBimap.findRight hash with
      | some _ => (s, false)
      | none =>
        let rumorId := s.rumorIdGenerator + 1
        let raw := s.rumorHashRawMsgBimap.insert hash message
        let s := { s with rumorIdGenerator := rumorId,
                          rumorIdHashBimap := (s.rumorIdHashBimap.insert (toInt32 rumorId) hash).1,
                          rumorHashRawMsgBimap := raw.1 }
        if raw.2 then
          let added := s.rumorHolder.addRumor (toInt32 rumorId)
          ({ s with rumorRawMsgTimestamp := s.rumorRawMsgTimestamp ++ [(hash, now)],
                    rumorHolder := added.1 }, added.2)
        else (s, false)
  else (s, false)

/-- `VerifyMessage`: the key and signature are checked for the message types the two flags
    select; other messages are taken as they are. -/
def verifyMessage (message : RawBytes) (t : RRS.MessageType) (fromPeer : Peer) : Option RawBytes :=
  if ((t = .emptyPush ∨ t = .emptyPull) ∧ env.signVerifyEmptyMsgTyp = true) ∨
      ((t = .lazyPush ∨ t = .lazyPull ∨ t = .push ∨ t = .pull) ∧
        env.signVerifyNonEmptyMsgTyp = true) then
    env.checkKeySig message fromPeer
  else some message

/-- What `RumorReceived` returns: whether to dispatch the message to the application, the message
    without key and signature, and the messages sent to peers. -/
abbrev Received := RumorManager × (Bool × RawBytes) × Multiset (Peer × RRS.Message)

/-- The end of `RumorReceived` for the messages the holder sees: the holder records the message
    under the sender's id, and its pull messages go back to the sender. -/
def toHolder (s : RumorManager) (t : RRS.MessageType) (recvdRumorId round peerId : ℤ)
    (fromPeer : Peer) (message : RawBytes) (sent : Multiset (Peer × RRS.Message)) : Received :=
  let r := s.rumorHolder.receivedMessage env.sendResponseForLazyPush
    ⟨t, toInt32 recvdRumorId, round⟩ peerId
  ({ s with rumorHolder := r.1 }, (false, message), sent + r.2.2.map fun m => (fromPeer, m))

/-- A LAZY_PUSH / LAZY_PULL carrying a hash: a new hash gets the next rumor id and is asked for
    with a PULL, a known one is asked for again while its raw message is missing. -/
def receivedLazy (t : RRS.MessageType) (round peerId : ℤ) (fromPeer : Peer) (hash : RawBytes)
    (s : RumorManager) : Received :=
  if hash.length ≠ commonHashSize then (s, (false, []), 0)
  else
    match s.rumorIdHashBimap.findRight hash with
    | none =>
      let recvdRumorId := s.rumorIdGenerator + 1
      let s := { s with rumorIdGenerator := recvdRumorId,
                        rumorIdHashBimap :=
                          (s.rumorIdHashBimap.insert (toInt32 recvdRumorId) hash).1 }
      toHolder env s t recvdRumorId round peerId fromPeer hash
        {(fromPeer, ⟨.pull, toInt32 recvdRumorId, -1⟩)}
    | some recvdRumorId =>
      toHolder env s t recvdRumorId round peerId fromPeer hash
        (if s.rumorHashRawMsgBimap.findLeft hash = none then
          {(fromPeer, ⟨.pull, recvdRumorId, -1⟩)} else 0)

/-- A PULL for a hash: answered with a PUSH when the raw message is here, otherwise the sender
    subscribes to it. -/
def receivedPull (fromPeer : Peer) (hash : RawBytes) (s : RumorManager) : Received :=
  match s.rumorHashRawMsgBimap.findLeft hash with
  | some _ =>
    match s.rumorIdHashBimap.findRight hash with
    | some recvdRumorId => (s, (false, []), {(fromPeer, ⟨.push, recvdRumorId, -1⟩)})
    | none => (s, (false, []), 0)
  | none =>
    let subscribers := (s.hashesSubscriberMap.find hash).getD ∅
    ({ s with hashesSubscriberMap := s.hashesSubscriberMap.insert hash (insert fromPeer subscribers) },
      (false, []), 0)

/-- A PUSH with a raw message: kept, with its timestamp, only for a learned hash and when new (then
    it is to be dispatched); the peers subscribed to the hash, other than the sender, get it. -/
def receivedPush (fromPeer : Peer) (message : RawBytes) (now : ℤ) (s : RumorManager) :
    Received :=
  if 0 < message.length then
    let hash := env.sha256 message
    match s.rumorIdHashBimap.findRight hash with
    | none => (s, (false, []), 0)
    | some recvdRumorId =>
      let raw := s.rumorHashRawMsgBimap.insert hash message
      let s := { s with rumorHashRawMsgBimap := raw.1,
                        rumorRawMsgTimestamp := if raw.2 then s.rumorRawMsgTimestamp ++ [(hash, now)]
                          else s.rumorRawMsgTimestamp }
      match s.hashesSubscriberMap.find hash with
      | some subscribers =>
        ({ s with hashesSubscriberMap := s.hashesSubscriberMap.erase hash }, (raw.2, message),
          ((subscribers.filter (· ≠ fromPeer)).val.map fun p => (p, ⟨.push, recvdRumorId, -1⟩)))
      | none => (s, (raw.2, message), 0)
  else (s, (false, message), 0)

/-- `RumorReceived`: ignored while rounds are stopped, from an unknown peer, or when the key and
    signature do not check; otherwise handled by its type. -/
def rumorReceived (type : UInt8) (round : ℤ) (message : RawBytes) (fromPeer : Peer) (now : ℤ)
    (s : RumorManager) : Received :=
  if !s.continueRound then (s, (false, []), 0)
  else
    match s.peerIdPeerBimap.findRight fromPeer with
    | none => (s, (false, []), 0)
    | some peerId =>
      let t := convertType type
      match verifyMessage env message t fromPeer with
      | none => (s, (false, []), 0)
      | some msg =>
        match t with
        | .emptyPush | .emptyPull => toHolder env s t (-1) round peerId fromPeer msg 0
        | .lazyPush | .lazyPull => receivedLazy env t round peerId fromPeer msg s
        | .pull => receivedPull fromPeer msg s
        | .push => receivedPush env fromPeer msg now s
        | .undefined | .forward => (s, (false, []), 0)

/-- The loop of `CleanUp` over the deque, oldest first: an expired entry is dropped with its raw
    message and its rumor id; the first entry that has not expired ends the loop. -/
def cleanUpLoop (now rawMessageExpiryInMs : ℤ) :
    List (RawBytes × ℤ) → Bimap RawBytes RawBytes → Bimap ℤ RawBytes →
      List (RawBytes × ℤ) × Bimap RawBytes RawBytes × Bimap ℤ RawBytes
  | [], raws, ids => ([], raws, ids)
  | (hash, time) :: rest, raws, ids =>
    if now - time > rawMessageExpiryInMs then
      cleanUpLoop now rawMessageExpiryInMs rest (raws.eraseLeft hash) (ids.eraseRight hash)
    else ((hash, time) :: rest, raws, ids)

/-- `CleanUp`. -/
def cleanUp (now : ℤ) (s : RumorManager) : RumorManager :=
  let r := cleanUpLoop now s.rawMessageExpiryInMs s.rumorRawMsgTimestamp s.rumorHashRawMsgBimap
    s.rumorIdHashBimap
  { s with rumorRawMsgTimestamp := r.1, rumorHashRawMsgBimap := r.2.1, rumorIdHashBimap := r.2.2 }

end RumorManager

/-- A call to the manager. -/
inductive ManagerCall
  | addRumor (message : RawBytes) (now : ℤ)
  | rumorReceived (type : UInt8) (round : ℤ) (message : RawBytes) (fromPeer : Peer) (now : ℤ)
  | cleanUp (now : ℤ)

namespace RumorManager

variable (env : GossipEnv)

/-- One call: the manager after it and the raw message it reports for dispatch, if any. -/
def step (s : RumorManager) : ManagerCall → RumorManager × Option RawBytes
  | .addRumor message now => ((s.addRumor env message now).1, none)
  | .rumorReceived type round message fromPeer now =>
    let r := s.rumorReceived env type round message fromPeer now
    (r.1, if r.2.1.1 then some r.2.1.2 else none)
  | .cleanUp now => (s.cleanUp now, none)

/-- A run of calls: the manager at the end and the messages reported for dispatch, in order. -/
def runCalls (s : RumorManager) : List ManagerCall → RumorManager × List RawBytes
  | [] => (s, [])
  | c :: cs =>
    let r := step env s c
    let rest := runCalls r.1 cs
    (rest.1, r.2.toList ++ rest.2)

/-! ## What each handler does to the tables -/

/-- The raw table and the deque stay as they are, or gain one entry each, together and under a
    hash the raw table did not have. -/
def RawMove (s s' : RumorManager) : Prop :=
  (s'.rumorHashRawMsgBimap.pairs = s.rumorHashRawMsgBimap.pairs ∧
      s'.rumorRawMsgTimestamp = s.rumorRawMsgTimestamp) ∨
    ∃ hash raw time, s.rumorHashRawMsgBimap.findLeft hash = none ∧
      s'.rumorHashRawMsgBimap.pairs = s.rumorHashRawMsgBimap.pairs ++ [(hash, raw)] ∧
      s'.rumorRawMsgTimestamp = s.rumorRawMsgTimestamp ++ [(hash, time)]

/-- What a handler does to the tables: every id pair after it was there before or carries a hash
    the handler `learned`, and the raw table and the deque move together. -/
structure Effect (learned : RawBytes → Prop) (s s' : RumorManager) : Prop where
  ids : ∀ x ∈ s'.rumorIdHashBimap.pairs, x ∈ s.rumorIdHashBimap.pairs ∨ learned x.2
  raw : RawMove s s'

theorem Effect.refl (learned : RawBytes → Prop) (s : RumorManager) : Effect learned s s :=
  ⟨fun _ hx => Or.inl hx, Or.inl ⟨rfl, rfl⟩⟩

theorem Effect.mono {learned learned' : RawBytes → Prop} {s s' : RumorManager}
    (he : Effect learned s s') (h : ∀ hash, learned hash → learned' hash) :
    Effect learned' s s' :=
  ⟨fun x hx => (he.ids x hx).imp_right (h x.2), he.raw⟩

/-- Inserting a raw message and, when it went in, its timestamp moves the two together. -/
theorem rawMove_insert {s s' : RumorManager} {hash raw : RawBytes} {now : ℤ}
    (hraw : s'.rumorHashRawMsgBimap = (s.rumorHashRawMsgBimap.insert hash raw).1)
    (hts : s'.rumorRawMsgTimestamp =
      if (s.rumorHashRawMsgBimap.insert hash raw).2 then s.rumorRawMsgTimestamp ++ [(hash, now)]
      else s.rumorRawMsgTimestamp) : RawMove s s' := by
  rw [Bimap.snd_insert] at hts
  by_cases hfresh : s.rumorHashRawMsgBimap.findLeft hash = none ∧
      s.rumorHashRawMsgBimap.findRight raw = none
  · rw [if_pos (decide_eq_true hfresh)] at hts
    refine Or.inr ⟨hash, raw, now, hfresh.1, ?_, hts⟩
    rw [hraw, Bimap.pairs_insert, if_pos hfresh]
  · rw [if_neg (by simpa using hfresh)] at hts
    refine Or.inl ⟨?_, hts⟩
    rw [hraw, Bimap.pairs_insert, if_neg hfresh]

theorem toHolder_eq (s : RumorManager) (t : RRS.MessageType) (recvdRumorId round peerId : ℤ)
    (fromPeer : Peer) (message : RawBytes) (sent : Multiset (Peer × RRS.Message)) :
    ∃ holder, (toHolder env s t recvdRumorId round peerId fromPeer message sent).1 =
      { s with rumorHolder := holder } :=
  ⟨_, rfl⟩

theorem effect_toHolder (learned : RawBytes → Prop) (s : RumorManager) (t : RRS.MessageType)
    (recvdRumorId round peerId : ℤ) (fromPeer : Peer) (message : RawBytes)
    (sent : Multiset (Peer × RRS.Message)) :
    Effect learned s (toHolder env s t recvdRumorId round peerId fromPeer message sent).1 := by
  obtain ⟨holder, h⟩ := toHolder_eq env s t recvdRumorId round peerId fromPeer message sent
  rw [h]
  exact ⟨fun _ hx => Or.inl hx, Or.inl ⟨rfl, rfl⟩⟩

/-- A LAZY message adds at most its own hash to the id table. -/
theorem effect_receivedLazy (t : RRS.MessageType) (round peerId : ℤ) (fromPeer : Peer)
    (hash : RawBytes) (s : RumorManager) :
    Effect (· = hash) s (receivedLazy env t round peerId fromPeer hash s).1 := by
  unfold receivedLazy
  by_cases hlen : hash.length ≠ commonHashSize
  · rw [if_pos hlen]
    exact Effect.refl _ s
  · rw [if_neg hlen]
    split
    · refine ⟨fun x hx => ?_, Or.inl ⟨rfl, rfl⟩⟩
      exact (Bimap.mem_pairs_insert hx).imp_right fun h => by rw [h]
    · exact effect_toHolder env _ s _ _ _ _ _ _ _

theorem effect_receivedPull (learned : RawBytes → Prop) (fromPeer : Peer) (hash : RawBytes)
    (s : RumorManager) : Effect learned s (receivedPull fromPeer hash s).1 := by
  unfold receivedPull
  split
  · split <;> exact Effect.refl learned s
  · exact ⟨fun x hx => Or.inl hx, Or.inl ⟨rfl, rfl⟩⟩

/-- A PUSH adds no rumor id; its raw message goes in with its timestamp. -/
theorem effect_receivedPush (learned : RawBytes → Prop) (fromPeer : Peer) (message : RawBytes)
    (now : ℤ) (s : RumorManager) : Effect learned s (receivedPush env fromPeer message now s).1 := by
  unfold receivedPush
  dsimp only
  by_cases hlen : 0 < message.length
  · rw [if_pos hlen]
    split
    · exact Effect.refl learned s
    · refine ⟨fun x hx => Or.inl ?_, ?_⟩
      · split at hx <;> exact hx
      · split <;> exact rawMove_insert rfl rfl
  · rw [if_neg hlen]
    exact Effect.refl learned s

/-- A PUSH is reported for dispatch only for a learned hash whose raw message is new; the message
    then goes into the raw table. -/
theorem dispatched_receivedPush {fromPeer : Peer} {message : RawBytes} {now : ℤ}
    {s : RumorManager} (h : (receivedPush env fromPeer message now s).2.1.1 = true) :
    (∃ id, (id, env.sha256 message) ∈ s.rumorIdHashBimap.pairs) ∧
      s.rumorHashRawMsgBimap.findLeft (env.sha256 message) = none ∧
      (receivedPush env fromPeer message now s).2.1.2 = message ∧
      (receivedPush env fromPeer message now s).1.rumorHashRawMsgBimap.pairs =
        s.rumorHashRawMsgBimap.pairs ++ [(env.sha256 message, message)] := by
  unfold receivedPush at h ⊢
  dsimp only at h ⊢
  by_cases hlen : 0 < message.length
  · rw [if_pos hlen] at h ⊢
    cases hid : s.rumorIdHashBimap.findRight (env.sha256 message) with
    | none => simp [hid] at h
    | some recvdRumorId =>
      -- the flag is the result of inserting the raw message, whatever the subscribers
      have hin : decide (s.rumorHashRawMsgBimap.findLeft (env.sha256 message) = none ∧
          s.rumorHashRawMsgBimap.findRight message = none) = true := by
        simp only [hid] at h
        split at h <;> rwa [Bimap.snd_insert] at h
      rw [decide_eq_true_eq] at hin
      refine ⟨⟨recvdRumorId, (Bimap.findRight_eq_some_iff _).1 hid⟩, hin.1, ?_, ?_⟩
      · simp only
        split <;> rfl
      · simp only
        split <;> simp only [Bimap.pairs_insert, if_pos hin]
  · rw [if_neg hlen] at h
    simp at h

/-- `AddRumor` adds at most the hash of its message to the id table. -/
theorem effect_addRumor (message : RawBytes) (now : ℤ) (s : RumorManager) :
    Effect (· = env.sha256 message) s (s.addRumor env message now).1 := by
  unfold addRumor
  dsimp only
  by_cases hsize : 0 < message.length ∧ message.length ≤ env.maxGossipMsgSizeInBytes
  · rw [if_pos hsize]
    by_cases hrun : (!s.continueRound) = true
    · -- rounds stopped: only the buffer changes
      rw [if_pos hrun]
      exact ⟨fun x hx => Or.inl hx, Or.inl ⟨rfl, rfl⟩⟩
    · rw [if_neg hrun]
      by_cases hpeers : s.peerIdSet = ∅
      · rw [if_pos hpeers]
        exact Effect.refl _ s
      · rw [if_neg hpeers]
        split
        · exact Effect.refl _ s
        · have hids : ∀ x ∈ (s.rumorIdHashBimap.insert (toInt32 (s.rumorIdGenerator + 1))
              (env.sha256 message)).1.pairs,
              x ∈ s.rumorIdHashBimap.pairs ∨ x.2 = env.sha256 message := fun x hx =>
            (Bimap.mem_pairs_insert hx).imp_right fun h => by rw [h]
          split_ifs with hraw
          · exact ⟨hids, rawMove_insert rfl (by rw [if_pos hraw])⟩
          · exact ⟨hids, @rawMove_insert _ _ _ _ now rfl (by rw [if_neg hraw])⟩
  · rw [if_neg hsize]
    exact Effect.refl _ s

theorem flag_receivedLazy (t : RRS.MessageType) (round peerId : ℤ) (fromPeer : Peer)
    (hash : RawBytes) (s : RumorManager) :
    (receivedLazy env t round peerId fromPeer hash s).2.1.1 = false := by
  unfold receivedLazy
  by_cases hlen : hash.length ≠ commonHashSize
  · rw [if_pos hlen]
  · rw [if_neg hlen]
    split <;> rfl

theorem flag_receivedPull (fromPeer : Peer) (hash : RawBytes) (s : RumorManager) :
    (receivedPull fromPeer hash s).2.1.1 = false := by
  unfold receivedPull
  split
  · split <;> rfl
  · rfl

/-- `RumorReceived` learns a hash only from a LAZY_PUSH or LAZY_PULL that carries it. -/
theorem effect_rumorReceived (type : UInt8) (round : ℤ) (message : RawBytes) (fromPeer : Peer)
    (now : ℤ) (s : RumorManager) :
    Effect (fun hash => (convertType type = .lazyPush ∨ convertType type = .lazyPull) ∧
        verifyMessage env message (convertType type) fromPeer = some hash) s
      (s.rumorReceived env type round message fromPeer now).1 := by
  unfold rumorReceived
  dsimp only
  by_cases hrun : (!s.continueRound) = true
  · rw [if_pos hrun]
    exact Effect.refl _ s
  · rw [if_neg hrun]
    split
    · exact Effect.refl _ s
    · cases hv : verifyMessage env message (convertType type) fromPeer with
      | none => exact Effect.refl _ s
      | some msg =>
        simp only
        -- one case per message type; only the LAZY ones learn a hash
        cases ht : convertType type with
        | lazyPush =>
          exact (effect_receivedLazy env _ _ _ _ msg s).mono fun _ h =>
            ⟨Or.inl rfl, by rw [h]⟩
        | lazyPull =>
          exact (effect_receivedLazy env _ _ _ _ msg s).mono fun _ h =>
            ⟨Or.inr rfl, by rw [h]⟩
        | push => exact effect_receivedPush env _ _ _ _ s
        | pull => exact effect_receivedPull _ _ _ s
        | emptyPush => exact effect_toHolder env _ s _ _ _ _ _ _ _
        | emptyPull => exact effect_toHolder env _ s _ _ _ _ _ _ _
        | undefined => exact Effect.refl _ s
        | forward => exact Effect.refl _ s

/-- `RumorReceived` reports a message for dispatch only from its PUSH handler. -/
theorem dispatched_rumorReceived {type : UInt8} {round : ℤ} {message : RawBytes} {fromPeer : Peer}
    {now : ℤ} {s : RumorManager}
    (h : (s.rumorReceived env type round message fromPeer now).2.1.1 = true) :
    ∃ msg, s.rumorReceived env type round message fromPeer now =
      receivedPush env fromPeer msg now s := by
  unfold rumorReceived at h ⊢
  dsimp only at h ⊢
  by_cases hrun : (!s.continueRound) = true
  · rw [if_pos hrun] at h
    simp at h
  · rw [if_neg hrun] at h ⊢
    cases hpeer : s.peerIdPeerBimap.findRight fromPeer with
    | none => simp [hpeer] at h
    | some peerId =>
      simp only [hpeer] at h ⊢
      cases hv : verifyMessage env message (convertType type) fromPeer with
      | none => simp [hv] at h
      | some msg =>
        simp only [hv] at h ⊢
        cases ht : convertType type <;> simp only [ht] at h ⊢
        case push => exact ⟨msg, rfl⟩
        case lazyPush => simp [flag_receivedLazy] at h
        case lazyPull => simp [flag_receivedLazy] at h
        case pull => simp [flag_receivedPull] at h
        case emptyPush => simp [toHolder] at h
        case emptyPull => simp [toHolder] at h
        case undefined => simp at h
        case forward => simp at h

end RumorManager

/-- The call makes the node learn `hash`: a local `AddRumor` of a message with that hash, or a
    LAZY_PUSH / LAZY_PULL that carries it. -/
def Announces (env : GossipEnv) : ManagerCall → RawBytes → Prop
  | .addRumor message _, hash => env.sha256 message = hash
  | .rumorReceived type _ message fromPeer _, hash =>
    (convertType type = .lazyPush ∨ convertType type = .lazyPull) ∧
      RumorManager.verifyMessage env message (convertType type) fromPeer = some hash
  | .cleanUp _, _ => False

namespace RumorManager

variable (env : GossipEnv)

/-- A call other than `CleanUp` learns only the hashes it announces. -/
theorem effect_step {c : ManagerCall} (hc : ∀ now, c ≠ .cleanUp now) (s : RumorManager) :
    Effect (Announces env c) s (step env s c).1 := by
  cases c with
  | addRumor message now => exact (effect_addRumor env message now s).mono fun _ h => h.symm
  | rumorReceived type round message fromPeer now =>
    exact effect_rumorReceived env type round message fromPeer now s
  | cleanUp now => exact absurd rfl (hc now)

/-- `CleanUp` only removes rumor ids. -/
theorem mem_ids_cleanUpLoop (now rawMessageExpiryInMs : ℤ) (ts : List (RawBytes × ℤ))
    (raws : Bimap RawBytes RawBytes) (ids : Bimap ℤ RawBytes) {x : ℤ × RawBytes}
    (hx : x ∈ (cleanUpLoop now rawMessageExpiryInMs ts raws ids).2.2.pairs) : x ∈ ids.pairs := by
  induction ts generalizing raws ids with
  | nil => exact hx
  | cons entry rest ih =>
    simp only [cleanUpLoop] at hx
    split_ifs at hx
    · exact (List.mem_filter.1 (ih _ _ hx)).1
    · exact hx

/-- Every id pair after a call was there before or carries a hash the call announced. -/
theorem mem_ids_step {s : RumorManager} {c : ManagerCall} {x : ℤ × RawBytes}
    (hx : x ∈ (step env s c).1.rumorIdHashBimap.pairs) :
    x ∈ s.rumorIdHashBimap.pairs ∨ Announces env c x.2 := by
  cases c with
  | cleanUp now => exact Or.inl (mem_ids_cleanUpLoop now _ _ _ _ hx)
  | addRumor message now => exact (effect_step env (fun _ h => by cases h) s).ids x hx
  | rumorReceived type round message fromPeer now =>
    exact (effect_step env (fun _ h => by cases h) s).ids x hx

/-- Every id pair at the end of a run was there at the start or carries a hash a call of the run
    announced. -/
theorem mem_ids_runCalls {s : RumorManager} {calls : List ManagerCall} {x : ℤ × RawBytes}
    (hx : x ∈ (runCalls env s calls).1.rumorIdHashBimap.pairs) :
    x ∈ s.rumorIdHashBimap.pairs ∨ ∃ c ∈ calls, Announces env c x.2 := by
  induction calls generalizing s with
  | nil => exact Or.inl hx
  | cons c cs ih =>
    have hx' : x ∈ (runCalls env (step env s c).1 cs).1.rumorIdHashBimap.pairs := hx
    rcases ih hx' with h | ⟨c', hc', h⟩
    · rcases mem_ids_step env h with h | h
      · exact Or.inl h
      · exact Or.inr ⟨c, List.mem_cons_self, h⟩
    · exact Or.inr ⟨c', List.mem_cons_of_mem _ hc', h⟩

/-- A message reported for dispatch has a learned hash, had no raw entry, and gets one. -/
theorem dispatched_step {s : RumorManager} {c : ManagerCall} {m : RawBytes}
    (h : (step env s c).2 = some m) :
    (∃ id, (id, env.sha256 m) ∈ s.rumorIdHashBimap.pairs) ∧
      s.rumorHashRawMsgBimap.findLeft (env.sha256 m) = none ∧
      (step env s c).1.rumorHashRawMsgBimap.pairs =
        s.rumorHashRawMsgBimap.pairs ++ [(env.sha256 m, m)] := by
  cases c with
  | addRumor message now => simp [step] at h
  | cleanUp now => simp [step] at h
  | rumorReceived type round message fromPeer now =>
    simp only [step] at h ⊢
    split_ifs at h with hflag
    obtain rfl := Option.some.inj h
    obtain ⟨msg, hmsg⟩ := dispatched_rumorReceived env hflag
    rw [hmsg] at hflag ⊢
    obtain ⟨hid, hnone, hm, hraw⟩ := dispatched_receivedPush env hflag
    rw [hm]
    exact ⟨hid, hnone, hraw⟩

/-- A message is reported for dispatch only if an earlier call of the run, from a node that knew
    no hash, announced its hash: a LAZY_PUSH or LAZY_PULL carrying it, or a local `AddRumor`. -/
theorem announced_of_dispatched {s : RumorManager} (hs : s.rumorIdHashBimap.pairs = [])
    (pre : List ManagerCall) (c : ManagerCall) {m : RawBytes}
    (hm : (step env (runCalls env s pre).1 c).2 = some m) :
    ∃ c' ∈ pre, Announces env c' (env.sha256 m) := by
  obtain ⟨⟨id, hid⟩, -, -⟩ := dispatched_step env hm
  rcases mem_ids_runCalls env hid with h | h
  · rw [hs] at h
    exact absurd h List.not_mem_nil
  · exact h

theorem RawMove.subset {s s' : RumorManager} (hm : RawMove s s') :
    ∀ x ∈ s.rumorHashRawMsgBimap.pairs, x ∈ s'.rumorHashRawMsgBimap.pairs := by
  intro x hx
  rcases hm with ⟨hraw, -⟩ | ⟨hash, raw, time, -, hraw, -⟩
  · rwa [hraw]
  · rw [hraw]
    exact List.mem_append_left _ hx

/-- Over a run without `CleanUp` the raw table only grows, and each message reported for dispatch
    had no raw entry at the start and has one at the end. -/
theorem dispatched_runCalls {s : RumorManager} {calls : List ManagerCall}
    (hno : ∀ c ∈ calls, ∀ now, c ≠ .cleanUp now) :
    (∀ x ∈ s.rumorHashRawMsgBimap.pairs, x ∈ (runCalls env s calls).1.rumorHashRawMsgBimap.pairs) ∧
      (∀ m ∈ (runCalls env s calls).2, s.rumorHashRawMsgBimap.findLeft (env.sha256 m) = none ∧
        (env.sha256 m, m) ∈ (runCalls env s calls).1.rumorHashRawMsgBimap.pairs) ∧
      (runCalls env s calls).2.Nodup := by
  induction calls generalizing s with
  | nil => exact ⟨fun x hx => hx, by simp [runCalls], List.nodup_nil⟩
  | cons c cs ih =>
    obtain ⟨hgrow, hfresh, hnodup⟩ :=
      @ih (step env s c).1 fun c' hc' => hno c' (List.mem_cons_of_mem _ hc')
    have hmove : RawMove s (step env s c).1 := (effect_step env (hno c List.mem_cons_self) s).raw
    -- the first call's own report, if any, is its message's new raw entry
    have hown : ∀ m ∈ (step env s c).2.toList,
        s.rumorHashRawMsgBimap.findLeft (env.sha256 m) = none ∧
          (env.sha256 m, m) ∈ (step env s c).1.rumorHashRawMsgBimap.pairs := by
      intro m hm
      obtain ⟨-, hnone, hraw⟩ := dispatched_step env (Option.mem_toList.1 hm)
      exact ⟨hnone, by rw [hraw]; exact List.mem_append_right _ (List.mem_singleton_self _)⟩
    simp only [runCalls]
    refine ⟨fun x hx => hgrow x (hmove.subset x hx), fun m hm => ?_, ?_⟩
    · rcases List.mem_append.1 hm with h0 | h0
      · exact ⟨(hown m h0).1, hgrow _ (hown m h0).2⟩
      · exact ⟨Bimap.findLeft_eq_none_of_subset hmove.subset (hfresh m h0).1, (hfresh m h0).2⟩
    · rw [List.nodup_append]
      refine ⟨by cases (step env s c).2 <;> simp, hnodup, ?_⟩
      -- a message reported later has no raw entry after the first call, whose report has one
      rintro a ha b hb rfl
      exact (Bimap.findLeft_eq_none_iff _).1 (hfresh a hb).1 a (hown a ha).2

/-- Between two `CleanUp` calls no raw message is reported for dispatch twice. -/
theorem dispatched_nodup {s : RumorManager} {calls : List ManagerCall}
    (hno : ∀ c ∈ calls, ∀ now, c ≠ .cleanUp now) : (runCalls env s calls).2.Nodup :=
  (dispatched_runCalls env hno).2.2

/-- The deque lists exactly the raw entries, in the order they were added. -/
def TimestampsMatch (s : RumorManager) : Prop :=
  s.rumorRawMsgTimestamp.map Prod.fst = s.rumorHashRawMsgBimap.pairs.map Prod.fst

theorem RawMove.timestampsMatch {s s' : RumorManager} (hm : RawMove s s')
    (h : TimestampsMatch s) : TimestampsMatch s' := by
  unfold TimestampsMatch at h ⊢
  rcases hm with ⟨hraw, hts⟩ | ⟨hash, raw, time, -, hraw, hts⟩
  · rw [hraw, hts, h]
  · rw [hraw, hts, List.map_append, List.map_append, h]
    rfl

/-- The loop of `CleanUp` drops the oldest raw entry together with the front of the deque, which
    names it. -/
theorem timestamps_cleanUpLoop (now rawMessageExpiryInMs : ℤ) (ts : List (RawBytes × ℤ))
    (raws : Bimap RawBytes RawBytes) (ids : Bimap ℤ RawBytes)
    (h : ts.map Prod.fst = raws.pairs.map Prod.fst) :
    (cleanUpLoop now rawMessageExpiryInMs ts raws ids).1.map Prod.fst =
      (cleanUpLoop now rawMessageExpiryInMs ts raws ids).2.1.pairs.map Prod.fst := by
  induction ts generalizing raws ids with
  | nil => exact h
  | cons entry rest ih =>
    obtain ⟨hash, time⟩ := entry
    simp only [cleanUpLoop]
    split_ifs
    · apply ih
      have hnd := raws.nodup_left
      rw [Bimap.pairs_eraseLeft]
      cases hp : raws.pairs with
      | nil =>
        rw [hp] at h
        simp at h
      | cons p tail =>
        rw [hp] at h hnd
        simp only [List.map_cons, List.cons.injEq] at h
        obtain ⟨h1, h2⟩ := h
        -- the front's hash is the first raw entry's, and no later entry has it
        have hnot : hash ∉ tail.map Prod.fst := by
          rw [h1]
          exact (List.nodup_cons.1 hnd).1
        have hkeep : ∀ q ∈ tail, decide (q.1 ≠ hash) = true := fun q hq => by
          have hq' : q.1 ∈ tail.map Prod.fst := List.mem_map_of_mem hq
          simp only [ne_eq, decide_eq_true_eq]
          rintro rfl
          exact hnot hq'
        rw [List.filter_cons_of_neg (by simp [h1]), List.filter_eq_self.2 hkeep, h2]
    · exact h

theorem timestampsMatch_step {s : RumorManager} (h : TimestampsMatch s) (c : ManagerCall) :
    TimestampsMatch (step env s c).1 := by
  cases c with
  | cleanUp now => exact timestamps_cleanUpLoop now _ _ _ _ h
  | addRumor message now => exact (effect_step env (fun _ h => by cases h) s).raw.timestampsMatch h
  | rumorReceived type round message fromPeer now =>
    exact (effect_step env (fun _ h => by cases h) s).raw.timestampsMatch h

/-- Over every run, the deque lists exactly the raw entries, in the order they were added. -/
theorem timestamps_runCalls {s : RumorManager} (h : TimestampsMatch s) (calls : List ManagerCall) :
    TimestampsMatch (runCalls env s calls).1 := by
  induction calls generalizing s with
  | nil => exact h
  | cons c cs ih => exact ih (timestampsMatch_step env h c)

/-- `Initialize` empties the raw table and the deque together. -/
theorem timestampsMatch_initTables {s : RumorManager} (h : TimestampsMatch s) (peers : List Peer)
    (holderConfig : RRS.NetworkConfig) (holderPeers : List ℤ) (rawMessageExpiryInMs : ℤ) :
    TimestampsMatch (s.initTables peers holderConfig holderPeers rawMessageExpiryInMs).1 := by
  unfold initTables
  split_ifs
  · exact h
  · rfl

theorem runCalls_append (s : RumorManager) (xs ys : List ManagerCall) :
    (runCalls env s (xs ++ ys)).1 = (runCalls env (runCalls env s xs).1 ys).1 := by
  induction xs generalizing s with
  | nil => rfl
  | cons c cs ih => exact ih _

/-- A LAZY_PUSH from a known peer, with key checks off, carrying a new 32-byte hash: the hash gets
    the next id, stored as an `int`, and the other tables stay. -/
theorem rumorReceived_lazyPush_new {s : RumorManager} (hrun : s.continueRound = true) {p : Peer}
    {peerId : ℤ} (hp : s.peerIdPeerBimap.findRight p = some peerId)
    (hsign : env.signVerifyNonEmptyMsgTyp = false) {hash : RawBytes}
    (hlen : hash.length = commonHashSize) (hnew : s.rumorIdHashBimap.findRight hash = none)
    (round now : ℤ) :
    ∃ holder, (s.rumorReceived env 6 round hash p now).1 =
      { s with rumorIdGenerator := s.rumorIdGenerator + 1,
               rumorIdHashBimap :=
                 (s.rumorIdHashBimap.insert (toInt32 (s.rumorIdGenerator + 1)) hash).1,
               rumorHolder := holder } := by
  have hverify : verifyMessage env hash .lazyPush p = some hash := by
    simp [verifyMessage, hsign]
  have hlazy : s.rumorReceived env 6 round hash p now =
      receivedLazy env .lazyPush round peerId p hash s := by
    simp only [rumorReceived, hrun, Bool.not_true, Bool.false_eq_true, if_false, hp]
    rw [show convertType 6 = .lazyPush from rfl, hverify]
  rw [hlazy]
  unfold receivedLazy
  rw [if_neg (by rw [hlen]; exact not_not.2 rfl), hnew]
  exact ⟨_, rfl⟩

/-- Every hash with a raw message also has a rumor id. -/
def HashesHaveIds (s : RumorManager) : Prop :=
  ∀ hash raw, (hash, raw) ∈ s.rumorHashRawMsgBimap.pairs → ∃ id, (id, hash) ∈ s.rumorIdHashBimap.pairs

theorem toInt32_injOn {i j : ℤ} (hi : 1 ≤ i) (hi' : i ≤ 2 ^ 32) (hj : 1 ≤ j) (hj' : j ≤ 2 ^ 32)
    (h : toInt32 i = toInt32 j) : i = j := by
  unfold toInt32 at h
  omega

/-- The `i`-th hash of the announcing run: the 32-byte big-endian `i`, or the 32 zero bytes
    in its place when that would be `H`. -/
def announcedHash (H : RawBytes) (i : ℕ) : RawBytes :=
  if setNumber 32 i = H then setNumber 32 0 else setNumber 32 i

theorem length_announcedHash (H : RawBytes) (i : ℕ) :
    (announcedHash H i).length = commonHashSize := by
  unfold announcedHash
  split_ifs <;> simp [commonHashSize]

theorem announcedHash_ne {H : RawBytes} {i : ℕ} (hi : 1 ≤ i) (hi' : i < 2 ^ (8 * 32)) :
    announcedHash H i ≠ H := by
  unfold announcedHash
  split_ifs with h
  · intro h0
    have := setNumber_injOn (by decide) hi' (h0.trans h.symm)
    omega
  · exact h

theorem announcedHash_injOn {H : RawBytes} {i j : ℕ} (hi : 1 ≤ i) (hi' : i < 2 ^ (8 * 32))
    (hj : 1 ≤ j) (hj' : j < 2 ^ (8 * 32)) (h : announcedHash H i = announcedHash H j) : i = j := by
  unfold announcedHash at h
  split_ifs at h with h1 h2 h2
  · exact setNumber_injOn hi' hj' (h1.trans h2.symm)
  · have := setNumber_injOn (by decide) hj' h
    omega
  · have := setNumber_injOn hi' (by decide) h
    omega
  · exact setNumber_injOn hi' hj' h

/-- The announcing run: `k` LAZY_PUSH messages from `p`, the `i`-th carrying `announcedHash H i`. -/
def announceCalls (H : RawBytes) (p : Peer) (k : ℕ) : List ManagerCall :=
  (List.range k).map fun i => .rumorReceived 6 0 (announcedHash H (i + 1)) p 0

/-- The tables after the first `k` announcements from `s₀`. -/
structure Announced (s₀ s : RumorManager) (H : RawBytes) (k : ℕ) : Prop where
  continueRound : s.continueRound = s₀.continueRound
  peerIdPeerBimap : s.peerIdPeerBimap = s₀.peerIdPeerBimap
  peerIdSet : s.peerIdSet = s₀.peerIdSet
  raw : s.rumorHashRawMsgBimap = s₀.rumorHashRawMsgBimap
  generator : s.rumorIdGenerator = k
  ids : s.rumorIdHashBimap.pairs =
    (List.range k).map fun (i : ℕ) => (toInt32 ((i : ℤ) + 1), announcedHash H (i + 1))

/-- Up to `2^32` announcements, every hash is new and gets its own id: the ids, stored as `int`,
    do not collide yet. -/
theorem announced_runCalls {s₀ : RumorManager} (hrun : s₀.continueRound = true) {p : Peer}
    {peerId : ℤ} (hp : s₀.peerIdPeerBimap.findRight p = some peerId)
    (hsign : env.signVerifyNonEmptyMsgTyp = false) (hgen : s₀.rumorIdGenerator = 0)
    (hids : s₀.rumorIdHashBimap.pairs = []) (H : RawBytes) :
    ∀ k ≤ 2 ^ 32, Announced s₀ (runCalls env s₀ (announceCalls H p k)).1 H k := by
  intro k
  induction k with
  | zero => exact fun _ => ⟨rfl, rfl, rfl, rfl, hgen, hids⟩
  | succ k ih =>
    intro hk
    obtain ⟨hc, hpeers, hset, hraw, hg, hi⟩ := ih (by omega)
    rw [announceCalls, List.range_succ, List.map_append, ← announceCalls, runCalls_append]
    set s := (runCalls env s₀ (announceCalls H p k)).1
    have hbound : ∀ i < k + 1, i + 1 < 2 ^ (8 * 32) := fun i hi => by
      have : (2 : ℕ) ^ 32 < 2 ^ (8 * 32) := by decide
      omega
    -- the new hash is not among the announced ones, and its id is not taken
    have hnew : s.rumorIdHashBimap.findRight (announcedHash H (k + 1)) = none := by
      rw [Bimap.findRight_eq_none_iff, hi]
      intro a ha
      obtain ⟨i, hi', hpair⟩ := List.mem_map.1 ha
      have hik := List.mem_range.1 hi'
      have := announcedHash_injOn (by omega) (hbound i (by omega)) (by omega) (hbound k (by omega))
        (Prod.mk.inj hpair).2
      omega
    have hfree : s.rumorIdHashBimap.findLeft (toInt32 ((k : ℤ) + 1)) = none := by
      rw [Bimap.findLeft_eq_none_iff, hi]
      intro y hy
      obtain ⟨i, hi', hpair⟩ := List.mem_map.1 hy
      have hik := List.mem_range.1 hi'
      have := toInt32_injOn (by omega) (by omega) (by omega) (by omega) (Prod.mk.inj hpair).1
      omega
    obtain ⟨holder, hstep⟩ := rumorReceived_lazyPush_new env (hc.trans hrun) (hpeers ▸ hp) hsign
      (length_announcedHash H (k + 1)) hnew 0 0
    show Announced s₀ (step env s (.rumorReceived 6 0 (announcedHash H (k + 1)) p 0)).1 H (k + 1)
    simp only [step, hstep]
    refine ⟨hc, hpeers, hset, hraw, by rw [hg]; push_cast; rfl, ?_⟩
    rw [hg, Bimap.pairs_insert, if_pos ⟨hfree, hnew⟩, hi, List.range_succ, List.map_append]
    rfl

/-- `Initialize` with one peer, then `StartRounds`: rounds running, that peer known under id 1,
    and no rumor. -/
theorem startRounds_initTables_single (holder : RRS.RumorHolder) {p : Peer}
    (hp : p.listenPortHost ≠ 0) (holderConfig : RRS.NetworkConfig) (holderPeers : List ℤ)
    (expiry : ℤ) :
    let s := ((create holder).initTables [p] holderConfig holderPeers expiry).1.startRounds
    s.continueRound = true ∧ s.peerIdPeerBimap.findRight p = some 1 ∧ s.peerIdSet = {1} ∧
      s.rumorIdGenerator = 0 ∧ s.rumorIdHashBimap.pairs = [] ∧
      s.rumorHashRawMsgBimap.pairs = [] := by
  intro s
  have htable : addPeers [p] 0 (Bimap.empty, ∅) = ((Bimap.empty.insert (1 : ℤ) p).1, {1}) := by
    simp only [addPeers, ne_eq, hp, not_false_eq_true, if_true, zero_add, Finset.insert_empty]
  refine ⟨rfl, ?_, ?_, rfl, rfl, rfl⟩
  · show (addPeers [p] 0 (Bimap.empty, ∅)).1.findRight p = some 1
    rw [htable, Bimap.findRight_eq_some_iff, Bimap.pairs_insert, if_pos ⟨rfl, rfl⟩]
    exact List.mem_singleton_self _
  · show (addPeers [p] 0 (Bimap.empty, ∅)).2 = {1}
    rw [htable]

/-- `AddRumor` of a message with a new hash, while rounds run on a node with peers: the next id is
    offered to the id table and the message to the raw table. -/
theorem addRumor_new {s : RumorManager} {message : RawBytes}
    (hsize : 0 < message.length ∧ message.length ≤ env.maxGossipMsgSizeInBytes)
    (hrun : s.continueRound = true) (hpeers : s.peerIdSet ≠ ∅)
    (hnew : s.rumorIdHashBimap.findRight (env.sha256 message) = none) (now : ℤ) :
    (s.addRumor env message now).1.rumorIdHashBimap =
        (s.rumorIdHashBimap.insert (toInt32 (s.rumorIdGenerator + 1)) (env.sha256 message)).1 ∧
      (s.addRumor env message now).1.rumorHashRawMsgBimap =
        (s.rumorHashRawMsgBimap.insert (env.sha256 message) message).1 := by
  unfold addRumor
  rw [if_pos hsize]
  simp only [hrun, Bool.not_true, Bool.false_eq_true, if_false, hpeers, hnew]
  split_ifs <;> exact ⟨rfl, rfl⟩

end RumorManager

open RumorManager in
/-- Rumor ids are generated as `int64_t` and stored as `int`. From a node started with one peer,
    after `2^32` hashes announced by LAZY_PUSH the id of a locally added rumor, `2^32 + 1`, is
    stored as `1`, which the first hash already has: that insertion is dropped, but the raw message
    is stored, and its hash has no rumor id. -/
theorem hash_without_rumorId (env : GossipEnv) (hsign : env.signVerifyNonEmptyMsgTyp = false)
    (hmax : 1 ≤ env.maxGossipMsgSizeInBytes) (holder : RRS.RumorHolder) {p : Peer}
    (hp : p.listenPortHost ≠ 0) (holderConfig : RRS.NetworkConfig) (holderPeers : List ℤ)
    (expiry now : ℤ) :
    HashesHaveIds ((create holder).initTables [p] holderConfig holderPeers expiry).1.startRounds ∧
      ¬ HashesHaveIds (runCalls env
        ((create holder).initTables [p] holderConfig holderPeers expiry).1.startRounds
        (announceCalls (env.sha256 [0]) p (2 ^ 32) ++ [.addRumor [0] now])).1 := by
  obtain ⟨hrun, hpeer, hset, hgen, hids, hraw⟩ :=
    startRounds_initTables_single holder hp holderConfig holderPeers expiry
  refine ⟨fun hash raw h => absurd (hraw ▸ h) List.not_mem_nil, fun hinv => ?_⟩
  rw [runCalls_append] at hinv
  obtain ⟨hc, hpeers, hset', hraw', hg, hi⟩ :=
    announced_runCalls env hrun hpeer hsign hgen hids (env.sha256 [0]) (2 ^ 32) le_rfl
  set s := (runCalls env ((create holder).initTables [p] holderConfig holderPeers expiry).1.startRounds
    (announceCalls (env.sha256 [0]) p (2 ^ 32))).1
  -- no announced hash is the hash of the added message
  have hnew : s.rumorIdHashBimap.findRight (env.sha256 [0]) = none := by
    rw [Bimap.findRight_eq_none_iff, hi]
    intro a ha
    obtain ⟨i, hi', hpair⟩ := List.mem_map.1 ha
    have hik := List.mem_range.1 hi'
    have hlt : i + 1 < 2 ^ (8 * 32) := by
      have : (2 : ℕ) ^ 32 < 2 ^ (8 * 32) := by decide
      omega
    exact announcedHash_ne (by omega) hlt (Prod.mk.inj hpair).2
  -- the id `2^32 + 1`, stored as an `int`, is the first hash's id `1`
  have htaken : ¬ s.rumorIdHashBimap.findLeft (toInt32 (s.rumorIdGenerator + 1)) = none := by
    rw [Bimap.findLeft_eq_none_iff, hi, hg]
    intro hall
    refine hall (announcedHash (env.sha256 [0]) 1)
      (List.mem_map.2 ⟨0, List.mem_range.2 (by decide), Prod.ext ?_ rfl⟩)
    unfold toInt32
    push_cast
  have hempty : s.rumorHashRawMsgBimap.pairs = [] := by rw [hraw', hraw]
  obtain ⟨hids', hraw''⟩ := addRumor_new env ⟨by decide, show [(0 : UInt8)].length ≤ _ from hmax⟩
    (hc.trans hrun)
    (by rw [hset']; exact hset ▸ Finset.singleton_ne_empty 1) hnew now
  -- the raw message goes in; the id table is as it was
  have hin : (env.sha256 [0], [0]) ∈ (s.addRumor env [0] now).1.rumorHashRawMsgBimap.pairs := by
    rw [hraw'', Bimap.pairs_insert, if_pos, hempty]
    · exact List.mem_singleton_self _
    · simp [Bimap.findLeft_eq_none_iff, Bimap.findRight_eq_none_iff, hempty]
  obtain ⟨id, hid⟩ := hinv _ _ hin
  change (id, env.sha256 [0]) ∈ (s.addRumor env [0] now).1.rumorIdHashBimap.pairs at hid
  rw [hids', Bimap.pairs_insert, if_neg (fun h => htaken h.1)] at hid
  exact (Bimap.findRight_eq_none_iff _).1 hnew id hid

/-- A stand-in for SHA-256 on short messages: a 32-byte digest, the length byte and then the
    message padded with zeros, so that distinct messages of at most 31 bytes have distinct
    digests. -/
def paddedDigest (m : RawBytes) : RawBytes :=
  m.length.toUInt8 :: (m ++ List.replicate (31 - m.length) 0)

/-- The run above on a node with key checks off, messages of up to one byte, the digest above for
    SHA-256, and one peer on port 1. -/
theorem hash_without_rumorId_one_peer :
    RumorManager.HashesHaveIds
        ((RumorManager.create (RRS.RumorHolder.init ⟨1, 1, 1, 1⟩ [1])).initTables [⟨0, 1⟩]
          ⟨1, 1, 1, 1⟩ [1] 0).1.startRounds ∧
      ¬ RumorManager.HashesHaveIds
        (RumorManager.runCalls ⟨paddedDigest, fun _ _ => none, false, false, 1, false⟩
          ((RumorManager.create (RRS.RumorHolder.init ⟨1, 1, 1, 1⟩ [1])).initTables [⟨0, 1⟩]
            ⟨1, 1, 1, 1⟩ [1] 0).1.startRounds
          (RumorManager.announceCalls (paddedDigest [0]) ⟨0, 1⟩ (2 ^ 32) ++ [.addRumor [0] 0])).1 :=
  hash_without_rumorId ⟨paddedDigest, fun _ _ => none, false, false, 1, false⟩ rfl le_rfl
    (RRS.RumorHolder.init ⟨1, 1, 1, 1⟩ [1]) (show (⟨0, 1⟩ : Peer).listenPortHost ≠ 0 by decide)
    ⟨1, 1, 1, 1⟩ [1] 0 0

/-- On the same node, a rumor added locally and the same message pushed by the peer. -/
theorem dispatched_nodup_addThenPush :
    (∀ c ∈ [ManagerCall.addRumor [0] 0, .rumorReceived 1 1 [0] ⟨0, 1⟩ 0], ∀ now,
      c ≠ .cleanUp now) ∧
    (RumorManager.runCalls ⟨paddedDigest, fun _ _ => none, false, false, 1, false⟩
        ((RumorManager.create (RRS.RumorHolder.init ⟨1, 1, 1, 1⟩ [1])).initTables [⟨0, 1⟩]
          ⟨1, 1, 1, 1⟩ [1] 0).1.startRounds
        [.addRumor [0] 0, .rumorReceived 1 1 [0] ⟨0, 1⟩ 0]).2.Nodup := by
  have hno : ∀ c ∈ [ManagerCall.addRumor [0] 0, .rumorReceived 1 1 [0] ⟨0, 1⟩ 0], ∀ now,
      c ≠ .cleanUp now := by
    simp
  exact ⟨hno, RumorManager.dispatched_nodup _ hno⟩

end P2P

end Zilliqa
