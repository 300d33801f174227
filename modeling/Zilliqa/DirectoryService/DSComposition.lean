import Mathlib

/-!
# `DirectoryService.DSComposition` — every node's view of the DS committee

Each node keeps the DS committee as a `DequeOfNode`, `(public key, peer)` pairs in order, and the
order is what leader selection and every consensus bitmap index read. A DS block reorders it in
place (`UpdateDSCommitteeCompositionCore`): the removed members go to the back, the PoW winners go
after the guards (to the front without `GUARD_MODE`), and the back is trimmed to `COMM_SIZE`. A VC
block sends each faulty leader to the back; three routines do that, and they locate the leader
differently: `UpdateRetrieveDSCommitteeCompositionAfterVC` by key, `Node::UpdateDSCommitteeComposition
AfterVC` and the DS members' `ProcessViewChangeConsensusWhenDone` by the `(key, peer)` pair, the last
with `Peer()` for the node itself. All three append the leader whether or not they found it.

The DS-block update and the by-key view change read only keys: each refines an update of the key list
alone (`keys_updateDSCommitteeCompositionCore`, `keys_updateRetrieveDSCommitteeCompositionAfterVC`),
so two views listing the same keys keep listing the same keys. The by-pair view changes refine the
same key update only where the view lists the leader with the peer the VC block carries
(`keys_processViewChangeConsensusWhenDone`): a view that knows every other member's peer as the blocks
do keeps agreeing with every other such view over any run of blocks (`views_agree_runBlocks`), and the
key list keeps `COMM_SIZE` distinct keys with the guards in front (`Composed.runKeys`), a DS block
leaving exactly the guards, the winners and the surviving members (`updateKeys_eq`). A view that lists
the leader with another peer does not find it and appends it once more: it then holds `COMM_SIZE + 1`
members with a repeated key (`vc_block_splits_views`).

## Contents
- `moveToBack`, `insertWinner`, `updateDSCommitteeCompositionCore`, and `ejectFaultyLeaders` with its
  three instances; `determineByzantineNodesCore`.
- The key level: `moveKeyToBack`, `updateKeys`, `rotateKeys`, `keyStep`, and the refinement lemmas.
- `updateKeys_eq`, the shape of a committee after a DS block, and the invariant `Composed`.
- `Faithful`, the views that know the members' peers, and the agreement of such views over runs.
-/

namespace Zilliqa

/-- `DequeOfNode`: the DS committee as one node sees it, `(public key, peer)` pairs in order. -/
abbrev DequeOfNode (PubKey Peer : Type) := List (PubKey × Peer)

/-- What the composition updates read of the configuration: `GUARD_MODE`,
    `Guard::GetNumOfDSGuard()` and `COMM_SIZE`. -/
structure CompositionConfig where
  guardMode : Bool
  numOfDSGuard : ℕ
  commSize : ℕ

variable {PubKey Peer : Type} [DecidableEq PubKey]

/-! ## The updates, as the source makes them -/

/-- One removed key of `UpdateDSCommitteeCompositionCore`: the first member with that key goes to
    the back; a key that is not found is skipped. -/
def moveToBack (dsComm : DequeOfNode PubKey Peer) (removedNode : PubKey) :
    DequeOfNode PubKey Peer :=
  match dsComm.find? (fun e => removedNode == e.1) with
  | none => dsComm
  | some e => dsComm.eraseP (fun e => removedNode == e.1) ++ [e]

/-- One PoW winner of `UpdateDSCommitteeCompositionCore`: the node itself goes in as
    `(key, Peer())`; in `GUARD_MODE` the winner goes in after the guards, otherwise in front. -/
def insertWinner [Inhabited Peer] (cfg : CompositionConfig) (selfKeyPub : PubKey) (dsComm : DequeOfNode PubKey Peer)
    (dsPoWWinner : PubKey × Peer) : DequeOfNode PubKey Peer :=
  let entry := if selfKeyPub = dsPoWWinner.1 then (selfKeyPub, default) else dsPoWWinner
  if cfg.guardMode then dsComm.insertIdx cfg.numOfDSGuard entry else entry :: dsComm

/-- **`UpdateDSCommitteeCompositionCore`**: move the removed members to the back, insert the
    winners in the order of the block's map of winners, then pop the back down to `COMM_SIZE`. -/
def updateDSCommitteeCompositionCore [Inhabited Peer] (cfg : CompositionConfig) (selfKeyPub : PubKey)
    (dsComm : DequeOfNode PubKey Peer) (dsPoWWinners : List (PubKey × Peer))
    (removeDSNodePubkeys : List PubKey) : DequeOfNode PubKey Peer :=
  let dsComm := removeDSNodePubkeys.foldl moveToBack dsComm
  let dsComm := dsPoWWinners.foldl (insertWinner cfg selfKeyPub) dsComm
  dsComm.take cfg.commSize

/-- The view-change updates: outside `GUARD_MODE`, for each faulty leader, `locate` erases the
    member found for it (nothing when none is), and `entry` is appended at the back. -/
def ejectFaultyLeaders (guardMode : Bool)
    (locate : DequeOfNode PubKey Peer → PubKey × Peer → DequeOfNode PubKey Peer)
    (entry : PubKey × Peer → PubKey × Peer) (faultyLeaders : List (PubKey × Peer))
    (dsComm : DequeOfNode PubKey Peer) : DequeOfNode PubKey Peer :=
  if guardMode then dsComm
  else faultyLeaders.foldl (fun dsComm faultyLeader => locate dsComm faultyLeader ++ [entry faultyLeader])
    dsComm

/-- `Node::UpdateDSCommitteeCompositionAfterVC`: locate the `(key, peer)` pair, as `(key, Peer())` when
    the block lists the node itself with `Peer()`, and append the block's pair. -/
def updateDSCommitteeCompositionAfterVC [DecidableEq Peer] [Inhabited Peer]
    (cfg : CompositionConfig) (selfKey : PubKey)
    (faultyLeaders : List (PubKey × Peer)) (dsComm : DequeOfNode PubKey Peer) :
    DequeOfNode PubKey Peer :=
  ejectFaultyLeaders cfg.guardMode
    (fun dsComm faultyLeader => dsComm.erase
      (if faultyLeader.1 = selfKey ∧ faultyLeader.2 = default then (faultyLeader.1, default)
        else faultyLeader))
    id faultyLeaders dsComm

/-- `Node::UpdateRetrieveDSCommitteeCompositionAfterVC`: locate by key alone, append the block's
    pair. -/
def updateRetrieveDSCommitteeCompositionAfterVC (cfg : CompositionConfig)
    (faultyLeaders : List (PubKey × Peer)) (dsComm : DequeOfNode PubKey Peer) :
    DequeOfNode PubKey Peer :=
  ejectFaultyLeaders cfg.guardMode
    (fun dsComm faultyLeader => dsComm.eraseP fun p => p.1 == faultyLeader.1)
    id faultyLeaders dsComm

/-- The DS members' update in `DirectoryService::ProcessViewChangeConsensusWhenDone`: a leader the
    block lists with the node's own peer is the node itself, located and appended as
    `(key, Peer())`; any other is located and appended as the block's pair. -/
def processViewChangeConsensusWhenDone [DecidableEq Peer] [Inhabited Peer]
    (cfg : CompositionConfig) (selfPeer : Peer)
    (faultyLeaders : List (PubKey × Peer)) (dsComm : DequeOfNode PubKey Peer) :
    DequeOfNode PubKey Peer :=
  ejectFaultyLeaders cfg.guardMode
    (fun dsComm faultyLeader => dsComm.erase
      (if faultyLeader.2 = selfPeer then (faultyLeader.1, default) else faultyLeader))
    (fun faultyLeader =>
      if faultyLeader.2 = selfPeer then (faultyLeader.1, default) else faultyLeader)
    faultyLeaders dsComm

/-- One member of the loop of `DetermineByzantineNodesCore`: guards are skipped in `GUARD_MODE`; a
    member scoring below the threshold is counted, and listed while fewer than `numToRemove` have
    been counted before it. -/
def checkByzantine (guardMode : Bool) (isNodeInDSGuardList : PubKey → Bool)
    (threshold numToRemove : ℕ) (dsMemberPerformance : PubKey → ℕ) (acc : List PubKey × ℕ)
    (member : PubKey × Peer) : List PubKey × ℕ :=
  if guardMode && isNodeInDSGuardList member.1 then acc
  else if dsMemberPerformance member.1 < threshold then
    (if acc.2 < numToRemove then acc.1 ++ [member.1] else acc.1, (acc.2 + 1) % 2 ^ 32)
  else acc

/-- **`DirectoryService::DetermineByzantineNodesCore`**, given the `uint32_t` threshold the code
    computes as `ceil(performanceThreshold * maxCoSigs)`: from the second epoch on, the members
    scoring below it, guards excepted in `GUARD_MODE`, at most
    `min(maxByzantineRemoved, numOfProposedDSMembers)` of them, and how many were removed. -/
def determineByzantineNodesCore (guardMode : Bool) (isNodeInDSGuardList : PubKey → Bool)
    (numOfProposedDSMembers currentEpochNum threshold maxByzantineRemoved : ℕ)
    (dsComm : DequeOfNode PubKey Peer) (dsMemberPerformance : PubKey → ℕ) : List PubKey × ℕ :=
  if currentEpochNum ≤ 1 then ([], 0)
  else
    let numToRemove := min maxByzantineRemoved numOfProposedDSMembers
    let found := dsComm.foldl
      (checkByzantine guardMode isNodeInDSGuardList threshold numToRemove dsMemberPerformance) ([], 0)
    (found.1, min numToRemove found.2)

/-! ## The key level

What the updates do to the list of keys alone. `UpdateDSCommitteeCompositionCore` and the by-key view
change refine these on every view; the by-pair view changes do on views whose peers are those the
blocks carry. -/

/-- Where a winner goes: after the guards in `GUARD_MODE`, in front otherwise. -/
def guardCount (cfg : CompositionConfig) : ℕ := if cfg.guardMode then cfg.numOfDSGuard else 0

/-- A removed key: sent to the back when present. -/
def moveKeyToBack (ks : List PubKey) (k : PubKey) : List PubKey :=
  if k ∈ ks then ks.erase k ++ [k] else ks

/-- A winner: inserted at the winners' place. -/
def insertKey (cfg : CompositionConfig) (ks : List PubKey) (w : PubKey) : List PubKey :=
  ks.insertIdx (guardCount cfg) w

/-- A DS block on the keys: the removed keys to the back, the winners in, the back trimmed. -/
def updateKeys (cfg : CompositionConfig) (ks winners removed : List PubKey) : List PubKey :=
  (winners.foldl (insertKey cfg) (removed.foldl moveKeyToBack ks)).take cfg.commSize

/-- A faulty leader: erased where present, appended in every case. -/
def rotateKeys (ks : List PubKey) (k : PubKey) : List PubKey := ks.erase k ++ [k]

/-- A VC block on the keys: the faulty leaders to the back, outside `GUARD_MODE`. -/
def ejectKeys (guardMode : Bool) (ks faultyLeaders : List PubKey) : List PubKey :=
  if guardMode then ks else faultyLeaders.foldl rotateKeys ks

theorem map_fst_eraseP_key (l : DequeOfNode PubKey Peer) (k : PubKey) :
    (l.eraseP fun e => k == e.1).map Prod.fst = (l.map Prod.fst).erase k := by
  rw [List.erase_eq_eraseP, List.eraseP_map]
  rfl

theorem keys_moveToBack (l : DequeOfNode PubKey Peer) (k : PubKey) :
    (moveToBack l k).map Prod.fst = moveKeyToBack (l.map Prod.fst) k := by
  unfold moveToBack moveKeyToBack
  cases h : l.find? (fun e => k == e.1) with
  | none =>
    -- no member carries the key, so neither list changes
    have hk : k ∉ l.map Prod.fst := by
      intro hk
      obtain ⟨e, he, hek⟩ := List.mem_map.1 hk
      exact List.find?_eq_none.1 h e he (beq_iff_eq.2 hek.symm)
    rw [if_neg hk]
  | some e =>
    have hfound := List.find?_some h
    have he : e.1 = k := (beq_iff_eq.1 hfound).symm
    have hk : k ∈ l.map Prod.fst := List.mem_map.2 ⟨e, List.mem_of_find?_eq_some h, he⟩
    rw [if_pos hk]
    dsimp only
    rw [List.map_append, map_fst_eraseP_key, List.map_singleton, he]

theorem keys_insertWinner [Inhabited Peer] (cfg : CompositionConfig) (selfKeyPub : PubKey)
    (l : DequeOfNode PubKey Peer) (w : PubKey × Peer) :
    (insertWinner cfg selfKeyPub l w).map Prod.fst = insertKey cfg (l.map Prod.fst) w.1 := by
  have hentry : (if selfKeyPub = w.1 then (selfKeyPub, (default : Peer)) else w).1 = w.1 := by
    split_ifs with h
    · exact h
    · rfl
  unfold insertWinner insertKey guardCount
  cases hg : cfg.guardMode
  · simp only [Bool.false_eq_true, if_false, List.map_cons, hentry, List.insertIdx_zero]
  · simp only [if_true, List.map_insertIdx, hentry]

/-- **The DS block reads keys only**: the keys it leaves depend on the keys of the view alone. -/
theorem keys_updateDSCommitteeCompositionCore [Inhabited Peer] (cfg : CompositionConfig) (selfKeyPub : PubKey)
    (l : DequeOfNode PubKey Peer) (dsPoWWinners : List (PubKey × Peer))
    (removeDSNodePubkeys : List PubKey) :
    (updateDSCommitteeCompositionCore cfg selfKeyPub l dsPoWWinners removeDSNodePubkeys).map
        Prod.fst =
      updateKeys cfg (l.map Prod.fst) (dsPoWWinners.map Prod.fst) removeDSNodePubkeys := by
  have hremove : (removeDSNodePubkeys.foldl moveToBack l).map Prod.fst =
      removeDSNodePubkeys.foldl moveKeyToBack (l.map Prod.fst) :=
    (List.foldl_hom _ fun x y => (keys_moveToBack x y).symm).symm
  have hinsert : ∀ l' : DequeOfNode PubKey Peer,
      (dsPoWWinners.foldl (insertWinner cfg selfKeyPub) l').map Prod.fst =
        (dsPoWWinners.map Prod.fst).foldl (insertKey cfg) (l'.map Prod.fst) := by
    intro l'
    rw [List.foldl_map]
    exact (List.foldl_hom _ fun x y => (keys_insertWinner cfg selfKeyPub x y).symm).symm
  unfold updateDSCommitteeCompositionCore updateKeys
  rw [List.map_take, hinsert, hremove]

/-- A view change whose every step rotates the keys of the view rotates them. -/
theorem keys_ejectFaultyLeaders (guardMode : Bool)
    (locate : DequeOfNode PubKey Peer → PubKey × Peer → DequeOfNode PubKey Peer)
    (entry : PubKey × Peer → PubKey × Peer)
    (hstep : ∀ l faultyLeader, (locate l faultyLeader ++ [entry faultyLeader]).map Prod.fst =
      rotateKeys (l.map Prod.fst) faultyLeader.1)
    (faultyLeaders : List (PubKey × Peer)) (l : DequeOfNode PubKey Peer) :
    (ejectFaultyLeaders guardMode locate entry faultyLeaders l).map Prod.fst =
      ejectKeys guardMode (l.map Prod.fst) (faultyLeaders.map Prod.fst) := by
  unfold ejectFaultyLeaders ejectKeys
  cases guardMode
  · simp only [Bool.false_eq_true, if_false]
    rw [List.foldl_map]
    exact (List.foldl_hom _ fun x y => (hstep x y).symm).symm
  · rfl

/-- A view change through any map of key lists to views whose every step rotates, rotates. -/
theorem ejectFaultyLeaders_hom (guardMode : Bool)
    (locate : DequeOfNode PubKey Peer → PubKey × Peer → DequeOfNode PubKey Peer)
    (entry : PubKey × Peer → PubKey × Peer) (view : List PubKey → DequeOfNode PubKey Peer)
    (leader : PubKey → PubKey × Peer)
    (hstep : ∀ ks k, locate (view ks) (leader k) ++ [entry (leader k)] = view (rotateKeys ks k))
    (faultyLeaders ks : List PubKey) :
    ejectFaultyLeaders guardMode locate entry (faultyLeaders.map leader) (view ks) =
      view (ejectKeys guardMode ks faultyLeaders) := by
  unfold ejectFaultyLeaders ejectKeys
  cases guardMode
  · simp only [Bool.false_eq_true, if_false]
    rw [List.foldl_map]
    exact List.foldl_hom view fun x y => hstep x y
  · rfl

/-- **The by-key view change reads keys only.** -/
theorem keys_updateRetrieveDSCommitteeCompositionAfterVC (cfg : CompositionConfig)
    (faultyLeaders : List (PubKey × Peer)) (l : DequeOfNode PubKey Peer) :
    (updateRetrieveDSCommitteeCompositionAfterVC cfg faultyLeaders l).map Prod.fst =
      ejectKeys cfg.guardMode (l.map Prod.fst) (faultyLeaders.map Prod.fst) := by
  refine keys_ejectFaultyLeaders _ _ _ (fun l faultyLeader => ?_) _ _
  have hpred : (fun p : PubKey × Peer => p.1 == faultyLeader.1) = fun p => faultyLeader.1 == p.1 :=
    funext fun _ => Bool.beq_comm
  rw [List.map_append, hpred, map_fst_eraseP_key]
  rfl

/-! ## The committee after a block

What a committee of `COMM_SIZE` distinct keys, the guards in front, looks like after a DS block
(`updateKeys_eq`), and that each block keeps it so (`Composed.keyStep`), hence every run of blocks
(`Composed.runKeys`). -/

theorem insertIdx_eq_take_append_drop {α : Type} (a : α) :
    ∀ (n : ℕ) (l : List α), n ≤ l.length → l.insertIdx n a = l.take n ++ a :: l.drop n
  | 0, l, _ => List.insertIdx_zero
  | n + 1, [], h => absurd h (by simp)
  | n + 1, b :: l, h => by
    rw [List.insertIdx_succ_cons, insertIdx_eq_take_append_drop a n l (Nat.le_of_succ_le_succ h)]
    rfl

/-- Sending a member to the back reorders the committee. -/
theorem rotateKeys_perm {ks : List PubKey} {k : PubKey} (h : k ∈ ks) :
    (rotateKeys ks k).Perm ks :=
  (List.perm_append_singleton k (ks.erase k)).trans (List.perm_cons_erase h).symm

omit [DecidableEq PubKey] in
/-- The winners, inserted one by one at the same place, stand there in reverse order. -/
theorem foldl_insertKey (cfg : CompositionConfig) :
    ∀ (winners l : List PubKey), guardCount cfg ≤ l.length →
      winners.foldl (insertKey cfg) l =
        l.take (guardCount cfg) ++ winners.reverse ++ l.drop (guardCount cfg)
  | [], l, _ => by simp
  | w :: winners, l, h => by
    have hins : insertKey cfg l w = l.take (guardCount cfg) ++ w :: l.drop (guardCount cfg) :=
      insertIdx_eq_take_append_drop w _ l h
    have htake : (l.take (guardCount cfg)).length = guardCount cfg := List.length_take_of_le h
    have hlen : guardCount cfg ≤ (insertKey cfg l w).length := by
      rw [hins, List.length_append, htake]
      exact Nat.le_add_right _ _
    rw [List.foldl_cons, foldl_insertKey cfg winners _ hlen, hins, List.take_left' htake,
      List.drop_left' htake]
    simp

/-- The removed members, distinct and all present, end at the back in the order of the list. -/
theorem foldl_moveKeyToBack :
    ∀ (removed ks : List PubKey), ks.Nodup → removed.Nodup → (∀ r ∈ removed, r ∈ ks) →
      removed.foldl moveKeyToBack ks = ks.filter (fun k => k ∉ removed) ++ removed
  | [], ks, _, _, _ => by simp
  | r :: removed, ks, hks, hrem, hsub => by
    obtain ⟨hr, hremoved⟩ := List.nodup_cons.1 hrem
    have hrks : r ∈ ks := hsub r List.mem_cons_self
    have hmove : moveKeyToBack ks r = rotateKeys ks r := if_pos hrks
    have hsub' : ∀ r' ∈ removed, r' ∈ rotateKeys ks r := by
      intro r' hr'
      have hne : r' ≠ r := fun h => hr (h ▸ hr')
      exact (rotateKeys_perm hrks).mem_iff.2 (hsub r' (List.mem_cons_of_mem _ hr'))
    have hnd : (rotateKeys ks r).Nodup := (rotateKeys_perm hrks).nodup_iff.2 hks
    rw [List.foldl_cons, hmove, foldl_moveKeyToBack removed _ hnd hremoved hsub', rotateKeys,
      List.filter_append, hks.erase_eq_filter, List.filter_filter]
    simp only [List.filter_cons, List.filter_nil, List.mem_cons, not_or, hr, decide_not]
    -- what is left is `a != r` against `!decide (a = r)`, one and the same test
    simp [Bool.and_comm]
    rfl

/-- With no removed key among the first `n`, those stay in front. -/
theorem filter_not_mem_eq_take_append {ks removed : List PubKey} (n : ℕ) (hks : ks.Nodup)
    (hsub : ∀ r ∈ removed, r ∈ ks.drop n) :
    ks.filter (fun k => k ∉ removed) = ks.take n ++ (ks.drop n).filter (fun k => k ∉ removed) := by
  conv_lhs => rw [← List.take_append_drop n ks]
  rw [List.filter_append, List.filter_eq_self.2]
  intro k hk
  have hdisj := List.disjoint_take_drop hks (Nat.le_refl n)
  simp only [decide_eq_true_eq]
  exact fun hr => hdisj hk (hsub k hr)

theorem length_filter_not_mem {l removed : List PubKey} (hl : l.Nodup) (hrem : removed.Nodup)
    (hsub : ∀ r ∈ removed, r ∈ l) :
    (l.filter fun k => k ∉ removed).length + removed.length = l.length := by
  have hperm : (l.filter fun k => k ∈ removed).Perm removed := by
    refine (List.perm_ext_iff_of_nodup (hl.filter _) hrem).2 fun a => ?_
    simp only [List.mem_filter, decide_eq_true_eq]
    exact ⟨fun h => h.2, fun h => ⟨hsub a h, h⟩⟩
  conv_rhs => rw [List.length_eq_length_filter_add (fun k => decide (k ∈ removed)), hperm.length_eq]
  simp only [decide_not]
  omega

/-- **The committee after a DS block**: the guards, then the winners (the last inserted first), then
    the old members that were not removed, in their previous order, as many as `COMM_SIZE` leaves
    room for. -/
theorem updateKeys_eq (cfg : CompositionConfig) {ks winners removed : List PubKey} (hks : ks.Nodup)
    (hlen : ks.length = cfg.commSize) (hsub : removed.Sublist (ks.drop (guardCount cfg)))
    (hfit : guardCount cfg + winners.length ≤ cfg.commSize)
    (hle : removed.length ≤ winners.length) :
    updateKeys cfg ks winners removed =
      ks.take (guardCount cfg) ++ winners.reverse ++
        ((ks.drop (guardCount cfg)).filter fun k => k ∉ removed).take
          (cfg.commSize - guardCount cfg - winners.length) := by
  have hdrop : (ks.drop (guardCount cfg)).Nodup := hks.sublist (List.drop_sublist _ _)
  have hrem : removed.Nodup := hdrop.sublist hsub
  have hmem : ∀ r ∈ removed, r ∈ ks.drop (guardCount cfg) := fun r hr => hsub.subset hr
  have hsurvive := length_filter_not_mem hdrop hrem hmem
  have htake : (ks.take (guardCount cfg)).length = guardCount cfg :=
    List.length_take_of_le (by omega)
  unfold updateKeys
  rw [foldl_moveKeyToBack removed ks hks hrem fun r hr => List.mem_of_mem_drop (hmem r hr),
    filter_not_mem_eq_take_append _ hks hmem, List.append_assoc,
    foldl_insertKey cfg winners _ (by simp [htake]), List.take_left' htake,
    List.drop_left' htake, List.take_append]
  have hfront : (ks.take (guardCount cfg) ++ winners.reverse).length ≤ cfg.commSize := by
    simp [htake, hfit]
  rw [List.take_of_length_le hfront, List.take_append_of_le_length]
  · simp [htake, Nat.sub_sub]
  · simp only [List.length_append, htake, List.length_reverse, List.length_drop] at hsurvive ⊢
    omega

/-- A committee as the nodes keep it: `COMM_SIZE` distinct keys, and in `GUARD_MODE` the guards
    exactly the first `GetNumOfDSGuard()` of them. -/
structure Composed (cfg : CompositionConfig) (isGuard : PubKey → Bool) (ks : List PubKey) :
    Prop where
  nodup : ks.Nodup
  length_eq : ks.length = cfg.commSize
  guards_first : cfg.guardMode = true → ∀ k, isGuard k = true ↔ k ∈ ks.take cfg.numOfDSGuard

/-- What a DS block brings: distinct winners new to the committee, fitting after the guards, and
    at most as many removed members as winners, none of them a guard. -/
structure ValidDSBlock (cfg : CompositionConfig) (ks winners removed : List PubKey) : Prop where
  winners_nodup : winners.Nodup
  winners_fresh : ∀ w ∈ winners, w ∉ ks
  removed_sublist : removed.Sublist (ks.drop (guardCount cfg))
  removed_le : removed.length ≤ winners.length
  fits : guardCount cfg + winners.length ≤ cfg.commSize

section Composed

variable {cfg : CompositionConfig} {isGuard : PubKey → Bool} {ks : List PubKey}

/-- **A DS block keeps the committee composed.** -/
theorem Composed.updateKeys (h : Composed cfg isGuard ks) {winners removed : List PubKey}
    (hb : ValidDSBlock cfg ks winners removed) :
    Composed cfg isGuard (updateKeys cfg ks winners removed) := by
  rw [updateKeys_eq cfg h.nodup h.length_eq hb.removed_sublist hb.fits hb.removed_le]
  have htake : (ks.take (guardCount cfg)).length = guardCount cfg :=
    List.length_take_of_le (by have := hb.fits; have := h.length_eq; omega)
  have hsurvive := length_filter_not_mem (h.nodup.sublist (List.drop_sublist _ _))
    (h.nodup.sublist (hb.removed_sublist.trans (List.drop_sublist _ _)))
    fun r hr => hb.removed_sublist.subset hr
  -- the survivors are old members past the guards
  have hsurv : ∀ k ∈ ((ks.drop (guardCount cfg)).filter fun k => k ∉ removed).take
      (cfg.commSize - guardCount cfg - winners.length), k ∈ ks.drop (guardCount cfg) :=
    fun k hk => (List.mem_filter.1 (List.mem_of_mem_take hk)).1
  have hdisj := List.disjoint_take_drop h.nodup (Nat.le_refl (guardCount cfg))
  refine ⟨?_, ?_, ?_⟩
  · refine List.Nodup.append (List.Nodup.append (h.nodup.sublist (List.take_sublist _ _))
      (List.nodup_reverse.2 hb.winners_nodup) ?_) ?_ ?_
    · intro k hk hw
      exact hb.winners_fresh k (List.mem_reverse.1 hw) (List.mem_of_mem_take hk)
    · exact ((h.nodup.sublist (List.drop_sublist _ _)).filter _).sublist (List.take_sublist _ _)
    · intro k hk hs
      rcases List.mem_append.1 hk with hk | hk
      · exact hdisj hk (hsurv k hs)
      · exact hb.winners_fresh k (List.mem_reverse.1 hk) (List.mem_of_mem_drop (hsurv k hs))
  · simp only [List.length_append, List.length_reverse, List.length_take, htake, List.length_drop]
      at hsurvive ⊢
    have := hb.fits
    have := hb.removed_le
    have := h.length_eq
    omega
  · intro hg k
    have hG : guardCount cfg = cfg.numOfDSGuard := if_pos hg
    rw [List.append_assoc, ← hG, List.take_left' htake, hG]
    exact h.guards_first hg k

/-- Faulty leaders that are members are only reordered. -/
theorem foldl_rotateKeys_perm :
    ∀ (faultyLeaders ks : List PubKey), (∀ k ∈ faultyLeaders, k ∈ ks) →
      (faultyLeaders.foldl rotateKeys ks).Perm ks
  | [], _, _ => List.Perm.refl _
  | k :: rest, ks, h => by
    have hk := rotateKeys_perm (h k List.mem_cons_self)
    have hrest : ∀ k' ∈ rest, k' ∈ rotateKeys ks k :=
      fun k' hk' => hk.mem_iff.2 (h k' (List.mem_cons_of_mem _ hk'))
    exact (foldl_rotateKeys_perm rest _ hrest).trans hk

/-- **A VC block naming members keeps the committee composed.** -/
theorem Composed.ejectKeys (h : Composed cfg isGuard ks) {faultyLeaders : List PubKey}
    (hmem : ∀ k ∈ faultyLeaders, k ∈ ks) :
    Composed cfg isGuard (ejectKeys cfg.guardMode ks faultyLeaders) := by
  unfold Zilliqa.ejectKeys
  cases hg : cfg.guardMode
  · have hperm := foldl_rotateKeys_perm faultyLeaders ks hmem
    refine ⟨hperm.nodup_iff.2 h.nodup, hperm.length_eq.trans h.length_eq, ?_⟩
    intro hfalse
    exact absurd (hg.symm.trans hfalse) Bool.false_ne_true
  · exact h

end Composed

/-! ## The removal list

`DetermineByzantineNodesCore` lists, in committee order, the non-guard members scoring below the
threshold, and stops listing at `numToRemove` of them; on a composed committee that makes the DS
block's removal list valid (`validDSBlock_of_determineByzantineNodesCore`). -/

section Removal

omit [DecidableEq PubKey]

variable (guardMode : Bool) (isNodeInDSGuardList : PubKey → Bool) (threshold numToRemove : ℕ)
  (dsMemberPerformance : PubKey → ℕ)

/-- One member of the loop: the list grows by that member, a non-guard, or not at all, and stays
    within both the count and `numToRemove`. -/
theorem checkByzantine_spec {acc acc' : List PubKey × ℕ} {member : PubKey × Peer}
    (hstep : checkByzantine guardMode isNodeInDSGuardList threshold numToRemove dsMemberPerformance
      acc member = acc')
    (hcount : acc.2 + 1 < 2 ^ 32) (hlisted : acc.1.length ≤ acc.2)
    (hcap : acc.1.length ≤ numToRemove) :
    (acc'.1 = acc.1 ∨
        acc'.1 = acc.1 ++ [member.1] ∧ (guardMode && isNodeInDSGuardList member.1) = false) ∧
      acc'.2 ≤ acc.2 + 1 ∧ acc'.1.length ≤ acc'.2 ∧ acc'.1.length ≤ numToRemove := by
  subst hstep
  unfold checkByzantine
  by_cases hg : (guardMode && isNodeInDSGuardList member.1) = true
  · rw [if_pos hg]
    exact ⟨.inl rfl, Nat.le_succ _, hlisted, hcap⟩
  · rw [if_neg hg]
    have hguard : (guardMode && isNodeInDSGuardList member.1) = false := by simpa using hg
    -- the `unsigned int` count does not wrap on a committee that fits in memory
    have hmod : (acc.2 + 1) % 2 ^ 32 = acc.2 + 1 := Nat.mod_eq_of_lt hcount
    by_cases hlow : dsMemberPerformance member.1 < threshold
    · rw [if_pos hlow]
      by_cases hroom : acc.2 < numToRemove
      · rw [if_pos hroom]
        dsimp only
        rw [hmod, List.length_append, List.length_singleton]
        exact ⟨.inr ⟨rfl, hguard⟩, Nat.le_refl _, by omega, by omega⟩
      · rw [if_neg hroom]
        dsimp only
        rw [hmod]
        exact ⟨.inl rfl, Nat.le_refl _, by omega, hcap⟩
    · rw [if_neg hlow]
      exact ⟨.inl rfl, Nat.le_succ _, hlisted, hcap⟩

/-- The whole loop: what it lists past the seed are non-guard members in committee order, and no
    more than `numToRemove` in all. -/
theorem foldl_checkByzantine :
    ∀ (dsComm : DequeOfNode PubKey Peer) (acc : List PubKey × ℕ),
      acc.2 + dsComm.length < 2 ^ 32 → acc.1.length ≤ acc.2 → acc.1.length ≤ numToRemove →
        (dsComm.foldl (checkByzantine guardMode isNodeInDSGuardList threshold numToRemove
            dsMemberPerformance) acc).1.Sublist
          (acc.1 ++ (dsComm.map Prod.fst).filter fun k => !(guardMode && isNodeInDSGuardList k)) ∧
        (dsComm.foldl (checkByzantine guardMode isNodeInDSGuardList threshold numToRemove
            dsMemberPerformance) acc).1.length ≤ numToRemove
  | [], acc, _, _, hcap => ⟨by simp, hcap⟩
  | member :: rest, acc, hcount, hlisted, hcap => by
    have hlen : acc.2 + 1 + rest.length < 2 ^ 32 := by
      rw [List.length_cons] at hcount
      omega
    obtain ⟨hgrow, hle, hlisted', hcap'⟩ := checkByzantine_spec guardMode isNodeInDSGuardList
      threshold numToRemove dsMemberPerformance rfl (by omega) hlisted hcap
    have ih := foldl_checkByzantine rest _ (by omega) hlisted' hcap'
    rw [List.foldl_cons]
    refine ⟨ih.1.trans ?_, ih.2⟩
    -- a listed member takes its own place in the filter of the committee
    rcases hgrow with h | ⟨h, hguard⟩
    · rw [h]
      exact ((List.sublist_cons_self member.1 _).filter _).append_left _
    · rw [h, List.append_assoc, List.map_cons, List.filter_cons_of_pos (by simp [hguard])]
      exact List.Sublist.refl _

/-- **The removal list of `DetermineByzantineNodesCore`**: non-guard members in committee order,
    at most `min(maxByzantineRemoved, numOfProposedDSMembers)` of them. -/
theorem determineByzantineNodesCore_removed
    (numOfProposedDSMembers currentEpochNum maxByzantineRemoved : ℕ)
    (dsComm : DequeOfNode PubKey Peer) (hlen : dsComm.length < 2 ^ 32) :
    (determineByzantineNodesCore guardMode isNodeInDSGuardList numOfProposedDSMembers
        currentEpochNum threshold maxByzantineRemoved dsComm dsMemberPerformance).1.Sublist
      ((dsComm.map Prod.fst).filter fun k => !(guardMode && isNodeInDSGuardList k)) ∧
    (determineByzantineNodesCore guardMode isNodeInDSGuardList numOfProposedDSMembers
        currentEpochNum threshold maxByzantineRemoved dsComm dsMemberPerformance).1.length ≤
      min maxByzantineRemoved numOfProposedDSMembers := by
  unfold determineByzantineNodesCore
  split_ifs
  · exact ⟨List.nil_sublist _, Nat.zero_le _⟩
  · have h := foldl_checkByzantine guardMode isNodeInDSGuardList threshold
      (min maxByzantineRemoved numOfProposedDSMembers) dsMemberPerformance dsComm ([], 0)
      (by simpa using hlen) (Nat.le_refl _) (Nat.zero_le _)
    rw [List.nil_append] at h
    exact h

/-- In a composed committee the members that are not guards are those past the guards' places. -/
theorem Composed.filter_not_guard {cfg : CompositionConfig} {isGuard : PubKey → Bool}
    {ks : List PubKey} (h : Composed cfg isGuard ks) :
    ks.filter (fun k => !(cfg.guardMode && isGuard k)) = ks.drop (guardCount cfg) := by
  unfold guardCount
  cases hg : cfg.guardMode
  · simp
  · have hG := h.guards_first hg
    have hdisj := List.disjoint_take_drop h.nodup (Nat.le_refl cfg.numOfDSGuard)
    have htake : (ks.take cfg.numOfDSGuard).filter (fun k => !isGuard k) = [] :=
      List.filter_eq_nil_iff.2 fun k hk => by simp [(hG k).2 hk]
    have hdrop : (ks.drop cfg.numOfDSGuard).filter (fun k => !isGuard k) =
        ks.drop cfg.numOfDSGuard := by
      refine List.filter_eq_self.2 fun k hk => ?_
      cases hk' : isGuard k
      · rfl
      · exact absurd ((hG k).1 hk') fun ht => hdisj ht hk
    simp only [if_true, Bool.true_and]
    conv_lhs => rw [← List.take_append_drop cfg.numOfDSGuard ks]
    rw [List.filter_append, htake, hdrop, List.nil_append]

/-- **A DS block whose removal list comes from `DetermineByzantineNodesCore`** on a composed
    committee, with distinct new winners that fit after the guards and are the proposed members,
    is valid. -/
theorem validDSBlock_of_determineByzantineNodesCore {cfg : CompositionConfig}
    {isGuard : PubKey → Bool} {ks : List PubKey} (h : Composed cfg isGuard ks)
    {dsComm : DequeOfNode PubKey Peer} (hkeys : dsComm.map Prod.fst = ks)
    {winners : List PubKey} (hnodup : winners.Nodup) (hfresh : ∀ w ∈ winners, w ∉ ks)
    (hfit : guardCount cfg + winners.length ≤ cfg.commSize) (hsize : cfg.commSize < 2 ^ 32)
    (currentEpochNum threshold maxByzantineRemoved : ℕ) (dsMemberPerformance : PubKey → ℕ) :
    ValidDSBlock cfg ks winners
      (determineByzantineNodesCore cfg.guardMode isGuard winners.length currentEpochNum threshold
        maxByzantineRemoved dsComm dsMemberPerformance).1 := by
  have hlen : dsComm.length < 2 ^ 32 := by
    have hmap : (dsComm.map Prod.fst).length = dsComm.length := List.length_map _
    rw [← hmap, hkeys, h.length_eq]
    exact hsize
  obtain ⟨hsub, hle⟩ := determineByzantineNodesCore_removed cfg.guardMode isGuard threshold
    dsMemberPerformance winners.length currentEpochNum maxByzantineRemoved dsComm hlen
  rw [hkeys, h.filter_not_guard] at hsub
  exact ⟨hnodup, hfresh, hsub, Nat.le_trans hle (Nat.min_le_right _ _), hfit⟩

end Removal

/-! ## Views that know the members' peers

A DS member that knows every other member's peer as the blocks carry it holds, for each key, one
entry: `(key, Peer())` for itself and `(key, peer)` for the others. On such views the by-pair view
change finds every faulty leader, and every update is the key update read through the entries. -/

/-- The entry a DS member holds for `k` when it knows the members' peers: `(k, Peer())` for its own
    key, `(k, peerOf k)` for any other. -/
def trueEntry [Inhabited Peer] (selfKey : PubKey) (peerOf : PubKey → Peer) (k : PubKey) :
    PubKey × Peer :=
  if k = selfKey then (k, default) else (k, peerOf k)

section TrueEntry

variable [Inhabited Peer] (selfKey : PubKey) (peerOf : PubKey → Peer)

@[simp] theorem trueEntry_fst (k : PubKey) : (trueEntry selfKey peerOf k).1 = k := by
  unfold trueEntry
  split_ifs <;> rfl

theorem trueEntry_injective : Function.Injective (trueEntry selfKey peerOf) := by
  intro a b h
  rw [← trueEntry_fst selfKey peerOf a, h, trueEntry_fst]

@[simp] theorem keys_map_trueEntry (ks : List PubKey) :
    (ks.map (trueEntry selfKey peerOf)).map Prod.fst = ks := by
  have hfst : Prod.fst ∘ trueEntry selfKey peerOf = id := funext (trueEntry_fst selfKey peerOf)
  rw [List.map_map, hfst, List.map_id]

end TrueEntry

omit [DecidableEq PubKey] in
/-- Pairs that carry the members' peers are their keys read through `peerOf`. -/
theorem map_truePeers_fst {peerOf : PubKey → Peer} {ps : List (PubKey × Peer)}
    (h : ∀ p ∈ ps, p.2 = peerOf p.1) : (ps.map Prod.fst).map (fun k => (k, peerOf k)) = ps := by
  rw [List.map_map]
  conv_rhs => rw [← List.map_id ps]
  exact List.map_congr_left fun p hp => Prod.ext rfl (h p hp).symm

theorem find?_beq_self (ks : List PubKey) (k : PubKey) :
    ks.find? (fun x => k == x) = if k ∈ ks then some k else none := by
  split_ifs with hk
  · cases h : ks.find? (fun x => k == x) with
    | none => exact absurd (List.find?_eq_none.1 h k hk) (by simp)
    | some x =>
      have hfound := List.find?_some h
      rw [beq_iff_eq.1 hfound]
  · refine List.find?_eq_none.2 fun x hx hkx => hk ?_
    rw [beq_iff_eq.1 hkx]
    exact hx

theorem moveToBack_map [Inhabited Peer] (selfKey : PubKey) (peerOf : PubKey → Peer)
    (ks : List PubKey) (k : PubKey) :
    moveToBack (ks.map (trueEntry selfKey peerOf)) k =
      (moveKeyToBack ks k).map (trueEntry selfKey peerOf) := by
  have hpred : ((fun e : PubKey × Peer => k == e.1) ∘ trueEntry selfKey peerOf) =
      fun x => k == x := funext fun x => by simp
  unfold moveToBack moveKeyToBack
  rw [List.find?_map, hpred, find?_beq_self]
  by_cases hk : k ∈ ks
  · rw [if_pos hk, if_pos hk, Option.map_some]
    dsimp only
    rw [List.eraseP_map, hpred, ← List.erase_eq_eraseP, List.map_append, List.map_singleton]
  · rw [if_neg hk, if_neg hk, Option.map_none]

theorem insertWinner_map [Inhabited Peer] (cfg : CompositionConfig) (selfKey : PubKey)
    (peerOf : PubKey → Peer) (ks : List PubKey) (k : PubKey) :
    insertWinner cfg selfKey (ks.map (trueEntry selfKey peerOf)) (k, peerOf k) =
      (insertKey cfg ks k).map (trueEntry selfKey peerOf) := by
  -- the winner's entry is its true entry, the node itself included
  have hentry : (if selfKey = k then (selfKey, default) else (k, peerOf k)) =
      trueEntry selfKey peerOf k := by
    unfold trueEntry
    by_cases h : k = selfKey
    · rw [if_pos h.symm, if_pos h, h]
    · rw [if_neg (Ne.symm h), if_neg h]
  unfold insertWinner insertKey guardCount
  dsimp only
  rw [hentry]
  cases cfg.guardMode
  · simp only [Bool.false_eq_true, if_false, List.insertIdx_zero, List.map_cons]
  · simp only [if_true, List.map_insertIdx]

/-- **A DS block on a view of true entries** is the key update read through the entries. -/
theorem updateDSCommitteeCompositionCore_map [Inhabited Peer] (cfg : CompositionConfig)
    (selfKey : PubKey) {peerOf : PubKey → Peer} (ks : List PubKey)
    {dsPoWWinners : List (PubKey × Peer)} (removeDSNodePubkeys : List PubKey)
    (hwinners : ∀ w ∈ dsPoWWinners, w.2 = peerOf w.1) :
    updateDSCommitteeCompositionCore cfg selfKey (ks.map (trueEntry selfKey peerOf)) dsPoWWinners
        removeDSNodePubkeys =
      (updateKeys cfg ks (dsPoWWinners.map Prod.fst) removeDSNodePubkeys).map
        (trueEntry selfKey peerOf) := by
  have hremove : removeDSNodePubkeys.foldl moveToBack (ks.map (trueEntry selfKey peerOf)) =
      (removeDSNodePubkeys.foldl moveKeyToBack ks).map (trueEntry selfKey peerOf) :=
    List.foldl_hom _ fun x y => moveToBack_map selfKey peerOf x y
  have hinsert : ∀ ks' : List PubKey,
      ((dsPoWWinners.map Prod.fst).map fun k => (k, peerOf k)).foldl (insertWinner cfg selfKey)
          (ks'.map (trueEntry selfKey peerOf)) =
        ((dsPoWWinners.map Prod.fst).foldl (insertKey cfg) ks').map (trueEntry selfKey peerOf) := by
    intro ks'
    rw [List.foldl_map]
    exact List.foldl_hom _ fun x y => insertWinner_map cfg selfKey peerOf x y
  rw [map_truePeers_fst hwinners] at hinsert
  unfold updateDSCommitteeCompositionCore updateKeys
  dsimp only
  rw [hremove, hinsert, List.map_take]

/-- **A VC block on a view of true entries**, at a DS member whose peer is its own: every faulty
    leader is found, and the update is the key rotation read through the entries. -/
theorem processViewChangeConsensusWhenDone_map [DecidableEq Peer] [Inhabited Peer]
    (cfg : CompositionConfig) (selfKey : PubKey) {peerOf : PubKey → Peer}
    (hinj : Function.Injective peerOf) (ks : List PubKey) {faultyLeaders : List (PubKey × Peer)}
    (hleaders : ∀ fl ∈ faultyLeaders, fl.2 = peerOf fl.1) :
    processViewChangeConsensusWhenDone cfg (peerOf selfKey) faultyLeaders
        (ks.map (trueEntry selfKey peerOf)) =
      (ejectKeys cfg.guardMode ks (faultyLeaders.map Prod.fst)).map (trueEntry selfKey peerOf) := by
  -- a leader the block lists with the node's own peer is the node itself
  have htarget : ∀ k : PubKey,
      (if peerOf k = peerOf selfKey then (k, default) else (k, peerOf k)) =
        trueEntry selfKey peerOf k := by
    intro k
    unfold trueEntry
    simp only [hinj.eq_iff]
  have h := ejectFaultyLeaders_hom cfg.guardMode
    (fun dsComm faultyLeader => dsComm.erase
      (if faultyLeader.2 = peerOf selfKey then (faultyLeader.1, default) else faultyLeader))
    (fun faultyLeader =>
      if faultyLeader.2 = peerOf selfKey then (faultyLeader.1, default) else faultyLeader)
    (fun ks => ks.map (trueEntry selfKey peerOf)) (fun k => (k, peerOf k))
    (fun ks k => by
      dsimp only
      rw [htarget, ← List.map_erase (trueEntry_injective selfKey peerOf), rotateKeys,
        List.map_append, List.map_singleton])
    (faultyLeaders.map Prod.fst) ks
  rw [map_truePeers_fst hleaders] at h
  exact h

/-- **`Node::UpdateDSCommitteeCompositionAfterVC` on a view of the members' peers**, the view of a
    node outside the committee: every faulty leader is found, and the update is the key rotation. -/
theorem updateDSCommitteeCompositionAfterVC_map [DecidableEq Peer] [Inhabited Peer]
    (cfg : CompositionConfig) (selfKey : PubKey) {peerOf : PubKey → Peer} (ks : List PubKey)
    {faultyLeaders : List (PubKey × Peer)} (hleaders : ∀ fl ∈ faultyLeaders, fl.2 = peerOf fl.1) :
    updateDSCommitteeCompositionAfterVC cfg selfKey faultyLeaders (ks.map fun k => (k, peerOf k)) =
      (ejectKeys cfg.guardMode ks (faultyLeaders.map Prod.fst)).map fun k => (k, peerOf k) := by
  -- the node's own `(key, Peer())` case names the same pair
  have htarget : ∀ k : PubKey,
      (if k = selfKey ∧ peerOf k = default then (k, default) else (k, peerOf k)) = (k, peerOf k) := by
    intro k
    split_ifs with h
    · rw [h.2]
    · rfl
  have hinj : Function.Injective fun k : PubKey => (k, peerOf k) :=
    fun a b h => congrArg Prod.fst h
  have h := ejectFaultyLeaders_hom cfg.guardMode
    (fun dsComm faultyLeader => dsComm.erase
      (if faultyLeader.1 = selfKey ∧ faultyLeader.2 = default then (faultyLeader.1, default)
        else faultyLeader))
    id (fun ks => ks.map fun k => (k, peerOf k)) (fun k => (k, peerOf k))
    (fun ks k => by
      dsimp only
      rw [htarget, ← List.map_erase hinj, rotateKeys, List.map_append, List.map_singleton, id])
    (faultyLeaders.map Prod.fst) ks
  rw [map_truePeers_fst hleaders] at h
  exact h

/-! ## Runs of blocks -/

/-- The blocks that change the composition: a DS block with its PoW winners and the removal list,
    a VC block with its faulty leaders. -/
inductive CompositionBlock (PubKey Peer : Type) where
  | ds (dsPoWWinners : List (PubKey × Peer)) (removeDSNodePubkeys : List PubKey)
  | vc (faultyLeaders : List (PubKey × Peer))

/-- A block whose every pair names the member's peer. -/
def CompositionBlock.TruePeers (peerOf : PubKey → Peer) : CompositionBlock PubKey Peer → Prop
  | .ds dsPoWWinners _ => ∀ w ∈ dsPoWWinners, w.2 = peerOf w.1
  | .vc faultyLeaders => ∀ fl ∈ faultyLeaders, fl.2 = peerOf fl.1

/-- How a DS member applies a block to its view. -/
def processBlock [DecidableEq Peer] [Inhabited Peer] (cfg : CompositionConfig) (selfKey : PubKey)
    (selfPeer : Peer) (dsComm : DequeOfNode PubKey Peer) :
    CompositionBlock PubKey Peer → DequeOfNode PubKey Peer
  | .ds dsPoWWinners removeDSNodePubkeys =>
    updateDSCommitteeCompositionCore cfg selfKey dsComm dsPoWWinners removeDSNodePubkeys
  | .vc faultyLeaders => processViewChangeConsensusWhenDone cfg selfPeer faultyLeaders dsComm

/-- A DS member's view after a run of blocks. -/
def runBlocks [DecidableEq Peer] [Inhabited Peer] (cfg : CompositionConfig) (selfKey : PubKey)
    (selfPeer : Peer) (dsComm : DequeOfNode PubKey Peer)
    (blocks : List (CompositionBlock PubKey Peer)) : DequeOfNode PubKey Peer :=
  blocks.foldl (processBlock cfg selfKey selfPeer) dsComm

/-- What a block does to the keys. -/
def keyStep (cfg : CompositionConfig) (ks : List PubKey) :
    CompositionBlock PubKey Peer → List PubKey
  | .ds dsPoWWinners removeDSNodePubkeys =>
    updateKeys cfg ks (dsPoWWinners.map Prod.fst) removeDSNodePubkeys
  | .vc faultyLeaders => ejectKeys cfg.guardMode ks (faultyLeaders.map Prod.fst)

/-- The keys after a run of blocks. -/
def runKeys (cfg : CompositionConfig) (ks : List PubKey)
    (blocks : List (CompositionBlock PubKey Peer)) : List PubKey :=
  blocks.foldl (keyStep cfg) ks

/-- What a block must bring for the committee to stay composed: for a DS block, the conditions of
    `ValidDSBlock`; for a VC block, faulty leaders that are members. -/
def ValidBlock (cfg : CompositionConfig) (ks : List PubKey) :
    CompositionBlock PubKey Peer → Prop
  | .ds dsPoWWinners removeDSNodePubkeys =>
    ValidDSBlock cfg ks (dsPoWWinners.map Prod.fst) removeDSNodePubkeys
  | .vc faultyLeaders => ∀ fl ∈ faultyLeaders, fl.1 ∈ ks

/-- A run of blocks, each valid on the committee it meets. -/
def ValidRun (cfg : CompositionConfig) : List PubKey → List (CompositionBlock PubKey Peer) → Prop
  | _, [] => True
  | ks, b :: blocks => ValidBlock cfg ks b ∧ ValidRun cfg (keyStep cfg ks b) blocks

/-- **A valid block keeps the committee composed.** -/
theorem Composed.keyStep {cfg : CompositionConfig} {isGuard : PubKey → Bool} {ks : List PubKey}
    (h : Composed cfg isGuard ks) {b : CompositionBlock PubKey Peer} (hb : ValidBlock cfg ks b) :
    Composed cfg isGuard (keyStep cfg ks b) := by
  cases b with
  | ds dsPoWWinners removeDSNodePubkeys => exact h.updateKeys hb
  | vc faultyLeaders =>
    refine h.ejectKeys fun k hk => ?_
    obtain ⟨fl, hfl, rfl⟩ := List.mem_map.1 hk
    exact hb fl hfl

/-- **Over any valid run the committee stays composed**: `COMM_SIZE` distinct keys, the guards in
    front. -/
theorem Composed.runKeys {cfg : CompositionConfig} {isGuard : PubKey → Bool} :
    ∀ {ks : List PubKey} (blocks : List (CompositionBlock PubKey Peer)),
      Composed cfg isGuard ks → ValidRun cfg ks blocks →
        Composed cfg isGuard (Zilliqa.runKeys cfg ks blocks)
  | _, [], h, _ => h
  | _, _ :: blocks, h, hrun => Composed.runKeys blocks (h.keyStep hrun.1) hrun.2

/-- A DS member's view of true entries meets a block that names the members' peers. -/
theorem processBlock_map [DecidableEq Peer] [Inhabited Peer] (cfg : CompositionConfig)
    (selfKey : PubKey) {peerOf : PubKey → Peer} (hinj : Function.Injective peerOf)
    (ks : List PubKey) {b : CompositionBlock PubKey Peer} (hb : b.TruePeers peerOf) :
    processBlock cfg selfKey (peerOf selfKey) (ks.map (trueEntry selfKey peerOf)) b =
      (keyStep cfg ks b).map (trueEntry selfKey peerOf) := by
  cases b with
  | ds dsPoWWinners removeDSNodePubkeys =>
    exact updateDSCommitteeCompositionCore_map cfg selfKey ks removeDSNodePubkeys hb
  | vc faultyLeaders => exact processViewChangeConsensusWhenDone_map cfg selfKey hinj ks hb

/-- **A DS member's view of true entries follows the key run**: after any run of blocks that name
    the members' peers, it is the keys of the run, each with its true entry. -/
theorem runBlocks_map [DecidableEq Peer] [Inhabited Peer] (cfg : CompositionConfig)
    (selfKey : PubKey) {peerOf : PubKey → Peer} (hinj : Function.Injective peerOf) :
    ∀ (blocks : List (CompositionBlock PubKey Peer)) (ks : List PubKey),
      (∀ b ∈ blocks, b.TruePeers peerOf) →
        runBlocks cfg selfKey (peerOf selfKey) (ks.map (trueEntry selfKey peerOf)) blocks =
          (runKeys cfg ks blocks).map (trueEntry selfKey peerOf)
  | [], _, _ => rfl
  | b :: blocks, ks, h => by
    have hb := processBlock_map cfg selfKey hinj ks (h b List.mem_cons_self)
    unfold runBlocks runKeys
    rw [List.foldl_cons, List.foldl_cons, hb]
    exact runBlocks_map cfg selfKey hinj blocks _ fun b' hb' => h b' (List.mem_cons_of_mem _ hb')

/-- **Two DS members that know the members' peers as the blocks name them keep the same keys in the
    same order** over any run of such blocks, whatever their own keys. -/
theorem views_agree_runBlocks [DecidableEq Peer] [Inhabited Peer] (cfg : CompositionConfig)
    {peerOf : PubKey → Peer} (hinj : Function.Injective peerOf)
    (blocks : List (CompositionBlock PubKey Peer)) (hblocks : ∀ b ∈ blocks, b.TruePeers peerOf)
    (ks : List PubKey) (selfKey₁ selfKey₂ : PubKey) :
    (runBlocks cfg selfKey₁ (peerOf selfKey₁) (ks.map (trueEntry selfKey₁ peerOf)) blocks).map
        Prod.fst =
      (runBlocks cfg selfKey₂ (peerOf selfKey₂) (ks.map (trueEntry selfKey₂ peerOf)) blocks).map
        Prod.fst := by
  rw [runBlocks_map cfg selfKey₁ hinj blocks ks hblocks,
    runBlocks_map cfg selfKey₂ hinj blocks ks hblocks, keys_map_trueEntry, keys_map_trueEntry]

/-- Peers numbered ten above the keys. -/
def peerPlusTen (k : ℕ) : ℕ := k + 10

/-- A view change naming node `1` at its peer, then a DS block that elects node `3` at its peer. -/
def truePeerBlocks : List (CompositionBlock ℕ ℕ) := [.vc [(1, 11)], .ds [(3, 13)] []]

/-- Nodes `1` and `2` keep the same keys through those blocks. -/
theorem views_agree_runBlocks_truePeers :
    Function.Injective peerPlusTen ∧ (∀ b ∈ truePeerBlocks, b.TruePeers peerPlusTen) ∧
      (runBlocks ⟨false, 0, 3⟩ 1 (peerPlusTen 1) ([1, 2].map (trueEntry 1 peerPlusTen))
          truePeerBlocks).map Prod.fst =
        (runBlocks ⟨false, 0, 3⟩ 2 (peerPlusTen 2) ([1, 2].map (trueEntry 2 peerPlusTen))
          truePeerBlocks).map Prod.fst := by
  have hinj : Function.Injective peerPlusTen := fun a b h => Nat.add_right_cancel h
  have hblocks : ∀ b ∈ truePeerBlocks, b.TruePeers peerPlusTen := by
    simp [truePeerBlocks, CompositionBlock.TruePeers, peerPlusTen]
  exact ⟨hinj, hblocks, views_agree_runBlocks ⟨false, 0, 3⟩ hinj truePeerBlocks hblocks [1, 2] 1 2⟩

/-! ## Two views that part -/

/-- Node `1` is the faulty leader, at peer `10`; node `2` is at peer `20`. Peers are numbers and
    `Peer()` is `0`; no guards, and a committee of two. -/
def twoViewConfig : CompositionConfig := ⟨false, 0, 2⟩

/-- Node `1`'s view, holding itself as `(1, Peer())`. -/
def leaderView : DequeOfNode ℕ ℕ := [(1, 0), (2, 20)]

/-- Node `2`'s view: the same keys in the same order, itself as `(2, Peer())`, and node `1` at
    another peer than the VC block names. -/
def backupView : DequeOfNode ℕ ℕ := [(1, 11), (2, 0)]

/-- The keys `[1, 2]` of the views above form a composed committee of two, with no guards. -/
theorem composed_leaderView : Composed twoViewConfig (fun _ => false) (leaderView.map Prod.fst) :=
  ⟨by decide, rfl, fun h => absurd h Bool.false_ne_true⟩

/-- **Two DS members part at a view change.** Both list the keys `[1, 2]` of a composed committee.
    Node `1` finds itself and goes to the back; node `2` does not find the pair `(1, 10)`, appends it
    anyway, and now lists three members with key `1` twice. -/
theorem vc_block_splits_views :
    Composed twoViewConfig (fun _ => false) (leaderView.map Prod.fst) ∧
      leaderView.map Prod.fst = backupView.map Prod.fst ∧
      (processViewChangeConsensusWhenDone twoViewConfig 10 [(1, 10)] leaderView).map Prod.fst =
        [2, 1] ∧
      (processViewChangeConsensusWhenDone twoViewConfig 20 [(1, 10)] backupView).map Prod.fst =
        [1, 2, 1] :=
  ⟨composed_leaderView, by decide, by decide, by decide⟩

/-- Node `3` wins a DS block over node `1`'s view, where node `2` has not performed. -/
theorem validDSBlock_of_determineByzantineNodesCore_leaderView :
    (∀ w ∈ [3], w ∉ leaderView.map Prod.fst) ∧ guardCount twoViewConfig + [3].length ≤ 2 ∧
      ValidDSBlock twoViewConfig (leaderView.map Prod.fst) [3]
        (determineByzantineNodesCore twoViewConfig.guardMode (fun _ => false) [3].length 10 1 1
          leaderView (fun k => if k = 2 then 0 else 5)).1 := by
  have hfresh : ∀ w ∈ [3], w ∉ leaderView.map Prod.fst := by decide
  have hfit : guardCount twoViewConfig + [3].length ≤ twoViewConfig.commSize := by decide
  exact ⟨hfresh, hfit, validDSBlock_of_determineByzantineNodesCore composed_leaderView rfl
    (by decide) hfresh hfit (by decide) 10 1 1 _⟩

end Zilliqa
