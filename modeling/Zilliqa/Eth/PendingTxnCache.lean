import Mathlib
import Zilliqa.Eth.BlocksCache

/-!
# `Eth.PendingTxnCache` — pending transactions, and the filters polled against them

`PendingTxnCache` keeps the transactions that entered the pool, each with an internal counter (the
order it arrived in) and the epoch it arrived for, in a deque ordered by counter, and an index from
a hash to whether the transaction is still pending. A committed transaction stays in the deque but
is marked in the index; `Cleanup` drops the transactions of old epochs when a new epoch begins. A
pending-transaction filter holds a cursor, the counter it has seen up to, and
`GetPendingTxnsFilterChanges` answers it with the pending transactions after the cursor, found by a
binary search on the counters.

- `WF`: the counters strictly increase along the deque and none exceeds the cache's counter, the
  epochs do not decrease, no hash is in the deque twice, and the index holds exactly the deque's
  hashes. `wf_runCalls`: every run keeps it.
- `pollItems_of_wf`: on such a cache the binary search agrees with a linear scan, so a poll
  returns exactly the pending transactions after the cursor.
- `PendingSession`: one filter polled between calls. `SessionInv.run`: whatever the calls and polls,
  the filter is sent each transaction at most once, in the order they arrived, and it has been sent
  every transaction still pending that arrived before its cursor.
-/

namespace Zilliqa

namespace Filters

/-- `PendingTxnCache::Item`. -/
structure PendingItem where
  counter : ℤ
  epoch : ℤ
  hash : String
deriving DecidableEq, Repr

/-- `PendingTxnCache`: the depth in epochs, the counter of appended transactions, the deque of
    items and the index from a hash to whether it is still pending. The constructor asserts a
    positive depth. -/
structure PendingTxnCache where
  depth : ℤ
  counter : ℤ
  items : List PendingItem
  index : FinStore String Bool
  depth_pos : 0 < depth

namespace PendingTxnCache

/-- A cache with nothing in it. -/
def init (depth : ℤ) (h : 0 < depth) : PendingTxnCache := ⟨depth, 0, [], FinStore.empty, h⟩

/-- `GetLastEpoch`: the epoch of the newest item, or `SEEN_NOTHING`. -/
def getLastEpoch (c : PendingTxnCache) : ℤ :=
  match c.items.getLast? with
  | some item => item.epoch
  | none => seenNothing

/-- `IsPending`: what the index says, and `false` for a hash it does not hold. -/
def isPending (c : PendingTxnCache) (hash : String) : Bool :=
  match c.index.find hash with
  | some pending => pending
  | none => false

/-- The loop of `Cleanup`: from the oldest item, erase each hash from the index up to the first
    item of an epoch no earlier than `earliest`; the items from there on are kept. -/
def cleanupLoop (earliest : ℤ) :
    List PendingItem → FinStore String Bool → List PendingItem × FinStore String Bool
  | [], index => ([], index)
  | item :: rest, index =>
    if earliest ≤ item.epoch then (item :: rest, index)
    else cleanupLoop earliest rest (index.erase item.hash)

/-- `Cleanup`: drop the items of epochs more than `m_depth` before the last one. -/
def cleanup (c : PendingTxnCache) : PendingTxnCache :=
  let last := c.getLastEpoch
  if last < 0 then c
  else
    let earliest := last - c.depth
    if earliest < 0 then c
    else
      let kept := cleanupLoop earliest c.items c.index
      { c with items := kept.1, index := kept.2 }

/-- The end of `Append`: a new item with the next counter. -/
def emplaceBack (c : PendingTxnCache) (epoch : ℤ) (hash : String) : PendingTxnCache :=
  { c with counter := c.counter + 1, items := c.items ++ [⟨c.counter + 1, epoch, hash⟩] }

/-- `Append(hash, epoch)`: `false` for a hash the index already holds. An epoch before the last
    one is corrected to it; a later one first cleans up. -/
def append (c : PendingTxnCache) (hash : String) (epoch : ℤ) : Bool × PendingTxnCache :=
  match c.index.find hash with
  | some _ => (false, c)
  | none =>
    let c := { c with index := c.index.insert hash true }
    let lastEpoch := c.getLastEpoch
    if epoch < lastEpoch then (true, c.emplaceBack lastEpoch hash)
    else if lastEpoch < epoch then (true, c.cleanup.emplaceBack epoch hash)
    else (true, c.emplaceBack epoch hash)

/-- `TransactionCommitted(hash)`: mark a known hash as no longer pending. -/
def transactionCommitted (c : PendingTxnCache) (hash : String) : PendingTxnCache :=
  match c.index.find hash with
  | none => c
  | some _ => { c with index := c.index.insert hash false }

/-- `GetPendingTxnsFilterChanges(after_counter)`, keeping the items whose hashes it reports: the
    same cursor and nothing when the deque is empty or the cursor has reached the counter;
    otherwise the pending items from `std::upper_bound` on, and the counter as the new cursor. -/
def pollItems (c : PendingTxnCache) (afterCounter : ℤ) : ℤ × List PendingItem :=
  if c.items.isEmpty || decide (c.counter ≤ afterCounter) then (afterCounter, [])
  else
    let it := upperBound c.items fun item => decide (afterCounter < item.counter)
    (c.counter, (c.items.drop it).filter fun item => c.isPending item.hash)

/-- `GetPendingTxnsFilterChanges(after_counter)`: the new cursor and the hashes. -/
def getPendingTxnsFilterChanges (c : PendingTxnCache) (afterCounter : ℤ) : ℤ × List String :=
  ((c.pollItems afterCounter).1, (c.pollItems afterCounter).2.map (·.hash))

end PendingTxnCache

/-- The calls that change the cache: `AddPendingTransaction` and `AddCommittedTransaction` of
    `APICacheImpl`, after the hash is normalized. -/
inductive PendingCall where
  | append (hash : String) (epoch : ℤ)
  | transactionCommitted (hash : String)

namespace PendingTxnCache

/-- One call. -/
def step (c : PendingTxnCache) : PendingCall → PendingTxnCache
  | .append hash epoch => (c.append hash epoch).2
  | .transactionCommitted hash => c.transactionCommitted hash

/-- A sequence of calls. -/
def runCalls (c : PendingTxnCache) (calls : List PendingCall) : PendingTxnCache :=
  calls.foldl step c

/-! ## `Cleanup` drops a prefix -/

/-- The items `Cleanup` keeps are those from the first of a late enough epoch. -/
theorem cleanupLoop_fst (earliest : ℤ) :
    ∀ (items : List PendingItem) (index : FinStore String Bool),
      (cleanupLoop earliest items index).1 =
        items.dropWhile fun item => decide (item.epoch < earliest) := by
  intro items
  induction items with
  | nil => exact fun _ => rfl
  | cons item rest ih =>
    intro index
    rw [cleanupLoop, List.dropWhile_cons]
    by_cases hkeep : earliest ≤ item.epoch
    · rw [if_pos hkeep, if_neg (by simpa using hkeep)]
    · rw [if_neg hkeep, if_pos (by simpa using hkeep), ih]

/-- The index after `Cleanup`'s loop has lost the hashes of the items dropped. -/
theorem find_cleanupLoop_snd (earliest : ℤ) :
    ∀ (items : List PendingItem) (index : FinStore String Bool) (hash : String),
      (cleanupLoop earliest items index).2.find hash =
        if hash ∈ (items.takeWhile fun item => decide (item.epoch < earliest)).map (·.hash)
        then none else index.find hash := by
  intro items
  induction items with
  | nil => intro index hash; simp [cleanupLoop]
  | cons item rest ih =>
    intro index hash
    rw [cleanupLoop, List.takeWhile_cons]
    by_cases hkeep : earliest ≤ item.epoch
    · have hp : decide (item.epoch < earliest) = false := by simpa using hkeep
      rw [if_pos hkeep, hp]
      simp
    · have hp : decide (item.epoch < earliest) = true := by simpa using hkeep
      rw [if_neg hkeep, hp, if_pos rfl, ih, List.map_cons]
      by_cases hdrop : hash = item.hash
      · simp [hdrop]
      · simp [hdrop]

/-- `d` is `c` without some of its oldest items, whose hashes are also gone from the index. -/
structure DropsOldest (c d : PendingTxnCache) : Prop where
  counter_eq : d.counter = c.counter
  split : ∃ removed : List PendingItem, c.items = removed ++ d.items ∧
    ∀ hash, d.index.find hash = if hash ∈ removed.map (·.hash) then none else c.index.find hash

theorem DropsOldest.refl (c : PendingTxnCache) : DropsOldest c c :=
  ⟨rfl, [], rfl, fun _ => rfl⟩

/-- **What `Cleanup` does**: it drops a prefix of the deque, and its hashes from the index. -/
theorem dropsOldest_cleanup (c : PendingTxnCache) : DropsOldest c c.cleanup := by
  unfold cleanup
  dsimp only
  split_ifs
  · exact DropsOldest.refl c
  · exact DropsOldest.refl c
  · refine ⟨rfl, c.items.takeWhile fun item => decide (item.epoch < c.getLastEpoch - c.depth),
      ?_, fun hash => find_cleanupLoop_snd _ _ _ hash⟩
    rw [cleanupLoop_fst]
    exact List.takeWhile_append_dropWhile.symm

/-- The newest item of a list, when the predicate rejects it, survives `dropWhile`. -/
theorem getLast?_dropWhile {α : Type} {p : α → Bool} {l : List α} {a : α}
    (hl : l.getLast? = some a) (ha : p a = false) : (l.dropWhile p).getLast? = some a := by
  have hsplit := List.takeWhile_append_dropWhile (p := p) (l := l)
  cases hd : l.dropWhile p with
  | nil =>
    -- then every item passes `p`, the newest too
    rw [hd, List.append_nil] at hsplit
    have hmem : a ∈ l.takeWhile p := by
      rw [hsplit]
      exact List.mem_of_getLast? hl
    have hpa := List.mem_takeWhile_imp hmem
    rw [ha] at hpa
    exact absurd hpa Bool.false_ne_true
  | cons b bs =>
    rw [← hd, ← hl]
    conv_rhs => rw [← hsplit]
    rw [List.getLast?_append, hd]
    rfl

theorem getLastEpoch_of_getLast? {c : PendingTxnCache} {item : PendingItem}
    (h : c.items.getLast? = some item) : c.getLastEpoch = item.epoch := by
  rw [getLastEpoch, h]

/-- `Cleanup` never drops the newest item: `earliest` is before its epoch. -/
@[simp] theorem getLastEpoch_cleanup (c : PendingTxnCache) :
    c.cleanup.getLastEpoch = c.getLastEpoch := by
  unfold cleanup
  dsimp only
  split_ifs with hlast hearliest
  · rfl
  · rfl
  · obtain ⟨item, hitem⟩ : ∃ item, c.items.getLast? = some item := by
      cases hl : c.items.getLast? with
      | none =>
        rw [getLastEpoch, hl] at hlast
        exact absurd (by decide : seenNothing < 0) hlast
      | some item => exact ⟨item, rfl⟩
    have hepoch : c.getLastEpoch = item.epoch := getLastEpoch_of_getLast? hitem
    have hkeep :
        (fun item : PendingItem => decide (item.epoch < c.getLastEpoch - c.depth)) item = false := by
      have := c.depth_pos
      rw [decide_eq_false_iff_not, hepoch]
      omega
    have hkept : (cleanupLoop (c.getLastEpoch - c.depth) c.items c.index).1.getLast? = some item := by
      rw [cleanupLoop_fst]
      exact @getLast?_dropWhile _ (fun item => decide (item.epoch < c.getLastEpoch - c.depth)) _ _
        hitem hkeep
    exact (getLastEpoch_of_getLast? hkept).trans hepoch.symm

/-- `Cleanup` reads only the deque and the depth, so it commutes with adding a hash the deque does
    not hold. -/
theorem cleanup_insert (c : PendingTxnCache) {hash : String}
    (hfresh : hash ∉ c.items.map (·.hash)) (v : Bool) :
    ({ c with index := c.index.insert hash v } : PendingTxnCache).cleanup =
      { c.cleanup with index := c.cleanup.index.insert hash v } := by
  have hlast : ({ c with index := c.index.insert hash v } : PendingTxnCache).getLastEpoch =
      c.getLastEpoch := rfl
  unfold cleanup
  rw [hlast]
  dsimp only
  split_ifs
  · rfl
  · rfl
  · congr 1
    case e_items =>
      -- the items kept do not depend on the index
      rw [cleanupLoop_fst, cleanupLoop_fst]
    apply FinStore.ext
    intro j
    -- the hashes dropped are among the deque's, so the new one is not one of them
    have hnot : hash ∉ (c.items.takeWhile fun item =>
        decide (item.epoch < c.getLastEpoch - c.depth)).map (·.hash) :=
      fun hmem => hfresh (((List.takeWhile_sublist _).map _).subset hmem)
    rw [find_cleanupLoop_snd, FinStore.find_insert, FinStore.find_insert, find_cleanupLoop_snd]
    by_cases hj : j = hash
    · subst hj
      simp [hnot]
    · simp [hj]

/-! ## The invariant -/

/-- The cache's invariant: counters strictly increase along the deque and none exceeds the cache's
    counter, epochs do not decrease, no hash is there twice, and the index holds exactly the deque's
    hashes. -/
structure WF (c : PendingTxnCache) : Prop where
  counters_lt : c.items.Pairwise fun a b => a.counter < b.counter
  counter_le : ∀ item ∈ c.items, item.counter ≤ c.counter
  epochs_le : c.items.Pairwise fun a b => a.epoch ≤ b.epoch
  hashes_nodup : (c.items.map (·.hash)).Nodup
  mem_keys : ∀ hash, hash ∈ c.index.keys ↔ hash ∈ c.items.map (·.hash)

theorem wf_init (depth : ℤ) (h : 0 < depth) : (init depth h).WF :=
  ⟨List.Pairwise.nil, by simp [init], List.Pairwise.nil, List.nodup_nil, by simp [init]⟩

/-- On a well-formed cache the last epoch is the greatest. -/
theorem WF.epoch_le_getLastEpoch {c : PendingTxnCache} (h : c.WF) {item : PendingItem}
    (hmem : item ∈ c.items) : item.epoch ≤ c.getLastEpoch := by
  unfold getLastEpoch
  cases hl : c.items.getLast? with
  | none =>
    rw [List.getLast?_eq_none_iff.1 hl] at hmem
    cases hmem
  | some last => exact key_le_of_getLast? h.epochs_le hmem hl

/-- The hashes of the two parts of a split deque are apart, as it holds no hash twice. -/
theorem WF.nodup_split {c : PendingTxnCache} (h : c.WF) {removed kept : List PendingItem}
    (hsplit : c.items = removed ++ kept) : (removed.map (·.hash) ++ kept.map (·.hash)).Nodup := by
  rw [← List.map_append, ← hsplit]
  exact h.hashes_nodup

theorem DropsOldest.sublist {c d : PendingTxnCache} (hd : DropsOldest c d) :
    d.items.Sublist c.items := by
  obtain ⟨removed, hsplit, -⟩ := hd.split
  rw [hsplit]
  exact List.sublist_append_right _ _

/-- Dropping the oldest items keeps the invariant. -/
theorem DropsOldest.wf {c d : PendingTxnCache} (hd : DropsOldest c d) (h : c.WF) : d.WF := by
  obtain ⟨removed, hsplit, hfind⟩ := hd.split
  have hsub := hd.sublist
  have hnodup := h.nodup_split hsplit
  refine ⟨h.counters_lt.sublist hsub, fun item hmem => ?_, h.epochs_le.sublist hsub,
    hnodup.of_append_right, fun hash => ?_⟩
  · rw [hd.counter_eq]
    exact h.counter_le item (hsub.subset hmem)
  · rw [d.index.mem_keys, hfind]
    by_cases hrem : hash ∈ removed.map (·.hash)
    · -- a dropped hash is the hash of no kept item
      rw [if_pos hrem]
      simp only [Option.isSome_none, Bool.false_eq_true, false_iff]
      exact List.disjoint_of_nodup_append hnodup hrem
    · rw [if_neg hrem, ← c.index.mem_keys, h.mem_keys, hsplit, List.map_append, List.mem_append]
      exact or_iff_right hrem

/-- Dropping the oldest items leaves the kept ones as pending as they were. -/
theorem DropsOldest.isPending_eq {c d : PendingTxnCache} (hd : DropsOldest c d) (h : c.WF)
    {item : PendingItem} (hmem : item ∈ d.items) : d.isPending item.hash = c.isPending item.hash := by
  obtain ⟨removed, hsplit, hfind⟩ := hd.split
  have hrem : item.hash ∉ removed.map (·.hash) := fun hr =>
    List.disjoint_of_nodup_append (h.nodup_split hsplit) hr (List.mem_map_of_mem hmem)
  unfold isPending
  rw [hfind, if_neg hrem]

/-- The index, after a hash is stored and an item appended. -/
theorem isPending_emplaceBack_insert (d : PendingTxnCache) (hash : String) (v : Bool)
    (epoch : ℤ) (j : String) :
    (({ d with index := d.index.insert hash v } : PendingTxnCache).emplaceBack epoch hash).isPending j =
      if j = hash then v else d.isPending j := by
  unfold isPending emplaceBack
  dsimp only
  rw [FinStore.find_insert]
  split_ifs <;> rfl

/-- Adding a hash the deque does not hold, as the newest item, of an epoch no earlier than the
    last, keeps the invariant. -/
theorem WF.emplaceBack_insert {d : PendingTxnCache} (h : d.WF) {hash : String}
    (hfresh : hash ∉ d.items.map (·.hash)) {epoch : ℤ} (hepoch : d.getLastEpoch ≤ epoch) :
    (({ d with index := d.index.insert hash true } : PendingTxnCache).emplaceBack epoch hash).WF := by
  unfold emplaceBack
  refine ⟨?_, fun item hmem => ?_, ?_, ?_, fun j => ?_⟩
  · rw [List.pairwise_append]
    exact ⟨h.counters_lt, List.pairwise_singleton _ _, fun a ha b hb => by
      rw [List.mem_singleton.1 hb]
      exact Int.lt_add_one_of_le (h.counter_le a ha)⟩
  · rcases List.mem_append.1 hmem with hold | hnew
    · exact le_trans (h.counter_le item hold) (Int.le_add_one (le_refl _))
    · rw [List.mem_singleton.1 hnew]
  · rw [List.pairwise_append]
    exact ⟨h.epochs_le, List.pairwise_singleton _ _, fun a ha b hb => by
      rw [List.mem_singleton.1 hb]
      exact le_trans (h.epoch_le_getLastEpoch ha) hepoch⟩
  · rw [List.map_append, List.nodup_append]
    exact ⟨h.hashes_nodup, List.nodup_singleton _, fun a ha b hb hab => by
      rw [List.map_singleton, List.mem_singleton] at hb
      rw [hab, hb] at ha
      exact hfresh ha⟩
  · simp only [FinStore.insert, Finset.mem_insert, h.mem_keys, List.map_append, List.mem_append,
      List.map_singleton, List.mem_singleton]
    exact or_comm

/-- **What `Append` does**, on a well-formed cache: nothing for a hash it holds; otherwise it
    drops some oldest items and appends the hash, as the newest item, with the next counter and
    an epoch no earlier than the last. -/
theorem append_cases {c : PendingTxnCache} (h : c.WF) (hash : String) (epoch : ℤ) :
    (c.append hash epoch).2 = c ∨
      hash ∉ c.items.map (·.hash) ∧ ∃ (d : PendingTxnCache) (epoch' : ℤ), DropsOldest c d ∧
        d.getLastEpoch ≤ epoch' ∧
        (c.append hash epoch).2 =
          ({ d with index := d.index.insert hash true } : PendingTxnCache).emplaceBack epoch' hash := by
  unfold append
  split
  · exact Or.inl rfl
  next hnone =>
    have hfresh : hash ∉ c.items.map (·.hash) := by
      rw [← h.mem_keys, ← FinStore.find_eq_none_iff]
      exact hnone
    refine Or.inr ⟨hfresh, ?_⟩
    dsimp only
    split_ifs with hbefore hafter
    · exact ⟨c, c.getLastEpoch, DropsOldest.refl c, le_refl _, rfl⟩
    · -- a later epoch: the hash is stored before `Cleanup`, which does not touch it
      refine ⟨c.cleanup, epoch, dropsOldest_cleanup c, ?_, ?_⟩
      · rw [getLastEpoch_cleanup]
        exact le_of_lt hafter
      · rw [cleanup_insert c hfresh]
    · exact ⟨c, epoch, DropsOldest.refl c, not_lt.1 hbefore, rfl⟩

theorem WF.append {c : PendingTxnCache} (h : c.WF) (hash : String) (epoch : ℤ) :
    (c.append hash epoch).2.WF := by
  rcases append_cases h hash epoch with hsame | ⟨hfresh, d, epoch', hd, hepoch, hnew⟩
  · rw [hsame]
    exact h
  · rw [hnew]
    exact (hd.wf h).emplaceBack_insert (fun hmem => hfresh (hd.sublist.map _ |>.subset hmem)) hepoch

/-- `TransactionCommitted` marks the hash, and nothing else, as no longer pending. -/
theorem isPending_transactionCommitted (c : PendingTxnCache) (hash j : String) :
    (c.transactionCommitted hash).isPending j = if j = hash then false else c.isPending j := by
  unfold transactionCommitted
  split
  next hnone =>
    split_ifs with hj
    · rw [hj]
      unfold isPending
      rw [hnone]
    · rfl
  next =>
    unfold isPending
    dsimp only
    rw [FinStore.find_insert]
    split_ifs <;> rfl

theorem WF.transactionCommitted {c : PendingTxnCache} (h : c.WF) (hash : String) :
    (c.transactionCommitted hash).WF := by
  unfold PendingTxnCache.transactionCommitted
  split
  · exact h
  next v hsome =>
    -- the hash is already a key: only its value changes
    have hkey : hash ∈ c.index.keys := by
      rw [c.index.mem_keys, hsome]
      rfl
    refine ⟨h.counters_lt, h.counter_le, h.epochs_le, h.hashes_nodup, fun j => ?_⟩
    simp only [FinStore.insert, Finset.mem_insert, ← h.mem_keys]
    constructor
    · rintro (rfl | hj)
      · exact hkey
      · exact hj
    · exact Or.inr

theorem WF.step {c : PendingTxnCache} (h : c.WF) (call : PendingCall) : (c.step call).WF := by
  cases call with
  | append hash epoch => exact h.append hash epoch
  | transactionCommitted hash => exact h.transactionCommitted hash

/-- **Every run keeps the invariant.** -/
theorem wf_runCalls (depth : ℤ) (hdepth : 0 < depth) (calls : List PendingCall) :
    ((init depth hdepth).runCalls calls).WF :=
  Fold.foldl_inv (fun _ call hs (_ : True) => hs.step call) calls _ (wf_init depth hdepth)
    (Fold.along_of_forall (fun _ _ => trivial) calls _)

/-! ## Polls -/

/-- On a well-formed cache the poll's new cursor is the counter once the deque is not empty and
    the counter is past the cursor. -/
theorem pollItems_fst (c : PendingTxnCache) (afterCounter : ℤ) :
    (c.pollItems afterCounter).1 = if c.items = [] then afterCounter else max afterCounter c.counter := by
  unfold pollItems
  by_cases hempty : c.items = []
  · simp [hempty]
  · by_cases hle : c.counter ≤ afterCounter
    · simp [hempty, hle]
    · simp [hempty, hle, le_of_lt (lt_of_not_ge hle)]

/-- **On a well-formed cache a poll sends exactly the pending items after the cursor**: the binary
    search on the counters agrees with a linear scan. -/
theorem pollItems_of_wf {c : PendingTxnCache} (h : c.WF) (afterCounter : ℤ) :
    (c.pollItems afterCounter).2 =
      (c.items.filter fun item => decide (afterCounter < item.counter)).filter
        fun item => c.isPending item.hash := by
  unfold pollItems
  split_ifs with hskip
  · -- nothing is after the cursor: the deque is empty, or the cursor is at the counter
    symm
    rw [List.filter_eq_nil_iff]
    intro item hmem
    rw [List.mem_filter] at hmem
    rcases Bool.or_eq_true_iff.1 hskip with hempty | hle
    · rw [List.isEmpty_iff.1 hempty] at hmem
      cases hmem.1
    · have := h.counter_le item hmem.1
      have := of_decide_eq_true hmem.2
      have := of_decide_eq_true hle
      omega
  · dsimp only
    rw [drop_upperBound_eq_filter
      (UpperBound.switches_of_sorted (h.counters_lt.imp le_of_lt) afterCounter)]

/-- **After any run, a poll sends exactly the pending transactions after the cursor**, in the
    order they arrived, and moves the cursor to the counter once the cache holds anything. -/
theorem getPendingTxnsFilterChanges_runCalls (depth : ℤ) (hdepth : 0 < depth)
    (calls : List PendingCall) (afterCounter : ℤ) :
    ((init depth hdepth).runCalls calls).getPendingTxnsFilterChanges afterCounter =
      (if ((init depth hdepth).runCalls calls).items = [] then afterCounter
        else max afterCounter ((init depth hdepth).runCalls calls).counter,
        ((((init depth hdepth).runCalls calls).items.filter
          fun item => decide (afterCounter < item.counter)).filter
            fun item => ((init depth hdepth).runCalls calls).isPending item.hash).map (·.hash)) := by
  unfold getPendingTxnsFilterChanges
  rw [pollItems_fst, pollItems_of_wf (wf_runCalls depth hdepth calls)]

/-- Two transactions in epoch 1, the first committed, and a third in epoch 2. -/
def pendingCalls : List PendingCall :=
  [.append "0xa1" 1, .append "0xa2" 1, .transactionCommitted "0xa1", .append "0xb1" 2]

theorem getPendingTxnsFilterChanges_runCalls_pending :
    0 < (17150 : ℤ) ∧
      ((init 17150 (by decide)).runCalls pendingCalls).getPendingTxnsFilterChanges 1 =
        (if ((init 17150 (by decide)).runCalls pendingCalls).items = [] then 1
          else max 1 ((init 17150 (by decide)).runCalls pendingCalls).counter,
          ((((init 17150 (by decide)).runCalls pendingCalls).items.filter
            fun item => decide (1 < item.counter)).filter
              fun item => ((init 17150 (by decide)).runCalls pendingCalls).isPending item.hash).map
                (·.hash)) :=
  ⟨by decide, getPendingTxnsFilterChanges_runCalls 17150 (by decide) pendingCalls 1⟩

end PendingTxnCache

/-! ## A filter polled between calls

A pending-transaction filter's owner polls with the cursor it was last given. Polls read the cache
and change nothing in it, so the filters polled against one cache can be taken one at a time. -/

/-- One filter against the cache: its cursor and, as ghost state, the items whose hashes it has
    been sent, in order. -/
structure PendingSession where
  cache : PendingTxnCache
  lastSeen : ℤ
  sent : List PendingItem

/-- A call to the cache, or a poll of the filter. -/
inductive PendingEvent where
  | call (call : PendingCall)
  | poll

namespace PendingSession

/-- An empty cache, and a filter just installed (`lastSeen = SEEN_NOTHING`). -/
def init (depth : ℤ) (h : 0 < depth) : PendingSession :=
  ⟨PendingTxnCache.init depth h, seenNothing, []⟩

/-- One event: a poll moves the cursor and sends the hashes of `pollItems`. -/
def step (s : PendingSession) : PendingEvent → PendingSession
  | .call call => { s with cache := s.cache.step call }
  | .poll =>
    { s with
      lastSeen := (s.cache.pollItems s.lastSeen).1
      sent := s.sent ++ (s.cache.pollItems s.lastSeen).2 }

/-- A sequence of events. -/
def run (s : PendingSession) (events : List PendingEvent) : PendingSession := events.foldl step s

/-- The session's invariant: the cache is well formed and the cursor within its counter; what was
    sent has strictly increasing counters, all within the cursor; and every item within the cursor
    still pending has been sent. -/
structure Inv (s : PendingSession) : Prop where
  wf : s.cache.WF
  lastSeen_le : s.lastSeen ≤ s.cache.counter
  sent_lt : s.sent.Pairwise fun a b => a.counter < b.counter
  sent_le : ∀ item ∈ s.sent, item.counter ≤ s.lastSeen
  complete : ∀ item ∈ s.cache.items, item.counter ≤ s.lastSeen →
    s.cache.isPending item.hash = true → item ∈ s.sent

theorem inv_init (depth : ℤ) (h : 0 < depth) : (init depth h).Inv :=
  ⟨PendingTxnCache.wf_init depth h, (by decide : seenNothing ≤ (0 : ℤ)), List.Pairwise.nil,
    by simp [init],
    by simp [init, PendingTxnCache.init]⟩

/-- An append keeps the invariant: the new item is past the cursor, and the items kept are as
    pending as before. -/
theorem Inv.append {s : PendingSession} (h : s.Inv) (hash : String) (epoch : ℤ) :
    (s.step (.call (.append hash epoch))).Inv := by
  have hwf := h.wf.append hash epoch
  rcases PendingTxnCache.append_cases h.wf hash epoch with hsame | ⟨hfresh, d, epoch', hd, -, hnew⟩
  · show Inv { s with cache := (s.cache.append hash epoch).2 }
    rw [hsame]
    exact h
  · show Inv { s with cache := (s.cache.append hash epoch).2 }
    rw [hnew] at hwf ⊢
    refine ⟨hwf, ?_, h.sent_lt, h.sent_le, fun item hmem hle hpend => ?_⟩
    · show s.lastSeen ≤ d.counter + 1
      rw [hd.counter_eq]
      exact le_trans h.lastSeen_le (Int.le_add_one (le_refl _))
    · rcases List.mem_append.1 hmem with hold | hnew
      · -- a kept item: not the new hash, and as pending as before
        have hne : item.hash ≠ hash := fun heq =>
          hfresh (heq ▸ List.mem_map_of_mem (hd.sublist.subset hold))
        rw [PendingTxnCache.isPending_emplaceBack_insert, if_neg hne,
          hd.isPending_eq h.wf hold] at hpend
        exact h.complete item (hd.sublist.subset hold) hle hpend
      · -- the new item is past the cursor
        rw [List.mem_singleton.1 hnew] at hle
        have := h.lastSeen_le
        rw [hd.counter_eq] at hle
        exact absurd hle (by simpa using Int.lt_add_one_of_le this)

/-- Committing a transaction keeps the invariant: nothing becomes pending. -/
theorem Inv.transactionCommitted {s : PendingSession} (h : s.Inv) (hash : String) :
    (s.step (.call (.transactionCommitted hash))).Inv := by
  show Inv { s with cache := s.cache.transactionCommitted hash }
  have hsame : (s.cache.transactionCommitted hash).items = s.cache.items ∧
      (s.cache.transactionCommitted hash).counter = s.cache.counter := by
    unfold PendingTxnCache.transactionCommitted
    split <;> exact ⟨rfl, rfl⟩
  refine ⟨h.wf.transactionCommitted hash, ?_, h.sent_lt, h.sent_le, fun item hmem hle hpend => ?_⟩
  · show s.lastSeen ≤ (s.cache.transactionCommitted hash).counter
    rw [hsame.2]
    exact h.lastSeen_le
  · rw [PendingTxnCache.isPending_transactionCommitted] at hpend
    split_ifs at hpend
    exact h.complete item (hsame.1 ▸ hmem) hle hpend

/-- A poll keeps the invariant: it sends the pending items between the old cursor and the new one,
    all after what was sent before. -/
theorem Inv.poll {s : PendingSession} (h : s.Inv) : (s.step .poll).Inv := by
  show Inv { s with
    lastSeen := (s.cache.pollItems s.lastSeen).1
    sent := s.sent ++ (s.cache.pollItems s.lastSeen).2 }
  rw [PendingTxnCache.pollItems_fst, PendingTxnCache.pollItems_of_wf h.wf,
    max_eq_right h.lastSeen_le]
  -- the new cursor: the old one if the deque is empty, else the counter
  have hcursor : s.lastSeen ≤ (if s.cache.items = [] then s.lastSeen else s.cache.counter) := by
    split_ifs
    · exact le_refl _
    · exact h.lastSeen_le
  have hnew : ∀ item ∈ s.cache.items,
      item.counter ≤ (if s.cache.items = [] then s.lastSeen else s.cache.counter) := by
    intro item hmem
    rw [if_neg (List.ne_nil_of_mem hmem)]
    exact h.wf.counter_le item hmem
  refine ⟨h.wf, ?_, ?_, fun item hmem => ?_, fun item hmem hle hpend => ?_⟩
  · split_ifs
    · exact h.lastSeen_le
    · exact le_refl _
  · rw [List.pairwise_append]
    refine ⟨h.sent_lt, (h.wf.counters_lt.sublist (List.filter_sublist.trans List.filter_sublist)),
      fun a ha b hb => ?_⟩
    have hb' := of_decide_eq_true (List.mem_filter.1 (List.mem_filter.1 hb).1).2
    exact lt_of_le_of_lt (h.sent_le a ha) hb'
  · rcases List.mem_append.1 hmem with hold | hsent
    · exact le_trans (h.sent_le item hold) hcursor
    · exact hnew item (List.mem_filter.1 (List.mem_filter.1 hsent).1).1
  · by_cases hold : item.counter ≤ s.lastSeen
    · exact List.mem_append_left _ (h.complete item hmem hold hpend)
    · refine List.mem_append_right _ (List.mem_filter.2 ⟨List.mem_filter.2 ⟨hmem, ?_⟩, hpend⟩)
      exact decide_eq_true (lt_of_not_ge hold)

theorem Inv.step {s : PendingSession} (h : s.Inv) : ∀ event, (s.step event).Inv
  | .call (.append hash epoch) => h.append hash epoch
  | .call (.transactionCommitted hash) => h.transactionCommitted hash
  | .poll => h.poll

/-- **Every run keeps the session's invariant.** -/
theorem inv_run (depth : ℤ) (hdepth : 0 < depth) (events : List PendingEvent) :
    ((init depth hdepth).run events).Inv :=
  Fold.foldl_inv (fun _ event hs (_ : True) => hs.step event) events _ (inv_init depth hdepth)
    (Fold.along_of_forall (fun _ _ => trivial) events _)

/-- Right after a poll, the cursor covers every item of the cache. -/
theorem counter_le_lastSeen_poll {s : PendingSession} (h : s.Inv) {item : PendingItem}
    (hmem : item ∈ s.cache.items) : item.counter ≤ (s.step .poll).lastSeen := by
  show item.counter ≤ (s.cache.pollItems s.lastSeen).1
  rw [PendingTxnCache.pollItems_fst, if_neg (List.ne_nil_of_mem hmem)]
  exact le_trans (h.wf.counter_le item hmem) (le_max_right _ _)

/-- **A filter is sent every pending transaction exactly once**: whatever calls and polls came
    before, after its owner's poll the items it has been sent have strictly increasing counters, so
    no transaction twice and in the order they arrived, and every transaction the cache still holds
    as pending is among them. -/
theorem pendingFilter_sent_exactlyOnce (depth : ℤ) (hdepth : 0 < depth)
    (events : List PendingEvent) :
    ((init depth hdepth).run (events ++ [PendingEvent.poll])).sent.Pairwise
        (fun a b => a.counter < b.counter) ∧
      ∀ item ∈ ((init depth hdepth).run (events ++ [PendingEvent.poll])).cache.items,
        ((init depth hdepth).run (events ++ [PendingEvent.poll])).cache.isPending item.hash = true →
          item ∈ ((init depth hdepth).run (events ++ [PendingEvent.poll])).sent := by
  have hbefore := inv_run depth hdepth events
  have hafter : ((init depth hdepth).run (events ++ [PendingEvent.poll])) =
      ((init depth hdepth).run events).step .poll := by
    rw [run, List.foldl_append]
    rfl
  rw [hafter]
  have h := hbefore.poll
  refine ⟨h.sent_lt, fun item hmem hpend => h.complete item hmem ?_ hpend⟩
  -- a poll reads the cache without changing it
  exact counter_le_lastSeen_poll hbefore hmem

/-- Three transactions arrive, one is committed, the filter polls in between and at the end. -/
def pendingEvents : List PendingEvent :=
  [.call (.append "0xa1" 1), .poll, .call (.append "0xa2" 1), .call (.transactionCommitted "0xa1"),
    .call (.append "0xb1" 2)]

theorem pendingFilter_sent_exactlyOnce_three :
    0 < (17150 : ℤ) ∧
      ((init 17150 (by decide)).run (pendingEvents ++ [PendingEvent.poll])).sent.Pairwise
          (fun a b => a.counter < b.counter) ∧
        ∀ item ∈ ((init 17150 (by decide)).run (pendingEvents ++ [PendingEvent.poll])).cache.items,
          ((init 17150 (by decide)).run (pendingEvents ++ [PendingEvent.poll])).cache.isPending item.hash =
              true →
            item ∈ ((init 17150 (by decide)).run (pendingEvents ++ [PendingEvent.poll])).sent :=
  ⟨by decide, pendingFilter_sent_exactlyOnce 17150 (by decide) pendingEvents⟩

end PendingSession

end Filters

end Zilliqa
