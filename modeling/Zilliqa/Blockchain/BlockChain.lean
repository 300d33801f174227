import Mathlib.Data.List.Basic
import Mathlib.Data.UInt

/-!
# `Blockchain.BlockChain` — the in-memory window of recent blocks

`BlockChain<T>` keeps the last `BLOCKCHAIN_SIZE` blocks of one kind in a `CircularArray<T>`: block
`n` goes to slot `n % capacity`. The array's size is not the number of cells in use; it is the
count `AddBlock` advances by hand to one past the newest block number, and `back()` is whatever
slot was written last.

- `CircularArray`: the cells with the two fields kept beside them, the stored count and the slot
  written last; the cells always fill the capacity, which is never zero.
- `addBlock_accepted` / `addBlock_refused`: what one `AddBlock` does; `addBlock_eq_neg_one_iff`:
  it answers `-1` exactly when it stores nothing.
- `Tip` and `Tip.addBlock`: while blocks come in increasing order the count is one past the
  newest block, which is the last one written (`tip_addBlocks` over a whole run).
- `addBlock_of_accepts`: any accepted block, older or newer, sets the count one past its number.
  `addBlocks_older_block`: so a block older than the newest one, accepted because its slot holds
  an even older block, loses the newest block: the count goes back and `GetBlock` of the newest
  block answers with the "BlockNum too high" dummy.
-/

namespace Zilliqa

namespace Blockchain

/-- `BLOCKCHAIN_SIZE`. -/
def blockchainSize : ℕ := 50

/-- `INIT_BLOCK_NUMBER`, `(uint64_t)-1`: the number of a default-constructed block. -/
def initBlockNumber : UInt64 := 0xFFFFFFFFFFFFFFFF

/-- `CircularArray<T>` once resized: its cells, which fill the capacity, the stored count
    (`m_size`) and the slot written last (`m_index`). -/
structure CircularArray (T : Type) where
  array : List T
  capacity : ℕ
  size : UInt64
  index : ℕ
  length_array : array.length = capacity
  capacity_pos : 0 < capacity
  index_lt : index < capacity

namespace CircularArray

variable {T : Type}

/-- `resize(capacity)`: default cells, nothing counted, the first slot latest. -/
def resize (dflt : T) (capacity : ℕ) (hcap : 0 < capacity) : CircularArray T :=
  ⟨List.replicate capacity dflt, capacity, 0, 0, List.length_replicate, hcap, hcap⟩

/-- The slot of an index: the index modulo the capacity. -/
def slot (a : CircularArray T) (index : UInt64) : Fin a.array.length :=
  ⟨index.toNat % a.capacity, by rw [a.length_array]; exact Nat.mod_lt _ a.capacity_pos⟩

/-- `operator[]`: the cell of the index's slot. -/
def get (a : CircularArray T) (index : UInt64) : T :=
  a.array.get (a.slot index)

/-- `back()`: the cell written last. -/
def back (a : CircularArray T) : T :=
  a.array.get ⟨a.index, by rw [a.length_array]; exact a.index_lt⟩

/-- `insert_new(index, element)`: the element into the index's slot, which becomes the latest, and
    one more counted. -/
def insertNew (a : CircularArray T) (index : UInt64) (element : T) : CircularArray T where
  array := a.array.set (a.slot index) element
  capacity := a.capacity
  size := a.size + 1
  index := index.toNat % a.capacity
  length_array := by rw [List.length_set, a.length_array]
  capacity_pos := a.capacity_pos
  index_lt := Nat.mod_lt _ a.capacity_pos

/-- `increase_size(size)`: the count advanced, modulo `2^64`. -/
def increaseSize (a : CircularArray T) (size : UInt64) : CircularArray T :=
  { a with size := a.size + size }

@[simp] theorem size_insertNew (a : CircularArray T) (index : UInt64) (element : T) :
    (a.insertNew index element).size = a.size + 1 := rfl

@[simp] theorem capacity_insertNew (a : CircularArray T) (index : UInt64) (element : T) :
    (a.insertNew index element).capacity = a.capacity := rfl

@[simp] theorem back_insertNew (a : CircularArray T) (index : UInt64) (element : T) :
    (a.insertNew index element).back = element := by
  simp [back, insertNew, slot]

theorem get_insertNew (a : CircularArray T) (index i : UInt64) (element : T) :
    (a.insertNew index element).get i =
      if i.toNat % a.capacity = index.toNat % a.capacity then element else a.get i := by
  simp only [get, insertNew, slot, List.get_eq_getElem, List.getElem_set]
  split_ifs <;> first | rfl | omega

@[simp] theorem size_increaseSize (a : CircularArray T) (size : UInt64) :
    (a.increaseSize size).size = a.size + size := rfl

@[simp] theorem capacity_increaseSize (a : CircularArray T) (size : UInt64) :
    (a.increaseSize size).capacity = a.capacity := rfl

@[simp] theorem get_increaseSize (a : CircularArray T) (size i : UInt64) :
    (a.increaseSize size).get i = a.get i := rfl

@[simp] theorem back_increaseSize (a : CircularArray T) (size : UInt64) :
    (a.increaseSize size).back = a.back := rfl

@[simp] theorem get_resize (dflt : T) (capacity : ℕ) (hcap : 0 < capacity) (i : UInt64) :
    (resize dflt capacity hcap).get i = dflt := by
  simp [resize, get, slot]

@[simp] theorem size_resize (dflt : T) (capacity : ℕ) (hcap : 0 < capacity) :
    (resize dflt capacity hcap).size = 0 := rfl

end CircularArray

open CircularArray

section BlockChain

variable {T : Type} (blockNum : T → UInt64)

/-- `Reset()` (and the constructor): `BLOCKCHAIN_SIZE` default blocks. -/
def reset (dflt : T) : CircularArray T := resize dflt blockchainSize (by decide)

@[simp] theorem capacity_reset (dflt : T) : (reset dflt).capacity = blockchainSize := rfl

/-- `GetBlockCount()`: the stored count. -/
def getBlockCount (blocks : CircularArray T) : UInt64 := blocks.size

/-- `GetLastBlock()`: the block written last. -/
def getLastBlock (blocks : CircularArray T) : T := blocks.back

/-- Where `GetBlock` takes its answer from. -/
inductive GetBlockResult (T : Type) where
  /-- "BlockNum too high": a default block. -/
  | tooHigh
  /-- `GetBlockFromPersistentStorage(blockNum)`. -/
  | fromPersistentStorage (n : UInt64)
  /-- The cell of the block's slot. -/
  | inMemory (block : T)

/-- `GetBlock(blockNum)`: a dummy past the last block written, the persistent storage when the
    number is too old or its slot holds another block, and the slot's block otherwise. -/
def getBlock (blocks : CircularArray T) (n : UInt64) : GetBlockResult T :=
  if blocks.size > 0 ∧ blockNum blocks.back < n then .tooHigh
  else if n + UInt64.ofNat blocks.capacity < blocks.size ∨ blockNum (blocks.get n) ≠ n then
    .fromPersistentStorage n
  else .inMemory (blocks.get n)

/-- The count `AddBlock` sets before inserting: the blocks missed since the last one are added
    (modulo `2^64`); on an empty chain, the block's own number. -/
def countBeforeInsert (blocks : CircularArray T) (n : UInt64) : CircularArray T :=
  if blocks.size > 0 then
    let blockNumMissed := n - blockNum blocks.back - 1
    if blockNumMissed > 0 then blocks.increaseSize blockNumMissed else blocks
  else blocks.increaseSize n

/-- Advancing a count one past block `k` over the blocks missed before block `n` gives `n`, modulo
    `2^64`, whether `n` comes after `k` or not. -/
theorem count_after_missed (k n : UInt64) :
    (if n - k - 1 > 0 then k + 1 + (n - k - 1) else k + 1) = n := by
  split_ifs with hmissed
  · simp
  · have h0 : n - k - 1 = 0 := by
      apply UInt64.toNat_inj.1
      simp [UInt64.lt_iff_toNat_lt] at hmissed
      simpa using hmissed
    rw [sub_eq_zero, sub_eq_iff_eq_add] at h0
    rw [h0, add_comm]

/-- The count before inserting: advanced over the missed blocks when there are some. -/
theorem size_countBeforeInsert (blocks : CircularArray T) (n : UInt64) :
    (countBeforeInsert blockNum blocks n).size =
      if blocks.size > 0 then
        (if n - blockNum blocks.back - 1 > 0 then blocks.size + (n - blockNum blocks.back - 1)
          else blocks.size)
      else blocks.size + n := by
  unfold countBeforeInsert
  dsimp only
  split_ifs <;> rfl

@[simp] theorem get_countBeforeInsert (blocks : CircularArray T) (n i : UInt64) :
    (countBeforeInsert blockNum blocks n).get i = blocks.get i := by
  unfold countBeforeInsert
  dsimp only
  split_ifs <;> rfl

@[simp] theorem capacity_countBeforeInsert (blocks : CircularArray T) (n : UInt64) :
    (countBeforeInsert blockNum blocks n).capacity = blocks.capacity := by
  unfold countBeforeInsert
  dsimp only
  split_ifs <;> rfl

/-- `AddBlock(block)`: accepted when its slot holds an older block or a default one; then the
    count is advanced over the missed blocks and the block is inserted, answering `1`. Otherwise
    `-1` and nothing changes. -/
def addBlock (blocks : CircularArray T) (block : T) : ℤ × CircularArray T :=
  let blockNumOfNewBlock := blockNum block
  let blockNumOfExistingBlock := blockNum (blocks.get blockNumOfNewBlock)
  if blockNumOfExistingBlock < blockNumOfNewBlock ∨ initBlockNumber = blockNumOfExistingBlock then
    (1, (countBeforeInsert blockNum blocks blockNumOfNewBlock).insertNew blockNumOfNewBlock block)
  else (-1, blocks)

/-- A sequence of `AddBlock` calls: the answers, and the chain after them. -/
def addBlocks (blocks : CircularArray T) : List T → List ℤ × CircularArray T
  | [] => ([], blocks)
  | block :: rest =>
    let (r, blocks) := addBlock blockNum blocks block
    let (rs, blocks) := addBlocks blocks rest
    (r :: rs, blocks)

/-- Whether `AddBlock` accepts a block: its slot holds an older or a default block. -/
def Accepts (blocks : CircularArray T) (block : T) : Prop :=
  blockNum (blocks.get (blockNum block)) < blockNum block ∨
    initBlockNumber = blockNum (blocks.get (blockNum block))

theorem addBlock_accepted {blocks : CircularArray T} {block : T}
    (h : Accepts blockNum blocks block) :
    addBlock blockNum blocks block =
      (1, (countBeforeInsert blockNum blocks (blockNum block)).insertNew (blockNum block) block) :=
  if_pos h

theorem addBlock_refused {blocks : CircularArray T} {block : T}
    (h : ¬ Accepts blockNum blocks block) : addBlock blockNum blocks block = (-1, blocks) :=
  if_neg h

/-- **`AddBlock` answers `-1` exactly when it stores nothing**: otherwise the block is the one
    written last. -/
theorem addBlock_eq_neg_one_iff (blocks : CircularArray T) (block : T) :
    (addBlock blockNum blocks block).1 = -1 ↔ ¬ Accepts blockNum blocks block := by
  by_cases h : Accepts blockNum blocks block
  · rw [addBlock_accepted blockNum h]
    simp [h]
  · rw [addBlock_refused blockNum h]
    simp [h]

theorem back_addBlock_of_accepts {blocks : CircularArray T} {block : T}
    (h : Accepts blockNum blocks block) : (addBlock blockNum blocks block).2.back = block := by
  rw [addBlock_accepted blockNum h, back_insertNew]

/-! ## Blocks in increasing order -/

/-- The chain's state while blocks arrive in increasing order, with `k` the newest block: the
    count is `k + 1`, the cell written last holds block `k`, and every cell holds a block no newer
    than `k` or a default one. -/
structure Tip (blocks : CircularArray T) (k : UInt64) : Prop where
  size_eq : blocks.size = k + 1
  back_num : blockNum blocks.back = k
  cells_le : ∀ i, blockNum (blocks.get i) ≤ k ∨ blockNum (blocks.get i) = initBlockNumber

/-- One block past the newest one is accepted, and it becomes the newest. -/
theorem Tip.addBlock {blocks : CircularArray T} {k : UInt64} (htip : Tip blockNum blocks k)
    {block : T} (hnew : k < blockNum block) (hinit : blockNum block < initBlockNumber) :
    (addBlock blockNum blocks block).1 = 1 ∧
      Tip blockNum (addBlock blockNum blocks block).2 (blockNum block) := by
  have haccept : Accepts blockNum blocks block := by
    rcases htip.cells_le (blockNum block) with hle | hdef
    · exact Or.inl (UInt64.lt_of_le_of_lt hle hnew)
    · exact Or.inr hdef.symm
  rw [addBlock_accepted blockNum haccept]
  -- the count is advanced over the missed blocks to the new block's number
  have hsize : blocks.size > 0 := by
    have hk : k < initBlockNumber := UInt64.lt_trans hnew hinit
    rw [htip.size_eq]
    unfold initBlockNumber at hk
    simp [UInt64.lt_iff_toNat_lt] at hk ⊢
    omega
  have hcount : (countBeforeInsert blockNum blocks (blockNum block)).size = blockNum block := by
    rw [size_countBeforeInsert, if_pos hsize, htip.back_num, htip.size_eq, count_after_missed]
  refine ⟨rfl, ⟨?_, ?_, ?_⟩⟩
  · rw [size_insertNew, hcount]
  · rw [back_insertNew]
  · intro i
    rw [get_insertNew]
    split_ifs
    · exact Or.inl (UInt64.le_refl _)
    · -- the other cells are those of the chain before, untouched by the count
      rw [get_countBeforeInsert]
      rcases htip.cells_le i with hle | hdef
      · exact Or.inl (UInt64.le_of_lt (UInt64.lt_of_le_of_lt hle hnew))
      · exact Or.inr hdef

/-- The first block on a fresh chain is accepted and becomes the tip. -/
theorem tip_addBlock_reset {dflt : T} (hdflt : blockNum dflt = initBlockNumber) (block : T) :
    (addBlock blockNum (reset dflt) block).1 = 1 ∧
      Tip blockNum (addBlock blockNum (reset dflt) block).2 (blockNum block) := by
  have haccept : Accepts blockNum (reset dflt) block := by
    right
    rw [reset, get_resize, hdflt]
  rw [addBlock_accepted blockNum haccept]
  have hcount : (countBeforeInsert blockNum (reset dflt) (blockNum block)).size = blockNum block := by
    rw [size_countBeforeInsert, reset, size_resize, if_neg (by decide), UInt64.zero_add]
  refine ⟨rfl, ⟨?_, ?_, ?_⟩⟩
  · rw [size_insertNew, hcount]
  · rw [back_insertNew]
  · intro i
    rw [get_insertNew]
    split_ifs
    · exact Or.inl (UInt64.le_refl _)
    · rw [get_countBeforeInsert, reset, get_resize]
      exact Or.inr hdflt

/-- **Over a run of blocks in increasing order every block is accepted**, and the newest is the
    tip. -/
theorem tip_addBlocks {blocks : CircularArray T} {k : UInt64} (htip : Tip blockNum blocks k) :
    ∀ (bs : List T), List.IsChain (· < ·) (k :: bs.map blockNum) →
      (∀ b ∈ bs, blockNum b < initBlockNumber) →
      (addBlocks blockNum blocks bs).1 = bs.map (fun _ => 1) ∧
        Tip blockNum (addBlocks blockNum blocks bs).2 ((bs.map blockNum).getLastD k) := by
  intro bs
  induction bs generalizing blocks k with
  | nil => exact fun _ _ => ⟨rfl, htip⟩
  | cons b rest ih =>
    intro hchain hinit
    rw [List.map_cons, List.isChain_cons_cons] at hchain
    obtain ⟨hr, htip'⟩ := htip.addBlock blockNum hchain.1 (hinit b List.mem_cons_self)
    obtain ⟨hrs, htipRest⟩ := ih htip' hchain.2 fun b' hb' => hinit b' (List.mem_cons_of_mem b hb')
    refine ⟨?_, ?_⟩
    · simp only [addBlocks, List.map_cons, hr, hrs]
    · simpa only [addBlocks, List.map_cons, List.getLastD_cons] using htipRest

/-- **Any accepted block becomes the tip, older or newer**: the count is set one past its number
    and it is the block written last. -/
theorem addBlock_of_accepts {blocks : CircularArray T} {k : UInt64} (htip : Tip blockNum blocks k)
    (hsize : blocks.size > 0) {block : T} (h : Accepts blockNum blocks block) :
    (addBlock blockNum blocks block).2.size = blockNum block + 1 ∧
      (addBlock blockNum blocks block).2.back = block := by
  rw [addBlock_accepted blockNum h, size_insertNew, back_insertNew, size_countBeforeInsert,
    if_pos hsize, htip.back_num, htip.size_eq, count_after_missed]
  exact ⟨rfl, rfl⟩

end BlockChain

/-- **An older block rewinds the chain**: after block 5, block 3 is accepted, since its slot holds
    a default block; the count goes back to 4, the last block is block 3, and `GetBlock(5)`
    answers with the "BlockNum too high" dummy. -/
theorem addBlocks_older_block {T : Type} (blockNum : T → UInt64) (dflt b5 b3 : T)
    (hdflt : blockNum dflt = initBlockNumber) (h5 : blockNum b5 = 5) (h3 : blockNum b3 = 3) :
    (addBlocks blockNum (reset dflt) [b5, b3]).1 = [1, 1] ∧
      getLastBlock (addBlocks blockNum (reset dflt) [b5, b3]).2 = b3 ∧
      getBlockCount (addBlocks blockNum (reset dflt) [b5, b3]).2 = 4 ∧
      getBlock blockNum (addBlocks blockNum (reset dflt) [b5, b3]).2 5 = .tooHigh := by
  obtain ⟨hr5, htip⟩ := tip_addBlock_reset blockNum hdflt b5
  rw [h5] at htip
  -- block 3's slot still holds a default block
  have haccept : Accepts blockNum (addBlock blockNum (reset dflt) b5).2 b3 := by
    right
    rw [addBlock_accepted blockNum (Or.inr (by rw [reset, get_resize, hdflt])), get_insertNew,
      h3, h5, capacity_countBeforeInsert, capacity_reset, if_neg (by decide),
      get_countBeforeInsert, reset, get_resize, hdflt]
  have hsize : (addBlock blockNum (reset dflt) b5).2.size > 0 := by
    rw [htip.size_eq]
    decide
  obtain ⟨hcount, hback⟩ := addBlock_of_accepts blockNum htip hsize haccept
  have hr3 : (addBlock blockNum (addBlock blockNum (reset dflt) b5).2 b3).1 = 1 := by
    rw [addBlock_accepted blockNum haccept]
  simp only [addBlocks]
  refine ⟨by rw [hr5, hr3], hback, by rw [getBlockCount, hcount, h3]; rfl, ?_⟩
  rw [getBlock, if_pos ⟨by rw [hcount, h3]; decide, by rw [hback, h3]; decide⟩]

/-- The same run with blocks that are their own numbers, the default one numbered
    `INIT_BLOCK_NUMBER`. -/
theorem addBlocks_older_block_numbers :
    (addBlocks id (reset initBlockNumber) [5, 3]).1 = [1, 1] ∧
      getLastBlock (addBlocks id (reset initBlockNumber) [5, 3]).2 = 3 ∧
      getBlockCount (addBlocks id (reset initBlockNumber) [5, 3]).2 = 4 ∧
      getBlock id (addBlocks id (reset initBlockNumber) [5, 3]).2 5 = .tooHigh :=
  addBlocks_older_block id initBlockNumber 5 3 rfl rfl rfl

end Blockchain

end Zilliqa
