import Zilliqa.Cps.RunSpec

/-!
# `Cps.Invariants` — what a whole `processLoop` does to the store

The run lemma of the store invariant. From the store `processLoop` starts with (the contract storage
just saved), every store the loop passes through, and the one it ends with, is reached by a chain of
atomic operations. When no EVM run is on the stack at the start, none is ever pushed, and the chain
has no burns: this is the case of every transaction `RunFromScilla` runs.

By `Effects`, the loop therefore never touches the parent layer, the committed update buffer or the
saved contract storage, and it never raises the sum of the balances a reader sees.

## Contents
- `StoreInv` with its step lemma `StoreInv.step` and its ending lemma `StoreInv.done`.
- `processLoop_storeInv`, and `processLoop_effect`, `processLoop_effect_of_noEvm`,
  `processLoop_frame`.
-/

namespace Zilliqa

open AccountStoreSC

/-- A chain that may avoid burns is a chain. -/
theorem RunEffect.toTrue {burns : Bool} {s s' : AccountStoreSC} (h : RunEffect burns s s') :
    RunEffect true s s' := by
  cases burns with
  | false => exact h.mono
  | true => exact h

/-- The store invariant of `processLoop`, relative to the store `s₀` it started with. -/
structure StoreInv (burns : Bool) (s₀ : AccountStoreSC) (ls : CpsExecuteResult × CpsState) :
    Prop where
  effect : RunEffect burns s₀ ls.2.store
  noEvm : burns = false → ∀ r ∈ ls.2.queue, r.isEvm = false

namespace StoreInv

variable {env : CpsEnv} {burns : Bool} {s₀ : AccountStoreSC} {ls : CpsExecuteResult × CpsState}

/-- The run an iteration pops keeps the invariant's two parts for the state it leaves. -/
theorem run (hi : StoreInv burns s₀ ls) {r : CpsRun} {rest : List CpsRun}
    {res : CpsExecuteResult} {st : CpsState} (hq : ls.2.queue = r :: rest)
    (hrun : r.run env { ls.2 with queue := rest } = some (res, st)) :
    RunEffect burns s₀ st.store ∧ (burns = false → ∀ x ∈ st.queue, x.isEvm = false) := by
  obtain ⟨new, hp, hnew⟩ := CpsRun.run_spec env hrun
  cases burns with
  | true => exact ⟨hi.effect.trans hp.store.toTrue, fun h => absurd h (by decide)⟩
  | false =>
    -- without burns the popped run is not an EVM run, and neither is anything it pushes
    have hr : r.isEvm = false := hi.noEvm rfl r (by rw [hq]; exact List.mem_cons_self)
    rw [hr] at hp
    refine ⟨hi.effect.trans hp.store, fun _ x hx => ?_⟩
    rw [hp.queue] at hx
    rcases List.mem_append.mp hx with hx | hx
    · exact hnew hr x hx
    · exact hi.noEvm rfl x (by rw [hq]; exact List.mem_cons_of_mem r hx)

/-- **The step lemma**: a continuing iteration keeps the invariant. -/
theorem step (hi : StoreInv burns s₀ ls) {ls' : CpsExecuteResult × CpsState}
    (h : processStep env ls = .inr ls') : StoreInv burns s₀ ls' := by
  obtain ⟨r, rest, st, hq, hrun, -, hstore, -, hqueue⟩ := processStep_inr h
  obtain ⟨heff, hnoEvm⟩ := hi.run hq hrun
  refine ⟨hstore ▸ heff, fun hb x hx => ?_⟩
  rcases hqueue with hqueue | ⟨next, rest', hst, hqueue⟩
  · rw [hqueue] at hx
    exact hnoEvm hb x hx
  · -- the resumed run got the feedback, and keeps its kind
    rw [hqueue] at hx
    rcases List.mem_cons.mp hx with rfl | hx
    · rw [CpsRun.isEvm_provideFeedback]
      exact hnoEvm hb next (by rw [hst]; exact List.mem_cons_self)
    · exact hnoEvm hb x (by rw [hst]; exact List.mem_cons_of_mem next hx)

/-- The store an ending iteration returns is reached from `s₀`. -/
theorem done (hi : StoreInv burns s₀ ls) {res : CpsExecuteResult} {st : CpsState}
    (h : processStep env ls = .inl (.done res st)) : RunEffect burns s₀ st.store := by
  rcases processStep_done h with ⟨-, -, rfl⟩ | ⟨r, rest, hq, hrun, -⟩
  · exact hi.effect
  · exact (hi.run hq hrun).1

end StoreInv

variable {env : CpsEnv} {fuel : ℕ} {st st' : CpsState} {res : CpsExecuteResult}

/-- **The run lemma of the store invariant.** -/
theorem processLoop_storeInv {burns : Bool} (h : processLoop env fuel st = some (.done res st'))
    (hinit : burns = false → ∀ r ∈ st.queue, r.isEvm = false) :
    RunEffect burns st.store.bufferCurrentContractStorageState st'.store := by
  unfold processLoop at h
  obtain ⟨ls, hreach, hend⟩ := Loop.runFuel_reaches _ _ _ h
  have hinv : StoreInv burns st.store.bufferCurrentContractStorageState ls :=
    Loop.continues_inv (processStep env) _ (fun _ _ hi hs => hi.step hs)
      ⟨RunEffect.refl _, hinit⟩ hreach
  exact hinv.done hend

/-- **A whole loop changes the store by a chain of atomic operations.** -/
theorem processLoop_effect (h : processLoop env fuel st = some (.done res st')) :
    RunEffect true st.store.bufferCurrentContractStorageState st'.store :=
  processLoop_storeInv h (fun h => absurd h (by decide))

/-- **A loop started without EVM runs makes no burn.** -/
theorem processLoop_effect_of_noEvm (h : processLoop env fuel st = some (.done res st'))
    (hinit : ∀ r ∈ st.queue, r.isEvm = false) :
    RunEffect false st.store.bufferCurrentContractStorageState st'.store :=
  processLoop_storeInv h (fun _ => hinit)

/-- **A whole loop keeps the parent layer, the committed update buffer and the saved storage.** -/
theorem processLoop_frame (h : processLoop env fuel st = some (.done res st')) :
    AtomicFrame st.store.bufferCurrentContractStorageState st'.store :=
  (processLoop_effect h).frame

end Zilliqa
