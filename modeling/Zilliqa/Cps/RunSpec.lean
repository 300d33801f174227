import Zilliqa.Cps.Effects

/-!
# `Cps.RunSpec` — what one run does to the executor's state

The step lemmas of every invariant of the executor. `Pushes burns st st' new` says all a run (or a
stretch of one) can do to the state: the store moves by a chain of atomic operations
(`RunEffect burns`), the runs `new` are pushed on the stack, the last pushed first, and the tracker
never gains gas. Each handler has one lemma that says which `Pushes` it makes, proved once; the
invariants of later modules are derived from these and never unfold a run.

- An EVM run pushes at most three runs, and only when the EVM answered with a trap; its chain may
  burn (the self-destruct sweep of `HandleApply`).
- A Scilla run pushes only transfers and Scilla runs, has paid `CONTRACT_INVOKE_GAS` for each, and
  never burns (`ScillaPushes`).
- A transfer pushes nothing.

## Contents
- `Pushes` and its composition lemmas; `ScillaPushes`.
- `CpsRunEvm`: `applyModify_effect`, `processApplies_effect`, `installCode_effect`,
  `handleApply_spec`, `handleCallTrap_spec`, `handlePrecompileTrap_spec`, `handleCreateTrap_spec`,
  `handleTrap_spec`, `runPreamble_spec`, `invoke_spec`, `run_spec`.
- `ScillaHelpers`: the trackers the parsers return never hold more gas.
- `CpsRunScilla`: `runCreate_spec`, `pushEntries_spec`, `runCall_spec`, `run_spec`.
- `CpsRunTransfer.run_spec`.
-/

namespace Zilliqa

open AccountStoreSC

variable {burns : Bool} {s s' : AccountStoreSC}

/-- An operation whose result was matched as `(ok, s')` reaches `s'`. -/
theorem AtomicOp.of_pair {p : Bool × AccountStoreSC} {ok : Bool} (hop : AtomicOp burns s p.2)
    (h : p = (ok, s')) : AtomicOp burns s s' := by
  rw [h] at hop
  exact hop

/-- The storage writes of a `kModify` entry, one `UpdateStateValue` each. -/
theorem RunEffect.foldl_updateStateValue (a : Address) :
    ∀ (storage : List (Bytes × Bytes)) (s₀ s : AccountStoreSC), RunEffect burns s₀ s →
      RunEffect burns s₀ (storage.foldl (fun s kv => s.updateStateValue a kv.1 kv.2) s)
  | [], _, _, h => h
  | kv :: rest, s₀, s, h =>
    RunEffect.foldl_updateStateValue a rest s₀ _ (h.op (.updateStateValue s a kv.1 kv.2))

/-- Whether a run is an EVM run. -/
def CpsRun.isEvm : CpsRun → Bool
  | .evm .. => true
  | _ => false

/-! ## `Pushes` -/

/-- What a run, or a stretch of one, does to the executor's state: a chain of atomic operations on
    the store, the runs `new` pushed on the stack (the last pushed first), and no gas gained. The
    receipt is left free. -/
structure Pushes (burns : Bool) (st st' : CpsState) (new : List CpsRun) : Prop where
  store : RunEffect burns st.store st'.store
  queue : st'.queue = new ++ st.queue
  gas : st'.tracker.exactEth ≤ st.tracker.exactEth

namespace Pushes

variable {st st₁ st₂ : CpsState} {new new₁ : List CpsRun}

theorem refl (st : CpsState) : Pushes burns st st [] := ⟨RunEffect.refl _, rfl, Nat.le_refl _⟩

theorem trans (h₁ : Pushes burns st st₁ new₁) (h₂ : Pushes burns st₁ st₂ new) :
    Pushes burns st st₂ (new ++ new₁) where
  store := h₁.store.trans h₂.store
  queue := by rw [h₂.queue, h₁.queue, List.append_assoc]
  gas := h₂.gas.trans h₁.gas

/-- A stretch that pushes nothing, followed by one that pushes `new`. -/
theorem trans_nil (h₁ : Pushes burns st st₁ []) (h₂ : Pushes burns st₁ st₂ new) :
    Pushes burns st st₂ new := by
  simpa using h₁.trans h₂

theorem pushRun (h : Pushes burns st st₁ new) (r : CpsRun) :
    Pushes burns st (st₁.pushRun r) (r :: new) where
  store := h.store
  queue := by rw [CpsState.queue_pushRun, h.queue, List.cons_append]
  gas := h.gas

theorem withStore (h : Pushes burns st st₁ new) (hs : RunEffect burns st₁.store s) :
    Pushes burns st (st₁.withStore s) new :=
  ⟨h.store.trans hs, h.queue, h.gas⟩

theorem op (h : Pushes burns st st₁ new) (hop : AtomicOp burns st₁.store s) :
    Pushes burns st (st₁.withStore s) new :=
  h.withStore (.single hop)

theorem ite {c : Prop} [Decidable c] (h₁ : Pushes burns st st₁ new)
    (h₂ : Pushes burns st st₂ new) : Pushes burns st (if c then st₁ else st₂) new := by
  split
  · exact h₁
  · exact h₂

/-- The pattern "create the account when it is missing". -/
theorem ensureAccount (h : Pushes burns st st₁ new) (a : Address) :
    Pushes burns st (if st₁.store.accountExistsAtomic a then st₁
      else st₁.withStore (st₁.store.addAccountAtomic a).2) new :=
  h.ite (h.op (.addAccount _ _))

theorem decreaseByEth (h : Pushes burns st st₁ new) (v : ℕ) :
    Pushes burns st (st₁.decreaseByEth v) new :=
  ⟨h.store, h.queue, (GasTracker.exactEth_decreaseByEth_le _ _).trans h.gas⟩

theorem decreaseByCore (h : Pushes burns st st₁ new) (v : ℕ) :
    Pushes burns st (st₁.decreaseByCore v) new :=
  ⟨h.store, h.queue, (GasTracker.exactEth_decreaseByCore_le _ _).trans h.gas⟩

theorem setTracker (h : Pushes burns st st₁ new) {t : GasTracker}
    (ht : t.exactEth ≤ st₁.tracker.exactEth) (r : TransactionReceipt) :
    Pushes burns st { st₁ with tracker := t, receipt := r } new :=
  ⟨h.store, h.queue, ht.trans h.gas⟩

theorem setReceipt (h : Pushes burns st st₁ new) (r : TransactionReceipt) :
    Pushes burns st { st₁ with receipt := r } new :=
  ⟨h.store, h.queue, h.gas⟩

theorem mono (h : Pushes false st st₁ new) : Pushes burns st st₁ new :=
  ⟨h.store.mono, h.queue, h.gas⟩

end Pushes

/-- What a Scilla run does: `Pushes` without burns, where every pushed run is a transfer or a Scilla
    run, and each has been paid `CONTRACT_INVOKE_GAS` out of the tracker. -/
structure ScillaPushes (st st' : CpsState) (new : List CpsRun) : Prop
    extends Pushes false st st' new where
  notEvm : ∀ r ∈ new, r.isEvm = false
  paid : st'.tracker.exactEth + new.length * (contractInvokeGas * getScalingFactor) ≤
    st.tracker.exactEth

namespace ScillaPushes

variable {st st₁ st₂ : CpsState} {new new₁ : List CpsRun}

theorem of_pushes (h : Pushes false st st₁ []) : ScillaPushes st st₁ [] :=
  { h with
    notEvm := fun _ hr => absurd hr List.not_mem_nil
    paid := by simpa using h.gas }

theorem trans (h₁ : ScillaPushes st st₁ new₁) (h₂ : ScillaPushes st₁ st₂ new) :
    ScillaPushes st st₂ (new ++ new₁) :=
  { h₁.toPushes.trans h₂.toPushes with
    notEvm := by
      intro r hr
      rcases List.mem_append.mp hr with hr | hr
      · exact h₂.notEvm r hr
      · exact h₁.notEvm r hr
    paid := by
      have h₁p := h₁.paid
      have h₂p := h₂.paid
      rw [List.length_append, Nat.add_mul]
      omega }

/-- One message of a call: its `CONTRACT_INVOKE_GAS` is charged, its recipient's account may be
    created, and its run is pushed. -/
theorem paidPush (st : CpsState) (hcore : contractInvokeGas ≤ st.tracker.gasCore)
    (h : Pushes false (st.decreaseByCore contractInvokeGas) st₁ []) {r : CpsRun}
    (hr : r.isEvm = false) : ScillaPushes st (st₁.pushRun r) [r] where
  toPushes := (((Pushes.refl st).decreaseByCore _).trans_nil h).pushRun r
  notEvm := by
    intro x hx
    rw [List.mem_singleton] at hx
    rw [hx]
    exact hr
  paid := by
    have hpay := GasTracker.exactEth_decreaseByCore_add hcore
    have hgas := h.gas
    simp only [CpsState.tracker_pushRun, List.length_singleton, Nat.one_mul]
    simp only [CpsState.decreaseByCore] at hgas
    omega

end ScillaPushes

/-! ## EVM runs -/

namespace CpsRunEvm

variable (env : CpsEnv)

/-- A `kModify` entry makes no burn. -/
theorem applyModify_effect (args : EvmArgs) (address : Address) (resetStorage : Bool)
    (storage : List (Bytes × Bytes)) (s : AccountStoreSC) :
    RunEffect false s (applyModify env args address resetStorage storage s) := by
  unfold applyModify
  dsimp only
  refine RunEffect.op ?_ (.addToBuffer _ _)
  -- peel the stages from the outside: storage writes, storage reset, the account itself
  have hacc : RunEffect false s
      (if s.accountExistsAtomic args.address then s else (s.addAccountAtomic args.address).2) := by
    split
    · exact RunEffect.refl s
    · exact RunEffect.single (.addAccount s _)
  generalize (if s.accountExistsAtomic args.address then s
    else (s.addAccountAtomic args.address).2) = s₁ at hacc ⊢
  have hreset : RunEffect false s
      (if resetStorage && address == args.address && !args.isStaticCall then
        (s₁.updateStates args.address [] (env.fetchStateKeys s₁ args.address)).2
      else s₁) := by
    split
    · exact hacc.op (.updateStates _ _ _ _)
    · exact hacc
  split
  · exact hreset
  · exact RunEffect.foldl_updateStateValue _ storage _ _ hreset

/-- **The `apply` loop makes no burn.** -/
theorem processApplies_effect (args : EvmArgs) (l : List EvmApply) :
    ∀ (acc : ApplyAcc) (s : AccountStoreSC),
      RunEffect false s (processApplies env args l (acc, s)).2 := by
  induction l with
  | nil => intro acc s; exact RunEffect.refl s
  | cons e rest ih =>
    intro acc s
    cases e with
    | delete a =>
      simp only [processApplies]
      exact ih _ s
    | modify a balance reset storage =>
      simp only [processApplies]
      exact (applyModify_effect env args a reset storage s).trans (ih _ _)
    | notSet =>
      simp only [processApplies]
      exact ih acc s

theorem installCode_effect (s : AccountStoreSC) (address : Address) (code : Bytes) :
    RunEffect false s (installCode s address code) :=
  (RunEffect.single (.updateStates s _ _ _)).op (.setImmutable _ _ _ _)

/-- **`HandleApply`'s chain**: its only burn is the self-destruct sweep. -/
theorem handleApply_spec (args : EvmArgs) (type : RunType) (result : EvmResult)
    (st : CpsState) : Pushes true st (handleApply env args type result st) [] := by
  unfold handleApply
  have h := processApplies_effect env args result.apply ApplyAcc.init st.store
  rcases hp : processApplies env args result.apply (ApplyAcc.init, st.store) with ⟨acc, s₁⟩
  rw [hp] at h
  have h₁ : RunEffect true st.store s₁ := h.mono
  dsimp only
  refine (Pushes.refl st).withStore ?_
  -- the sweep: the funds go to the recipient, then the balance is zeroed
  have h₂ : RunEffect true st.store
      (if acc.accountToRemove == args.address && !args.isStaticCall then
        let funds := s₁.getBalanceForAccountAtomic acc.accountToRemove
        let s := (s₁.transferBalanceAtomic acc.accountToRemove acc.fundsRecipient funds).2
        let s := s.setBalanceAtomic acc.accountToRemove (Amount.fromQa 0)
        (s.addAddressToUpdateBufferAtomic acc.accountToRemove).addAddressToUpdateBufferAtomic
          acc.fundsRecipient
      else s₁) := by
    split
    · exact ((((h₁.op (.transfer _ _ _ _)).op (.burn _ _ rfl)).op (.addToBuffer _ _)).op
        (.addToBuffer _ _))
    · exact h₁
  split
  · exact h₂.trans (installCode_effect _ _ _).mono
  · exact h₂

/-- A call trap: the `apply` loop, then at most the resumed run, the call and a transfer. -/
theorem handleCallTrap_spec (args : EvmArgs) (type : RunType) (r : EvmResult) (c : TrapCall)
    (st : CpsState) :
    ∃ new, Pushes false st (handleCallTrap env args type r c st).2 new ∧ new.length ≤ 3 := by
  unfold handleCallTrap
  dsimp only
  have h₁ : Pushes false st
      (st.withStore (processApplies env args r.apply (ApplyAcc.init, st.store)).2) [] :=
    (Pushes.refl st).withStore (processApplies_effect env args r.apply ApplyAcc.init st.store)
  generalize st.withStore (processApplies env args r.apply (ApplyAcc.init, st.store)).2 = st₁
    at h₁ ⊢
  split_ifs
  · exact ⟨[], h₁, by simp⟩
  · exact ⟨[], h₁, by simp⟩
  · exact ⟨_, ((h₁.decreaseByEth _).pushRun _).pushRun _, by simp⟩
  · exact ⟨_, ((h₁.decreaseByEth _).pushRun _).pushRun _, by simp⟩
  · exact ⟨_, (((h₁.decreaseByEth _).pushRun _).pushRun _).pushRun _, by simp⟩
  · exact ⟨_, (h₁.pushRun _).pushRun _, by simp⟩

/-- A precompile trap pushes at most the resumed run and the Scilla call. -/
theorem handlePrecompileTrap_spec (args : EvmArgs) (type : RunType) (r : EvmResult)
    (c : TrapCall) (st : CpsState) :
    ∃ new, Pushes false st (handlePrecompileTrap env args type r c st).2 new ∧ new.length ≤ 3 := by
  unfold handlePrecompileTrap
  split
  · exact ⟨[], Pushes.refl st, by simp⟩
  · dsimp only
    -- the static check, and the sender the Scilla call is made from
    split_ifs
    · exact ⟨[], (Pushes.refl st).decreaseByCore _, by simp⟩
    · exact ⟨_, (((Pushes.refl st).decreaseByCore _).pushRun _).pushRun _, by simp⟩
    · exact ⟨_, (((Pushes.refl st).decreaseByCore _).pushRun _).pushRun _, by simp⟩

/-- A create trap creates the account and bumps its creator's nonce, then pushes at most the
    resumed run, the creation and a transfer. -/
theorem handleCreateTrap_spec (args : EvmArgs) (type : RunType) (r : EvmResult)
    (c : TrapCreate) (st : CpsState) :
    ∃ new, Pushes false st (handleCreateTrap env args type r c st).2 new ∧ new.length ≤ 3 := by
  unfold handleCreateTrap
  rcases createAddresses env args c.scheme st.store with ⟨contractAddress, fromAddress⟩
  dsimp only
  split
  · exact ⟨[], Pushes.refl st, by simp⟩
  split
  · next s hadd => exact ⟨[], (Pushes.refl st).op ((AtomicOp.addAccount _ _).of_pair hadd), by simp⟩
  · next s hadd =>
    have h₁ : Pushes false st (st.withStore (s.increaseNonceForAccountAtomic fromAddress)) [] :=
      (Pushes.refl st).withStore
        ((RunEffect.single ((AtomicOp.addAccount _ _).of_pair hadd)).op (.increaseNonce _ _))
    generalize st.withStore (s.increaseNonceForAccountAtomic fromAddress) = st₁ at h₁ ⊢
    split_ifs
    · exact ⟨[], h₁, by simp⟩
    · exact ⟨_, (h₁.decreaseByEth _).pushRun _, by simp⟩
    · exact ⟨_, (((h₁.decreaseByEth _).pushRun _).decreaseByEth _).pushRun _, by simp⟩
    · exact ⟨_, (((h₁.decreaseByEth _).pushRun _).decreaseByEth _).pushRun _, by simp⟩
    · exact ⟨_, ((((h₁.decreaseByEth _).pushRun _).decreaseByEth _).pushRun _).pushRun _,
        by simp⟩
    · exact ⟨_, h₁.pushRun _, by simp⟩
    · exact ⟨_, ((h₁.pushRun _).decreaseByEth _).pushRun _, by simp⟩

theorem handleTrap_spec (args : EvmArgs) (type : RunType) (r : EvmResult) (st : CpsState) :
    ∃ new, Pushes false st (handleTrap env args type r st).2 new ∧ new.length ≤ 3 := by
  unfold handleTrap
  split
  · exact handleCreateTrap_spec env args type r _ st
  · split
    · exact handlePrecompileTrap_spec env args type r _ st
    · exact handleCallTrap_spec env args type r _ st

/-- The preamble: the contract's account, the entry fee and the value transfer. -/
theorem runPreamble_spec (args : EvmArgs) (type : RunType) (contractAddress : Address)
    (st : CpsState) :
    Pushes false st ((runPreamble args type contractAddress st).elim Prod.snd Prod.snd) [] := by
  unfold runPreamble
  split
  · exact Pushes.refl st
  split
  · have h : Pushes false st _ [] := ((Pushes.refl st).op (.addAccount _ contractAddress)).decreaseByEth
      (getGasUnitsForContractDeployment [] args.code)
    dsimp only
    split
    · next s htr => exact h.op ((AtomicOp.transfer _ _ _ _).of_pair htr)
    · next s htr => exact h.op ((AtomicOp.transfer _ _ _ _).of_pair htr)
  split
  · have h : Pushes false st _ [] := (Pushes.refl st).decreaseByEth minEthGas
    dsimp only
    split
    · next s htr => exact h.op ((AtomicOp.transfer _ _ _ _).of_pair htr)
    · next s htr => exact h.op ((AtomicOp.transfer _ _ _ _).of_pair htr)
  · exact Pushes.refl st

/-- **The EVM invocation and its handlers.** Runs are pushed only after a trap, and then the
    tracker holds at most what the EVM reported left. -/
theorem invoke_spec (args : EvmArgs) (type : RunType) (st : CpsState) :
    ∃ new, Pushes true st (invoke env args type st).2 new ∧ new.length ≤ 3 ∧
      (new ≠ [] → ∃ s args' r, env.invokeEvm s args' = some r ∧ r.exitReason = .trap ∧
        args'.gasLimit ≤ st.tracker.exactEth ∧
        (invoke env args type st).2.tracker.exactEth ≤ r.remainingGas) := by
  unfold invoke
  dsimp only
  have h₀ : Pushes true st (st.withStore (st.store.addAddressToUpdateBufferAtomic args.address)) [] :=
    (Pushes.refl st).op (.addToBuffer _ _)
  split
  · exact ⟨[], h₀.setReceipt _, by simp, fun h => absurd rfl h⟩
  · next r hr =>
    have h₁ := h₀.decreaseByEth (sub64 st.tracker.getEthGas r.remainingGas)
    -- what the EVM reported left bounds the tracker from here on
    have hleft : ((st.withStore (st.store.addAddressToUpdateBufferAtomic args.address)).decreaseByEth
        (sub64 st.tracker.getEthGas r.remainingGas)).tracker.exactEth ≤ r.remainingGas :=
      GasTracker.exactEth_decreaseByEth_sub64_le _ _
    split
    · next htrap =>
      obtain ⟨new, hp, hlen⟩ := handleTrap_spec env _ type r _
      exact ⟨new, h₁.trans_nil hp.mono, hlen, fun _ =>
        ⟨_, _, r, hr, htrap, GasTracker.getEthGas_le_exactEth _, hp.gas.trans hleft⟩⟩
    · exact ⟨[], h₁.trans_nil (handleApply_spec env _ type r _), by simp, fun h => absurd rfl h⟩
    · split_ifs
      · exact ⟨[], h₁, by simp, fun h => absurd rfl h⟩
      · exact ⟨[], h₁, by simp, fun h => absurd rfl h⟩

/-- **What an EVM run does**: its chain may burn, it pushes at most three runs, and only when the
    EVM trapped, leaving the tracker at most the remainder it reported for a gas limit the tracker
    covered. -/
theorem run_spec (args : EvmArgs) (type : RunType) (st : CpsState) :
    ∃ new, Pushes true st (run env args type st).2 new ∧ new.length ≤ 3 ∧
      (new ≠ [] → ∃ s args' r, env.invokeEvm s args' = some r ∧ r.exitReason = .trap ∧
        args'.gasLimit ≤ st.tracker.exactEth ∧
        (run env args type st).2.tracker.exactEth ≤ r.remainingGas) := by
  unfold run
  have hpre := runPreamble_spec args type
    (env.getAddressForContract args.origin (st.store.getNonceForAccountAtomic args.origin)
      .ethLegacy) st
  dsimp only
  split
  · next res hres =>
    rw [hres] at hpre
    exact ⟨[], hpre.mono, by simp, fun h => absurd rfl h⟩
  · next args' st' hres =>
    rw [hres] at hpre
    obtain ⟨new, hp, hlen, htrap⟩ := invoke_spec env args' type st'
    refine ⟨new, hpre.mono.trans_nil hp, hlen, fun hne => ?_⟩
    obtain ⟨s, a, r, hr, hkind, hlim, hleft⟩ := htrap hne
    exact ⟨s, a, r, hr, hkind, hlim.trans hpre.gas, hleft⟩

end CpsRunEvm

/-! ## Scilla runs -/

namespace ScillaHelpers

theorem gasRemainingStep_le (penalty : ℕ) (gasRemaining : Field ℕ) (t : GasTracker) :
    (gasRemainingStep penalty gasRemaining t).2.exactEth ≤ t.exactEth := by
  unfold gasRemainingStep
  split
  · split
    · exact GasTracker.exactEth_decreaseByCore_le _ _
    · exact GasTracker.exactEth_decreaseByCore_le _ _
  · exact Nat.le_refl _
  · split
    · exact GasTracker.exactEth_setGasCore_le (min_le_left _ _)
    · exact Nat.le_refl _

theorem parseContractCheckerOutput_le {addr : Address} {out : Option ScillaOutput}
    {metadata metadata' : List (StorageKey × Bytes)} {t t' : GasTracker} {isLibrary ok : Bool}
    (h : parseContractCheckerOutput addr out metadata t isLibrary = (ok, metadata', t')) :
    t'.exactEth ≤ t.exactEth := by
  unfold parseContractCheckerOutput at h
  split at h
  · simp only [Prod.mk.injEq] at h
    rw [← h.2.2]
  · next o =>
    have hg := gasRemainingStep_le contractCreateGas o.gasRemaining t
    split at h
    · next t₁ heq =>
      rw [heq] at hg
      simp only [Prod.mk.injEq] at h
      rw [← h.2.2]
      exact hg
    · next t₁ heq =>
      rw [heq] at hg
      -- every exit of the field checks returns the tracker `t₁`
      repeat' split at h
      all_goals
        simp only [Prod.mk.injEq] at h
        rw [← h.2.2]
        exact hg

theorem parseCreateContract_le {t t' : GasTracker} {out : Option ScillaOutput}
    {isLibrary ok : Bool} (h : parseCreateContract t out isLibrary = (ok, t')) :
    t'.exactEth ≤ t.exactEth := by
  unfold parseCreateContract at h
  split at h
  · simp only [Prod.mk.injEq] at h
    rw [← h.2]
  · next o =>
    have hg := gasRemainingStep_le contractCreateGas o.gasRemaining t
    split at h
    · next t₁ heq =>
      rw [heq] at hg
      simp only [Prod.mk.injEq] at h
      rw [← h.2]
      exact hg
    · next t₁ heq =>
      rw [heq] at hg
      repeat' split at h
      all_goals
        simp only [Prod.mk.injEq] at h
        rw [← h.2]
        exact hg

end ScillaHelpers

namespace CpsRunScilla

open ScillaHelpers

variable (env : CpsEnv)

/-- The tracker a call's output parse returns never holds more gas. -/
theorem parseCallContract_le {s : AccountStoreSC} {args : ScillaArgs} {out : Option ScillaOutput}
    {t t' : GasTracker} {r r' : TransactionReceipt} {preVersion : ℕ} {p : Option CallParse}
    (h : parseCallContract env s args out t r preVersion = some (p, t', r')) :
    t'.exactEth ≤ t.exactEth := by
  unfold parseCallContract at h
  split at h
  · simp only [Option.some.injEq, Prod.mk.injEq] at h
    rw [← h.2.1]
  · next o =>
    unfold parseCallContractJsonOutput at h
    have hg := gasRemainingStep_le contractInvokeGas o.gasRemaining t
    split at h
    · next t₁ heq =>
      rw [heq] at hg
      simp only [Option.some.injEq, Prod.mk.injEq] at h
      rw [← h.2.1]
      exact hg
    · next t₁ heq =>
      rw [heq] at hg
      -- every exit returns the tracker `t₁`, the message parse's included
      dsimp only at h
      repeat' split at h
      all_goals
        simp only [Option.some.injEq, Prod.mk.injEq, Option.map_eq_some_iff] at h
        first
        | obtain ⟨-, rfl, -⟩ := h; exact hg
        | obtain ⟨_, -, -, rfl, -⟩ := h; exact hg

/-- **A deployment** creates the account, moves the value, initialises the contract, pays the two
    interpreter calls and records the metadata; it pushes nothing. -/
theorem runCreate_spec (args : ScillaArgs) (st : CpsState) :
    Pushes false st (runCreate env args st).2 [] := by
  unfold runCreate
  split
  · exact Pushes.refl st
  dsimp only
  split
  · next s hadd => exact (Pushes.refl st).op ((AtomicOp.addAccount _ _).of_pair hadd)
  next s₁ hadd =>
  have h₁ : RunEffect false st.store s₁ := .single ((AtomicOp.addAccount _ _).of_pair hadd)
  split
  · next s htr => exact (Pushes.refl st).withStore (h₁.op ((AtomicOp.transfer _ _ _ _).of_pair htr))
  next s₂ htr =>
  have h₂ : RunEffect false st.store s₂ := h₁.op ((AtomicOp.transfer _ _ _ _).of_pair htr)
  split
  · next s hinit =>
    exact (Pushes.refl st).withStore (h₂.op ((AtomicOp.initContract _ _ _ _ _ _).of_pair hinit))
  next s₃ hinit =>
  have h₃ : Pushes false st (st.withStore s₃) [] :=
    (Pushes.refl st).withStore (h₂.op ((AtomicOp.initContract _ _ _ _ _ _).of_pair hinit))
  -- the auxiliaries and the exports fail with the store `s₃`
  split
  · exact h₃
  split
  · exact h₃
  have h₄ := h₃.decreaseByCore scillaCheckerInvokeGas
  split
  · exact h₄
  -- the checker's output parse may lower the tracker
  split
  · next t hparse => exact h₄.setTracker (parseContractCheckerOutput_le hparse) _
  next metadata t hparse =>
  have h₅ := (h₄.setTracker (parseContractCheckerOutput_le hparse) (st.withStore s₃).receipt).decreaseByCore
    scillaRunnerInvokeGas
  split
  · exact h₅
  -- the runner's output parse, then the metadata write
  split
  · next t' hparse' => exact h₅.setTracker (parseCreateContract_le hparse') _
  next t' hparse' =>
  have h₆ := h₅.setTracker (parseCreateContract_le hparse') (st.withStore s₃).receipt
  split
  · next s hup => exact h₆.op ((AtomicOp.updateStates _ _ _ _).of_pair hup)
  · next s hup =>
    exact h₆.withStore (((RunEffect.single ((AtomicOp.updateStates _ _ _ _).of_pair hup)).op
      (.addToBuffer _ _)).op (.addToBuffer _ _))

/-- **The message loop**: each pushed run is a transfer or a Scilla call, and each was paid for. -/
theorem pushEntries_spec (args : ScillaArgs) (callPenalty : ℕ) (entries : List SingleResult) :
    ∀ {ret ret' : ℕ} {st st' : CpsState},
      (pushEntries env args callPenalty entries ret st = .inl (ret', st') ∨
        pushEntries env args callPenalty entries ret st = .inr (ret', st')) →
      ∃ new, ScillaPushes st st' new := by
  induction entries with
  | nil =>
    intro ret ret' st st' h
    simp only [pushEntries, reduceCtorEq, Sum.inr.injEq, Prod.mk.injEq, false_or] at h
    rw [← h.2]
    exact ⟨[], .of_pushes (Pushes.refl st)⟩
  | cons e rest ih =>
    intro ret ret' st st' h
    unfold pushEntries at h
    split at h
    · -- too little gas for the message: the loop stops
      simp only [Sum.inl.injEq, reduceCtorEq, Prod.mk.injEq, or_false] at h
      rw [← h.2]
      exact ⟨[], .of_pushes (Pushes.refl st)⟩
    · next hgas =>
      dsimp only at h
      obtain ⟨new, hrest⟩ := ih h
      have hcore : contractInvokeGas ≤ st.tracker.gasCore := by
        simp only [GasTracker.getCoreGas] at hgas
        omega
      refine ⟨new ++ [_], ScillaPushes.trans (ScillaPushes.paidPush st hcore
        ((Pushes.refl _).ensureAccount e.nextAddress) ?_) hrest⟩
      split <;> rfl

/-- The value an accepting contract takes: moved by `TransferBalanceAtomic`, or not at all. -/
theorem acceptedTransfer_effect {accepted ok : Bool} {s₀ s : AccountStoreSC} {src dst : Address}
    {amount : Amount}
    (h : (if accepted = true then s₀.transferBalanceAtomic src dst amount else (true, s₀)) =
      (ok, s)) : RunEffect false s₀ s := by
  split at h
  · exact .single ((AtomicOp.transfer _ _ _ _).of_pair h)
  · simp only [Prod.mk.injEq] at h
    rw [← h.2]
    exact .refl _

/-- **A contract call**: its chain makes no burn, and it pushes only paid transfers and Scilla
    calls. -/
theorem runCall_spec {args : ScillaArgs} {st st' : CpsState} {res : CpsExecuteResult}
    (h : runCall env args st = some (res, st')) : ∃ new, ScillaPushes st st' new := by
  unfold runCall at h
  dsimp only at h
  -- the checks before the interpreter return the state they found
  split at h
  · simp only [Option.some.injEq, Prod.mk.injEq] at h
    rw [← h.2]
    exact ⟨[], .of_pushes (Pushes.refl st)⟩
  split at h
  · simp only [Option.some.injEq, Prod.mk.injEq] at h
    rw [← h.2]
    exact ⟨[], .of_pushes (Pushes.refl st)⟩
  have h₁ : Pushes false st (st.decreaseByCore scillaRunnerInvokeGas) [] :=
    (Pushes.refl st).decreaseByCore _
  split at h
  · simp only [Option.some.injEq, Prod.mk.injEq] at h
    rw [← h.2]
    exact ⟨[], .of_pushes h₁⟩
  split at h
  · simp only [Option.some.injEq, Prod.mk.injEq] at h
    rw [← h.2]
    exact ⟨[], .of_pushes h₁⟩
  split at h
  · simp only [Option.some.injEq, Prod.mk.injEq] at h
    rw [← h.2]
    exact ⟨[], .of_pushes h₁⟩
  -- the output parse
  split at h
  · cases h
  · next t r hparse =>
    simp only [Option.some.injEq, Prod.mk.injEq] at h
    rw [← h.2]
    exact ⟨[], .of_pushes (h₁.setTracker (parseCallContract_le env hparse) r)⟩
  next p t r hparse =>
  have h₂ := h₁.setTracker (parseCallContract_le env hparse) r
  split at h
  · next s hmoved =>
    simp only [Option.some.injEq, Prod.mk.injEq] at h
    rw [← h.2]
    exact ⟨[], .of_pushes (h₂.withStore (acceptedTransfer_effect hmoved))⟩
  next s hmoved =>
  have h₃ := h₂.withStore (acceptedTransfer_effect hmoved)
  -- the messages, then the two buffered addresses
  split at h
  · next ret' st₅ hpush =>
    simp only [Option.some.injEq, Prod.mk.injEq] at h
    rw [← h.2]
    obtain ⟨new, hrest⟩ := pushEntries_spec env args _ _ (.inl hpush)
    exact ⟨_, (ScillaPushes.of_pushes (h₃.ite (h₃.setReceipt _))).trans hrest⟩
  · next ret' st₅ hpush =>
    simp only [Option.some.injEq, Prod.mk.injEq] at h
    rw [← h.2]
    obtain ⟨new, hrest⟩ := pushEntries_spec env args _ _ (.inr hpush)
    have h₆ : ScillaPushes st₅ (st₅.withStore ((st₅.store.addAddressToUpdateBufferAtomic
        args.fromAddr).addAddressToUpdateBufferAtomic args.dest)) [] :=
      .of_pushes (((Pushes.refl st₅).op (.addToBuffer _ _)).withStore (.single (.addToBuffer _ _)))
    exact ⟨_, ((ScillaPushes.of_pushes (h₃.ite (h₃.setReceipt _))).trans hrest).trans h₆⟩

/-- **What a Scilla run does**: a deployment pushes nothing, a call pushes paid transfers and
    Scilla calls; neither burns. -/
theorem run_spec {args : ScillaArgs} {type : RunType} {st st' : CpsState} {res : CpsExecuteResult}
    (h : run env args type st = some (res, st')) : ∃ new, ScillaPushes st st' new := by
  unfold run at h
  split at h
  · simp only [Option.some.injEq, Prod.mk.injEq] at h
    rw [← h.2]
    exact ⟨[], .of_pushes (Pushes.refl st)⟩
  split at h
  · simp only [Option.some.injEq, Prod.mk.injEq] at h
    rw [← h.2]
    exact ⟨[], .of_pushes (Pushes.refl st)⟩
  split at h
  · have hst : (runCreate env args st).2 = st' := congrArg Prod.snd (Option.some.inj h)
    rw [← hst]
    exact ⟨[], .of_pushes (runCreate_spec env args st)⟩
  · exact runCall_spec env h

end CpsRunScilla

namespace CpsRunTransfer

/-- A transfer run moves the value and buffers both addresses; it pushes nothing. -/
theorem run_spec (prev : ResultType) (fromAddr toAddr : Address) (amount : Amount)
    (st : CpsState) : Pushes false st (run prev fromAddr toAddr amount st).2 [] := by
  unfold run
  split
  · next s htr => exact (Pushes.refl st).op ((AtomicOp.transfer _ _ _ _).of_pair htr)
  · next s htr =>
    exact (Pushes.refl st).withStore (((RunEffect.single ((AtomicOp.transfer _ _ _ _).of_pair
      htr)).op (.addToBuffer _ _)).op (.addToBuffer _ _))

end CpsRunTransfer

namespace CpsRun

/-- **What any run does**: only an EVM run may burn, and a run that is not an EVM run pushes no EVM
    run. -/
theorem run_spec (env : CpsEnv) {r : CpsRun} {st st' : CpsState} {res : CpsExecuteResult}
    (h : r.run env st = some (res, st')) :
    ∃ new, Pushes r.isEvm st st' new ∧ (r.isEvm = false → ∀ x ∈ new, x.isEvm = false) := by
  cases r with
  | evm args type =>
    have hst : (CpsRunEvm.run env args type st).2 = st' := congrArg Prod.snd (Option.some.inj h)
    obtain ⟨new, hp, -⟩ := CpsRunEvm.run_spec env args type st
    rw [hst] at hp
    exact ⟨new, hp, fun h => by simp [isEvm] at h⟩
  | scilla args type =>
    obtain ⟨new, hp⟩ := CpsRunScilla.run_spec env h
    exact ⟨new, hp.toPushes, fun _ => hp.notEvm⟩
  | transfer prev f t a =>
    have hst : (CpsRunTransfer.run prev f t a st).2 = st' := congrArg Prod.snd (Option.some.inj h)
    have hp := CpsRunTransfer.run_spec prev f t a st
    rw [hst] at hp
    exact ⟨[], hp, fun _ _ hx => absurd hx List.not_mem_nil⟩

/-- Feedback changes the arguments of a run, never its kind. -/
@[simp] theorem isEvm_provideFeedback (prev : CpsRun) (res : CpsExecuteResult) (r : CpsRun) :
    (provideFeedback prev res r).isEvm = r.isEvm := by
  cases r <;> rfl

end CpsRun

/-! ## One iteration of the loop -/

/-- **A continuing iteration** pops a run, runs it successfully, and hands its result to the next
    run when that one resumes. -/
theorem processStep_inr {env : CpsEnv} {ls ls' : CpsExecuteResult × CpsState}
    (h : processStep env ls = .inr ls') :
    ∃ r rest st, ls.2.queue = r :: rest ∧ r.run env { ls.2 with queue := rest } = some (ls'.1, st) ∧
      ls'.1.isSuccess = true ∧ ls'.2.store = st.store ∧ ls'.2.tracker = st.tracker ∧
      (ls'.2.queue = st.queue ∨
        ∃ next rest', st.queue = next :: rest' ∧
          ls'.2.queue = r.provideFeedback ls'.1 next :: rest') := by
  unfold processStep at h
  split at h
  · cases h
  next r rest hq =>
  split at h
  · cases h
  next res st hrun =>
  split at h
  · cases h
  next hok =>
  simp only [Bool.not_eq_true', Bool.not_eq_false] at hok
  split at h
  · next next rest' hq' =>
    split at h
    · cases h
      exact ⟨r, rest, st, hq, hrun, hok, rfl, rfl, .inr ⟨next, rest', hq', rfl⟩⟩
    · cases h
      exact ⟨r, rest, st, hq, hrun, hok, rfl, rfl, .inl rfl⟩
  · cases h
    exact ⟨r, rest, st, hq, hrun, hok, rfl, rfl, .inl rfl⟩

/-- **An ending iteration** found the stack empty, or ran a run that failed. -/
theorem processStep_done {env : CpsEnv} {ls : CpsExecuteResult × CpsState}
    {res : CpsExecuteResult} {st : CpsState} (h : processStep env ls = .inl (.done res st)) :
    (ls.2.queue = [] ∧ res = ls.1 ∧ st = ls.2) ∨
      ∃ r rest, ls.2.queue = r :: rest ∧ r.run env { ls.2 with queue := rest } = some (res, st) ∧
        res.isSuccess = false := by
  unfold processStep at h
  split at h
  · next hq =>
    cases h
    exact .inl ⟨hq, rfl, rfl⟩
  next r rest hq =>
  split at h
  · cases h
  next res' st' hrun =>
  split at h
  · next hfail =>
    cases h
    simp only [Bool.not_eq_true'] at hfail
    exact .inr ⟨r, rest, hq, hrun, hfail⟩
  · split at h <;> (try split at h) <;> cases h


end Zilliqa
