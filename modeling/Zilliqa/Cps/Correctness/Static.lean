import Zilliqa.Cps.Correctness.Conservation

/-!
# `Cps.Correctness.Static` — what a static EVM call may change

A static run is a `CpsRunEvm` whose arguments have `is_static_call` set. Only a call trap sets the
flag, for its child of type `TrapCall`, and the flag is not a property of the shared context: every
handler tests it on its own. `HandleCreateTrap` refuses a static run, `HandleCallTrap` and
`HandlePrecompileTrap` refuse a static-to-non-static call, and `HandleApply` skips the storage
writes and the self-destruct sweep.

`run_static` says what that leaves: a static run changes no balance, nonce, code or contract
storage, and pushes only static EVM calls and the Scilla call of a precompile. Two things remain.
The `kModify` branch of the `apply` loop creates the running contract's account when it is missing,
whatever the flag (`StaticFrame` has to allow it, and `static_call_creates_account` shows it
happen); and the Scilla call a precompile pushes carries no static flag at all, so whatever it does
is done inside the static context.

## Contents
- `AccountStoreSC.StaticFrame`; `CpsRun.StaticChild`; `StaticStep` with its composition lemmas.
- `CpsRunEvm`: `applyModify_static`, `processApplies_static`, `handleApply_static`,
  `handleCallTrap_static`, `handlePrecompileTrap_static`, `handleCreateTrap_static`,
  `handleTrap_static`, `runPreamble_trapCall`, `invoke_static`, `run_static`.
-/

namespace Zilliqa

namespace AccountStoreSC

/-- What a static run may do to the store: every account a reader sees stays as it is, except that
    the running contract's account `a` may be created empty; the contract storage is as before. -/
structure StaticFrame (a : Address) (s s' : AccountStoreSC) : Prop where
  accounts : ∀ b, s'.getAccountAtomic b = s.getAccountAtomic b ∨
    (b = a ∧ s.getAccountAtomic b = none ∧ s'.getAccountAtomic b = some (Account.new 0 0))
  storage : s'.contractStorage = s.contractStorage

namespace StaticFrame

variable {a : Address} {s s₁ s₂ : AccountStoreSC}

theorem refl (a : Address) (s : AccountStoreSC) : StaticFrame a s s := ⟨fun _ => .inl rfl, rfl⟩

theorem trans (h₁ : StaticFrame a s s₁) (h₂ : StaticFrame a s₁ s₂) : StaticFrame a s s₂ := by
  refine ⟨fun b => ?_, h₂.storage.trans h₁.storage⟩
  rcases h₁.accounts b with h₁b | ⟨hb, hnone, hnew⟩
  · rcases h₂.accounts b with h₂b | ⟨hb', hnone', hnew'⟩
    · exact .inl (h₂b.trans h₁b)
    · exact .inr ⟨hb', h₁b ▸ hnone', hnew'⟩
  · -- an account created by the first stretch exists for the second, which cannot create it again
    rcases h₂.accounts b with h₂b | ⟨-, hnone', -⟩
    · exact .inr ⟨hb, hnone, h₂b.trans hnew⟩
    · rw [hnew] at hnone'
      cases hnone'

theorem of_addAccountAtomic (s : AccountStoreSC) (a : Address) :
    StaticFrame a s (s.addAccountAtomic a).2 := by
  unfold addAccountAtomic addAccountBase
  split
  · exact refl a s
  next hnone =>
  refine ⟨fun b => ?_, rfl⟩
  rw [getAccountAtomic_writeAtomic]
  split
  · next hb =>
    subst hb
    exact .inr ⟨rfl, Option.not_isSome_iff_eq_none.mp hnone, rfl⟩
  · exact .inl rfl

theorem of_addToBuffer (s : AccountStoreSC) (a b : Address) :
    StaticFrame a s (s.addAddressToUpdateBufferAtomic b) :=
  ⟨fun _ => .inl rfl, rfl⟩

end StaticFrame

end AccountStoreSC

open AccountStoreSC

/-- The runs a static EVM run may push: static EVM calls, and the Scilla call of a precompile,
    which carries no static flag. -/
def CpsRun.StaticChild : CpsRun → Prop
  | .evm args type => args.isStaticCall = true ∧ type = .trapCall
  | .scilla _ type => type = .trapScillaCall
  | .transfer .. => False

/-- What a static EVM run, or a stretch of one, does to the executor's state: the store stays
    within `StaticFrame a`, and only `StaticChild` runs are pushed. -/
structure StaticStep (a : Address) (st st' : CpsState) : Prop where
  store : StaticFrame a st.store st'.store
  queue : ∃ new, st'.queue = new ++ st.queue ∧ ∀ r ∈ new, r.StaticChild

namespace StaticStep

variable {a : Address} {st st₁ st₂ : CpsState}

theorem refl (a : Address) (st : CpsState) : StaticStep a st st :=
  ⟨StaticFrame.refl a st.store, [], rfl, fun _ h => absurd h List.not_mem_nil⟩

theorem trans (h₁ : StaticStep a st st₁) (h₂ : StaticStep a st₁ st₂) : StaticStep a st st₂ := by
  obtain ⟨new₁, hq₁, hnew₁⟩ := h₁.queue
  obtain ⟨new₂, hq₂, hnew₂⟩ := h₂.queue
  refine ⟨h₁.store.trans h₂.store, new₂ ++ new₁, by rw [hq₂, hq₁, List.append_assoc], ?_⟩
  intro r hr
  rcases List.mem_append.mp hr with hr | hr
  · exact hnew₂ r hr
  · exact hnew₁ r hr

theorem withStore (h : StaticStep a st st₁) {s : AccountStoreSC}
    (hs : StaticFrame a st₁.store s) : StaticStep a st (st₁.withStore s) :=
  ⟨h.store.trans hs, h.queue⟩

theorem pushRun (h : StaticStep a st st₁) {r : CpsRun} (hr : r.StaticChild) :
    StaticStep a st (st₁.pushRun r) := by
  obtain ⟨new, hq, hnew⟩ := h.queue
  refine ⟨h.store, r :: new, by rw [CpsState.queue_pushRun, hq, List.cons_append], ?_⟩
  intro x hx
  rcases List.mem_cons.mp hx with rfl | hx
  · exact hr
  · exact hnew x hx

theorem decreaseByEth (h : StaticStep a st st₁) (v : ℕ) : StaticStep a st (st₁.decreaseByEth v) :=
  ⟨h.store, h.queue⟩

theorem decreaseByCore (h : StaticStep a st st₁) (v : ℕ) : StaticStep a st (st₁.decreaseByCore v) :=
  ⟨h.store, h.queue⟩

theorem setReceipt (h : StaticStep a st st₁) (r : TransactionReceipt) :
    StaticStep a st { st₁ with receipt := r } :=
  ⟨h.store, h.queue⟩

end StaticStep

namespace CpsRunEvm

variable (env : CpsEnv) (args : EvmArgs)

/-- A `kModify` entry of a static run only creates the running contract's account, when missing. -/
theorem applyModify_static (hs : args.isStaticCall = true) (address : Address) (resetStorage : Bool)
    (storage : List (Bytes × Bytes)) (s : AccountStoreSC) :
    StaticFrame args.address s (applyModify env args address resetStorage storage s) := by
  unfold applyModify
  -- the storage reset and the storage writes are both guarded by the flag
  simp only [hs, Bool.not_true, Bool.and_false, Bool.or_true, Bool.false_eq_true, ↓reduceIte]
  refine StaticFrame.trans ?_ (StaticFrame.of_addToBuffer _ _ _)
  split
  · exact StaticFrame.refl _ s
  · exact StaticFrame.of_addAccountAtomic s _

/-- **The `apply` loop of a static run** stays within `StaticFrame`. -/
theorem processApplies_static (hs : args.isStaticCall = true) (l : List EvmApply) :
    ∀ (acc : ApplyAcc) (s : AccountStoreSC),
      StaticFrame args.address s (processApplies env args l (acc, s)).2 := by
  induction l with
  | nil => intro acc s; exact StaticFrame.refl _ s
  | cons e rest ih =>
    intro acc s
    cases e with
    | delete a =>
      simp only [processApplies]
      exact ih _ s
    | modify a balance reset storage =>
      simp only [processApplies]
      exact (applyModify_static env args hs a reset storage s).trans (ih _ _)
    | notSet =>
      simp only [processApplies]
      exact ih acc s

/-- `HandleApply` of a static call: the `apply` loop only, without the sweep or a code install. -/
theorem handleApply_static (hs : args.isStaticCall = true) (r : EvmResult) (st : CpsState) :
    StaticStep args.address st (handleApply env args .trapCall r st) := by
  unfold handleApply
  have h := processApplies_static env args hs r.apply ApplyAcc.init st.store
  rcases hp : processApplies env args r.apply (ApplyAcc.init, st.store) with ⟨acc, s₁⟩
  rw [hp] at h
  dsimp only
  -- the sweep is skipped for a static run, and a call installs no code
  simp only [hs, Bool.not_true, Bool.and_false, Bool.false_eq_true, ↓reduceIte]
  rw [if_neg (by decide)]
  exact (StaticStep.refl _ st).withStore h

/-- **A static call trap** pushes its own continuation and a static call, or fails first. -/
theorem handleCallTrap_static (hs : args.isStaticCall = true) (r : EvmResult) (c : TrapCall)
    (st : CpsState) : StaticStep args.address st (handleCallTrap env args .trapCall r c st).2 := by
  unfold handleCallTrap
  have h₁ : StaticStep args.address st
      (st.withStore (processApplies env args r.apply (ApplyAcc.init, st.store)).2) :=
    (StaticStep.refl _ st).withStore (processApplies_static env args hs r.apply _ _)
  generalize st.withStore (processApplies env args r.apply (ApplyAcc.init, st.store)).2 = st₁
    at h₁ ⊢
  by_cases hc : c.isStatic = true
  · -- a static child moves no value
    simp only [hs, hc, Bool.not_true, Bool.and_false, Bool.false_and, Bool.false_eq_true,
      ↓reduceIte]
    refine (h₁.pushRun ?_).pushRun ?_
    · exact ⟨hs, rfl⟩
    · exact ⟨rfl, rfl⟩
  · simp only [Bool.not_eq_true] at hc
    simp only [hs, hc, Bool.not_false, Bool.and_self, ↓reduceIte]
    exact h₁

/-- **A static precompile trap** pushes its continuation and the Scilla call, or fails first. -/
theorem handlePrecompileTrap_static (hs : args.isStaticCall = true) (r : EvmResult) (c : TrapCall)
    (st : CpsState) :
    StaticStep args.address st (handlePrecompileTrap env args .trapCall r c st).2 := by
  unfold handlePrecompileTrap
  split
  · exact StaticStep.refl _ st
  · dsimp only
    have h₁ := (StaticStep.refl args.address st).decreaseByCore
      (scillaRunnerInvokeGas + contractInvokeGas)
    -- the static check, and the sender the Scilla call is made from
    split_ifs
    · exact h₁
    all_goals
      refine (h₁.pushRun ?_).pushRun ?_
      · exact ⟨hs, rfl⟩
      · rfl

/-- A static create trap is refused before anything is done. -/
theorem handleCreateTrap_static (hs : args.isStaticCall = true) (type : RunType) (r : EvmResult)
    (c : TrapCreate) (st : CpsState) : (handleCreateTrap env args type r c st).2 = st := by
  unfold handleCreateTrap
  rcases createAddresses env args c.scheme st.store with ⟨contractAddress, fromAddress⟩
  simp only [hs, ↓reduceIte]

theorem handleTrap_static (hs : args.isStaticCall = true) (r : EvmResult) (st : CpsState) :
    StaticStep args.address st (handleTrap env args .trapCall r st).2 := by
  unfold handleTrap
  split
  · rw [handleCreateTrap_static env args hs]
    exact StaticStep.refl _ st
  · split
    · exact handlePrecompileTrap_static env args hs r _ st
    · exact handleCallTrap_static env args hs r _ st

/-- The preamble does nothing for a call-trap child. -/
theorem runPreamble_trapCall (contractAddress : Address) (st : CpsState) :
    runPreamble args .trapCall contractAddress st = .inr (args, st) := by
  unfold runPreamble
  split
  · rfl
  · rw [if_neg (by decide), if_neg (by decide)]

theorem invoke_static (hs : args.isStaticCall = true) (st : CpsState) :
    StaticStep args.address st (invoke env args .trapCall st).2 := by
  unfold invoke
  dsimp only
  have h₀ : StaticStep args.address st
      (st.withStore (st.store.addAddressToUpdateBufferAtomic args.address)) :=
    (StaticStep.refl _ st).withStore (StaticFrame.of_addToBuffer _ _ _)
  split
  · exact h₀.setReceipt _
  · next r hr =>
    have h₁ := h₀.decreaseByEth (sub64 st.tracker.getEthGas r.remainingGas)
    -- the arguments the EVM saw differ only in the gas limit
    split
    · exact h₁.trans (handleTrap_static env { args with gasLimit := st.tracker.getEthGas } hs r _)
    · exact h₁.trans (handleApply_static env { args with gasLimit := st.tracker.getEthGas } hs r _)
    · -- a failed run ends here, whatever its type
      split_ifs <;> exact h₁

/-- **What a static call does**: it changes no balance, nonce, code or contract storage (it may only
    create its own account), and pushes only static EVM calls and the Scilla call of a
    precompile. -/
theorem run_static (hs : args.isStaticCall = true) (st : CpsState) :
    StaticStep args.address st (run env args .trapCall st).2 := by
  unfold run
  dsimp only
  rw [runPreamble_trapCall]
  exact invoke_static env args hs st

end CpsRunEvm

/-- A static call from the contract at `0x..02` to the address `0x..03`, which holds no account. -/
def staticProbe : TrapCall :=
  ⟨⟨3⟩, ⟨2⟩, 0, ⟨2⟩, ⟨3⟩, 0, ⟨3⟩, [], 30000, true, false, 0, 0⟩

/-- An EVM that traps into `staticProbe` once; the static callee answers with a `kModify` of its
    own address that sets nothing. -/
def staticProbeOracles : CpsOracles :=
  { CpsOracles.idle with
    invokeEvm := fun _ a =>
      if a.isStaticCall then
        some ⟨.succeed, [], [.modify a.address none false []], [], a.gasLimit, 0,
          .call TrapCall.empty⟩
      else match a.continuation with
        | some _ => some ⟨.succeed, [], [], [], a.gasLimit, 0, .call TrapCall.empty⟩
        | none => some ⟨.trap, [], [], [], a.gasLimit - 100, 1, .call staticProbe⟩ }

/-- The static call into `0x..03` that the trap above asks for, with its gas. -/
def staticProbeArgs : EvmArgs := ⟨⟨3⟩, ⟨1⟩, ⟨2⟩, [], [], 0, 30000, false, "", true, none⟩

/-- The executor's state when that call runs: the store of the transaction below, fresh gas and
    receipt, and nothing queued. -/
def staticProbeState : CpsState :=
  ⟨AccountStoreSC.ofAccounts [(⟨1⟩, Account.new 5 0), (⟨2⟩, Account.new 0 0)],
    GasTracker.createFromCore 30000, TransactionReceipt.empty, []⟩

/-- That call keeps every balance, nonce, code and contract storage. -/
theorem run_static_probe :
    staticProbeArgs.isStaticCall = true ∧
      StaticStep staticProbeArgs.address staticProbeState
        (CpsRunEvm.run (evmEnv staticProbeOracles (EvmProcessContext.ofTransaction freeCall "" true))
          staticProbeArgs .trapCall staticProbeState).2 :=
  ⟨rfl, CpsRunEvm.run_static _ _ rfl _⟩

/-- **A static call creates an account.** The `kModify` branch of `HandleApply` adds the running
    contract's account when it is missing without testing `is_static_call`, so the committed store
    of a successful transaction gains the account `0x..03`. -/
theorem static_call_creates_account : ∃ res s' receipt',
    runFromEvm staticProbeOracles 10 (EvmProcessContext.ofTransaction freeCall "" true)
      (AccountStoreSC.ofAccounts [(⟨1⟩, Account.new 5 0), (⟨2⟩, Account.new 0 0)])
      TransactionReceipt.empty = some (.returned res s' receipt') ∧
    res.isSuccess = true ∧ s'.getAccount ⟨3⟩ = some (Account.new 0 0) := by
  refine ⟨_, _, _, rfl, ?_⟩
  decide

end Zilliqa
