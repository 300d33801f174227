import Zilliqa.Cps.Correctness.Failure

/-!
# `Cps.Correctness.Termination` — the gas limit bounds the runs of a transaction

`processLoop` has no counter of its own: EVM traps push runs back and forth with no depth limit,
and a Scilla call pushes one run per message. What bounds the loop is the shared `GasTracker`. An
EVM run that pushes anything trapped, and a trap reports less gas remaining than it was given; a
Scilla run pays `CONTRACT_INVOKE_GAS` for every run it pushes; a transfer pushes nothing. So the
weight `3 * exactEth + |stack|` drops on every iteration that goes on (`processStep_weight_lt`), and
the loop ends within `loopBound G` iterations for a transaction of `G` core gas units, with the stack
never longer than that.

The one assumption is on the EVM, which is outside this repository: `TrapsConsumeGas`.

## Contents
- `CpsState.weight`, `loopBound`, `TrapsConsumeGas`.
- The weight of one run: `CpsRunEvm.run_weight_le`, `ScillaPushes.weight_le`, `CpsRun.run_weight_le`.
- `processStep_weight_lt`; `processLoop_isSome`, `processLoop_queue_le`.
- `runFromEvm_isSome`, `runFromScilla_isSome` and `runs_bounded_by_gas_limit`.
-/

namespace Zilliqa

/-- The ranking of a loop state: three for every Eth unit of gas left, one for each queued run. -/
def CpsState.weight (st : CpsState) : ℕ := 3 * st.tracker.exactEth + st.queue.length

/-- The bound on the iterations, and on the stack, of a transaction of `G` core gas units. -/
def loopBound (G : ℕ) : ℕ := 3 * (G * getScalingFactor + getScalingFactor)

/-- What the executor relies on from the EVM: a run that ends in a trap has used some of the gas it
    was given. -/
def TrapsConsumeGas (o : CpsOracles) : Prop :=
  ∀ s a r, o.invokeEvm s a = some r → r.exitReason = .trap → r.remainingGas < a.gasLimit

theorem Pushes.weight_le {burns : Bool} {st st' : CpsState} (h : Pushes burns st st' []) :
    st'.weight ≤ st.weight := by
  unfold CpsState.weight
  rw [h.queue, List.nil_append]
  have := h.gas
  omega

/-- **An EVM run never adds weight**: what it pushes, at most three runs, is paid by the trap's
    gas. -/
theorem CpsRunEvm.run_weight_le {env : CpsEnv} (htrap : TrapsConsumeGas env.toCpsOracles)
    (args : EvmArgs) (type : RunType) (st : CpsState) :
    (CpsRunEvm.run env args type st).2.weight ≤ st.weight := by
  obtain ⟨new, hp, hlen, htrapped⟩ := CpsRunEvm.run_spec env args type st
  unfold CpsState.weight
  rw [hp.queue, List.length_append]
  rcases List.eq_nil_or_concat new with hnil | ⟨l, b, hne⟩
  · subst hnil
    have := hp.gas
    simp only [List.length_nil]
    omega
  · -- the EVM trapped: the tracker lost at least one Eth unit
    obtain ⟨s, a, r, hr, hkind, hlim, hleft⟩ := htrapped (by simp [hne])
    have hless := htrap s a r hr hkind
    omega

/-- A Scilla run pays for what it pushes. -/
theorem ScillaPushes.weight_le {st st' : CpsState} {new : List CpsRun}
    (h : ScillaPushes st st' new) : st'.weight ≤ st.weight := by
  unfold CpsState.weight
  rw [h.queue, List.length_append]
  have hpaid := h.paid
  rw [getScalingFactor_eq] at hpaid
  unfold contractInvokeGas at hpaid
  omega

/-- **No run adds weight.** -/
theorem CpsRun.run_weight_le {env : CpsEnv} (htrap : TrapsConsumeGas env.toCpsOracles)
    {r : CpsRun} {st st' : CpsState} {res : CpsExecuteResult}
    (h : r.run env st = some (res, st')) : st'.weight ≤ st.weight := by
  cases r with
  | evm args type =>
    have hst : (CpsRunEvm.run env args type st).2 = st' := congrArg Prod.snd (Option.some.inj h)
    rw [← hst]
    exact CpsRunEvm.run_weight_le htrap args type st
  | scilla args type =>
    obtain ⟨new, hp⟩ := CpsRunScilla.run_spec env h
    exact hp.weight_le
  | transfer prev f t a =>
    have hst : (CpsRunTransfer.run prev f t a st).2 = st' := congrArg Prod.snd (Option.some.inj h)
    rw [← hst]
    exact (CpsRunTransfer.run_spec prev f t a st).weight_le

/-- **The step lemma**: an iteration that goes on pops a run, and what the run did costs no more
    weight than it freed. -/
theorem processStep_weight_lt {env : CpsEnv} (htrap : TrapsConsumeGas env.toCpsOracles)
    {ls ls' : CpsExecuteResult × CpsState} (h : processStep env ls = .inr ls') :
    ls'.2.weight < ls.2.weight := by
  obtain ⟨r, rest, st, hq, hrun, -, -, htracker, hqueue⟩ := processStep_inr h
  have hle := CpsRun.run_weight_le htrap hrun
  -- the feedback replaces the resumed run, so the stack keeps the length the run left
  have hlen : ls'.2.queue.length = st.queue.length := by
    rcases hqueue with hqueue | ⟨next, rest', hst, hqueue⟩
    · rw [hqueue]
    · rw [hqueue, hst, List.length_cons, List.length_cons]
  unfold CpsState.weight at hle ⊢
  rw [hlen, htracker, hq, List.length_cons]
  simp only at hle
  omega

variable {env : CpsEnv} {st : CpsState}

theorem weight_processLoopStart (st : CpsState) : (processLoopStart st).2.weight = st.weight := rfl

/-- **The run lemma**: fuel above the starting weight ends the loop. -/
theorem processLoop_isSome (htrap : TrapsConsumeGas env.toCpsOracles) {fuel : ℕ}
    (h : st.weight < fuel) : (processLoop env fuel st).isSome := by
  obtain ⟨out, hout⟩ := Loop.runFuel_isSome_of_measure (processStep env) (fun _ => True)
    (fun ls => ls.2.weight) (fun _ _ _ _ => trivial) (fun _ _ _ hs => processStep_weight_lt htrap hs)
    fuel (processLoopStart st) trivial (by rw [weight_processLoopStart]; exact h)
  rw [processLoop, hout]
  rfl

theorem ExecOutcome.isSome_ofLoop (finish : CpsExecuteResult → CpsState → ExecOutcome)
    {out : Option LoopEnd} (h : out.isSome) : (ExecOutcome.ofLoop finish out).isSome := by
  rcases out with _ | ⟨res, st⟩ | _
  · cases h
  · rfl
  · rfl

/-- **The stack never outgrows the starting weight.** -/
theorem processLoop_queue_le (htrap : TrapsConsumeGas env.toCpsOracles)
    {ls : CpsExecuteResult × CpsState} (hr : Loop.Continues (processStep env) (processLoopStart st) ls) :
    ls.2.queue.length ≤ st.weight := by
  have hle := Loop.continues_measure_le (processStep env) (fun _ => True) (fun ls => ls.2.weight)
    (fun _ _ _ _ => trivial) (fun _ _ _ hs => processStep_weight_lt htrap hs) trivial hr
  rw [weight_processLoopStart] at hle
  unfold CpsState.weight at hle ⊢
  omega

/-- A transaction's first state weighs less than its bound: one run, and less than `G + 1` core
    units of gas. -/
theorem weight_lt_loopBound {G : ℕ} (hq : st.queue.length ≤ 1)
    (hgas : st.tracker.exactEth < (G + 1) * getScalingFactor) : st.weight < loopBound G := by
  unfold CpsState.weight loopBound
  rw [Nat.add_one_mul] at hgas
  omega

theorem exactEth_createFromEth_lt (g : ℕ) :
    (GasTracker.createFromEth g).exactEth < (gasUnitsFromEthToCore g + 1) * getScalingFactor := by
  rw [GasTracker.exactEth_createFromEth, Nat.add_one_mul]
  unfold gasUnitsFromEthToCore
  have hmod := Nat.mod_lt g getScalingFactor_pos
  have hsplit := Nat.div_add_mod' g getScalingFactor
  omega

theorem exactEth_createFromCore_lt (G : ℕ) :
    (GasTracker.createFromCore G).exactEth < (G + 1) * getScalingFactor := by
  rw [GasTracker.exactEth_createFromCore, Nat.add_one_mul]
  have := getScalingFactor_pos
  omega

/-- **`RunFromEvm` returns** when given `loopBound` of its gas limit in core units. -/
theorem runFromEvm_isSome {o : CpsOracles} (htrap : TrapsConsumeGas o) (ctx : EvmProcessContext)
    (s : AccountStoreSC) (receipt : TransactionReceipt) :
    (runFromEvm o (loopBound (gasUnitsFromEthToCore ctx.args.gasLimit)) ctx s receipt).isSome := by
  unfold runFromEvm
  dsimp only
  split
  · rfl
  · exact ExecOutcome.isSome_ofLoop _ (processLoop_isSome htrap
      (weight_lt_loopBound (Nat.le_refl 1) (exactEth_createFromEth_lt _)))

/-- **`RunFromScilla` returns** when given `loopBound` of its gas limit. -/
theorem runFromScilla_isSome {o : CpsOracles} (htrap : TrapsConsumeGas o)
    (ctx : ScillaProcessContext) (s : AccountStoreSC) (receipt : TransactionReceipt) :
    (runFromScilla o (loopBound ctx.gasLimit) ctx s receipt).isSome := by
  unfold runFromScilla
  dsimp only
  split
  · rfl
  split
  · rcases (takeGasFromAccountScilla ctx s.discardAtomics).transferBalanceAtomic ctx.origin
      ctx.recipient (Amount.fromQa ctx.amount) with ⟨_ | _, s₂⟩ <;> rfl
  · exact ExecOutcome.isSome_ofLoop _ (processLoop_isSome htrap
      (weight_lt_loopBound (Nat.le_refl 1) (exactEth_createFromCore_lt _)))

/-- **A transaction's runs are bounded by its gas limit.** Given `loopBound G` iterations, for a
    gas limit of `G` core units, both entry points return; and no state the loop reaches from a
    transaction's first state holds more runs than that. -/
theorem runs_bounded_by_gas_limit {o : CpsOracles} (htrap : TrapsConsumeGas o) :
    (∀ ctx s receipt,
      (runFromEvm o (loopBound (gasUnitsFromEthToCore ctx.args.gasLimit)) ctx s receipt).isSome) ∧
    (∀ ctx s receipt, (runFromScilla o (loopBound ctx.gasLimit) ctx s receipt).isSome) ∧
    (∀ (env : CpsEnv) (G : ℕ) (st : CpsState) (ls : CpsExecuteResult × CpsState),
      env.toCpsOracles = o → st.queue.length ≤ 1 → st.tracker.exactEth < (G + 1) * getScalingFactor →
      Loop.Continues (processStep env) (processLoopStart st) ls → ls.2.queue.length ≤ loopBound G) := by
  refine ⟨runFromEvm_isSome htrap, runFromScilla_isSome htrap, ?_⟩
  intro env G st ls henv hq hgas hr
  subst henv
  have hstack := processLoop_queue_le htrap hr
  have hstart := weight_lt_loopBound hq hgas
  omega

/-- An EVM that traps on every call, keeping half of the gas it was given. -/
def halvingTraps : CpsOracles :=
  { CpsOracles.idle with
    invokeEvm := fun _ a =>
      if a.gasLimit = 0 then none
      else some ⟨.trap, [], [], [], a.gasLimit / 2, 1, .call TrapCall.empty⟩ }

/-- A direct call (`eth_call`) with the minimum gas, from an existing account. -/
def directCallCtx : EvmProcessContext :=
  EvmProcessContext.ofCall ⟨1⟩ ⟨2⟩ [] [] minEthGas 0 "eth_call" false true

/-- A direct call against an EVM that traps forever still returns. -/
theorem runs_bounded_by_gas_limit_halving :
    (runFromEvm halvingTraps (loopBound (gasUnitsFromEthToCore directCallCtx.args.gasLimit))
      directCallCtx (AccountStoreSC.ofAccounts [(⟨1⟩, Account.new 5 0)])
      TransactionReceipt.empty).isSome := by
  have htrap : TrapsConsumeGas halvingTraps := by
    intro s a r h hkind
    simp only [halvingTraps] at h
    split_ifs at h with h0
    cases h
    exact Nat.div_lt_self (Nat.pos_of_ne_zero h0) (by decide)
  exact (runs_bounded_by_gas_limit htrap).1 _ _ _

end Zilliqa
