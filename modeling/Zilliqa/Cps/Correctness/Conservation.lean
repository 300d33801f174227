import Zilliqa.Cps.Correctness.Termination

/-!
# `Cps.Correctness.Conservation` — what a Scilla transaction costs its sender

`RunFromScilla` takes the whole gas deposit from the sender before the runs, and afterwards either
refunds the gas the last run reports as remaining and commits, or discards everything and charges
the gas used on the committed store. Either way the committed balances lose the fee the receipt
reports, `cumGas * gasPrice`, with the gas capped at the gas limit (`runFromScilla_conserves`): the
runs themselves only move value between accounts (`processLoop_effect_of_noEvm`), no run removes an
account, and every run reports a remaining gas of at most the gas limit
(`processLoop_resultGas_le`), so that the receipt's `gasLimit - remaining` does not wrap.

The cap matters for one path. A plain transfer's receipt reports `NORMAL_TRAN_GAS` whatever its gas
limit, and neither the pre-validation nor the shard checks that limit, so a transfer given less
pays its whole deposit and no more, below what its receipt reports
(`plain_transfer_receipt_overstates_fee`).

The figure is the `ScillaResult` of whichever run was last, which `runCall` fixes before the
interpreter is called: the receipt is consistent with the balances, but not with the gas the
interpreter reported (`quiet_call_refunds_stale_figure`).

The law needs the amounts to stay in `uint128_t` (the supply, and the deposit plus the amount that
`CheckAmount` adds without an overflow check) and the gas limit in `uint64_t` (`ScillaBounds`). It
does not hold for `RunFromEvm`, whose self-destruct sweep burns the funds of a contract that names
itself as their recipient (`self_destruct_to_self_burns`).

## Contents
- `parentTotal`; the totals of the executor's own operations on both layers;
  `FailedTransaction.parentTotal_add`.
- `CpsRun.GasBelow`, `GasBounded`, `ResultGasInv`: the figures of the Scilla runs, with the step
  lemma `CpsRun.run_gasBounded` and the run lemma `processLoop_resultGas_le`.
- `KeepsAccounts`: no atomic operation removes an account.
- `ScillaBounds`, `runPlainTransfer_conserves`, `finishScilla_conserves`, `runFromScilla_conserves`;
  `plain_transfer_receipt_overstates_fee`.
-/

namespace Zilliqa

namespace AccountStoreSC

/-- The sum of the committed balances. -/
def parentTotal (s : AccountStoreSC) : ℕ := totalBalance s.accounts.parent

@[simp] theorem viewTotal_discardAtomics (s : AccountStoreSC) :
    s.discardAtomics.viewTotal = s.parentTotal := by
  simp [viewTotal, parentTotal, discardAtomics]

@[simp] theorem parentTotal_commitAtomics (s : AccountStoreSC) :
    s.commitAtomics.parentTotal = s.viewTotal := rfl

@[simp] theorem viewTotal_bufferCurrentContractStorageState (s : AccountStoreSC) :
    s.bufferCurrentContractStorageState.viewTotal = s.viewTotal := rfl

/-- A successful `DecreaseBalanceAtomic` lowers the total by the amount. -/
theorem viewTotal_decreaseBalanceAtomic (s : AccountStoreSC) {a : Address} {acc : Account}
    (amount : Amount) (hget : s.getAccountAtomic a = some acc) (hle : amount.toQa ≤ acc.balance) :
    (s.decreaseBalanceAtomic a amount).2.viewTotal + amount.toQa = s.viewTotal := by
  have hdec : acc.decreaseBalance amount.toQa = some { acc with balance := acc.balance - amount.toQa } :=
    Account.decreaseBalance_eq_some_iff.mpr ⟨hle, rfl⟩
  have hw := viewTotal_writeAtomic s a { acc with balance := acc.balance - amount.toQa }
  rw [hget] at hw
  simp only [balanceOf, FinStore.weightOf_some] at hw
  simp only [decreaseBalanceAtomic, updateAtomic, hget, hdec]
  omega

/-- Without a wrap-around, `IncreaseBalanceAtomic` on an existing account raises the total by the
    amount. -/
theorem viewTotal_increaseBalanceAtomic (s : AccountStoreSC) {a : Address} {acc : Account}
    (amount : Amount) (hget : s.getAccountAtomic a = some acc)
    (hfit : s.viewTotal + amount.toQa < 2 ^ 128) :
    (s.increaseBalanceAtomic a amount).2.viewTotal = s.viewTotal + amount.toQa := by
  have hle : acc.balance ≤ s.viewTotal := by
    simpa [hget, balanceOf] using balanceOf_le_viewTotal s a
  have hmod : (acc.balance + amount.toQa) % 2 ^ 128 = acc.balance + amount.toQa :=
    Nat.mod_eq_of_lt (by omega)
  have hw := viewTotal_writeAtomic s a { acc with balance := acc.balance + amount.toQa }
  rw [hget] at hw
  simp only [balanceOf, FinStore.weightOf_some] at hw
  simp only [increaseBalanceAtomic, updateAtomic, hget, Account.increaseBalance_eq, hmod]
  omega

/-- The committed layer after a `DecreaseBalance` that the balance covers. -/
theorem parentTotal_decreaseBalance (s : AccountStoreSC) {a : Address} {acc : Account}
    (amount : Amount) (hget : s.getAccount a = some acc) (hle : amount.toQa ≤ acc.balance) :
    (s.decreaseBalance a amount).2.parentTotal + amount.toQa = s.parentTotal := by
  have hdec : acc.decreaseBalance amount.toQa = some { acc with balance := acc.balance - amount.toQa } :=
    Account.decreaseBalance_eq_some_iff.mpr ⟨hle, rfl⟩
  have hins := FinStore.total_insert Account.balance s.accounts.parent a
    { acc with balance := acc.balance - amount.toQa }
  rw [show s.accounts.parent.find a = some acc from hget] at hins
  simp only [FinStore.weightOf_some] at hins
  simp only [decreaseBalance, updateParent, hget, hdec, parentTotal, writeParent, totalBalance]
  omega

end AccountStoreSC

open AccountStoreSC

/-- **A failure costs exactly the fee it charged**, when the sender's committed balance covers it. -/
theorem FailedTransaction.parentTotal_add {s s' : AccountStoreSC} {origin : Address} {f : ℕ}
    {acc : Account} (h : FailedTransaction s s' origin (some f)) (hget : s.getAccount origin = some acc)
    (hle : f ≤ acc.balance) : s'.parentTotal + f = s.parentTotal := by
  have hparent : s'.accounts.parent = s.accounts.parent.insert origin (acc.chargeFailure (some f)) := by
    apply FinStore.ext
    intro a
    rw [h.accounts a, FinStore.find_insert]
    by_cases ha : a = origin
    · subst ha
      rw [if_pos rfl, if_pos rfl, show s.accounts.parent.find a = some acc from hget, Option.map_some]
    · rw [if_neg ha, if_neg ha]
  have hins := FinStore.total_insert Account.balance s.accounts.parent origin
    (acc.chargeFailure (some f))
  have hbal : (acc.chargeFailure (some f)).balance = acc.balance - f := by
    simp only [Account.chargeFailure, if_pos hle]
  rw [show s.accounts.parent.find origin = some acc from hget, FinStore.weightOf_some, hbal] at hins
  unfold parentTotal totalBalance
  rw [hparent]
  omega

/-! ## The gas figures of a Scilla transaction

In a transaction `RunFromScilla` runs, every run reports a remaining gas of at most the gas limit:
the failures report `min (sub64 gasLimit penalty) core` or a penalty the run already paid, the
successes the tracker's core gas or such a minimum, and a transfer the figure of its parent call.
-/

namespace GasTracker

/-- A tracker holding at most `G` core units' worth of Eth holds at most `G` whole core units. -/
theorem gasCore_le_of_exactEth_le {t : GasTracker} {G : ℕ} (h : t.exactEth ≤ G * getScalingFactor) :
    t.gasCore ≤ G := by
  have hle : t.gasCore * getScalingFactor ≤ G * getScalingFactor := by
    unfold exactEth at h
    omega
  exact Nat.le_of_mul_le_mul_right hle getScalingFactor_pos

end GasTracker

@[simp] theorem getRemainedGasCore_fail (status : TxnStatus) :
    getRemainedGasCore (CpsExecuteResult.fail status).result = 0 := rfl

@[simp] theorem getRemainedGasCore_failWith (status : TxnStatus) (gas : ℕ) :
    getRemainedGasCore (CpsRunScilla.failWith status gas).result = gas := rfl

/-- A run on the stack of a Scilla transaction whose figures stay within `G`: a Scilla run, or a
    transfer carrying a result that reports at most `G` units. -/
def CpsRun.GasBelow (G : ℕ) : CpsRun → Prop
  | .evm .. => False
  | .scilla .. => True
  | .transfer prev .. => getRemainedGasCore prev ≤ G

@[simp] theorem CpsRun.gasBelow_provideFeedback {G : ℕ} (prev : CpsRun) (res : CpsExecuteResult)
    (r : CpsRun) : (prev.provideFeedback res r).GasBelow G ↔ r.GasBelow G := by
  cases r <;> rfl

/-- The state of a Scilla transaction's loop keeps its figures within `G`: the tracker holds at
    most `G` core units, and every run on the stack is `GasBelow G`. -/
structure GasBounded (G : ℕ) (st : CpsState) : Prop where
  tracker : st.tracker.exactEth ≤ G * getScalingFactor
  queue : ∀ r ∈ st.queue, r.GasBelow G

namespace GasBounded

variable {G : ℕ} {st st' : CpsState}

theorem gasCore_le (h : GasBounded G st) : st.tracker.gasCore ≤ G :=
  GasTracker.gasCore_le_of_exactEth_le h.tracker

/-- Every failure figure of a Scilla run is a minimum with the tracker's core gas. -/
theorem min_le (h : GasBounded G st) (a : ℕ) : min a st.tracker.getCoreGas ≤ G :=
  (min_le_right _ _).trans h.gasCore_le

theorem decreaseByCore (h : GasBounded G st) (v : ℕ) : GasBounded G (st.decreaseByCore v) :=
  ⟨(GasTracker.exactEth_decreaseByCore_le _ _).trans h.tracker, h.queue⟩

theorem withStore (h : GasBounded G st) (s : AccountStoreSC) : GasBounded G (st.withStore s) :=
  ⟨h.tracker, h.queue⟩

theorem setTracker (h : GasBounded G st) {t : GasTracker} (ht : t.exactEth ≤ st.tracker.exactEth)
    (r : TransactionReceipt) : GasBounded G { st with tracker := t, receipt := r } :=
  ⟨ht.trans h.tracker, h.queue⟩

theorem setReceipt (h : GasBounded G st) (r : TransactionReceipt) :
    GasBounded G { st with receipt := r } :=
  ⟨h.tracker, h.queue⟩

theorem ite {c : Prop} [Decidable c] {st₁ st₂ : CpsState} (h₁ : GasBounded G st₁)
    (h₂ : GasBounded G st₂) : GasBounded G (if c then st₁ else st₂) := by
  split
  · exact h₁
  · exact h₂

theorem pushRun (h : GasBounded G st) {r : CpsRun} (hr : r.GasBelow G) :
    GasBounded G (st.pushRun r) := by
  refine ⟨h.tracker, fun x hx => ?_⟩
  rw [CpsState.queue_pushRun] at hx
  rcases List.mem_cons.mp hx with rfl | hx
  · exact hr
  · exact h.queue x hx

/-- A stretch that pushes nothing keeps the bound. -/
theorem of_pushes {burns : Bool} (h : GasBounded G st) (hp : Pushes burns st st' []) :
    GasBounded G st' := by
  refine ⟨hp.gas.trans h.tracker, fun x hx => h.queue x ?_⟩
  rw [hp.queue, List.nil_append] at hx
  exact hx

/-- Popping the top run: it is `GasBelow G`, and so is the rest. -/
theorem pop (h : GasBounded G st) {r : CpsRun} {rest : List CpsRun} (hq : st.queue = r :: rest) :
    r.GasBelow G ∧ GasBounded G { st with queue := rest } := by
  refine ⟨h.queue r (by rw [hq]; exact List.mem_cons_self), h.tracker, fun x hx => ?_⟩
  exact h.queue x (by rw [hq]; exact List.mem_cons_of_mem r hx)

end GasBounded

namespace CpsRunScilla

variable (env : CpsEnv) {G : ℕ}

/-- The checks `checkGas` makes for a deployment include its creation penalty. -/
theorem createPenalty_le_of_checkGas {args : ScillaArgs} {cd : CodeData} {t : GasTracker}
    (hcd : args.calldata = .codeData cd) (h : checkGas args .create t = true) :
    max contractCreateGas ((cd.code.length + cd.data.length) % 2 ^ 32) ≤ t.getCoreGas := by
  simp only [checkGas, hcd, if_true, decide_eq_true_eq] at h
  exact (le_max_right _ _).trans h

/-- **What a deployment reports**: nothing, a figure below `sub64 gasLimit createPenalty`, or the
    core gas of the tracker it leaves. -/
theorem runCreate_resultGas (args : ScillaArgs) (st : CpsState) :
    getRemainedGasCore (runCreate env args st).1.result = 0 ∨
      (∃ cd, args.calldata = .codeData cd ∧ getRemainedGasCore (runCreate env args st).1.result ≤
        sub64 env.scillaExtras.gasLimit
          (max contractCreateGas ((cd.code.length + cd.data.length) % 2 ^ 32))) ∨
      getRemainedGasCore (runCreate env args st).1.result = (runCreate env args st).2.tracker.gasCore := by
  unfold runCreate
  split
  · exact .inl rfl
  next cd hcd =>
  dsimp only
  repeat' split
  all_goals first
    | exact .inr (.inl ⟨cd, hcd, le_rfl⟩)
    | exact .inr (.inl ⟨cd, hcd, min_le_right _ _⟩)
    | exact .inr (.inr rfl)

/-- The message loop of a call keeps the figures within `G`. -/
theorem pushEntries_gasBounded (args : ScillaArgs) (callPenalty : ℕ) (entries : List SingleResult) :
    ∀ {ret ret' : ℕ} {st st' : CpsState}, ret ≤ G → GasBounded G st →
      (pushEntries env args callPenalty entries ret st = .inl (ret', st') ∨
        pushEntries env args callPenalty entries ret st = .inr (ret', st')) →
      ret' ≤ G ∧ GasBounded G st' := by
  induction entries with
  | nil =>
    intro ret ret' st st' hret hst h
    simp only [pushEntries, reduceCtorEq, Sum.inr.injEq, Prod.mk.injEq, false_or] at h
    obtain ⟨rfl, rfl⟩ := h
    exact ⟨hret, hst⟩
  | cons e rest ih =>
    intro ret ret' st st' hret hst h
    unfold pushEntries at h
    split at h
    · simp only [Sum.inl.injEq, reduceCtorEq, Prod.mk.injEq, or_false] at h
      obtain ⟨rfl, rfl⟩ := h
      exact ⟨hret, hst⟩
    · dsimp only at h
      -- the message's fee and the account it may create keep the bound
      have hd := hst.decreaseByCore contractInvokeGas
      have h₁ := hd.ite (c := (st.decreaseByCore contractInvokeGas).store.accountExistsAtomic
        e.nextAddress = true) (hd.withStore
          ((st.decreaseByCore contractInvokeGas).store.addAccountAtomic e.nextAddress).2)
      refine ih (h₁.min_le _) (h₁.pushRun ?_) h
      -- a transfer carries the figure just computed
      split
      · exact h₁.min_le _
      · trivial

/-- **What a call reports** stays within `G`, and so does the state it leaves. -/
theorem runCall_gasBounded {args : ScillaArgs} {st st' : CpsState} {res : CpsExecuteResult}
    (hst : GasBounded G st) (h : runCall env args st = some (res, st')) :
    getRemainedGasCore res.result ≤ G ∧ GasBounded G st' := by
  unfold runCall at h
  dsimp only at h
  -- the checks before the runner report the figure of the state they found
  split at h
  · obtain ⟨rfl, rfl⟩ := Prod.mk.inj (Option.some.inj h)
    exact ⟨hst.min_le _, hst⟩
  split at h
  · obtain ⟨rfl, rfl⟩ := Prod.mk.inj (Option.some.inj h)
    exact ⟨hst.min_le _, hst⟩
  have h₁ := hst.decreaseByCore scillaRunnerInvokeGas
  split at h
  · obtain ⟨rfl, rfl⟩ := Prod.mk.inj (Option.some.inj h)
    exact ⟨h₁.min_le _, h₁⟩
  split at h
  · obtain ⟨rfl, rfl⟩ := Prod.mk.inj (Option.some.inj h)
    exact ⟨h₁.min_le _, h₁⟩
  split at h
  · obtain ⟨rfl, rfl⟩ := Prod.mk.inj (Option.some.inj h)
    exact ⟨h₁.min_le _, h₁⟩
  -- after the output parse every figure is still the one computed before it
  split at h
  · cases h
  · next t r hparse =>
    obtain ⟨rfl, rfl⟩ := Prod.mk.inj (Option.some.inj h)
    exact ⟨h₁.min_le _, h₁.setTracker (parseCallContract_le env hparse) r⟩
  next p t r hparse =>
  have h₂ := h₁.setTracker (parseCallContract_le env hparse) r
  split at h
  · obtain ⟨rfl, rfl⟩ := Prod.mk.inj (Option.some.inj h)
    exact ⟨h₁.min_le _, h₂.withStore _⟩
  next s hmoved =>
  -- the receipt may gain an edge before the messages are pushed
  have h₃ := h₂.withStore s
  split at h
  · next ret' st₅ hpush =>
    obtain ⟨rfl, rfl⟩ := Prod.mk.inj (Option.some.inj h)
    exact pushEntries_gasBounded env args _ _ (h₁.min_le _) (h₃.ite (h₃.setReceipt _)) (.inl hpush)
  · next ret' st₅ hpush =>
    obtain ⟨rfl, rfl⟩ := Prod.mk.inj (Option.some.inj h)
    obtain ⟨hret, h₅⟩ :=
      pushEntries_gasBounded env args _ _ (h₁.min_le _) (h₃.ite (h₃.setReceipt _)) (.inr hpush)
    exact ⟨hret, h₅.withStore _⟩

/-- **What a Scilla run reports** stays within the transaction's gas limit `G`. -/
theorem run_gasBounded (hG : env.scillaExtras.gasLimit = G) (hG64 : G < 2 ^ 64) {args : ScillaArgs}
    {type : RunType} {st st' : CpsState} {res : CpsExecuteResult} (hst : GasBounded G st)
    (h : run env args type st = some (res, st')) :
    getRemainedGasCore res.result ≤ G ∧ GasBounded G st' := by
  unfold run at h
  split at h
  · obtain ⟨rfl, rfl⟩ := Prod.mk.inj (Option.some.inj h)
    exact ⟨Nat.zero_le G, hst⟩
  split at h
  · obtain ⟨rfl, rfl⟩ := Prod.mk.inj (Option.some.inj h)
    exact ⟨Nat.zero_le G, hst⟩
  next hcheck =>
  split at h
  · next htype =>
    have hrun : runCreate env args st = (res, st') := Option.some.inj h
    have hend := hst.of_pushes (runCreate_spec env args st)
    have hres := runCreate_resultGas env args st
    rw [hrun] at hend hres
    refine ⟨?_, hend⟩
    rcases hres with h0 | ⟨cd, hcd, hle⟩ | heq
    · rw [h0]
      exact Nat.zero_le G
    · -- the creation penalty passed `checkGas`, so the failure figure does not wrap
      have hpen := createPenalty_le_of_checkGas hcd
        (by rw [← htype]; simpa using hcheck)
      have hpenG := hpen.trans hst.gasCore_le
      calc _ ≤ _ := hle
        _ = G - max contractCreateGas ((cd.code.length + cd.data.length) % 2 ^ 32) := by
          rw [hG]
          exact sub64_of_le hG64 hpenG
        _ ≤ G := Nat.sub_le _ _
    · rw [heq]
      exact hend.gasCore_le
  · exact runCall_gasBounded env hst h

end CpsRunScilla

namespace CpsRunTransfer

/-- A transfer returns a failure or the result it was created with. -/
theorem run_result (prev : ResultType) (fromAddr toAddr : Address) (amount : Amount)
    (st : CpsState) :
    getRemainedGasCore (run prev fromAddr toAddr amount st).1.result = 0 ∨
      (run prev fromAddr toAddr amount st).1.result = prev := by
  unfold run
  split
  · exact .inl rfl
  · exact .inr rfl

end CpsRunTransfer

/-- **The step lemma of the figures**: a run that is `GasBelow G` reports at most `G` and leaves a
    state within `G`. -/
theorem CpsRun.run_gasBounded {env : CpsEnv} {G : ℕ} (hG : env.scillaExtras.gasLimit = G)
    (hG64 : G < 2 ^ 64) {r : CpsRun} {st st' : CpsState} {res : CpsExecuteResult}
    (hr : r.GasBelow G) (hst : GasBounded G st) (h : r.run env st = some (res, st')) :
    getRemainedGasCore res.result ≤ G ∧ GasBounded G st' := by
  cases r with
  | evm args type => exact hr.elim
  | scilla args type => exact CpsRunScilla.run_gasBounded env hG hG64 hst h
  | transfer prev f t a =>
    have hrun : CpsRunTransfer.run prev f t a st = (res, st') := Option.some.inj h
    have hp := CpsRunTransfer.run_spec prev f t a st
    have hres := CpsRunTransfer.run_result prev f t a st
    rw [hrun] at hp hres
    refine ⟨?_, hst.of_pushes hp⟩
    rcases hres with h0 | h0
    · rw [h0]
      exact Nat.zero_le G
    · rw [h0]
      exact hr

/-- The invariant of a Scilla transaction's loop: the last result and every figure still to come
    report at most `G` units. -/
structure ResultGasInv (G : ℕ) (ls : CpsExecuteResult × CpsState) : Prop where
  result : getRemainedGasCore ls.1.result ≤ G
  state : GasBounded G ls.2

namespace ResultGasInv

variable {env : CpsEnv} {G : ℕ} {ls ls' : CpsExecuteResult × CpsState}

theorem step (hG : env.scillaExtras.gasLimit = G) (hG64 : G < 2 ^ 64) (hi : ResultGasInv G ls)
    (h : processStep env ls = .inr ls') : ResultGasInv G ls' := by
  obtain ⟨r, rest, st, hq, hrun, -, -, htracker, hqueue⟩ := processStep_inr h
  obtain ⟨hr, hpop⟩ := hi.state.pop hq
  obtain ⟨hres, hst⟩ := CpsRun.run_gasBounded hG hG64 hr hpop hrun
  refine ⟨hres, htracker ▸ hst.tracker, fun x hx => ?_⟩
  rcases hqueue with hqueue | ⟨next, rest', hst', hqueue⟩
  · rw [hqueue] at hx
    exact hst.queue x hx
  · -- the resumed run got the feedback, which keeps it `GasBelow G`
    obtain ⟨hnext, hrest⟩ := hst.pop hst'
    rw [hqueue] at hx
    rcases List.mem_cons.mp hx with rfl | hx
    · exact (CpsRun.gasBelow_provideFeedback r _ next).mpr hnext
    · exact hrest.queue x hx

theorem done (hG : env.scillaExtras.gasLimit = G) (hG64 : G < 2 ^ 64) (hi : ResultGasInv G ls)
    {res : CpsExecuteResult} {st : CpsState} (h : processStep env ls = .inl (.done res st)) :
    getRemainedGasCore res.result ≤ G := by
  rcases processStep_done h with ⟨-, rfl, -⟩ | ⟨r, rest, hq, hrun, -⟩
  · exact hi.result
  · obtain ⟨hr, hpop⟩ := hi.state.pop hq
    exact (CpsRun.run_gasBounded hG hG64 hr hpop hrun).1

end ResultGasInv

/-- **The run lemma of the figures**: a loop started within `G` ends with a result that reports at
    most `G` units. -/
theorem processLoop_resultGas_le {env : CpsEnv} {G fuel : ℕ} {st st' : CpsState}
    {res : CpsExecuteResult} (hG : env.scillaExtras.gasLimit = G) (hG64 : G < 2 ^ 64)
    (hst : GasBounded G st) (h : processLoop env fuel st = some (.done res st')) :
    getRemainedGasCore res.result ≤ G := by
  unfold processLoop at h
  obtain ⟨ls, hreach, hend⟩ := Loop.runFuel_reaches _ _ _ h
  -- the loop starts from `CpsExecuteResult{}`, which reports nothing
  have hinit : ResultGasInv G (processLoopStart st) :=
    ⟨by simp [processLoopStart], hst.tracker, hst.queue⟩
  have hinv : ResultGasInv G ls :=
    Loop.continues_inv (processStep env) _ (fun _ _ hi hs => hi.step hG hG64 hs) hinit hreach
  exact hinv.done hG hG64 hend

/-- A contract call whose interpreter answers with `gas_remaining` of 1000 core units, accepts
    nothing and sends no message. -/
def quietCallOracles : CpsOracles :=
  { CpsOracles.idle with
    invokeScilla := fun _ _ _ _ =>
      ⟨true, some ⟨.ok 1000, .array [], .array [], .array [], some "false", false, none⟩⟩
    populateExtlibsExports := fun _ _ _ => true
    exportCallContractFiles := fun _ _ => true
    hasScillaIpcServer := true }

/-- A call of the contract at `0x..02` by `0x..01` with a gas limit of 10000 at price 1. -/
def quietCallCtx : ScillaProcessContext := ⟨⟨1⟩, ⟨2⟩, [], [], 0, 1, 10000, 0, .contractCall⟩

/-- The sender holds 100000 Qa; the contract has code and no balance. -/
def quietStore : AccountStoreSC :=
  AccountStoreSC.ofAccounts [(⟨1⟩, Account.new 100000 0), (⟨2⟩, ⟨0, 0, [1], [], false, 0, []⟩)]

/-- **The refund uses the figure `runCall` computed before the interpreter ran.** The interpreter
    leaves 1000 units on the tracker, but the call reports the 9700 left after
    `SCILLA_RUNNER_INVOKE_GAS`: the sender pays 300 units for a call that used 9000. -/
theorem quiet_call_refunds_stale_figure :
    (∃ res st, processLoop (scillaEnv quietCallOracles quietCallCtx) 2
        ⟨takeGasFromAccountScilla quietCallCtx quietStore.discardAtomics,
          GasTracker.createFromCore quietCallCtx.gasLimit, TransactionReceipt.empty,
          [scillaFirstRun quietCallCtx]⟩ = some (.done res st) ∧
      res.isSuccess = true ∧ st.tracker.getCoreGas = 1000 ∧ getRemainedGasCore res.result = 9700) ∧
    ∃ res s' receipt', runFromScilla quietCallOracles 2 quietCallCtx quietStore
        TransactionReceipt.empty = some (.returned res s' receipt') ∧
      receipt'.cumGas = 300 ∧ (s'.getAccount ⟨1⟩).map (·.balance) = some 99700 := by
  refine ⟨⟨_, _, rfl, ?_⟩, _, _, _, rfl, ?_⟩
  · decide
  · decide

/-! ## Accounts are never removed -/

namespace AccountStoreSC

/-- Every account a reader of `s` sees, a reader of `s'` still sees. -/
def KeepsAccounts (s s' : AccountStoreSC) : Prop :=
  ∀ a, (s.getAccountAtomic a).isSome → (s'.getAccountAtomic a).isSome

variable {s s₁ s₂ : AccountStoreSC}

theorem KeepsAccounts.refl (s : AccountStoreSC) : KeepsAccounts s s := fun _ h => h

theorem KeepsAccounts.trans (h₁ : KeepsAccounts s s₁) (h₂ : KeepsAccounts s₁ s₂) :
    KeepsAccounts s s₂ :=
  fun a h => h₂ a (h₁ a h)

theorem keepsAccounts_of_accounts (h : s₁.accounts = s.accounts) : KeepsAccounts s s₁ := by
  intro a ha
  unfold getAccountAtomic
  rw [h]
  exact ha

theorem keepsAccounts_writeAtomic (s : AccountStoreSC) (a : Address) (acc : Account) :
    KeepsAccounts s (s.writeAtomic a acc) := by
  intro b hb
  rw [getAccountAtomic_writeAtomic]
  split
  · rfl
  · exact hb

theorem keepsAccounts_updateAtomic (s : AccountStoreSC) (a : Address) (f : Account → Option Account) :
    KeepsAccounts s (s.updateAtomic a f).2 := by
  rcases updateAtomic_cases s a f with h | ⟨_, acc', -, -, h⟩
  · rw [h]
    exact KeepsAccounts.refl s
  · rw [h]
    exact keepsAccounts_writeAtomic s a acc'

theorem keepsAccounts_addAccountBase (s : AccountStoreSC) (a : Address) (acc : Account) :
    KeepsAccounts s (s.addAccountBase a acc).2 := by
  unfold addAccountBase
  split
  · exact KeepsAccounts.refl s
  · exact keepsAccounts_writeAtomic s a acc

theorem keepsAccounts_increaseBalanceBase (s : AccountStoreSC) (a : Address) (delta : ℕ) :
    KeepsAccounts s (s.increaseBalanceBase a delta).2 := by
  unfold increaseBalanceBase
  split
  · exact KeepsAccounts.refl s
  split
  · split
    · exact keepsAccounts_writeAtomic s a _
    · exact KeepsAccounts.refl s
  · exact keepsAccounts_addAccountBase s a _

theorem keepsAccounts_transferBalanceAtomic (s : AccountStoreSC) (src dst : Address)
    (amount : Amount) : KeepsAccounts s (s.transferBalanceAtomic src dst amount).2 := by
  have h₁ : KeepsAccounts s (s.decreaseBalanceBase src amount.toQa).2 := by
    unfold decreaseBalanceBase
    split
    · exact KeepsAccounts.refl s
    · exact keepsAccounts_updateAtomic s src _
  unfold transferBalanceAtomic transferBalanceBase
  split
  · next s₁ heq =>
    rw [heq] at h₁
    exact h₁
  · next s₁ heq =>
    rw [heq] at h₁
    have h₂ := h₁.trans (keepsAccounts_increaseBalanceBase s₁ dst amount.toQa)
    split
    · next s₂ heq₂ =>
      rw [heq₂] at h₂
      exact h₂
    · next s₂ heq₂ =>
      rw [heq₂] at h₂
      exact h₂.trans (keepsAccounts_increaseBalanceBase s₂ src amount.toQa)

end AccountStoreSC

open AccountStoreSC in
/-- No atomic operation removes an account; a self-destruct only empties it. -/
theorem AtomicOp.keepsAccounts {burns : Bool} {s s' : AccountStoreSC} (h : AtomicOp burns s s') :
    KeepsAccounts s s' := by
  cases h with
  | addAccount a => exact keepsAccounts_addAccountBase s a _
  | transfer src dst amount => exact keepsAccounts_transferBalanceAtomic s src dst amount
  | burn a _ => exact keepsAccounts_updateAtomic s a _
  | increaseNonce a => exact keepsAccounts_updateAtomic s a _
  | setImmutable a code initData => exact keepsAccounts_updateAtomic s a _
  | initContract prepare a code data blockNum => exact keepsAccounts_updateAtomic s a _
  | updateStates a states toDelete =>
    unfold AccountStoreSC.updateStates
    split
    · exact keepsAccounts_of_accounts rfl
    · exact KeepsAccounts.refl s
  | updateStateValue a q v => exact keepsAccounts_of_accounts rfl
  | addToBuffer a => exact keepsAccounts_of_accounts rfl

theorem RunEffect.keepsAccounts {burns : Bool} {s s' : AccountStoreSC} (h : RunEffect burns s s') :
    KeepsAccounts s s' := by
  induction h with
  | refl => exact KeepsAccounts.refl _
  | tail _ hop ih => exact ih.trans hop.keepsAccounts

/-! ## What a Scilla transaction costs -/

namespace AccountStoreSC

variable {s s' : AccountStoreSC}

/-- An update of the parent layer that keeps balances keeps the committed total. -/
theorem parentTotal_updateParent (s : AccountStoreSC) (a : Address) {f : Account → Option Account}
    (hf : ∀ acc acc', f acc = some acc' → acc'.balance = acc.balance) :
    (s.updateParent a f).2.parentTotal = s.parentTotal := by
  unfold updateParent
  split
  · rfl
  next acc hget =>
  split
  · rfl
  next acc' hacc' =>
  have hins := FinStore.total_insert Account.balance s.accounts.parent a acc'
  rw [show s.accounts.parent.find a = some acc from hget, FinStore.weightOf_some,
    hf acc acc' hacc'] at hins
  simp only [parentTotal, totalBalance, writeParent]
  omega

@[simp] theorem parentTotal_increaseNonceForAccount (s : AccountStoreSC) (a : Address) :
    (s.increaseNonceForAccount a).parentTotal = s.parentTotal := by
  refine parentTotal_updateParent s a fun acc acc' h => ?_
  simp only [Account.increaseNonce, SafeMath.addInPlace_eq, Option.map_some,
    Option.some.injEq] at h
  rw [← h]

theorem Unchanged.parentTotal_eq (h : Unchanged s s') : s'.parentTotal = s.parentTotal := by
  unfold parentTotal
  rw [h.parent]

end AccountStoreSC

/-- **`PreValidateScillaRun` passed**: the sender exists and, while the sum does not wrap, covers
    the deposit and the amount. -/
theorem preValidateScillaRun_isSuccess {ctx : ScillaProcessContext} {s : AccountStoreSC}
    (hdep : ctx.gasLimit * ctx.gasPrice + ctx.amount < 2 ^ 128) (hfit : s.viewTotal < 2 ^ 128)
    (h : (preValidateScillaRun ctx s).isSuccess = true) :
    ∃ acc, s.getAccountAtomic ctx.origin = some acc ∧
      ctx.gasLimit * ctx.gasPrice + ctx.amount ≤ acc.balance := by
  unfold preValidateScillaRun at h
  split at h
  · cases h
  next hex =>
  simp only [Bool.not_eq_true', Bool.not_eq_false, accountExistsAtomic] at hex
  obtain ⟨acc, hacc⟩ := Option.isSome_iff_exists.mp hex
  refine ⟨acc, hacc, ?_⟩
  have hbal : acc.balance < 2 ^ 128 := by
    have := balanceOf_le_viewTotal s ctx.origin
    rw [hacc] at this
    exact lt_of_le_of_lt this hfit
  have hmul : SafeMath.mul 128 ctx.gasLimit ctx.gasPrice = some (ctx.gasLimit * ctx.gasPrice) :=
    SafeMath.mul_eq_some_iff.mpr ⟨by omega, rfl⟩
  unfold checkAmountScilla at h
  rw [hmul] at h
  dsimp only at h
  split at h
  · cases h
  next hgt =>
  rw [Amount.gt_iff, getBalanceForAccountAtomic, hacc] at hgt
  dsimp only at hgt
  rw [Nat.mod_eq_of_lt hdep, Amount.toQa_fromQa hdep, Amount.toQa_fromQa hbal] at hgt
  omega

/-- `TakeGasFromAccount` lowers the total by the deposit, and removes no account. -/
theorem takeGasFromAccountScilla_spec {ctx : ScillaProcessContext} {s : AccountStoreSC}
    {acc : Account} (hacc : s.getAccountAtomic ctx.origin = some acc)
    (hle : ctx.gasLimit * ctx.gasPrice ≤ acc.balance) (hfit : ctx.gasLimit * ctx.gasPrice < 2 ^ 128) :
    (takeGasFromAccountScilla ctx s).viewTotal + ctx.gasLimit * ctx.gasPrice = s.viewTotal ∧
      KeepsAccounts s (takeGasFromAccountScilla ctx s) := by
  have hmul : SafeMath.mul 128 ctx.gasLimit ctx.gasPrice = some (ctx.gasLimit * ctx.gasPrice) :=
    SafeMath.mul_eq_some_iff.mpr ⟨hfit, rfl⟩
  have htoQa := Amount.toQa_fromQa hfit
  unfold takeGasFromAccountScilla
  rw [hmul]
  have htot := viewTotal_decreaseBalanceAtomic s (Amount.fromQa _) hacc (by rw [htoQa]; exact hle)
  rw [htoQa] at htot
  exact ⟨htot, keepsAccounts_updateAtomic _ _ _⟩

/-- `RefundGas` raises the total by the refund, when the sender exists and nothing wraps. -/
theorem viewTotal_refundGasScilla {ctx : ScillaProcessContext} {t : GasTracker} {s : AccountStoreSC}
    (hex : (s.getAccountAtomic ctx.origin).isSome) (hR : t.getCoreGas * ctx.gasPrice < 2 ^ 128)
    (hfit : s.viewTotal + t.getCoreGas * ctx.gasPrice < 2 ^ 128) :
    (refundGasScilla ctx t s).viewTotal = s.viewTotal + t.getCoreGas * ctx.gasPrice := by
  obtain ⟨acc, hacc⟩ := Option.isSome_iff_exists.mp hex
  have hmul : SafeMath.mul 128 t.getCoreGas ctx.gasPrice = some (t.getCoreGas * ctx.gasPrice) :=
    SafeMath.mul_eq_some_iff.mpr ⟨hR, rfl⟩
  have htoQa := Amount.toQa_fromQa hR
  unfold refundGasScilla
  rw [hmul]
  have htot := viewTotal_increaseBalanceAtomic s (Amount.fromQa _) hacc (by rw [htoQa]; exact hfit)
  rw [htoQa] at htot
  exact htot

/-- The receipt of `RunFromScilla`'s end reports the gas limit less the last run's figure. -/
theorem finishScilla_cumGas {ctx : ScillaProcessContext} {res res' : CpsExecuteResult}
    {st : CpsState} {s' : AccountStoreSC} {receipt' : TransactionReceipt}
    (h : finishScilla ctx res st = .returned res' s' receipt') :
    receipt'.cumGas = sub64 ctx.gasLimit (getRemainedGasCore res.result) := by
  have hused := Nat.mod_eq_of_lt (sub64_lt ctx.gasLimit (getRemainedGasCore res.result))
  unfold finishScilla at h
  dsimp only at h
  by_cases hfl : (!st.queue.isEmpty || !res.isSuccess) = true
  · simp only [hfl, if_true] at h
    split at h <;>
    · obtain ⟨-, -, rfl⟩ := ExecOutcome.returned.inj h
      simp only [TransactionReceipt.cumGas_setResult, TransactionReceipt.cumGas_setCumGas, hused]
  · simp only [Bool.not_eq_true] at hfl
    simp only [hfl, Bool.false_eq_true, if_false] at h
    obtain ⟨-, -, rfl⟩ := ExecOutcome.returned.inj h
    simp only [TransactionReceipt.cumGas_setResult, TransactionReceipt.cumGas_setCumGas, hused]

/-- The success branch of `RunFromScilla`'s end: the refund of the last run's figure, committed,
    then the nonce. -/
theorem finishScilla_success {ctx : ScillaProcessContext} {res res' : CpsExecuteResult}
    {st : CpsState} {s' : AccountStoreSC} {receipt' : TransactionReceipt}
    (hq : st.queue.isEmpty = true) (hok : res.isSuccess = true)
    (h : finishScilla ctx res st = .returned res' s' receipt') :
    s' = ((refundGasScilla ctx (GasTracker.createFromCore (getRemainedGasCore res.result))
      st.store).commitAtomics).increaseNonceForAccount ctx.origin := by
  unfold finishScilla at h
  dsimp only at h
  simp only [hq, hok, Bool.not_true, Bool.or_self, Bool.false_eq_true, if_false,
    ExecOutcome.returned.injEq] at h
  exact h.2.1.symm

/-- The bounds under which `RunFromScilla`'s arithmetic does not wrap: the committed supply, and the
    deposit plus the amount, fit `uint128_t`; the gas limit fits `uint64_t`. -/
structure ScillaBounds (ctx : ScillaProcessContext) (s : AccountStoreSC) : Prop where
  supply : s.parentTotal < 2 ^ 128
  deposit : ctx.gasLimit * ctx.gasPrice + ctx.amount < 2 ^ 128
  gasLimit : ctx.gasLimit < 2 ^ 64

section Scilla

variable {ctx : ScillaProcessContext} {s s₁ s' : AccountStoreSC}
  {receipt receipt' : TransactionReceipt} {res' : CpsExecuteResult}

/-- **What the plain-transfer branch costs**: nothing when the transfer fails; when it succeeds, the
    receipt reports `NORMAL_TRAN_GAS`, but the refund of the tracker that `DecreaseByCore` emptied
    keeps only the deposit, so a gas limit below `NORMAL_TRAN_GAS` is all the sender pays. -/
theorem runPlainTransfer_conserves (hb : ScillaBounds ctx s)
    (hfresh : receipt.cumGas = 0) (hu₁ : Unchanged s s₁)
    (htake : s₁.viewTotal + ctx.gasLimit * ctx.gasPrice = s.parentTotal)
    (hex₁ : (s₁.getAccountAtomic ctx.origin).isSome)
    (h : runPlainTransfer ctx (GasTracker.createFromCore ctx.gasLimit) receipt
      (s₁.transferBalanceAtomic ctx.origin ctx.recipient (Amount.fromQa ctx.amount)) =
        some (.returned res' s' receipt')) :
    s'.parentTotal + min receipt'.cumGas ctx.gasLimit * ctx.gasPrice = s.parentTotal := by
  have hop : AtomicOp false s₁ _ := .transfer s₁ ctx.origin ctx.recipient (Amount.fromQa ctx.amount)
  have hu₂ := hu₁.trans (unchanged_transferBalanceAtomic s₁ ctx.origin ctx.recipient
    (Amount.fromQa ctx.amount))
  rcases htr : s₁.transferBalanceAtomic ctx.origin ctx.recipient (Amount.fromQa ctx.amount) with
    ⟨_ | _, s₂⟩ <;> rw [htr] at h hop hu₂ <;>
    simp only [runPlainTransfer, Option.some.injEq, ExecOutcome.returned.injEq] at h
  · -- a failed transfer commits nothing, and the receipt reports no gas
    obtain ⟨-, rfl, rfl⟩ := h
    rw [parentTotal_increaseNonceForAccount, hu₂.parentTotal_eq, hfresh, Nat.zero_min, Nat.zero_mul,
      Nat.add_zero]
  · -- the refund is what is left of the deposit after `NORMAL_TRAN_GAS`, saturating at zero
    obtain ⟨-, rfl, rfl⟩ := h
    have hdep := hb.deposit
    have hsupply := hb.supply
    have htot₂ : s₂.viewTotal = s₁.viewTotal := hop.viewTotal_eq (by omega)
    have hex₂ : (s₂.getAccountAtomic ctx.origin).isSome := hop.keepsAccounts _ hex₁
    have hcore : ((GasTracker.createFromCore ctx.gasLimit).decreaseByCore normalTranGas).getCoreGas =
        ctx.gasLimit - normalTranGas :=
      GasTracker.gasCore_decreaseByCore _ _
    have hsplit : (ctx.gasLimit - normalTranGas) * ctx.gasPrice +
        min normalTranGas ctx.gasLimit * ctx.gasPrice = ctx.gasLimit * ctx.gasPrice := by
      rw [← Nat.add_mul]
      congr 1
      omega
    have href := viewTotal_refundGasScilla hex₂ (by rw [hcore]; omega) (by rw [hcore, htot₂]; omega)
    rw [parentTotal_increaseNonceForAccount, parentTotal_commitAtomics, href, hcore, htot₂,
      TransactionReceipt.cumGas_setResult, TransactionReceipt.cumGas_setCumGas,
      Nat.mod_eq_of_lt (show normalTranGas < 2 ^ 64 by decide)]
    omega

/-- **The contract branch costs what its receipt reports**: a failure is charged the used gas on
    the committed store, a success refunds the last run's figure, and in between the runs only moved
    value between accounts. The receipt reports at most the gas limit, so the cap is no cap here. -/
theorem finishScilla_conserves {o : CpsOracles} {fuel : ℕ} {acc : Account} {res : CpsExecuteResult}
    {st : CpsState} (hb : ScillaBounds ctx s) (hget : s.getAccount ctx.origin = some acc)
    (hcover : ctx.gasLimit * ctx.gasPrice ≤ acc.balance) (hu₁ : Unchanged s s₁)
    (htake : s₁.viewTotal + ctx.gasLimit * ctx.gasPrice = s.parentTotal)
    (hex₁ : (s₁.getAccountAtomic ctx.origin).isSome)
    (hloop : processLoop (scillaEnv o ctx) fuel
      ⟨s₁, GasTracker.createFromCore ctx.gasLimit, receipt, [scillaFirstRun ctx]⟩ =
        some (.done res st))
    (h : finishScilla ctx res st = .returned res' s' receipt') :
    s'.parentTotal + min receipt'.cumGas ctx.gasLimit * ctx.gasPrice = s.parentTotal := by
  -- the last run reports at most the gas limit, so the receipt reports the gas limit less it
  have hinit : GasBounded ctx.gasLimit
      ⟨s₁, GasTracker.createFromCore ctx.gasLimit, receipt, [scillaFirstRun ctx]⟩ := by
    refine ⟨(GasTracker.exactEth_createFromCore _).le, fun r hr => ?_⟩
    rw [List.mem_singleton.mp hr]
    exact True.intro
  have hR : getRemainedGasCore res.result ≤ ctx.gasLimit :=
    processLoop_resultGas_le rfl hb.gasLimit hinit hloop
  have hcum : receipt'.cumGas = ctx.gasLimit - getRemainedGasCore res.result := by
    rw [finishScilla_cumGas h]
    exact sub64_of_le hb.gasLimit hR
  rw [Nat.min_eq_left (by omega)]
  have hsplit : (ctx.gasLimit - getRemainedGasCore res.result) * ctx.gasPrice +
      getRemainedGasCore res.result * ctx.gasPrice = ctx.gasLimit * ctx.gasPrice := by
    rw [← Nat.add_mul, Nat.sub_add_cancel hR]
  have hdep := hb.deposit
  have hsupply := hb.supply
  by_cases hfl : (!st.queue.isEmpty || !res.isSuccess) = true
  · -- a failure: the used gas is charged on the committed store
    have hfail := finishScilla_failure (unchanged_revert hu₁ (processLoop_frame hloop)) hfl h
    have hfee : SafeMath.mul 128 receipt'.cumGas ctx.gasPrice =
        some (receipt'.cumGas * ctx.gasPrice) :=
      SafeMath.mul_eq_some_iff.mpr ⟨by rw [hcum]; omega, rfl⟩
    rw [hfee] at hfail
    exact hfail.parentTotal_add hget (by rw [hcum]; omega)
  · -- a success: the runs moved value between accounts only, then the figure is refunded
    simp only [Bool.not_eq_true, Bool.or_eq_false_iff, Bool.not_eq_false'] at hfl
    have heff := processLoop_effect_of_noEvm hloop (fun r hr => by
      rw [List.mem_singleton.mp hr]
      rfl)
    have hfit₁ : s₁.viewTotal < 2 ^ 128 := by omega
    have htot : st.store.viewTotal = s₁.viewTotal := heff.viewTotal_eq hfit₁
    have hex : (st.store.getAccountAtomic ctx.origin).isSome := heff.keepsAccounts _ hex₁
    have href := viewTotal_refundGasScilla (t := GasTracker.createFromCore (getRemainedGasCore
      res.result)) hex (by show getRemainedGasCore res.result * ctx.gasPrice < 2 ^ 128; omega)
      (by rw [htot]; show s₁.viewTotal + getRemainedGasCore res.result * ctx.gasPrice < 2 ^ 128; omega)
    rw [finishScilla_success hfl.1 hfl.2 h, parentTotal_increaseNonceForAccount,
      parentTotal_commitAtomics, href, htot, hcum]
    show s₁.viewTotal + getRemainedGasCore res.result * ctx.gasPrice +
      (ctx.gasLimit - getRemainedGasCore res.result) * ctx.gasPrice = s.parentTotal
    omega

/-- **What a Scilla transaction costs its sender.** Whatever the interpreter answers, the committed
    balances of `RunFromScilla` lose the fee its receipt reports, `cumGas * gasPrice`, with the gas
    capped at the gas limit: only a plain transfer given less than `NORMAL_TRAN_GAS` reports more. -/
theorem runFromScilla_conserves {o : CpsOracles} {fuel : ℕ} (hb : ScillaBounds ctx s)
    (hfresh : receipt.cumGas = 0)
    (h : runFromScilla o fuel ctx s receipt = some (.returned res' s' receipt')) :
    s'.parentTotal + min receipt'.cumGas ctx.gasLimit * ctx.gasPrice = s.parentTotal := by
  rcases runFromScilla_returned_cases h with ⟨-, -, rfl, rfl⟩ | hrun
  · -- rejected by the pre-validation: only the nonce moves, and no gas is reported
    rw [parentTotal_increaseNonceForAccount, (unchanged_discardAtomics s).parentTotal_eq,
      TransactionReceipt.cumGas_setResult, TransactionReceipt.cumGas_setCumGas, Nat.zero_mod,
      Nat.zero_min, Nat.zero_mul, Nat.add_zero]
  have hpre : (preValidateScillaRun ctx s.discardAtomics).isSuccess = true := by
    rcases hrun with ⟨hpre, -⟩ | ⟨hpre, -⟩ <;> exact hpre
  -- the sender covers the deposit and the amount; the deposit leaves the total
  have hfit₀ : s.discardAtomics.viewTotal < 2 ^ 128 := by
    rw [viewTotal_discardAtomics]
    exact hb.supply
  obtain ⟨acc, hacc, hcover⟩ := preValidateScillaRun_isSuccess hb.deposit hfit₀ hpre
  have hget : s.getAccount ctx.origin = some acc := by
    simpa [getAccountAtomic, getAccount, discardAtomics] using hacc
  obtain ⟨htake, hkeep⟩ := takeGasFromAccountScilla_spec hacc (by omega) (by have := hb.deposit; omega)
  rw [viewTotal_discardAtomics] at htake
  have hex₁ := hkeep ctx.origin (by rw [hacc]; rfl)
  have hu₁ := (unchanged_discardAtomics s).trans (unchanged_takeGasFromAccountScilla ctx s.discardAtomics)
  rcases hrun with ⟨-, -, h⟩ | ⟨-, -, res, st, hloop, h⟩
  · exact runPlainTransfer_conserves hb hfresh hu₁ htake hex₁ h
  · exact finishScilla_conserves hb hget (by omega) hu₁ htake hex₁ hloop h

/-- A plain transfer that succeeds reports `NORMAL_TRAN_GAS`, whatever its gas limit. -/
theorem runFromScilla_plainTransfer_cumGas {o : CpsOracles} {fuel : ℕ}
    (hnc : ctx.contractType = .nonContract)
    (h : runFromScilla o fuel ctx s receipt = some (.returned res' s' receipt'))
    (hok : res'.isSuccess = true) : receipt'.cumGas = normalTranGas := by
  rcases runFromScilla_returned_cases h with ⟨hpre, rfl, -, -⟩ | ⟨-, -, h⟩ | ⟨-, hcon, -⟩
  · -- the pre-validation exit returns the failed result of the pre-validation
    rw [hok] at hpre
    cases hpre
  · rcases htr : (takeGasFromAccountScilla ctx s.discardAtomics).transferBalanceAtomic ctx.origin
      ctx.recipient (Amount.fromQa ctx.amount) with ⟨_ | _, s₂⟩ <;> rw [htr] at h <;>
      simp only [runPlainTransfer, Option.some.injEq, ExecOutcome.returned.injEq] at h
    · rw [← h.1] at hok
      cases hok
    · rw [← h.2.2, TransactionReceipt.cumGas_setResult, TransactionReceipt.cumGas_setCumGas]
      exact Nat.mod_eq_of_lt (by decide)
  · exact absurd hnc hcon

/-- **A plain transfer given less than `NORMAL_TRAN_GAS` pays less than its receipt reports.** The
    pre-validation checks no gas limit, so the transfer runs; the receipt reports `NORMAL_TRAN_GAS`,
    but the sender loses only its deposit, the whole gas limit. -/
theorem plain_transfer_receipt_overstates_fee {o : CpsOracles} {fuel : ℕ} (hb : ScillaBounds ctx s)
    (hnc : ctx.contractType = .nonContract) (hlow : ctx.gasLimit < normalTranGas)
    (hfresh : receipt.cumGas = 0)
    (h : runFromScilla o fuel ctx s receipt = some (.returned res' s' receipt'))
    (hok : res'.isSuccess = true) :
    receipt'.cumGas = normalTranGas ∧ s'.parentTotal + ctx.gasLimit * ctx.gasPrice = s.parentTotal := by
  have hcum := runFromScilla_plainTransfer_cumGas hnc h hok
  have hlaw := runFromScilla_conserves hb hfresh h
  rw [hcum, Nat.min_eq_right hlow.le] at hlaw
  exact ⟨hcum, hlaw⟩

end Scilla

/-- A plain transfer of nothing at one Qa per gas with a gas limit of 10. -/
def lowGasTransferCtx : ScillaProcessContext := ⟨⟨1⟩, ⟨2⟩, [], [], 0, 1, 10, 0, .nonContract⟩

/-- The sender holds 100 Qa. -/
def transferSender : AccountStoreSC := AccountStoreSC.ofAccounts [(⟨1⟩, Account.new 100 0)]

/-- The transfer succeeds, and its receipt reports a fee of 50 Qa where the sender paid 10. -/
theorem plain_transfer_receipt_overstates_fee_ten : ∃ res' s' receipt',
    runFromScilla CpsOracles.idle 0 lowGasTransferCtx transferSender TransactionReceipt.empty =
      some (.returned res' s' receipt') ∧ res'.isSuccess = true ∧
    receipt'.cumGas * lowGasTransferCtx.gasPrice = 50 ∧
    s'.parentTotal + 10 = transferSender.parentTotal := by
  obtain ⟨res', s', receipt', h, hok⟩ : ∃ res' s' receipt',
      runFromScilla CpsOracles.idle 0 lowGasTransferCtx transferSender TransactionReceipt.empty =
        some (.returned res' s' receipt') ∧ res'.isSuccess = true := ⟨_, _, _, rfl, rfl⟩
  have hb : ScillaBounds lowGasTransferCtx transferSender := ⟨by decide, by decide, by decide⟩
  obtain ⟨hcum, hpaid⟩ := plain_transfer_receipt_overstates_fee hb rfl (by decide) rfl h hok
  exact ⟨res', s', receipt', h, hok, by rw [hcum]; rfl, hpaid⟩

/-- An EVM contract that self-destructs naming itself as the recipient of its funds. -/
def selfDestructOracles : CpsOracles :=
  { CpsOracles.idle with
    invokeEvm := fun _ a => some ⟨.succeed, [],
      [.modify a.address (some 0) false [], .delete a.address], [], a.gasLimit, 0,
      .call TrapCall.empty⟩ }

/-- A call of the contract at `0x..02` by `0x..01` at gas price zero. -/
def freeCall : Transaction := ⟨true, 1, ⟨1⟩, ⟨2⟩, 0, 0, 100000, [], [1]⟩

/-- The sender holds 5 Qa, the contract 7. -/
def selfDestructStore : AccountStoreSC :=
  AccountStoreSC.ofAccounts [(⟨1⟩, Account.new 5 0), (⟨2⟩, Account.new 7 0)]

/-- **`RunFromEvm` does not conserve the supply**: `HandleApply` moves the funds of a contract that
    destroys itself to the recipient and then zeroes its balance, so a contract naming itself burns
    its funds, as the EVM's `SELFDESTRUCT` does. The call costs nothing and the total drops by 7. -/
theorem self_destruct_to_self_burns : ∃ res' s' receipt',
    runFromEvm selfDestructOracles 2 (EvmProcessContext.ofTransaction freeCall "" true)
      selfDestructStore TransactionReceipt.empty = some (.returned res' s' receipt') ∧
    res'.isSuccess = true ∧
    s'.parentTotal + receipt'.cumGas * freeCall.gasPrice + 7 = selfDestructStore.parentTotal := by
  refine ⟨_, _, _, rfl, ?_⟩
  decide

end Zilliqa
