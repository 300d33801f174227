import Mathlib.Data.Nat.Notation
import Mathlib.Logic.Relation

/-!
# `Lib.Loop` — fuel-bounded loops, their reachable states and a ranking argument

A loop body is a function `step : σ → ρ ⊕ σ`: `.inr s'` continues from `s'`, `.inl r` ends the loop
with the result `r`. `runFuel step n s` runs the body at most `n` times, and answers `none` when the
fuel runs out first, which is how a loop that may not terminate is modelled.

## Contents
- `runFuel` and its unfolding lemmas.
- `Continues step`: the states a loop passes through, as the reflexive-transitive closure of the
  continuing steps; `runFuel_reaches` finds, for every result, the state that produced it.
- The ranking argument: a measure that drops on every continuing step bounds the number of
  iterations (`runFuel_isSome_of_measure`) and bounds itself along the run (`continues_measure_le`).
- `continues_inv`: an invariant kept by every continuing step holds on every reachable state.

Nothing here names the executor whose `processLoop` instantiates it.
-/

namespace Loop

variable {σ ρ : Type}

/-- Run `step` until it ends the loop, calling it at most `fuel` times. -/
def runFuel (step : σ → ρ ⊕ σ) : ℕ → σ → Option ρ
  | 0, _ => none
  | n + 1, s =>
    match step s with
    | .inl r => some r
    | .inr s' => runFuel step n s'

@[simp] theorem runFuel_zero (step : σ → ρ ⊕ σ) (s : σ) : runFuel step 0 s = none := rfl

theorem runFuel_succ_inl {step : σ → ρ ⊕ σ} {s : σ} {r : ρ} (n : ℕ) (h : step s = .inl r) :
    runFuel step (n + 1) s = some r := by
  simp [runFuel, h]

theorem runFuel_succ_inr {step : σ → ρ ⊕ σ} {s s' : σ} (n : ℕ) (h : step s = .inr s') :
    runFuel step (n + 1) s = runFuel step n s' := by
  simp [runFuel, h]

/-- One continuing step of the loop body. -/
def Continues (step : σ → ρ ⊕ σ) : σ → σ → Prop := Relation.ReflTransGen (fun s s' => step s = .inr s')

theorem Continues.refl' {step : σ → ρ ⊕ σ} (s : σ) : Continues step s s := Relation.ReflTransGen.refl

theorem Continues.head' {step : σ → ρ ⊕ σ} {s s' s'' : σ} (h : step s = .inr s')
    (hr : Continues step s' s'') : Continues step s s'' :=
  Relation.ReflTransGen.head h hr

/-- **Every result comes from a reachable state.** If the loop answers `r`, some state reachable
    from the start ended it with `r`. -/
theorem runFuel_reaches {step : σ → ρ ⊕ σ} :
    ∀ (n : ℕ) (s : σ) (r : ρ), runFuel step n s = some r →
      ∃ s', Continues step s s' ∧ step s' = .inl r := by
  intro n
  induction n with
  | zero => intro s r h; simp at h
  | succ n ih =>
      intro s r h
      cases hs : step s with
      | inl r' =>
          rw [runFuel_succ_inl n hs] at h
          cases h
          exact ⟨s, Continues.refl' s, hs⟩
      | inr s' =>
          rw [runFuel_succ_inr n hs] at h
          obtain ⟨t, ht, hend⟩ := ih s' r h
          exact ⟨t, Continues.head' hs ht, hend⟩

section Ranking

variable (step : σ → ρ ⊕ σ) (Inv : σ → Prop) (Φ : σ → ℕ)

/-- An invariant kept by every continuing step holds on every reachable state. -/
theorem continues_inv (hpres : ∀ s s', Inv s → step s = .inr s' → Inv s')
    {s s' : σ} (hs : Inv s) (hr : Continues step s s') : Inv s' := by
  induction hr with
  | refl => exact hs
  | tail _ hstep ih => exact hpres _ _ ih hstep

/-- Along a run whose measure drops on every continuing step, the measure never grows. -/
theorem continues_measure_le (hpres : ∀ s s', Inv s → step s = .inr s' → Inv s')
    (hdec : ∀ s s', Inv s → step s = .inr s' → Φ s' < Φ s)
    {s s' : σ} (hs : Inv s) (hr : Continues step s s') : Φ s' ≤ Φ s := by
  induction hr with
  | refl => exact Nat.le_refl _
  | @tail t t' hr' hstep ih =>
      have hinv : Inv t := continues_inv step Inv hpres hs hr'
      have hlt := hdec t t' hinv hstep
      omega

/-- **The ranking argument.** If the measure drops on every continuing step from an invariant
    state, fuel above the measure suffices: the loop ends with a result. -/
theorem runFuel_isSome_of_measure (hpres : ∀ s s', Inv s → step s = .inr s' → Inv s')
    (hdec : ∀ s s', Inv s → step s = .inr s' → Φ s' < Φ s) :
    ∀ (n : ℕ) (s : σ), Inv s → Φ s < n → ∃ r, runFuel step n s = some r := by
  intro n
  induction n with
  | zero => intro s _ h; exact absurd h (Nat.not_lt_zero _)
  | succ n ih =>
      intro s hs hlt
      cases hst : step s with
      | inl r => exact ⟨r, runFuel_succ_inl n hst⟩
      | inr s' =>
          rw [runFuel_succ_inr n hst]
          have hd := hdec s s' hs hst
          exact ih s' (hpres s s' hs hst) (by omega)

end Ranking

end Loop
