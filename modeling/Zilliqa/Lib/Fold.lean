import Mathlib.Logic.Basic

/-!
# `Lib.Fold` — runs of a step function, and what holds along them

A component whose calls are folded over its state, `calls.foldl step s`, is reasoned about one call
at a time. `Along step P s calls` says that every call of the run satisfies `P` at the state it is
made in: a condition on the caller (a protocol the caller keeps), or a fact the run establishes
about each call.

- `foldl_inv`: the run rule. An invariant that every call satisfying `P` keeps holds after every run
  along which `P` holds.
- `along_of_inv`: a fact that every call satisfying `P` has, from a state with the invariant, holds
  of every call of such a run.
- `along_append`: a run split in two.

Nothing here names the caches and tables that instantiate it.
-/

namespace Fold

variable {σ α : Type}

/-- Every call of the run from `s` satisfies `P` at the state it is made in. -/
def Along (step : σ → α → σ) (P : σ → α → Prop) : σ → List α → Prop
  | _, [] => True
  | s, a :: as => P s a ∧ Along step P (step s a) as

instance decidableAlong (step : σ → α → σ) (P : σ → α → Prop) [∀ s a, Decidable (P s a)] :
    ∀ (s : σ) (as : List α), Decidable (Along step P s as)
  | _, [] => isTrue trivial
  | s, a :: as =>
    haveI := decidableAlong step P (step s a) as
    inferInstanceAs (Decidable (P s a ∧ Along step P (step s a) as))

variable {step : σ → α → σ}

/-- A run split in two: the second part starts where the first ends. -/
theorem along_append {P : σ → α → Prop} :
    ∀ (as bs : List α) (s : σ),
      Along step P s (as ++ bs) ↔ Along step P s as ∧ Along step P (as.foldl step s) bs := by
  intro as
  induction as with
  | nil => exact fun bs s => ⟨fun h => ⟨trivial, h⟩, fun h => h.2⟩
  | cons a as ih =>
    intro bs s
    show (P s a ∧ Along step P (step s a) (as ++ bs)) ↔
      (P s a ∧ Along step P (step s a) as) ∧ Along step P (as.foldl step (step s a)) bs
    rw [ih bs (step s a), and_assoc]

section Invariant

variable {P : σ → α → Prop} {Inv : σ → Prop}

/-- **The run rule**: an invariant kept by every call that satisfies `P` holds after a run along
    which `P` holds. The induction is on the calls, with the state generalised. -/
theorem foldl_inv (hstep : ∀ s a, Inv s → P s a → Inv (step s a)) :
    ∀ (as : List α) (s : σ), Inv s → Along step P s as → Inv (as.foldl step s) := by
  intro as
  induction as with
  | nil => exact fun s hs _ => hs
  | cons a as ih =>
    intro s hs hall
    exact ih (step s a) (hstep s a hs hall.1) hall.2

/-- A fact every call has from a state with the invariant holds of every call of a run. -/
theorem along_of_inv {Q : σ → α → Prop} (hstep : ∀ s a, Inv s → P s a → Inv (step s a))
    (hfact : ∀ s a, Inv s → P s a → Q s a) :
    ∀ (as : List α) (s : σ), Inv s → Along step P s as → Along step Q s as := by
  intro as
  induction as with
  | nil => exact fun _ _ _ => trivial
  | cons a as ih =>
    intro s hs hall
    exact ⟨hfact s a hs hall.1, ih (step s a) (hstep s a hs hall.1) hall.2⟩

end Invariant

/-- A condition every call satisfies holds along every run. -/
theorem along_of_forall {P : σ → α → Prop} (h : ∀ s a, P s a) :
    ∀ (as : List α) (s : σ), Along step P s as := by
  intro as
  induction as with
  | nil => exact fun _ => trivial
  | cons a as ih => exact fun s => ⟨h s a, ih (step s a)⟩

end Fold
