import Mathlib.Data.List.Basic

/-!
# `Lib.Mealy` — message-driven components and the replies they send

A component that handles one incoming message at a time is a function
`step : σ → ι → σ × List ο`: the state after the message, and what it sends in reply. `run` feeds it
a sequence of messages and collects every reply, in order.

The safety properties of such a component speak about the whole sequence of its replies (a reply
may only be sent if something sent before it allows it), so the invariants relate a state to the
replies sent before reaching it.

## Contents
- `run`, with `run_cons` and `run_append`.
- `run_inv`: the run rule. An invariant of a state and of the replies sent so far, kept by every
  step on an allowed message, holds after any run of allowed messages.
- `Preceded Q l`: every element of `l` satisfies `Q` together with the elements before it;
  `preceded_append` extends it by the replies of one step, `preceded_append_singleton` by one
  reply.

Nothing here names the consensus code that instantiates it.
-/

namespace Mealy

variable {σ ι ο : Type}

/-- Feed `msgs` to `step` one by one from `s`: the last state, and every reply in order. -/
def run (step : σ → ι → σ × List ο) : σ → List ι → σ × List ο
  | s, [] => (s, [])
  | s, i :: msgs =>
    let rest := run step (step s i).1 msgs
    (rest.1, (step s i).2 ++ rest.2)

@[simp] theorem run_nil (step : σ → ι → σ × List ο) (s : σ) : run step s [] = (s, []) := rfl

theorem run_cons (step : σ → ι → σ × List ο) (s : σ) (i : ι) (msgs : List ι) :
    run step s (i :: msgs) =
      ((run step (step s i).1 msgs).1, (step s i).2 ++ (run step (step s i).1 msgs).2) := rfl

/-- A run over two sequences is the run over the first, continued from its last state. -/
theorem run_append (step : σ → ι → σ × List ο) :
    ∀ (s : σ) (msgs msgs' : List ι),
      run step s (msgs ++ msgs') =
        ((run step (run step s msgs).1 msgs').1,
          (run step s msgs).2 ++ (run step (run step s msgs).1 msgs').2)
  | s, [], msgs' => by simp
  | s, i :: msgs, msgs' => by
    rw [List.cons_append, run_cons, run_append step _ msgs msgs', run_cons]
    simp only [List.append_assoc]

section Invariant

variable {step : σ → ι → σ × List ο} (Inv : σ → List ο → Prop) {Ok : ι → Prop}

/-- **The run rule.** An invariant of a state and of what was sent before reaching it, kept by every
    step on an allowed message, holds after every run of allowed messages. -/
theorem run_inv
    (hstep : ∀ s sent i, Ok i → Inv s sent → Inv (step s i).1 (sent ++ (step s i).2)) :
    ∀ (msgs : List ι) (s : σ) (sent : List ο), (∀ i ∈ msgs, Ok i) → Inv s sent →
      Inv (run step s msgs).1 (sent ++ (run step s msgs).2) := by
  intro msgs
  induction msgs with
  | nil =>
    intro s sent _ h
    simpa using h
  | cons i msgs ih =>
    intro s sent hok h
    -- the first message keeps the invariant, and the rest of the run continues from there
    have h₁ := hstep s sent i (hok i List.mem_cons_self) h
    have h₂ := ih (step s i).1 (sent ++ (step s i).2)
      (fun j hj => hok j (List.mem_cons_of_mem i hj)) h₁
    rw [run_cons]
    simpa only [List.append_assoc] using h₂

end Invariant

/-! ## Replies allowed by what precedes them -/

variable {α : Type}

/-- Every element of `l` satisfies `Q` together with the elements before it. -/
def Preceded (Q : List α → α → Prop) (l : List α) : Prop :=
  ∀ pre a post, l = pre ++ a :: post → Q pre a

theorem preceded_nil (Q : List α → α → Prop) : Preceded Q [] := by
  intro pre a post h
  cases pre <;> simp at h

/-- Appending the replies `o` of one step keeps `Preceded Q`, when each of them satisfies `Q` with
    everything sent before it. -/
theorem preceded_append {Q : List α → α → Prop} {l o : List α} (hl : Preceded Q l)
    (ho : ∀ pre a post, o = pre ++ a :: post → Q (l ++ pre) a) : Preceded Q (l ++ o) := by
  intro pre a post h
  rcases List.append_eq_append_iff.1 h with ⟨mid, hpre, hrest⟩ | ⟨mid, hl', hpost⟩
  · -- `a` is one of the new replies
    rw [hpre]
    exact ho mid a post hrest
  · -- `a` was sent before, unless the split falls exactly at the end of `l`
    cases mid with
    | nil =>
      simp only [List.append_nil] at hl'
      simp only [List.nil_append] at hpost
      rw [← hl', ← List.append_nil l]
      exact ho [] a post hpost.symm
    | cons b mid =>
      simp only [List.cons_append, List.cons.injEq] at hpost
      obtain ⟨rfl, -⟩ := hpost
      exact hl pre a mid hl'

/-- The case of one reply. -/
theorem preceded_append_singleton {Q : List α → α → Prop} {l : List α} {a : α}
    (hl : Preceded Q l) (ha : Q l a) : Preceded Q (l ++ [a]) := by
  refine preceded_append hl ?_
  intro pre b post h
  -- a one-element list splits only as `[] ++ [a]`
  cases pre with
  | nil =>
    simp only [List.nil_append, List.cons.injEq] at h
    rw [List.append_nil, ← h.1]
    exact ha
  | cons c pre => simp at h

end Mealy
