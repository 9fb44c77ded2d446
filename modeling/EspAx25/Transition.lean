import Mathlib.Tactic.SplitIfs

/-!
# EspAx25.Transition

Transition systems given by a partial step function: what is reachable, how an
invariant is proved, and how a concrete run is replayed.

A system may be restricted to the steps that satisfy a condition `ok` on the state
before the step and the event. A run of the restricted system is a run of the
system all of whose steps satisfy the condition.
-/

namespace Transition

variable {σ ε : Type*} {init : σ → Prop} {step : σ → ε → Option σ} {ok : σ → ε → Prop}

/-- The states that runs reach whose steps all satisfy `ok`. -/
inductive Reach (init : σ → Prop) (step : σ → ε → Option σ) (ok : σ → ε → Prop) : σ → Prop
  | start {s : σ} : init s → Reach init step ok s
  | next {s s' : σ} (e : ε) : Reach init step ok s → ok s e → step s e = some s' →
      Reach init step ok s'

/-- The condition that every step satisfies. -/
def Always : σ → ε → Prop := fun _ _ => True

instance (s : σ) (e : ε) : Decidable (Always s e) := inferInstanceAs (Decidable True)

/-- **The invariant rule.** -/
theorem Reach.invariant {I : σ → Prop} {s : σ} (h : Reach init step ok s)
    (hinit : ∀ s, init s → I s)
    (hstep : ∀ s e s', I s → ok s e → step s e = some s' → I s') : I s := by
  induction h with
  | start h₀ => exact hinit _ h₀
  | next e _ hok hs ih => exact hstep _ e _ ih hok hs

/-- A weaker condition allows more runs. -/
theorem Reach.mono {ok' : σ → ε → Prop} {s : σ} (h : Reach init step ok s)
    (hok : ∀ s e, ok s e → ok' s e) : Reach init step ok' s := by
  induction h with
  | start h₀ => exact .start h₀
  | next e _ he hs ih => exact ih.next e (hok _ _ he) hs

/-- A run goes on from where another one ended. -/
theorem Reach.trans {s s' : σ} (h : Reach init step ok s) (h' : Reach (· = s) step ok s') :
    Reach init step ok s' := by
  induction h' with
  | start heq => exact heq ▸ h
  | next e _ hok hs ih => exact ih.next e hok hs

/-- Replay a list of events; `none` if one of them is not possible or not allowed. -/
def replay (step : σ → ε → Option σ) (ok : σ → ε → Prop) [∀ s e, Decidable (ok s e)] :
    σ → List ε → Option σ
  | s, [] => some s
  | s, e :: es =>
    if ok s e then
      match step s e with
      | none => none
      | some s' => replay step ok s' es
    else none

/-- What a replay ends in is reachable. -/
theorem Reach.replay [∀ s e, Decidable (ok s e)] {s s' : σ} (h : Reach init step ok s)
    {es : List ε} (hr : replay step ok s es = some s') : Reach init step ok s' := by
  induction es generalizing s with
  | nil =>
      cases hr
      exact h
  | cons e es ih =>
      unfold Transition.replay at hr
      split_ifs at hr with hok
      cases hs : step s e with
      | none =>
          rw [hs] at hr
          cases hr
      | some s₁ =>
          rw [hs] at hr
          exact ih (h.next e hok hs) hr

end Transition
