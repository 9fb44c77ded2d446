import Mathlib.Data.List.Infix
import EspAx25.Transducer

/-!
# EspAx25.Framing

Messages on a stream, and a machine that finds them again.

A code is a framing for a machine if a machine that is ready emits the message at the last
item of its code, nothing before that, and is ready again. Then what the machine has emitted
at any point of a stream of messages are those that have arrived as a whole
(`Framing.run_prefix`), whatever the stream has been cut into.
-/

namespace Transducer

variable {σ ι ο μ : Type*} {step : σ → ι → σ × List ο}

/-- A machine that is `ready` finds the valid messages that `encode` wrote. -/
structure Framing (step : σ → ι → σ × List ο) (ready : σ → Prop) (valid : μ → Prop)
    (encode : μ → List ι) (emit : μ → ο) : Prop where
  whole : ∀ s m, ready s → valid m →
    ready (run step s (encode m)).1 ∧ (run step s (encode m)).2 = [emit m]
  part : ∀ s m p, ready s → valid m → p <+: encode m → p ≠ encode m → (run step s p).2 = []

namespace Framing

variable {ready : σ → Prop} {valid : μ → Prop} {encode : μ → List ι} {emit : μ → ο}

/-- **Whatever has arrived of a stream**, the messages that have arrived as a whole have been
emitted, and no others: the next one is not complete. -/
theorem run_prefix (h : Framing step ready valid encode emit) {ms : List μ} :
    ∀ {s : σ} {p : List ι}, ready s → (∀ m ∈ ms, valid m) → p <+: ms.flatMap encode →
      ∃ k ≤ ms.length, (run step s p).2 = (ms.take k).map emit ∧
        (ms.take k).flatMap encode <+: p ∧
        (k < ms.length → ¬ (ms.take (k + 1)).flatMap encode <+: p) := by
  induction ms with
  | nil =>
      intro s p _ _ hp
      obtain rfl : p = [] := List.prefix_nil.mp hp
      exact ⟨0, Nat.le_refl 0, rfl, List.prefix_refl _, fun hlt => absurd hlt (Nat.lt_irrefl 0)⟩
  | cons m ms ih =>
      intro s p hs hvalid hp
      rw [List.flatMap_cons] at hp
      by_cases hm : encode m <+: p
      · -- the first message is there, and the rest is a stream of the others
        obtain ⟨rest, rfl⟩ := hm
        obtain ⟨hready, hemit⟩ := h.whole s m hs (hvalid m List.mem_cons_self)
        obtain ⟨k, hk, hout, hpre, hnext⟩ := ih hready
          (fun m' hm' => hvalid m' (List.mem_cons_of_mem m hm'))
          ((List.prefix_append_right_inj _).mp hp)
        refine ⟨k + 1, Nat.succ_le_succ hk, ?_, ?_, fun hlt => ?_⟩
        · rw [run_append, hemit, hout]
          rfl
        · rw [List.take_succ_cons, List.flatMap_cons, List.prefix_append_right_inj]
          exact hpre
        · rw [List.take_succ_cons, List.flatMap_cons, List.prefix_append_right_inj]
          exact hnext (Nat.lt_of_succ_lt_succ hlt)
      · -- not even the first one
        have hpart : p <+: encode m :=
          (List.prefix_or_prefix_of_prefix (List.prefix_append _ _) hp).resolve_left hm
        have hne : p ≠ encode m := fun heq => hm (heq ▸ List.prefix_refl p)
        refine ⟨0, Nat.zero_le _, h.part s m p hs (hvalid m List.mem_cons_self) hpart hne,
          List.nil_prefix, fun _ => ?_⟩
        rw [Nat.zero_add, List.take_succ_cons, List.take_zero, List.flatMap_cons, List.flatMap_nil,
          List.append_nil]
        exact hm

end Framing

/-! ### The outputs of pieces of a stream -/

/-- What is emitted while each of the pieces is read. -/
def outputs (step : σ → ι → σ × List ο) : σ → List (List ι) → List (List ο)
  | _, [] => []
  | s, c :: cs => (run step s c).2 :: outputs step (run step s c).1 cs

theorem outputs_length (s : σ) (cs : List (List ι)) : (outputs step s cs).length = cs.length := by
  induction cs generalizing s with
  | nil => rfl
  | cons c cs ih => rw [outputs, List.length_cons, List.length_cons, ih]

theorem outputs_flatten (s : σ) (cs : List (List ι)) :
    (outputs step s cs).flatten = (run step s cs.flatten).2 := by
  induction cs generalizing s with
  | nil => rfl
  | cons c cs ih => rw [outputs, List.flatten_cons, List.flatten_cons, run_append, ih]

/-! ### States that cannot be told apart -/

/-- States that a relation `R` connects emit the same, if it is kept by every step. -/
theorem run_congr {R : σ → σ → Prop}
    (hstep : ∀ s t x, R s t → R (step s x).1 (step t x).1 ∧ (step s x).2 = (step t x).2)
    {s t : σ} (h : R s t) (xs : List ι) : (run step s xs).2 = (run step t xs).2 := by
  induction xs generalizing s t with
  | nil => rfl
  | cons x xs ih =>
      obtain ⟨hnext, hout⟩ := hstep s t x h
      rw [run_cons, run_cons, hout, ih hnext]

end Transducer
