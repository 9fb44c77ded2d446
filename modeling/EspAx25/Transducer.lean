import Mathlib.Data.List.Basic

/-!
# EspAx25.Transducer

Machines that read one input at a time and emit a list of outputs for each.

What such a machine does to a stream does not depend on how the stream is cut
into pieces (`run_append`, `runChunks_eq`), so a statement about all chunkings is
a statement about the whole stream.
-/

namespace Transducer

variable {σ ι ο : Type*} (step : σ → ι → σ × List ο)

/-- The state after a list of inputs, and everything emitted on the way. -/
def run : σ → List ι → σ × List ο
  | s, [] => (s, [])
  | s, x :: xs =>
    let (s₁, out) := step s x
    let (s₂, rest) := run s₁ xs
    (s₂, out ++ rest)

/-- The same for a stream that arrives in chunks. -/
def runChunks : σ → List (List ι) → σ × List ο :=
  run (run step)

@[simp] theorem run_nil (s : σ) : run step s [] = (s, []) := rfl

theorem run_cons (s : σ) (x : ι) (xs : List ι) :
    run step s (x :: xs) =
      ((run step (step s x).1 xs).1, (step s x).2 ++ (run step (step s x).1 xs).2) := rfl

@[simp] theorem run_singleton (s : σ) (x : ι) : run step s [x] = step s x := by
  simp [run_cons]

theorem run_append (s : σ) (xs ys : List ι) :
    run step s (xs ++ ys) =
      ((run step (run step s xs).1 ys).1, (run step s xs).2 ++ (run step (run step s xs).1 ys).2) := by
  induction xs generalizing s with
  | nil => rfl
  | cons x xs ih => simp [run_cons, ih]

/-- What every step keeps holds after a stream. -/
theorem run_invariant {I : σ → Prop} (hstep : ∀ s x, I s → I (step s x).1) {s : σ} (h : I s)
    (xs : List ι) : I (run step s xs).1 := by
  induction xs generalizing s with
  | nil => exact h
  | cons x xs ih => exact ih (hstep s x h)

/-- Inputs that a state ignores. -/
theorem run_ignored {s : σ} {xs : List ι} (h : ∀ x ∈ xs, step s x = (s, [])) :
    run step s xs = (s, []) := by
  induction xs with
  | nil => rfl
  | cons x xs ih =>
      rw [run_cons, h x List.mem_cons_self, ih fun y hy => h y (List.mem_cons_of_mem _ hy)]
      rfl

/-- **Chunking does not matter.** -/
theorem runChunks_eq (s : σ) (chunks : List (List ι)) :
    runChunks step s chunks = run step s chunks.flatten := by
  unfold runChunks
  induction chunks generalizing s with
  | nil => rfl
  | cons c chunks ih => rw [run_cons, List.flatten_cons, run_append, ih]

end Transducer
