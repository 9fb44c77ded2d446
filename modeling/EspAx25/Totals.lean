import Mathlib.Algebra.BigOperators.Group.Finset.Piecewise
import Mathlib.Algebra.Order.BigOperators.Group.Finset
import Mathlib.Algebra.Ring.Nat
import Mathlib.Data.Fintype.BigOperators

/-!
# EspAx25.Totals

What the members of a finite family, or the elements of a list, weigh together.

A machine whose parts hand weights to each other conserves the sum or lowers it. The lemmas
say how the sum changes when one part changes, so that the balance of a step is linear
arithmetic.
-/

namespace Totals

section Family

variable {ι β γ : Type*} [Fintype ι]

/-- What the members of a family weigh together. -/
def total (w : ι → β → Nat) (f : ι → β) : Nat := ∑ i, w i (f i)

/-- One member is replaced. -/
theorem total_update [DecidableEq ι] (w : ι → β → Nat) (f : ι → β) (i : ι) (b : β) :
    total w (Function.update f i b) + w i (f i) = total w f + w i b := by
  have hrest : ∑ j ∈ Finset.univ.erase i, w j (Function.update f i b j) =
      ∑ j ∈ Finset.univ.erase i, w j (f j) := by
    refine Finset.sum_congr rfl fun j hj => ?_
    rw [Function.update_of_ne (Finset.ne_of_mem_erase hj)]
  have hold : total w f = w i (f i) + ∑ j ∈ Finset.univ.erase i, w j (f j) :=
    (Finset.add_sum_erase _ _ (Finset.mem_univ i)).symm
  have hnew : total w (Function.update f i b) = w i b + ∑ j ∈ Finset.univ.erase i, w j (f j) := by
    rw [total, ← Finset.add_sum_erase _ _ (Finset.mem_univ i), hrest, Function.update_self]
  omega

end Family

/-- If at most one of the summands is not zero, the sum is no more than a bound on each. -/
theorem sum_le_of_once {ι : Type*} [DecidableEq ι] {s : Finset ι} {f : ι → Nat} {bound : Nat}
    (hle : ∀ i ∈ s, f i ≤ bound) (honce : ∀ i ∈ s, ∀ j ∈ s, f i ≠ 0 → f j ≠ 0 → i = j) :
    ∑ i ∈ s, f i ≤ bound := by
  by_cases hzero : ∀ i ∈ s, f i = 0
  · rw [Finset.sum_eq_zero hzero]
    exact Nat.zero_le _
  · simp only [not_forall] at hzero
    obtain ⟨i, hi, hne⟩ := hzero
    rw [Finset.sum_eq_single_of_mem i hi fun j hj hji => ?_]
    · exact hle i hi
    · by_contra hj'
      exact hji (honce j hj i hi hj' hne)

/-! ### Lists -/

section Lists

variable {α : Type*} (w : α → Nat)

/-- What the elements of a list weigh together. -/
def load (l : List α) : Nat := (l.map w).sum

@[simp] theorem load_nil : load w [] = 0 := rfl

@[simp] theorem load_cons (a : α) (l : List α) : load w (a :: l) = w a + load w l := by
  rw [load, List.map_cons, List.sum_cons, load]

@[simp] theorem load_append (l l' : List α) : load w (l ++ l') = load w l + load w l' := by
  rw [load, List.map_append, List.sum_append, load, load]

/-- One element is replaced. -/
theorem load_set {l : List α} {k : Nat} {a : α} (h : l[k]? = some a) (b : α) :
    load w (l.set k b) + w a = load w l + w b := by
  induction l generalizing k with
  | nil => cases h
  | cons c l ih =>
      cases k with
      | zero =>
          cases h
          rw [List.set_cons_zero, load_cons, load_cons]
          omega
      | succ k =>
          have hrest := ih (k := k) h
          rw [List.set_cons_succ, load_cons, load_cons]
          omega

end Lists

end Totals
