import Mathlib.Logic.Function.Basic

/-!
# EspAx25.Overlay

A map with changes staged over it. A change sets a key or removes it, and shows at
once; the map below is written later, and perhaps only in part.

What shows does not depend on how much of the staged changes has been written, and
once all of them are, they may be dropped.
-/

namespace Overlay

variable {K V : Type*}

/-- What happens to the staged changes: one more, with `none` for a removal, or all of
them go. -/
inductive Event (K V : Type*)
  | stage (key : K) (change : Option V)
  | drop

/-- The change that is staged for a key after a history, its newest event first. -/
def stagedBy [DecidableEq K] : List (Event K V) → K → Option (Option V)
  | [], _ => none
  | .stage key change :: log, k => if key = k then some change else stagedBy log k
  | .drop :: _, _ => none

/-- What shows for a key: the staged change, or what the map holds, or a default. -/
def view (default : K → V) (base : K → Option V) (staged : K → Option (Option V)) (k : K) : V :=
  ((staged k).getD (base k)).getD (default k)

/-- `base'` is `base` with some of the staged changes written. -/
def Written (staged : K → Option (Option V)) (base base' : K → Option V) : Prop :=
  ∀ k, base' k = base k ∨ staged k = some (base' k)

variable {default : K → V} {base base' : K → Option V} {staged : K → Option (Option V)}

theorem view_of_written (h : Written staged base base') (k : K) :
    view default base' staged k = view default base staged k := by
  unfold view
  obtain hk | hk := h k
  · rw [hk]
  · rw [hk]
    rfl

/-- Staged changes that are all written are not needed any more. -/
theorem view_drop (h : Written staged base base') (hall : ∀ k c, staged k = some c → base' k = c)
    (k : K) : view default base' (fun _ => none) k = view default base staged k := by
  rw [← view_of_written h]
  unfold view
  cases hk : staged k with
  | none => rfl
  | some c =>
      rw [hall k c hk]
      rfl

end Overlay
