import Mathlib.Logic.Basic

/-!
# EspAx25.Access

Computations on arrays that they are handed by pointer, with the accesses that they make.

A computation is written with a `touch` where the code reads or writes. What it computes is
its `value`; that it stays inside of the arrays is `Within`, which goes through a
computation access by access.
-/

namespace Access

variable {ρ α β : Type*}

/-- An access to some elements of an array, from an offset on. -/
structure Span (ρ : Type*) where
  region : ρ
  offset : Nat
  length : Nat
  deriving DecidableEq

/-- What is computed, and the accesses in order. -/
structure Traced (ρ α : Type*) where
  value : α
  spans : List (Span ρ)

instance : Monad (Traced ρ) where
  pure a := ⟨a, []⟩
  bind m f := ⟨(f m.value).value, m.spans ++ (f m.value).spans⟩

/-- Read or write so many elements. -/
def touch (region : ρ) (offset length : Nat) : Traced ρ Unit := ⟨(), [⟨region, offset, length⟩]⟩

@[simp] theorem value_pure (a : α) : (pure a : Traced ρ α).value = a := rfl

@[simp] theorem value_bind {α β : Type _} (m : Traced ρ α) (f : α → Traced ρ β) :
    (m >>= f).value = (f m.value).value := rfl

@[simp] theorem value_touch (region : ρ) (offset length : Nat) :
    (touch region offset length).value = () := rfl

/-- Every access is inside of its array. -/
def Within (size : ρ → Nat) (m : Traced ρ α) : Prop :=
  ∀ s ∈ m.spans, s.offset + s.length ≤ size s.region

section Within

variable {size : ρ → Nat}

theorem within_pure (a : α) : Within size (pure a : Traced ρ α) :=
  fun _ hs => absurd hs List.not_mem_nil

theorem within_bind_iff {α β : Type _} {m : Traced ρ α} {f : α → Traced ρ β} :
    Within size (m >>= f) ↔ Within size m ∧ Within size (f m.value) :=
  List.forall_mem_append

theorem within_bind {α β : Type _} {m : Traced ρ α} {f : α → Traced ρ β} (hm : Within size m)
    (hf : Within size (f m.value)) : Within size (m >>= f) :=
  within_bind_iff.mpr ⟨hm, hf⟩

theorem within_touch_iff {region : ρ} {offset length : Nat} :
    Within size (touch region offset length) ↔ offset + length ≤ size region :=
  List.forall_mem_singleton

theorem within_touch {region : ρ} {offset length : Nat} (h : offset + length ≤ size region) :
    Within size (touch region offset length) :=
  within_touch_iff.mpr h

end Within

end Access
