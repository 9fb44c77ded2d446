import Mathlib.Data.List.Basic

/-!
# EspAx25.Cyclic

Cyclic intervals of sequence numbers, for an arbitrary modulus `m`.

`arc m a b` is how far one has to count from `a` to reach `b`, and `Mem m a b i`
says that `i` is passed on the way: the half-open interval `[a, b)` on the
circle of the residues below `m`. Both are linear in `m`, so that `omega` decides
every goal below once the definitions are unfolded, whatever the modulus.
-/

namespace Cyclic

/-- The number of steps from `a` up to `b`, modulo `m`. -/
def arc (m a b : Nat) : Nat := if a ≤ b then b - a else b + m - a

/-- `i` lies in the cyclic half-open interval `[a, b)`. -/
def Mem (m a b i : Nat) : Prop := i < m ∧ arc m a i < arc m a b

instance (m a b i : Nat) : Decidable (Mem m a b i) := inferInstanceAs (Decidable (_ ∧ _))

variable {m a b i : Nat}

@[simp] theorem arc_self : arc m a a = 0 := by simp [arc]

theorem arc_lt (hb : b < m) : arc m a b < m := by
  unfold arc
  split
  · exact Nat.lt_of_le_of_lt (Nat.sub_le b a) hb
  · omega

theorem arc_eq_zero (ha : a < m) : arc m a b = 0 ↔ a = b := by
  unfold arc; split <;> omega

theorem succ_mod (hb : b < m) : (b + 1) % m = if b + 1 = m then 0 else b + 1 := by
  split
  · next h => rw [h, Nat.mod_self]
  · next h => exact Nat.mod_eq_of_lt (by omega)

/-- Counting one further lengthens the way by one, unless it closes the circle. -/
theorem arc_succ (ha : a < m) (hb : b < m) (h : arc m a b + 1 < m) :
    arc m a ((b + 1) % m) = arc m a b + 1 := by
  rw [succ_mod hb]
  unfold arc at h ⊢
  split_ifs at h ⊢ <;> omega

/-- Starting one later shortens the way by one, unless it was empty. -/
theorem arc_pred (ha : a < m) (hb : b < m) (h : a ≠ b) :
    arc m a b = arc m ((a + 1) % m) b + 1 := by
  rw [succ_mod ha]
  unfold arc
  split_ifs <;> omega

/-- A point of the closed interval cuts it in two. -/
theorem arc_add (ha : a < m) (hb : b < m) (hi : i < m) (h : arc m a i ≤ arc m a b) :
    arc m a i + arc m i b = arc m a b := by
  unfold arc at h ⊢
  split_ifs at h ⊢ <;> omega

/-- Every shorter way leads somewhere. -/
theorem exists_arc_eq (ha : a < m) {k : Nat} (hk : k < m) : ∃ i < m, arc m a i = k := by
  by_cases h : a + k < m
  · exact ⟨a + k, h, by unfold arc; split <;> omega⟩
  · exact ⟨a + k - m, by omega, by unfold arc; split <;> omega⟩

theorem arc_inj (ha : a < m) (hb : b < m) (hi : i < m) (h : arc m a b = arc m a i) : b = i := by
  unfold arc at h
  split_ifs at h <;> omega

/-- Counting in the residues follows counting in the numbers. -/
theorem add_arc_mod (ha : a < m) (hb : b < m) {n : Nat} (hn : n % m = a) :
    (n + arc m a b) % m = b := by
  rw [Nat.add_mod, hn]
  unfold arc
  split
  · rw [Nat.mod_eq_of_lt (by omega : b - a < m), Nat.mod_eq_of_lt (by omega)]
    omega
  · rw [Nat.mod_eq_of_lt (by omega : b + m - a < m), show a + (b + m - a) = b + m by omega,
      Nat.add_mod_right, Nat.mod_eq_of_lt hb]

theorem not_mem_self : ¬ Mem m a a i := by simp [Mem]

theorem not_mem_right : ¬ Mem m a b b := by simp [Mem]

/-- The first element of a non-empty interval. -/
theorem mem_left (ha : a < m) (h : a ≠ b) : Mem m a b a := by
  refine ⟨ha, ?_⟩
  have := (arc_eq_zero ha).not.mpr h
  rw [arc_self]
  omega

/-- Appending the number after the last one. -/
theorem mem_succ_right (ha : a < m) (hb : b < m) (h : arc m a b + 1 < m) :
    Mem m a ((b + 1) % m) i ↔ Mem m a b i ∨ i = b := by
  unfold Mem
  rw [arc_succ ha hb h]
  unfold arc at h ⊢
  split_ifs at h ⊢ <;> omega

/-- Removing the first number. -/
theorem mem_succ_left (ha : a < m) (hb : b < m) (h : a ≠ b) :
    Mem m ((a + 1) % m) b i ↔ Mem m a b i ∧ i ≠ a := by
  unfold Mem
  rw [succ_mod ha]
  unfold arc
  split_ifs <;> omega

/-- Cutting an interval at one of its points: the part from the point on. -/
theorem mem_cut (ha : a < m) (hb : b < m) {k : Nat} (hk : k < m)
    (h : arc m a k ≤ arc m a b) :
    Mem m k b i ↔ Mem m a b i ∧ ¬ Mem m a k i := by
  unfold Mem
  unfold arc at h ⊢
  split_ifs at h ⊢ <;> omega

end Cyclic
