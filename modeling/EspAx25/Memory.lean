import Mathlib.Data.List.OfFn
import Mathlib.Data.List.GetD

/-!
# EspAx25.Memory

Arrays of a fixed length, as functions on their indices, and the two ways in which
C code fills them: one element at a time, or with a copy.

A store outside of the array has no effect. Code that checks its index and code
that does not are then the same here, so a model that wants to say that no store
is out of bounds has to say so.
-/

namespace Memory

variable {α : Type*} {n : Nat}

/-- `m[i] = a`. -/
def store (m : Fin n → α) (i : Nat) (a : α) : Fin n → α :=
  fun j => if j.val = i then a else m j

/-- `memcpy(&m[i], l, length)`. -/
def storeAll (m : Fin n → α) (i : Nat) : List α → Fin n → α
  | [] => m
  | a :: l => storeAll (store m i a) (i + 1) l

/-- An array that holds `l` and then `a`. -/
def fill (n : Nat) (a : α) (l : List α) : Fin n → α := fun j => l.getD j a

theorem store_of_le (m : Fin n → α) {i : Nat} (h : n ≤ i) (a : α) : store m i a = m := by
  funext j
  have := j.isLt
  rw [store, if_neg (by omega)]

theorem storeAll_apply (l : List α) : ∀ (m : Fin n → α) (i : Nat) (j : Fin n),
    storeAll m i l j =
      if i ≤ j.val ∧ j.val < i + l.length then l.getD (j.val - i) (m j) else m j := by
  induction l with
  | nil =>
      intro m i j
      rw [if_neg (by simp)]
      rfl
  | cons a l ih =>
      intro m i j
      rw [storeAll, ih, List.length_cons]
      by_cases hi : j.val = i
      · rw [if_neg (by omega), if_pos (by omega), store, if_pos hi, hi, Nat.sub_self]
        rfl
      · rw [store, if_neg hi]
        by_cases hj : i + 1 ≤ j.val ∧ j.val < i + 1 + l.length
        · rw [if_pos hj, if_pos (by omega), show j.val - i = (j.val - (i + 1)) + 1 by omega]
          rfl
        · rw [if_neg hj, if_neg (by omega)]

/-- Reading an array after a copy into it. -/
theorem getD_ofFn_storeAll (m : Fin n → α) (i : Nat) (l : List α) (j : Nat) (a : α) :
    (List.ofFn (storeAll m i l)).getD j a =
      if i ≤ j ∧ j < i + l.length ∧ j < n then l.getD (j - i) a else (List.ofFn m).getD j a := by
  by_cases hj : j < n
  · have hlen : ∀ m : Fin n → α, j < (List.ofFn m).length := fun m => by
      rw [List.length_ofFn]
      exact hj
    rw [List.getD_eq_getElem _ _ (hlen _), List.getElem_ofFn, storeAll_apply]
    by_cases hi : i ≤ j ∧ j < i + l.length
    · have hl : j - i < l.length := by omega
      rw [if_pos hi, if_pos ⟨hi.1, hi.2, hj⟩, List.getD_eq_getElem _ _ hl,
        List.getD_eq_getElem _ _ hl]
    · rw [if_neg hi, if_neg (by omega), List.getD_eq_getElem _ _ (hlen _), List.getElem_ofFn]
  · rw [if_neg (by omega), List.getD_eq_default _ _ (by rw [List.length_ofFn]; omega),
      List.getD_eq_default _ _ (by rw [List.length_ofFn]; omega)]

/-- A copy leaves what stands before it as it is, and follows it. -/
theorem take_ofFn_storeAll (m : Fin n → α) {i : Nat} {l : List α} (h : i + l.length ≤ n) :
    (List.ofFn (storeAll m i l)).take (i + l.length) = (List.ofFn m).take i ++ l := by
  have hlen : ((List.ofFn m).take i).length = i := by
    rw [List.length_take, List.length_ofFn]
    omega
  refine List.ext_getElem (by simp; omega) fun j h₁ h₂ => ?_
  rw [List.length_take, List.length_ofFn] at h₁
  rw [List.getElem_take, List.getElem_ofFn, storeAll_apply]
  by_cases hj : i ≤ j
  · have hl : j - i < l.length := by omega
    rw [if_pos ⟨hj, by dsimp only; omega⟩, List.getD_eq_getElem _ _ hl,
      List.getElem_append_right (by omega)]
    simp only [hlen]
  · rw [if_neg (by dsimp only; omega), List.getElem_append_left (by omega), List.getElem_take,
      List.getElem_ofFn]

/-- Copies in a row are one copy. -/
theorem storeAll_append (k l : List α) : ∀ (m : Fin n → α) (i : Nat),
    storeAll m i (k ++ l) = storeAll (storeAll m i k) (i + k.length) l := by
  induction k with
  | nil =>
      intro m i
      rfl
  | cons a k ih =>
      intro m i
      rw [List.cons_append, storeAll, ih, storeAll, List.length_cons]
      congr 1
      omega

/-- A copy to the start of a cleared array. -/
theorem storeAll_clear (a : α) (l : List α) :
    storeAll (fun _ : Fin n => a) 0 l = fill n a l := by
  funext j
  rw [storeAll_apply, fill]
  by_cases h : j.val < l.length
  · rw [if_pos (by omega), Nat.sub_zero]
  · rw [if_neg (by omega), List.getD_eq_default _ _ (by omega)]

/-- A copy of a whole array. -/
theorem storeAll_ofFn (m w : Fin n → α) : storeAll m 0 (List.ofFn w) = w := by
  funext j
  have hj : j.val < (List.ofFn w).length := by
    rw [List.length_ofFn]
    exact j.isLt
  rw [storeAll_apply, if_pos (by omega), Nat.sub_zero, List.getD_eq_getElem _ _ hj,
    List.getElem_ofFn]

/-- What was filled in can be read back. -/
theorem take_ofFn_fill (a : α) {l : List α} (h : l.length ≤ n) :
    (List.ofFn (fill n a l)).take l.length = l := by
  refine List.ext_getElem (by simp [h]) fun i h₁ h₂ => ?_
  rw [List.getElem_take, List.getElem_ofFn]
  exact List.getD_eq_getElem _ _ h₂

theorem fill_take (a : α) {l : List α} : fill n a (l.take n) = fill n a l := by
  funext j
  by_cases h : j.val < l.length
  · have ht : j.val < (l.take n).length := by
      rw [List.length_take]
      have := j.isLt
      omega
    rw [fill, fill, List.getD_eq_getElem _ _ ht, List.getD_eq_getElem _ _ h, List.getElem_take]
  · have ht : (l.take n).length ≤ j.val := by
      rw [List.length_take]
      omega
    rw [fill, fill, List.getD_eq_default _ _ ht, List.getD_eq_default _ _ (by omega)]

theorem ofFn_fill (a : α) {l : List α} (h : l.length ≤ n) :
    List.ofFn (fill n a l) = l ++ List.replicate (n - l.length) a := by
  refine List.ext_getElem (by simp; omega) fun i h₁ _ => ?_
  rw [List.getElem_ofFn, fill]
  by_cases hi : i < l.length
  · rw [List.getD_eq_getElem _ _ hi, List.getElem_append_left hi]
  · have hle : l.length ≤ i := Nat.le_of_not_lt hi
    rw [List.getD_eq_default _ _ hle, List.getElem_append_right hle, List.getElem_replicate]

/-- A string that ends where the rest of the array begins. -/
theorem takeWhile_ofFn_fill {p : α → Bool} {a : α} (ha : p a = false) {l : List α}
    (hl : ∀ c ∈ l, p c = true) (h : l.length ≤ n) : (List.ofFn (fill n a l)).takeWhile p = l := by
  rw [ofFn_fill a h, List.takeWhile_append_of_pos hl]
  cases n - l.length with
  | zero => exact List.append_nil l
  | succ k => rw [List.replicate_succ, List.takeWhile_cons_of_neg (by rw [ha]; decide), List.append_nil]

end Memory
