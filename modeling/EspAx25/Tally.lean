import Mathlib.Data.Fintype.Card
import Mathlib.Data.List.FinRange
import Mathlib.Logic.Function.Basic

/-!
# EspAx25.Tally

How often the things with a given key occur in lists and in tables.

A table has `n` places, each of which is empty or holds one thing; `entries` lists what it
holds. `places` counts the indices of any finite function that have a property. The lemmas
say how a count changes when a place is filled or cleared, so that a law of conservation is
a sum of counts and its proof is linear arithmetic.
-/

namespace Tally

variable {α κ : Type*} [DecidableEq κ] {key : α → κ}

/-- How often the key `x` occurs. -/
def count (key : α → κ) (x : κ) (as : List α) : Nat := as.countP fun a => key a == x

@[simp] theorem count_nil (x : κ) : count key x [] = 0 := rfl

@[simp] theorem count_cons (x : κ) (a : α) (as : List α) :
    count key x (a :: as) = count key x as + if key a = x then 1 else 0 := by
  simp [count, List.countP_cons]

@[simp] theorem count_append (x : κ) (as bs : List α) :
    count key x (as ++ bs) = count key x as + count key x bs := List.countP_append

theorem count_pos_iff {x : κ} {as : List α} : 0 < count key x as ↔ ∃ a ∈ as, key a = x := by
  simp [count, List.countP_pos_iff]

theorem count_pos (key : α → κ) {a : α} {as : List α} (h : a ∈ as) : 0 < count key (key a) as :=
  count_pos_iff.2 ⟨a, h, rfl⟩

theorem count_erase [DecidableEq α] (key : α → κ) (x : κ) {a : α} {as : List α} (h : a ∈ as) :
    count key x (as.erase a) + (if key a = x then 1 else 0) = count key x as := by
  have hperm : count key x as = count key x (a :: as.erase a) :=
    (List.perm_cons_erase h).countP_eq _
  rw [hperm, count_cons]

/-! ### Tables -/

variable {n : Nat}

/-- What is in the table. -/
def entries (table : Fin n → Option α) : List α := (List.finRange n).filterMap table

theorem mem_entries {table : Fin n → Option α} {a : α} :
    a ∈ entries table ↔ ∃ i, table i = some a := by
  unfold entries
  rw [List.mem_filterMap]
  exact ⟨fun ⟨i, _, hi⟩ => ⟨i, hi⟩, fun ⟨i, hi⟩ => ⟨i, List.mem_finRange i, hi⟩⟩

theorem count_filterMap_update (key : α → κ) (x : κ) {table : Fin n → Option α} {i : Fin n}
    (hi : table i = none) (a : α) {is : List (Fin n)} (his : is.Nodup) (hmem : i ∈ is) :
    count key x (is.filterMap (Function.update table i (some a))) =
      count key x (is.filterMap table) + if key a = x then 1 else 0 := by
  induction is with
  | nil => exact absurd hmem List.not_mem_nil
  | cons j is ih =>
      obtain ⟨hj, his⟩ := List.nodup_cons.1 his
      by_cases hij : i = j
      · subst hij
        have hsame : is.filterMap (Function.update table i (some a)) = is.filterMap table := by
          refine List.filterMap_congr fun j hj' => Function.update_of_ne ?_ _ _
          intro heq
          exact hj (heq ▸ hj')
        rw [List.filterMap_cons, List.filterMap_cons, Function.update_self, hi]
        dsimp only
        rw [count_cons, hsame]
      · have hstep := ih his ((List.mem_cons.1 hmem).resolve_left hij)
        rw [List.filterMap_cons, List.filterMap_cons, Function.update_of_ne (Ne.symm hij)]
        cases table j with
        | none => exact hstep
        | some b =>
            dsimp only
            rw [count_cons, count_cons, hstep]
            omega

/-- An empty place is filled. -/
theorem count_entries_update (key : α → κ) (x : κ) {table : Fin n → Option α} {i : Fin n}
    (hi : table i = none)
    (a : α) :
    count key x (entries (Function.update table i (some a))) =
      count key x (entries table) + if key a = x then 1 else 0 :=
  count_filterMap_update key x hi a (List.nodup_finRange n) (List.mem_finRange i)

/-- A place is cleared. -/
theorem count_entries_clear (key : α → κ) (x : κ) {table : Fin n → Option α} {i : Fin n} {a : α}
    (hi : table i = some a) :
    count key x (entries (Function.update table i none)) + (if key a = x then 1 else 0) =
      count key x (entries table) := by
  have hback : Function.update (Function.update table i none) i (some a) = table := by
    rw [Function.update_idem, ← hi, Function.update_eq_self]
  rw [← count_entries_update key x (Function.update_self i none table) a, hback]

/-- Some of the places are cleared. -/
theorem count_entries_split (key : α → κ) (x : κ) (table : Fin n → Option α) (out : Fin n → Prop)
    [DecidablePred out] :
    count key x (entries fun i => if out i then none else table i) +
      count key x (entries fun i => if out i then table i else none) =
        count key x (entries table) := by
  unfold entries
  induction List.finRange n with
  | nil => rfl
  | cons i is ih =>
      rw [List.filterMap_cons, List.filterMap_cons, List.filterMap_cons]
      by_cases hi : out i
      · rw [if_pos hi, if_pos hi]
        cases table i with
        | none => exact ih
        | some a =>
            dsimp only
            rw [count_cons, count_cons, ← ih]
            omega
      · rw [if_neg hi, if_neg hi]
        cases table i with
        | none => exact ih
        | some a =>
            dsimp only
            rw [count_cons, count_cons, ← ih]
            omega

/-- A key that occurs once has one place. -/
theorem place_unique (key : α → κ) {table : Fin n → Option α} {i j : Fin n} {a b : α}
    (honce : count key (key a) (entries table) ≤ 1) (hi : table i = some a) (hj : table j = some b)
    (hkey : key b = key a) : j = i := by
  by_contra hji
  have hclear := count_entries_clear key (key a) hi
  rw [if_pos rfl] at hclear
  have hmem : b ∈ entries (Function.update table i none) :=
    mem_entries.2 ⟨j, by rw [Function.update_of_ne hji]; exact hj⟩
  have hpos := count_pos key hmem
  rw [hkey] at hpos
  omega

/-! ### Places with a property -/

section Places

variable {ι β : Type*} [Fintype ι] (P : β → Prop) [DecidablePred P]

/-- At how many places the value has the property. -/
def places (f : ι → β) : Nat := (Finset.univ.filter fun i => P (f i)).card

theorem places_pos {f : ι → β} : 0 < places P f ↔ ∃ i, P (f i) := by
  unfold places
  rw [Finset.card_pos]
  exact ⟨fun ⟨i, hi⟩ => ⟨i, (Finset.mem_filter.mp hi).2⟩,
    fun ⟨i, hi⟩ => ⟨i, Finset.mem_filter.mpr ⟨Finset.mem_univ i, hi⟩⟩⟩

theorem places_le (f : ι → β) : places P f ≤ Fintype.card ι := Finset.card_le_univ _

variable [DecidableEq ι]

theorem places_split (f : ι → β) (i : ι) :
    places P f = ((Finset.univ.erase i).filter fun j => P (f j)).card + if P (f i) then 1 else 0 := by
  unfold places
  rw [← Finset.insert_erase (Finset.mem_univ i), Finset.filter_insert, Finset.erase_insert_eq_erase,
    Finset.erase_idem]
  split_ifs
  · rw [Finset.card_insert_of_notMem (by simp)]
  · rfl

/-- One value is changed. -/
theorem places_update (f : ι → β) (i : ι) (b : β) :
    places P (Function.update f i b) + (if P (f i) then 1 else 0) =
      places P f + if P b then 1 else 0 := by
  have hrest : ((Finset.univ.erase i).filter fun j => P (Function.update f i b j)) =
      (Finset.univ.erase i).filter fun j => P (f j) := by
    refine Finset.filter_congr fun j hj => ?_
    rw [Function.update_of_ne (Finset.ne_of_mem_erase hj)]
  rw [places_split P f i, places_split P (Function.update f i b) i, hrest, Function.update_self]
  omega

end Places

end Tally
