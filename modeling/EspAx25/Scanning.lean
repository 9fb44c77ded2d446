import Mathlib.Data.List.Basic
import Mathlib.Data.List.TakeWhile

/-!
# EspAx25.Scanning

The conversions of `sscanf` on lists: a word, white space, and everything up to a character;
and the lines of a text.
-/

namespace Scanning

variable {α : Type*} {space stop : α → Bool} {n : Nat}

/-- A blank in the format: white space is passed over. -/
def skip (space : α → Bool) (s : List α) : List α := s.dropWhile space

/-- `%ns`: white space, and then a word of at most `n` characters. What is left comes second. -/
def word (space : α → Bool) (n : Nat) (s : List α) : List α × List α :=
  let w := ((skip space s).takeWhile fun c => !space c).take n
  (w, (skip space s).drop w.length)

/-- `%n[^c]`: at most `n` characters, up to one that stops it. -/
def upTo (stop : α → Bool) (n : Nat) (s : List α) : List α :=
  (s.takeWhile fun c => !stop c).take n

/-- The lines of a text, without their ends. What stands behind the last end is none. -/
def lines (isEnd : α → Bool) (s : List α) : List (List α) := (s.splitOnP isEnd).dropLast

/-- Nothing or white space is in front. -/
theorem head_skip {s : List α} {c : α} (h : (skip space s).head? = some c) : space c = false := by
  have hnot := List.head?_dropWhile_not space s
  rw [← skip, h] at hnot
  simpa using hnot

theorem skip_of_head {s : List α} (h : ∀ c, s.head? = some c → space c = false) :
    skip space s = s := by
  cases s with
  | nil => rfl
  | cons c s => exact List.dropWhile_cons_of_neg (by simp [h c rfl])

/-- A word that white space follows is read as it is. -/
theorem word_append {w rest : List α} {c : α} (hne : w ≠ []) (hw : ∀ d ∈ w, space d = false)
    (hlen : w.length ≤ n) (hc : space c = true) :
    word space n (w ++ c :: rest) = (w, c :: rest) := by
  have hskip : skip space (w ++ c :: rest) = w ++ c :: rest := by
    refine skip_of_head fun d hd => hw d ?_
    cases w with
    | nil => exact absurd rfl hne
    | cons e w =>
        cases hd
        exact List.mem_cons_self
  have htake : (w ++ c :: rest).takeWhile (fun d => !space d) = w := by
    rw [List.takeWhile_append_of_pos (by simpa using hw),
      List.takeWhile_cons_of_neg (by simp [hc]), List.append_nil]
  unfold word
  rw [hskip, htake, List.take_of_length_le hlen]
  exact Prod.ext rfl List.drop_left

/-- What nothing stops is read as it is, up to what stops. -/
theorem upTo_append {s t : List α} (hs : ∀ c ∈ s, stop c = false) (hlen : s.length ≤ n)
    (ht : ∀ c, t.head? = some c → stop c = true) : upTo stop n (s ++ t) = s := by
  have hnil : t.takeWhile (fun c => !stop c) = [] := by
    cases t with
    | nil => rfl
    | cons c t => exact List.takeWhile_cons_of_neg (by simp [ht c rfl])
  unfold upTo
  rw [List.takeWhile_append_of_pos (by simpa using hs), hnil, List.append_nil,
    List.take_of_length_le hlen]

/-- Lines that have been written one after the other are read as they are. -/
theorem lines_flatMap {isEnd : α → Bool} {e : α} (he : isEnd e = true) {ls : List (List α)}
    (h : ∀ l ∈ ls, ∀ c ∈ l, isEnd c = false) : lines isEnd (ls.flatMap (· ++ [e])) = ls := by
  induction ls with
  | nil => rfl
  | cons l ls ih =>
      rw [List.forall_mem_cons] at h
      unfold lines at ih ⊢
      rw [List.flatMap_cons, List.append_assoc, List.singleton_append,
        List.splitOnP_append_cons_of_forall_mem h.1 e he,
        List.dropLast_cons_of_ne_nil (List.splitOnP_ne_nil isEnd _), ih h.2]

theorem upTo_prefix (s : List α) : upTo stop n s <+: s :=
  (List.take_prefix ..).trans (List.takeWhile_prefix _)

end Scanning
