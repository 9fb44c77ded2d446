import Mathlib.Data.List.TakeWhile
import EspAx25.Memory

/-!
# EspAx25.Printing

Text that is put together in a buffer of a fixed size, piece by piece.

The pieces go through `snprintf`, which is told how much room there is, writes as much as
fits in front of a NUL, and returns how much it would have written. A position that is
advanced by what `snprintf` returns is right only as long as everything has fitted; when it
has not, the position is behind the buffer and the room that is left wraps around.
-/

namespace Printing

open Memory

variable {α : Type*} {n : Nat}

/-- The bytes of a string literal. -/
def literal (s : String) : List UInt8 := s.toUTF8.data.toList

/-- One call of `snprintf`: where it writes, how much room it is told, what it returns, and
how many characters it has written. -/
structure Call where
  pos : Nat
  room : Nat
  returned : Nat
  written : Nat
  deriving Repr, DecidableEq

/-- The room is what there really is, and the call returns what it has written. -/
def Call.Complete (n : Nat) (c : Call) : Prop :=
  c.pos ≤ n ∧ c.room = n - c.pos ∧ c.returned = c.written

/-- A buffer, the position in it, and how it came to it: the calls of `snprintf` and all
positions so far. -/
structure Sheet (α : Type*) (n : Nat) where
  cells : Fin n → α
  pos : Nat := 0
  calls : List Call := []
  positions : List Nat := []

namespace Sheet

/-- What stands in front of the position. -/
def text (s : Sheet α n) : List α := (List.ofFn s.cells).take s.pos

/-- `sizeof(buffer) - pos`, where `size_t` has `w` values. -/
def room (w : Nat) (s : Sheet α n) : Nat := (n + w - s.pos) % w

/-- `pos += snprintf(buffer + pos, sizeof(buffer) - pos, ...)`, for a text that has been
formatted. -/
def print (w : Nat) (nul : α) (s : Sheet α n) (piece : List α) : Sheet α n :=
  let room := s.room w
  let out := piece.take (room - 1)
  { cells := if room = 0 then s.cells else storeAll s.cells s.pos (out ++ [nul])
    pos := s.pos + piece.length
    calls := s.calls ++ [⟨s.pos, room, piece.length, out.length⟩]
    positions := s.positions ++ [s.pos + piece.length] }

/-- The string in the buffer: what stands in front of the first NUL. -/
def string [DecidableEq α] (nul : α) (s : Sheet α n) : List α :=
  (List.ofFn s.cells).takeWhile (· ≠ nul)

/-- Pieces, one after the other. -/
def printAll (w : Nat) (nul : α) (s : Sheet α n) (pieces : List (List α)) : Sheet α n :=
  pieces.foldl (print w nul) s

/-- `memcpy(buffer + pos, l, length)` and `pos += length`. -/
def put (s : Sheet α n) (l : List α) : Sheet α n :=
  { s with
    cells := storeAll s.cells s.pos l
    pos := s.pos + l.length
    positions := s.positions ++ [s.pos + l.length] }

/-- Nothing has been cut so far. -/
structure Fits (s : Sheet α n) : Prop where
  pos : s.pos ≤ n
  calls : ∀ c ∈ s.calls, c.Complete n
  positions : ∀ p ∈ s.positions, p ≤ n

variable {w : Nat} {nul : α} {s : Sheet α n}

theorem fits_blank (cells : Fin n → α) : Fits { cells : Sheet α n } where
  pos := Nat.zero_le n
  calls := fun _ hc => absurd hc List.not_mem_nil
  positions := fun _ hp => absurd hp List.not_mem_nil

theorem room_eq (hw : n < w) (h : s.pos ≤ n) : s.room w = n - s.pos := by
  rw [room, show n + w - s.pos = (n - s.pos) + w by omega, Nat.add_mod_right]
  exact Nat.mod_eq_of_lt (by omega)

theorem text_length (h : s.pos ≤ n) : s.text.length = s.pos := by
  rw [text, List.length_take, List.length_ofFn, Nat.min_eq_left h]

/-- A piece that fits together with its NUL. -/
theorem print_fits (hw : n < w) (hs : s.Fits) {piece : List α} (h : s.pos + piece.length < n) :
    (s.print w nul piece).Fits ∧ (s.print w nul piece).text = s.text ++ piece := by
  have hroom := room_eq hw hs.pos
  have hout : piece.take (s.room w - 1) = piece := List.take_of_length_le (by omega)
  have hpos : ¬ s.room w = 0 := by omega
  constructor
  · refine ⟨?_, ?_, ?_⟩
    · exact Nat.le_of_lt h
    · intro c hc
      rcases List.mem_append.mp hc with hc | hc
      · exact hs.calls c hc
      · rw [List.mem_singleton.mp hc, hout]
        exact ⟨hs.pos, hroom, rfl⟩
    · intro p hp
      rcases List.mem_append.mp hp with hp | hp
      · exact hs.positions p hp
      · rw [List.mem_singleton.mp hp]
        exact Nat.le_of_lt h
  · have hstore : s.pos + (piece ++ [nul]).length ≤ n := by
      rw [List.length_append, List.length_singleton]
      omega
    have htake := take_ofFn_storeAll s.cells hstore
    -- the NUL is behind the position
    have hcut := congrArg (List.take (s.pos + piece.length)) htake
    rw [List.take_take, Nat.min_eq_left (by rw [List.length_append]; omega),
      ← List.append_assoc, List.take_left' (by
        rw [List.length_append, List.length_take, List.length_ofFn, Nat.min_eq_left hs.pos])] at hcut
    unfold text print
    dsimp only
    rw [if_neg hpos, hout, hcut]

@[simp] theorem print_pos (piece : List α) : (s.print w nul piece).pos = s.pos + piece.length := rfl

/-- Pieces that fit together with a NUL. -/
theorem printAll_fits (hw : n < w) {pieces : List (List α)} : ∀ {s : Sheet α n}, s.Fits →
    s.pos + pieces.flatten.length < n →
      (s.printAll w nul pieces).Fits ∧ (s.printAll w nul pieces).text = s.text ++ pieces.flatten := by
  induction pieces with
  | nil =>
      intro s hs _
      exact ⟨hs, (List.append_nil _).symm⟩
  | cons piece pieces ih =>
      intro s hs h
      rw [List.flatten_cons, List.length_append] at h
      obtain ⟨hfits, htext⟩ : (s.print w nul piece).Fits ∧
          (s.print w nul piece).text = s.text ++ piece := print_fits hw hs (by omega)
      obtain ⟨hall, hwhole⟩ := ih hfits (by rw [print_pos]; omega)
      refine ⟨hall, ?_⟩
      rw [List.flatten_cons, ← List.append_assoc, ← htext]
      exact hwhole

@[simp] theorem put_pos (l : List α) : (s.put l).pos = s.pos + l.length := rfl

/-- A copy that fits. -/
theorem put_fits (hs : s.Fits) {l : List α} (h : s.pos + l.length ≤ n) :
    (s.put l).Fits ∧ (s.put l).text = s.text ++ l := by
  refine ⟨⟨h, hs.calls, fun p hp => ?_⟩, take_ofFn_storeAll s.cells h⟩
  rcases List.mem_append.mp hp with hp | hp
  · exact hs.positions p hp
  · rw [List.mem_singleton.mp hp]
    exact h

/-! ### The string in the buffer -/

section String

variable {s' : Sheet α n}

/-- Two buffers that have been printed alike so far, whatever else is in them: they begin with the
same, up to the position or, when something has been cut, up to the last cell. -/
structure Alike (s s' : Sheet α n) : Prop where
  pos : s'.pos = s.pos
  begins : (List.ofFn s'.cells).take (min s.pos (n - 1)) =
    (List.ofFn s.cells).take (min s.pos (n - 1))

theorem alike_blank (cells cells' : Fin n → α) :
    Alike { cells : Sheet α n } { cells := cells' } := by
  refine ⟨rfl, ?_⟩
  dsimp only
  rw [Nat.zero_min, List.take_zero, List.take_zero]

/-- A piece that begins in the buffer is there, as far as it fits, with a NUL behind it. -/
theorem print_stored (hw : n < w) (hpos : s.pos < n) (piece : List α) :
    (List.ofFn (s.print w nul piece).cells).take
        (s.pos + (piece.take (n - s.pos - 1)).length + 1) =
      (List.ofFn s.cells).take s.pos ++ (piece.take (n - s.pos - 1) ++ [nul]) := by
  have hroom := room_eq hw (Nat.le_of_lt hpos)
  have hcells : (s.print w nul piece).cells =
      storeAll s.cells s.pos (piece.take (n - s.pos - 1) ++ [nul]) := by
    unfold print
    dsimp only
    rw [hroom, if_neg (by omega)]
  have hlen : (piece.take (n - s.pos - 1) ++ [nul]).length =
      (piece.take (n - s.pos - 1)).length + 1 := by
    rw [List.length_append, List.length_singleton]
  have hshort : (piece.take (n - s.pos - 1)).length ≤ n - s.pos - 1 := List.length_take_le ..
  rw [hcells, Nat.add_assoc, ← hlen]
  exact take_ofFn_storeAll s.cells (by omega)

variable [DecidableEq α]

/-- Lists that begin alike, with a NUL in what they share, hold the same string. -/
theorem takeWhile_eq_of_take_eq {l l' : List α} {k : Nat} (h : l'.take k = l.take k)
    (hnul : nul ∈ l.take k) : l'.takeWhile (· ≠ nul) = l.takeWhile (· ≠ nul) := by
  have hcut : ∀ m : List α, nul ∈ m.take k →
      m.takeWhile (· ≠ nul) = (m.take k).takeWhile (· ≠ nul) := by
    intro m hm
    conv => lhs; rw [← List.take_append_drop k m]
    rw [List.takeWhile_append, if_neg]
    intro hall
    have hself := (List.takeWhile_prefix (· ≠ nul)).eq_of_length hall
    have := List.mem_takeWhile_imp (hself ▸ hm)
    simp at this
  rw [hcut l' (h ▸ hnul), hcut l hnul, h]

/-- The same piece printed in both. -/
theorem Alike.print (hw : n < w) (h : s.Alike s') (hpos : s.pos < n) (piece : List α) :
    (s.print w nul piece).Alike (s'.print w nul piece) ∧
      (s'.print w nul piece).string nul = (s.print w nul piece).string nul := by
  have hstored := @print_stored _ _ _ nul s hw hpos piece
  have hstored' := @print_stored _ _ _ nul s' hw (h.pos ▸ hpos) piece
  have hbegins := h.begins
  rw [Nat.min_eq_left (by omega)] at hbegins
  rw [h.pos, hbegins, ← hstored] at hstored'
  refine ⟨⟨by rw [print_pos, print_pos, h.pos], ?_⟩, ?_⟩
  · have hlen : (piece.take (n - s.pos - 1)).length = min (n - s.pos - 1) piece.length :=
      List.length_take ..
    have hcut := congrArg
      (List.take (s.pos + (piece.take (n - s.pos - 1)).length)) hstored'
    rw [List.take_take, List.take_take, Nat.min_eq_left (Nat.le_succ _)] at hcut
    rw [print_pos, show min (s.pos + piece.length) (n - 1) =
      s.pos + (piece.take (n - s.pos - 1)).length by omega]
    exact hcut
  · refine takeWhile_eq_of_take_eq hstored' ?_
    rw [hstored]
    simp

/-- A piece for which there is no room at all leaves both as they are. -/
theorem Alike.print_full (hw : n < w) (h : s.Alike s') (hpos : s.pos = n) (piece : List α) :
    (s.print w nul piece).Alike (s'.print w nul piece) ∧
      (s.print w nul piece).string nul = s.string nul ∧
      (s'.print w nul piece).string nul = s'.string nul := by
  have hcells : ∀ {r : Sheet α n}, r.pos = n → (r.print w nul piece).cells = r.cells := by
    intro r hr
    have hroom : r.room w = 0 := by rw [room_eq hw (Nat.le_of_eq hr), hr, Nat.sub_self]
    unfold Sheet.print
    dsimp only
    rw [if_pos hroom]
  have hs' := h.pos.trans hpos
  refine ⟨⟨by rw [print_pos, print_pos, h.pos], ?_⟩, ?_, ?_⟩
  · have hbegins := h.begins
    rw [hcells hpos, hcells hs', print_pos, Nat.min_eq_right (by omega)]
    rwa [Nat.min_eq_right (by omega)] at hbegins
  · rw [string, hcells hpos, string]
  · rw [string, hcells hs', string]

end String

end Sheet

end Printing
