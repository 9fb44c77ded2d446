import Mathlib.Data.List.Basic

/-!
# EspAx25.Pieces

Texts that are made of pieces. Where a piece ends is seen from its first character and from what
follows; a piece stands for some output, and a text for the output of its pieces.
-/

namespace Pieces

variable {α β : Type*}

/-- How many characters a piece has behind its first one, and what it stands for. -/
structure Piece (β : Type*) where
  more : Nat
  out : List β
  deriving DecidableEq

section Decode

variable (piece : α → List α → Piece β)

/-- What a text stands for when its first `skip` characters are passed over. -/
def decodeFrom : Nat → List α → List β
  | _, [] => []
  | skip + 1, _ :: s => decodeFrom skip s
  | 0, c :: s => (piece c s).out ++ decodeFrom (piece c s).more s

/-- What a text stands for. -/
def decode (s : List α) : List β := decodeFrom piece 0 s

/-- `Cut s out rest`: what is in front of `rest` are whole pieces of `s`, which stand for `out`. -/
inductive Cut : List α → List β → List α → Prop
  | here (s : List α) : Cut s [] s
  | later {c : α} {s rest : List α} {out : List β} :
      Cut (s.drop (piece c s).more) out rest → Cut (c :: s) ((piece c s).out ++ out) rest

end Decode

variable {piece : α → List α → Piece β}

theorem decodeFrom_eq (skip : Nat) (s : List α) :
    decodeFrom piece skip s = decode piece (s.drop skip) := by
  induction s generalizing skip with
  | nil => simp [decodeFrom, decode]
  | cons c s ih =>
      cases skip with
      | zero => rfl
      | succ skip => exact ih skip

@[simp] theorem decode_nil : decode piece [] = [] := rfl

/-- The first piece, and the rest. -/
theorem decode_cons (c : α) (s : List α) :
    decode piece (c :: s) = (piece c s).out ++ decode piece (s.drop (piece c s).more) := by
  rw [← decodeFrom_eq]
  rfl

/-- Induction over the pieces of a text. -/
theorem induction (piece : α → List α → Piece β) {P : List α → Prop} (nil : P [])
    (cons : ∀ c s, P (s.drop (piece c s).more) → P (c :: s)) (s : List α) : P s := by
  suffices h : ∀ n, ∀ s : List α, s.length ≤ n → P s from h s.length s (Nat.le_refl _)
  intro n
  induction n with
  | zero =>
      intro s hs
      rwa [List.length_eq_zero_iff.mp (Nat.le_zero.mp hs)]
  | succ n ih =>
      intro s hs
      cases s with
      | nil => exact nil
      | cons c s =>
          refine cons c s (ih _ ?_)
          rw [List.length_cons] at hs
          rw [List.length_drop]
          omega

theorem cut_nil_iff {out : List β} {rest : List α} :
    Cut piece [] out rest ↔ out = [] ∧ rest = [] := by
  constructor
  · intro h
    cases h
    exact ⟨rfl, rfl⟩
  · rintro ⟨rfl, rfl⟩
    exact .here []

/-- A cut is in front of the first piece or behind it. -/
theorem cut_cons_iff {c : α} {s rest : List α} {out : List β} :
    Cut piece (c :: s) out rest ↔ (out = [] ∧ rest = c :: s) ∨
      ∃ more, out = (piece c s).out ++ more ∧ Cut piece (s.drop (piece c s).more) more rest := by
  constructor
  · intro h
    cases h with
    | here => exact .inl ⟨rfl, rfl⟩
    | later h => exact .inr ⟨_, rfl, h⟩
  · rintro (⟨rfl, rfl⟩ | ⟨more, rfl, h⟩)
    · exact .here _
    · exact .later h

/-- What is behind a cut is the end of the text. -/
theorem Cut.suffix {s rest : List α} {out : List β} (h : Cut piece s out rest) : rest <:+ s := by
  induction h with
  | here s => exact List.suffix_refl s
  | later _ ih => exact (ih.trans (List.drop_suffix _ _)).trans (List.suffix_cons _ _)

/-- When no piece stands for more than it has, neither does a text. -/
theorem Cut.length_le (hle : ∀ c s, (piece c s).more ≤ s.length ∧
      (piece c s).out.length ≤ (piece c s).more + 1) {s rest : List α} {out : List β}
    (h : Cut piece s out rest) : out.length + rest.length ≤ s.length := by
  induction h with
  | here s => simp
  | @later c s rest out _ ih =>
      have := hle c s
      rw [List.length_drop] at ih
      rw [List.length_append, List.length_cons]
      omega

end Pieces
