import Mathlib.Data.List.Basic

/-!
# EspAx25.Buffered

A buffer in front of a sink. Text is copied into it until it is full, and then it is handed to
the sink as a whole.
-/

namespace Buffered

/-- What the buffer holds, and the chunks that the sink has been handed. -/
structure Buffer (α : Type*) where
  held : List α := []
  sent : List (List α) := []
  deriving Repr, DecidableEq

namespace Buffer

variable {α : Type*} {n : Nat}

/-- Everything that has been put in. -/
def text (b : Buffer α) : List α := b.sent.flatten ++ b.held

/-- What the buffer holds goes to the sink. An empty buffer stays as it is. -/
def flush (b : Buffer α) : Buffer α :=
  match b.held with
  | [] => b
  | c :: held => { held := [], sent := b.sent ++ [c :: held] }

/-- One round of the copy: a full buffer is flushed, and as much is copied as there is room for.
What is left of the text comes second. -/
def round (n : Nat) (b : Buffer α) (text : List α) : Buffer α × List α :=
  let b := if n - b.held.length = 0 then b.flush else b
  let chunk := min text.length (n - b.held.length)
  ({ b with held := b.held ++ text.take chunk }, text.drop chunk)

/-- Rounds, as long as there is text left. -/
def rounds (n : Nat) : Nat → Buffer α → List α → Buffer α
  | 0, b, _ => b
  | k + 1, b, text =>
    if text = [] then b else rounds n k (round n b text).1 (round n b text).2

/-- The whole copy. Each round copies something. -/
def append (n : Nat) (b : Buffer α) (text : List α) : Buffer α := rounds n text.length b text

@[simp] theorem text_empty : text ({} : Buffer α) = [] := rfl

@[simp] theorem flush_text (b : Buffer α) : b.flush.text = b.text := by
  unfold flush text
  cases hheld : b.held with
  | nil => simp [hheld]
  | cons c held => simp

theorem flush_held (b : Buffer α) : b.flush.held = [] := by
  unfold flush
  split
  · assumption
  · rfl

/-- After a flush, the sink has everything. -/
theorem flush_sent (b : Buffer α) : b.flush.sent.flatten = b.text := by
  rw [← flush_text, text, flush_held, List.append_nil]

/-- A round loses nothing, and copies something if there is something to copy. -/
theorem round_spec (hn : 0 < n) {b : Buffer α} (hb : b.held.length ≤ n) {text : List α}
    (htext : text ≠ []) :
    (round n b text).1.text ++ (round n b text).2 = b.text ++ text ∧
      (round n b text).1.held.length ≤ n ∧ (round n b text).2.length < text.length := by
  have hpos : 0 < text.length := List.length_pos_of_ne_nil htext
  -- the buffer with room, holding the same
  obtain ⟨b', hb', htext', hroom, hlen⟩ : ∃ b' : Buffer α,
      (if n - b.held.length = 0 then b.flush else b) = b' ∧ b'.text = b.text ∧
        0 < n - b'.held.length ∧ b'.held.length ≤ n := by
    by_cases hfull : n - b.held.length = 0
    · refine ⟨b.flush, if_pos hfull, b.flush_text, ?_, ?_⟩
      · simpa [b.flush_held] using hn
      · simp [b.flush_held]
    · exact ⟨b, if_neg hfull, rfl, by omega, hb⟩
  unfold round
  rw [hb']
  refine ⟨?_, ?_, ?_⟩
  · rw [← htext']
    simp [Buffer.text]
  · simp only [List.length_append, List.length_take]
    omega
  · simp only [List.length_drop]
    omega

theorem rounds_spec (hn : 0 < n) {k : Nat} : ∀ {b : Buffer α} {text : List α},
    b.held.length ≤ n → text.length ≤ k →
      (rounds n k b text).text = b.text ++ text ∧ (rounds n k b text).held.length ≤ n := by
  induction k with
  | zero =>
      intro b text hb hk
      have hnil : text = [] := List.length_eq_zero_iff.mp (Nat.le_zero.mp hk)
      simp [rounds, hnil, hb]
  | succ k ih =>
      intro b text hb hk
      unfold rounds
      by_cases htext : text = []
      · simp [htext, hb]
      · obtain ⟨hkept, hlen, hless⟩ := round_spec hn hb htext
        obtain ⟨hall, hheld⟩ := ih hlen (show (round n b text).2.length ≤ k by omega)
        rw [if_neg htext]
        exact ⟨hall.trans hkept, hheld⟩

/-- Nothing of a text is lost, and the order is kept. -/
theorem append_spec (hn : 0 < n) {b : Buffer α} (hb : b.held.length ≤ n) (text : List α) :
    (append n b text).text = b.text ++ text ∧ (append n b text).held.length ≤ n :=
  rounds_spec hn hb (Nat.le_refl _)

/-- The same for texts one after the other. -/
theorem foldl_append_spec (hn : 0 < n) (texts : List (List α)) : ∀ {b : Buffer α},
    b.held.length ≤ n →
      (texts.foldl (append n) b).text = b.text ++ texts.flatten ∧
        (texts.foldl (append n) b).held.length ≤ n := by
  induction texts with
  | nil =>
      intro b hb
      exact ⟨by simp, hb⟩
  | cons text texts ih =>
      intro b hb
      obtain ⟨htext, hlen⟩ := append_spec hn hb text
      obtain ⟨hall, hheld⟩ := ih hlen
      rw [List.foldl_cons, List.flatten_cons, hall, htext, List.append_assoc]
      exact ⟨rfl, hheld⟩

end Buffer

end Buffered
