import Mathlib.Data.List.Basic

/-!
# EspAx25.Outbox

A queue of bounded depth that refuses what does not fit, and remembers.

Posting never blocks. What has been taken out and what still waits is therefore, in order, a
sublist of what has been posted, and all of it as long as nothing has been refused.
-/

/-- The queue, what has been taken out of it, and how much has been refused. -/
structure Outbox (α : Type*) where
  queue : List α := []
  taken : List α := []
  refused : Nat := 0

namespace Outbox

variable {α : Type*} {depth : Nat} {b : Outbox α}

/-- Post an element, if there is room. -/
def post (depth : Nat) (b : Outbox α) (x : α) : Outbox α :=
  if b.queue.length < depth then { b with queue := b.queue ++ [x] }
  else { b with refused := b.refused + 1 }

/-- Take the oldest element out. -/
def take (b : Outbox α) : Option (α × Outbox α) :=
  match b.queue with
  | [] => none
  | x :: rest => some (x, { b with queue := rest, taken := b.taken ++ [x] })

/-- What has been let in. -/
def passed (b : Outbox α) : List α := b.taken ++ b.queue

/-- A queue that things have been posted to, which are `l`: what it has let in, and how many
elements it has refused. -/
structure Keeps (b : Outbox α) (l : List α) : Prop where
  order : b.passed.Sublist l
  count : l.length = b.passed.length + b.refused

theorem keeps_nil : Keeps ({} : Outbox α) [] := ⟨List.Sublist.refl _, rfl⟩

/-- Nothing is missing if nothing has been refused. -/
theorem Keeps.whole {l : List α} (h : b.Keeps l) (hr : b.refused = 0) : b.passed = l :=
  h.order.eq_of_length (by rw [h.count, hr, Nat.add_zero])

theorem Keeps.post {l : List α} (h : b.Keeps l) (depth : Nat) (x : α) :
    (b.post depth x).Keeps (l ++ [x]) := by
  have hcount := h.count
  have hlen : (l ++ [x]).length = l.length + 1 := List.length_append
  unfold Outbox.post
  split_ifs with hroom
  · have hpassed : Outbox.passed { b with queue := b.queue ++ [x] } = b.passed ++ [x] :=
      (List.append_assoc ..).symm
    refine ⟨?_, ?_⟩
    · rw [hpassed]
      exact h.order.append_right [x]
    · have hlen' : (b.passed ++ [x]).length = b.passed.length + 1 := List.length_append
      rw [hpassed, hlen, hlen', h.count, Nat.add_right_comm]
  · refine ⟨h.order.trans (List.sublist_append_left l [x]), ?_⟩
    change _ = b.passed.length + (b.refused + 1)
    omega

theorem passed_take {x : α} {b' : Outbox α} (h : b.take = some (x, b')) :
    b'.passed = b.passed ∧ b'.refused = b.refused := by
  unfold take at h
  split at h
  · cases h
  · rename_i y rest hq
    cases h
    refine ⟨?_, rfl⟩
    rw [passed, passed, hq, List.append_assoc]
    rfl

theorem Keeps.take {l : List α} (h : b.Keeps l) {x : α} {b' : Outbox α}
    (ht : b.take = some (x, b')) : b'.Keeps l := by
  obtain ⟨hpassed, hrefused⟩ := passed_take ht
  exact ⟨hpassed ▸ h.order, by rw [hpassed, hrefused, h.count]⟩

/-- The elements of a kind, among what has been let in. Each that is missing has been refused. -/
theorem Keeps.filter {l : List α} (h : b.Keeps l) (p : α → Bool) :
    (b.passed.filter p).Sublist (l.filter p) ∧
      (l.filter p).length ≤ (b.passed.filter p).length + b.refused := by
  refine ⟨h.order.filter p, ?_⟩
  have hcount := h.count
  have hall : l.length = (l.filter p).length + (l.filter fun x => !p x).length :=
    List.length_eq_length_filter_add p
  have hpassed : b.passed.length = (b.passed.filter p).length +
      (b.passed.filter fun x => !p x).length := List.length_eq_length_filter_add p
  have hrest := (h.order.filter fun x => !p x).length_le
  omega

end Outbox
