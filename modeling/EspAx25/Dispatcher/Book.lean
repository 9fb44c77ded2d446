import EspAx25.Dispatcher.Machine
import Mathlib.Data.List.Perm.Subperm

/-!
# EspAx25.Dispatcher.Book

The books of the dispatcher, and what a step can write into them.

The invariant `Sound` has four parts: the indices of the items in use are in the hands of
the dispatcher task or in the queue (`Tidy`), the two counters of each connection count
its items (`Counted`), a connection that has been quiesced has nothing left to be invoked
(`Calm`), and items wait in the order in which they were enqueued (`Ordered`, whose proofs
are in `EspAx25.Dispatcher.Quiesce`).

Main results:

* `step_move`: what a step can do in a sound state is said once, by `Move`. The branches
  where the queue is full, where a guard of a decrement fails or where a wait is needed
  without a semaphore are not among it.
* `Tidy.move`, `Counted.move`, `Calm.move`: a move keeps these parts of the invariant.
-/

namespace EspAx25.Dispatcher

open Transition

variable {κ : Type}

/-! ### Items and indices -/

/-- The index that the dispatcher task has received and not yet freed. -/
def Worker.index : Worker κ → List Nat
  | .idle => []
  | .received i => [i]
  | .claimed i _ => [i]
  | .running i _ => [i]
  | .waiting i _ _ => [i]

/-- The index in the hands of the dispatcher task, if it is still to be invoked. -/
def Worker.todo : Worker κ → List Nat
  | .received i => [i]
  | .claimed i _ => [i]
  | _ => []

/-- The item marked as executing, and its connection. -/
def Worker.serving : Worker κ → Option (Nat × κ)
  | .claimed i c => some (i, c)
  | .running i c => some (i, c)
  | .waiting i c _ => some (i, c)
  | _ => none

namespace Disp

/-- The indices in the hands of the dispatcher task or in the queue. -/
def held (s : Disp κ) : List Nat := s.worker.index ++ s.queue

/-- The indices that are still to be invoked or dropped, in this order. -/
def todo (s : Disp κ) : List Nat := s.worker.todo ++ s.queue

end Disp

section Pool

variable {s s' : Disp κ} {i : Nat} {x : Item κ}

theorem getElem?_pool (h : i < s.pool.length) : s.pool[i]? = some (s.item i) := by
  simp [Disp.item, List.getD_eq_getElem?_getD, List.getElem?_eq_getElem h]

theorem item_of_set (hp : s'.pool = s.pool.set i x) (hi : i < s.pool.length) (j : Nat) :
    s'.item j = if j = i then x else s.item j := by
  rw [Disp.item, hp, List.getD_eq_getElem?_getD, List.getElem?_set]
  by_cases hji : j = i
  · subst hji
    rw [if_pos rfl, if_pos hi, if_pos rfl, Option.getD_some]
  · rw [if_neg (Ne.symm hji), if_neg hji, Disp.item, List.getD_eq_getElem?_getD]

theorem lt_of_inUse (h : (s.item i).inUse = true) : i < s.pool.length := by
  by_contra hlt
  rw [Disp.item, List.getD_eq_getElem?_getD, List.getElem?_eq_none (by omega)] at h
  cases h

/-- Writing one item changes a count by that item. -/
theorem countP_set (p : Item κ → Bool) (h : i < s.pool.length) :
    (s.pool.set i x).countP p + (p (s.item i)).toNat = s.pool.countP p + (p x).toNat := by
  have hget : s.pool[i] = s.item i :=
    Option.some.inj ((List.getElem?_eq_getElem h).symm.trans (getElem?_pool h))
  have hle : (p (s.item i)).toNat ≤ s.pool.countP p := by
    cases hp : p (s.item i) with
    | false => exact Nat.zero_le _
    | true => exact List.countP_pos_iff.mpr ⟨s.item i, hget ▸ List.getElem_mem h, hp⟩
  have hif : ∀ b : Bool, (if b = true then 1 else 0) = b.toNat := by decide
  rw [List.countP_set h, hget, hif, hif]
  omega

theorem countP_pos {p : Item κ → Bool} {i : Nat} (hlt : i < s.pool.length)
    (hp : p (s.item i) = true) : 0 < s.pool.countP p := by
  apply List.countP_pos_iff.mpr
  exact ⟨s.item i, List.mem_of_getElem? (getElem?_pool hlt), hp⟩

/-- A count that the old and the new item do not enter into. -/
theorem countP_set_of_false {p : Item κ → Bool} {x : Item κ} (hlt : i < s.pool.length)
    (hold : p (s.item i) = false) (hnew : p x = false) :
    (s.pool.set i x).countP p = s.pool.countP p := by
  have h := countP_set (x := x) p hlt
  rw [hold, hnew] at h
  exact h

/-- A count that only the new item enters into. -/
theorem countP_set_of_new {p : Item κ → Bool} {x : Item κ} (hlt : i < s.pool.length)
    (hold : p (s.item i) = false) (hnew : p x = true) :
    (s.pool.set i x).countP p = s.pool.countP p + 1 := by
  have h := countP_set (x := x) p hlt
  rw [hold, hnew] at h
  exact h

/-- A count that only the old item enters into. -/
theorem countP_set_of_old {p : Item κ → Bool} {x : Item κ} (hlt : i < s.pool.length)
    (hold : p (s.item i) = true) (hnew : p x = false) :
    (s.pool.set i x).countP p + 1 = s.pool.countP p := by
  have h := countP_set (x := x) p hlt
  rw [hold, hnew] at h
  exact h

theorem countP_eq_zero {p : Item κ → Bool} (h : ∀ i, p (s.item i) = false) :
    s.pool.countP p = 0 := by
  rw [List.countP_eq_zero]
  intro it hit
  obtain ⟨i, hi⟩ := List.getElem?_of_mem hit
  have hlt := (List.getElem?_eq_some_iff.mp hi).1
  obtain rfl : s.item i = it := Option.some.inj ((getElem?_pool hlt).symm.trans hi)
  simp [h i]

end Pool

theorem index_of_serving {w : Worker κ} {i : Nat} {c : κ} (h : w.serving = some (i, c)) :
    w.index = [i] := by
  cases w <;> cases h <;> rfl

theorem mem_held_of_serving {s : Disp κ} {i : Nat} {c : κ} (h : s.worker.serving = some (i, c)) :
    i ∈ s.held := by
  rw [Disp.held, index_of_serving h]
  exact List.mem_cons_self

/-! ### Calls that quiesce -/

/-- The dispatcher task holds and serves the same item. -/
structure SameHands (w w' : Worker κ) : Prop where
  index : w'.index = w.index
  todo : w'.todo = w.todo
  serving : w'.serving = w.serving

/-- The step `e` is a call of `ax25_conn_dispatcher_quiesce` for `c`; if it waits, the
dispatcher task is at `w` then. -/
inductive Quiesces (s : Disp κ) (c : κ) : Event κ → Worker κ → Prop
  | other : Quiesces s c (.quiesce c) s.worker
  | self (i : Nat) (c' : κ) (hw : s.worker = .running i c') :
      Quiesces s c (.quiesceSelf c) (.waiting i c' c)

/-- The step `e` is the end of a wait for `c`, and the dispatcher task is at `w` then. -/
inductive Wakes (s : Disp κ) (c : κ) : Event κ → Worker κ → Prop
  | other : Wakes s c (.wake c) s.worker
  | self (i : Nat) (c' : κ) (hw : s.worker = .waiting i c' c) : Wakes s c .wakeSelf (.running i c')

theorem Quiesces.sameHands {s : Disp κ} {c : κ} {e : Event κ} {w : Worker κ}
    (h : Quiesces s c e w) : SameHands s.worker w := by
  cases h with
  | other => exact ⟨rfl, rfl, rfl⟩
  | self i c' hw =>
      rw [hw]
      exact ⟨rfl, rfl, rfl⟩

theorem Wakes.sameHands {s : Disp κ} {c : κ} {e : Event κ} {w : Worker κ}
    (h : Wakes s c e w) : SameHands s.worker w := by
  cases h with
  | other => exact ⟨rfl, rfl, rfl⟩
  | self i c' hw =>
      rw [hw]
      exact ⟨rfl, rfl, rfl⟩

/-! ### The invariant of the indices -/

/-- The items in use are in hand or in the queue, once, and the one that is executing is
in hand. -/
structure Tidy (spiram : Bool) (s : Disp κ) : Prop where
  length : s.pool.length = depth spiram
  nodup : s.held.Nodup
  inUse : ∀ i, i ∈ s.held ↔ (s.item i).inUse = true
  owned : ∀ i, (s.item i).inUse = true → ∃ c, (s.item i).ctx = some c ∧ s.life c ≠ .fresh ∧
    s.accepted[(s.item i).serial]? = some (c, (s.item i).action)
  serving : ∀ i c, s.worker.serving = some (i, c) →
    (s.item i).executing = true ∧ (s.item i).cancelled = false ∧ (s.item i).ctx = some c
  executing : ∀ i, (s.item i).inUse = true → (s.item i).executing = true →
    ∃ c, s.worker.serving = some (i, c)

/-- Items wait in the order in which they were enqueued, behind what has been invoked. -/
structure Ordered (s : Disp κ) : Prop where
  invoked : s.invoked.Pairwise (·.serial < ·.serial)
  genuine : ∀ v ∈ s.invoked, s.accepted[v.serial]? = some (v.ctx, v.action)
  waiting : s.todo.Pairwise fun i j => (s.item i).serial < (s.item j).serial
  next : ∀ v ∈ s.invoked, ∀ i ∈ s.todo, v.serial < (s.item i).serial

theorem Tidy.lt {spiram : Bool} {s : Disp κ} (h : Tidy spiram s) {i : Nat} (hi : i ∈ s.held) :
    i < s.pool.length :=
  lt_of_inUse ((h.inUse i).mp hi)

/-- The queue has room for every index that is not in it. -/
theorem Tidy.queue_lt {spiram : Bool} {s : Disp κ} (h : Tidy spiram s) {i : Nat}
    (hlt : i < s.pool.length)
    (hfree : (s.item i).inUse = false) : s.queue.length < depth spiram := by
  have hnot : i ∉ s.held := fun hi => by rw [(h.inUse i).mp hi] at hfree; cases hfree
  have hnodup : (i :: s.queue).Nodup :=
    List.nodup_cons.mpr ⟨fun hi => hnot (List.mem_append_right _ hi),
      (List.nodup_append.mp h.nodup).2.1⟩
  have hsub : (i :: s.queue) ⊆ List.range (depth spiram) := by
    intro j hj
    rw [List.mem_range, ← h.length]
    rcases List.mem_cons.mp hj with rfl | hj
    · exact hlt
    · exact h.lt (List.mem_append_right _ hj)
  have hle := (hnodup.subperm hsub).length_le
  rw [List.length_range, List.length_cons] at hle
  exact hle

/-! ### Writing one item -/

section TidyMoves

variable {spiram : Bool} {s s' : Disp κ} {i : Nat} {c : κ}

/-- The connections that the items belong to stay known. -/
theorem Tidy.of_same (h : Tidy spiram s) (hpool : s'.pool = s.pool) (hheld : s'.held = s.held)
    (hserving : s'.worker.serving = s.worker.serving) (haccepted : s'.accepted = s.accepted)
    (hlife : ∀ c, s'.life c = .fresh → s.life c = .fresh) : Tidy spiram s' := by
  have hitem : ∀ i, s'.item i = s.item i := by
    intro i
    rw [Disp.item, hpool, Disp.item]
  constructor
  · rw [hpool, h.length]
  · rw [hheld]
    exact h.nodup
  · intro i
    rw [hheld, hitem]
    exact h.inUse i
  · intro i hi
    rw [hitem] at hi ⊢
    rw [haccepted]
    obtain ⟨c, hc, hfresh, hacc⟩ := h.owned i hi
    exact ⟨c, hc, fun hf => hfresh (hlife c hf), hacc⟩
  · intro i c hw
    rw [hitem]
    exact h.serving i c (hserving ▸ hw)
  · intro i hu he
    rw [hitem] at hu he
    rw [hserving]
    exact h.executing i hu he

theorem Tidy.fill {a : Action} (h : Tidy spiram s)
    (hpool : s'.pool = s.pool.set i (s.newItem c a))
    (hqueue : s'.queue = s.queue ++ [i]) (hworker : s'.worker = s.worker) (hlife : s'.life = s.life)
    (haccepted : s'.accepted = s.accepted ++ [(c, a)]) (hfresh : s.life c ≠ .fresh)
    (hlt : i < s.pool.length) (hfree : (s.item i).inUse = false) : Tidy spiram s' := by
  have hitem := item_of_set hpool hlt
  have hheld : s'.held = s.held ++ [i] := by
    rw [Disp.held, hworker, hqueue, Disp.held, List.append_assoc]
  have hnot : i ∉ s.held := fun hi => by rw [(h.inUse i).mp hi] at hfree; cases hfree
  constructor
  · rw [hpool, List.length_set, h.length]
  · rw [hheld, List.nodup_append]
    refine ⟨h.nodup, by simp, ?_⟩
    intro j hj k hk hjk
    rw [List.mem_singleton] at hk
    exact hnot (hk ▸ hjk ▸ hj)
  · intro j
    rw [hheld, List.mem_append, List.mem_singleton, hitem]
    by_cases hji : j = i
    · simp [hji, Disp.newItem]
    · rw [if_neg hji, h.inUse j]
      simp [hji]
  · intro j hj
    rw [hitem] at hj ⊢
    rw [haccepted, hlife]
    by_cases hji : j = i
    · rw [if_pos hji]
      exact ⟨c, rfl, hfresh, by simp [Disp.newItem]⟩
    · rw [if_neg hji] at hj ⊢
      obtain ⟨c', hc, hf, hacc⟩ := h.owned j hj
      exact ⟨c', hc, hf, List.getElem?_append_left (List.getElem?_eq_some_iff.mp hacc).1 ▸ hacc⟩
  · intro j c' hw
    rw [hworker] at hw
    have hne : j ≠ i := by
      intro heq
      subst heq
      exact hnot (mem_held_of_serving hw)
    rw [hitem, if_neg hne]
    exact h.serving j c' hw
  · intro j hu he
    rw [hitem] at hu he
    rw [hworker]
    by_cases hji : j = i
    · rw [if_pos hji] at he
      cases he
    · rw [if_neg hji] at hu he
      exact h.executing j hu he

theorem Tidy.drop (h : Tidy spiram s) (hw : s.worker.index = [i]) : Tidy spiram (s.drop i) := by
  have hheld : s.held = i :: s.queue := by rw [Disp.held, hw]; rfl
  have hlt : i < s.pool.length := h.lt (by rw [hheld]; exact List.mem_cons_self)
  have hitem : ∀ j, (s.drop i).item j = if j = i then (s.item i).free else s.item j :=
    item_of_set rfl hlt
  have hnodup := List.nodup_cons.mp (hheld ▸ h.nodup)
  constructor
  · rw [Disp.drop, List.length_set, h.length]
  · exact hnodup.2
  · intro j
    rw [hitem]
    by_cases hji : j = i
    · rw [if_pos hji, hji]
      exact ⟨fun hj => absurd hj hnodup.1, fun hf => by cases hf⟩
    · rw [if_neg hji, ← h.inUse j, hheld]
      exact ⟨fun hj => List.mem_cons_of_mem i hj, fun hj => (List.mem_cons.mp hj).resolve_left hji⟩
  · intro j hj
    rw [hitem] at hj ⊢
    by_cases hji : j = i
    · rw [if_pos hji] at hj
      cases hj
    · rw [if_neg hji] at hj ⊢
      exact h.owned j hj
  · intro j c' hw'
    cases hw'
  · intro j hu he
    rw [hitem] at hu he
    by_cases hji : j = i
    · rw [if_pos hji] at hu
      cases hu
    · rw [if_neg hji] at hu he
      -- only the item in hand is executing
      obtain ⟨c', hs⟩ := h.executing j hu he
      exact absurd (index_of_serving hs ▸ hw) (by simpa using hji)

theorem Tidy.claim (h : Tidy spiram s)
    (hpool : s'.pool = s.pool.set i { s.item i with executing := true })
    (hqueue : s'.queue = s.queue) (hworker : s'.worker = .claimed i c) (hlife : s'.life = s.life)
    (haccepted : s'.accepted = s.accepted) (hw : s.worker = .received i)
    (hcan : (s.item i).cancelled = false) (hctx : (s.item i).ctx = some c) : Tidy spiram s' := by
  have hheld : s'.held = s.held := by rw [Disp.held, Disp.held, hworker, hw, hqueue]; rfl
  have hlt : i < s.pool.length := h.lt (by simp [Disp.held, hw, Worker.index])
  have hitem := item_of_set hpool hlt
  constructor
  · rw [hpool, List.length_set, h.length]
  · rw [hheld]
    exact h.nodup
  · intro j
    rw [hheld, hitem, h.inUse j]
    by_cases hji : j = i
    · rw [if_pos hji, hji]
    · rw [if_neg hji]
  · intro j hj
    rw [hlife, haccepted]
    rw [hitem] at hj ⊢
    by_cases hji : j = i
    · subst hji
      rw [if_pos rfl] at hj ⊢
      exact h.owned j hj
    · rw [if_neg hji] at hj ⊢
      exact h.owned j hj
  · intro j c' hw'
    rw [hworker] at hw'
    cases hw'
    rw [hitem, if_pos rfl]
    exact ⟨rfl, hcan, hctx⟩
  · intro j hu he
    rw [hitem] at hu he
    rw [hworker]
    by_cases hji : j = i
    · exact ⟨c, by rw [hji]; rfl⟩
    · rw [if_neg hji] at hu he
      obtain ⟨c', hs⟩ := h.executing j hu he
      rw [hw] at hs
      cases hs

end TidyMoves

variable [DecidableEq κ]

/-- The item is executing for connection `c`. -/
def Item.executingOf (c : κ) (it : Item κ) : Bool :=
  it.inUse && it.executing && it.ctx == some c

/-- What the loop of `ax25_conn_dispatcher_quiesce` makes of an item. -/
def Item.cancel (c : κ) (it : Item κ) : Item κ :=
  if it.pendingOf c then { it with cancelled := true } else it

section Items

variable {s s' : Disp κ} {c : κ}

theorem item_of_cancel (hp : s'.pool = s.pool.map (Item.cancel c)) (j : Nat) :
    s'.item j = (s.item j).cancel c := by
  rw [Disp.item, hp, Disp.item, List.getD_eq_getElem?_getD, List.getD_eq_getElem?_getD,
    List.getElem?_map]
  cases s.pool[j]? with
  | none => rfl
  | some it => rfl

@[simp] theorem Item.cancel_inUse (it : Item κ) : (it.cancel c).inUse = it.inUse := by
  unfold Item.cancel; split <;> rfl

@[simp] theorem Item.cancel_executing (it : Item κ) : (it.cancel c).executing = it.executing := by
  unfold Item.cancel; split <;> rfl

@[simp] theorem Item.cancel_ctx (it : Item κ) : (it.cancel c).ctx = it.ctx := by
  unfold Item.cancel; split <;> rfl

@[simp] theorem Item.cancel_serial (it : Item κ) : (it.cancel c).serial = it.serial := by
  unfold Item.cancel; split <;> rfl

@[simp] theorem Item.cancel_action (it : Item κ) : (it.cancel c).action = it.action := by
  unfold Item.cancel; split <;> rfl

theorem Item.cancel_of_executing {it : Item κ} (h : it.executing = true) : it.cancel c = it := by
  simp [Item.cancel, Item.pendingOf, h]

theorem Item.pendingOf_iff {it : Item κ} :
    it.pendingOf c = true ↔
      it.inUse = true ∧ it.executing = false ∧ it.cancelled = false ∧ it.ctx = some c := by
  simp [Item.pendingOf, and_assoc]

theorem Item.executingOf_iff {it : Item κ} :
    it.executingOf c = true ↔ it.inUse = true ∧ it.executing = true ∧ it.ctx = some c := by
  simp [Item.executingOf, and_assoc]

@[simp] theorem Item.free_pendingOf (it : Item κ) : it.free.pendingOf c = false := rfl

@[simp] theorem Item.free_executingOf (it : Item κ) : it.free.executingOf c = false := rfl

theorem Item.cancel_pendingOf_self (it : Item κ) : (it.cancel c).pendingOf c = false := by
  by_cases h : it.pendingOf c = true
  · rw [Item.cancel, if_pos h]
    simp [Item.pendingOf]
  · rw [Item.cancel, if_neg h]
    exact Bool.eq_false_iff.mpr h

theorem Item.cancel_pendingOf_ne {c' : κ} (hne : c' ≠ c) (it : Item κ) :
    (it.cancel c).pendingOf c' = it.pendingOf c' := by
  by_cases h : it.pendingOf c = true
  · obtain ⟨-, -, -, hctx⟩ := Item.pendingOf_iff.mp h
    rw [Item.cancel, if_pos h]
    simp [Item.pendingOf, hctx, Ne.symm hne]
  · rw [Item.cancel, if_neg h]

theorem Item.cancel_executingOf {c' : κ} (it : Item κ) :
    (it.cancel c).executingOf c' = it.executingOf c' := by
  simp [Item.executingOf]

end Items

/-! ### The rest of the invariant -/

/-- The counters count, and no guard has failed. -/
structure Counted (s : Disp κ) : Prop where
  pending : ∀ c, s.life c ≠ .fresh →
    (s.ctl c).pendingCount.toNat = s.pool.countP (Item.pendingOf c)
  executing : ∀ c, s.life c ≠ .fresh →
    (s.ctl c).executingCount.toNat = s.pool.countP (Item.executingOf c)
  unsuppressed : s.suppressed = false

/-- A connection that is being quiesced has nothing pending, and one whose semaphore is
given, or that has been quiesced, has nothing executing either. -/
structure Calm (s : Disp κ) (c : κ) : Prop where
  shut : s.life c = .closing ∨ s.life c = .down →
    (s.ctl c).shutdown = true ∧ s.pool.countP (Item.pendingOf c) = 0
  done : s.life c = .down → s.pool.countP (Item.executingOf c) = 0
  signalled : s.life c = .closing → (s.ctl c).quiescedSem = some true →
    s.pool.countP (Item.executingOf c) = 0
  sem : s.life c = .ready ∨ s.life c = .closing → (s.ctl c).quiescedSem.isSome = true
  waited : s.unwaited c = false → s.life c = .closing ∨ s.life c = .down

structure Sound (spiram : Bool) (s : Disp κ) : Prop where
  tidy : Tidy spiram s
  counted : Counted s
  calm : ∀ c, Calm s c
  ordered : Ordered s

theorem sound_init {spiram : Bool} {s : Disp κ} (h : IsInit spiram s) : Sound spiram s := by
  obtain ⟨ctl, rfl⟩ := h
  have hitem : ∀ i, Disp.item (⟨List.replicate (depth spiram) {}, [], ctl, .idle,
      fun _ => .fresh, fun _ => 0, [], [], false⟩ : Disp κ) i = {} := by
    intro i
    rw [Disp.item, List.getD_eq_getElem?_getD, List.getElem?_replicate]
    split <;> rfl
  refine ⟨⟨List.length_replicate, List.nodup_nil, ?_, ?_, ?_, ?_⟩, ⟨?_, ?_, rfl⟩,
    fun c => ⟨?_, ?_, ?_, ?_, ?_⟩, ⟨List.Pairwise.nil, ?_, List.Pairwise.nil, ?_⟩⟩
  · intro i
    rw [hitem]
    exact ⟨fun h => absurd h List.not_mem_nil, fun h => by cases h⟩
  · intro i hi
    rw [hitem] at hi
    cases hi
  · intro i c h
    cases h
  · intro i hi
    rw [hitem] at hi
    cases hi
  all_goals simp [Disp.unwaited, Worker.awaits]

/-! ### What a step can do -/

/-- The effect of the loop of `ax25_conn_dispatcher_quiesce`. -/
def Disp.quiet (s : Disp κ) (c : κ) : Disp κ :=
  { s.setCtl c { s.ctl c with
      shutdown := true, generation := (s.ctl c).generation + 1, pendingCount := 0 } with
    pool := s.pool.map (Item.cancel c) }

/-- What the step `e` can do. -/
inductive Move (s : Disp κ) : Event κ → Disp κ → Prop
  | refuse (c : κ) (a : Action) : Move s (.enqueue c a) s
  | fill (c : κ) (a : Action) (i : Nat) (hlife : s.life c ≠ .fresh)
      (hup : (s.ctl c).shutdown = false) (hlt : i < s.pool.length)
      (hfree : (s.item i).inUse = false) :
      Move s (.enqueue c a)
        { s.setCtl c { s.ctl c with pendingCount := (s.ctl c).pendingCount + 1 } with
          pool := s.pool.set i (s.newItem c a)
          queue := s.queue ++ [i]
          accepted := s.accepted ++ [(c, a)] }
  | receive (i : Nat) (rest : List Nat) (hw : s.worker = .idle) (hq : s.queue = i :: rest) :
      Move s .receive { s with queue := rest, worker := .received i }
  | dropCancelled (i : Nat) (hw : s.worker = .received i) (hc : (s.item i).cancelled = true) :
      Move s .takeUp (s.drop i)
  | dropOutdated (i : Nat) (c : κ) (hw : s.worker = .received i)
      (hp : (s.item i).pendingOf c = true) :
      Move s .takeUp ((s.setCtl c (maybeSignalQuiesced
        { s.ctl c with pendingCount := (s.ctl c).pendingCount - 1 })).drop i)
  | claim (i : Nat) (c : κ) (hw : s.worker = .received i) (hp : (s.item i).pendingOf c = true)
      (hup : (s.ctl c).shutdown = false) :
      Move s .takeUp
        { s.setCtl c { s.ctl c with
            pendingCount := (s.ctl c).pendingCount - 1
            executingCount := (s.ctl c).executingCount + 1 } with
          pool := s.pool.set i { s.item i with executing := true }
          worker := .claimed i c }
  | invoke (i : Nat) (c : κ) (hw : s.worker = .claimed i c) : Move s .invoke (s.invokeAction i c)
  | finish (i : Nat) (c : κ) (hw : s.worker = .running i c) :
      Move s .finish ((s.setCtl c (maybeSignalQuiesced
        { s.ctl c with executingCount := (s.ctl c).executingCount - 1 })).drop i)
  | quiesced (e : Event κ) (c : κ) (w : Worker κ) (hq : Quiesces s c e w) (hlife : s.life c ≠ .fresh)
      (he : (s.ctl c).executingCount = 0) : Move s e ((s.quiet c).setLife c .down)
  | wait (e : Event κ) (c : κ) (w : Worker κ) (ws : κ → Nat) (hq : Quiesces s c e w)
      (hlife : s.life c ≠ .fresh) (hsem : (s.ctl c).quiescedSem.isSome = true)
      (hun : ∀ c', c' ≠ c → Disp.unwaited { s with worker := w, waiters := ws } c' = s.unwaited c') :
      Move s e { ((s.quiet c).takeSem c).setLife c .closing with worker := w, waiters := ws }
  | wake (e : Event κ) (c : κ) (w : Worker κ) (ws : κ → Nat) (hw : Wakes s c e w)
      (hsem : (s.ctl c).quiescedSem = some true) (hun : s.unwaited c = false)
      (hun' : ∀ c', c' ≠ c → Disp.unwaited { s with worker := w, waiters := ws } c' = s.unwaited c') :
      Move s e { (s.takeSem c).setLife c .down with worker := w, waiters := ws }
  | deleteSem (c : κ) (hlife : s.life c = .down) :
      Move s (.deleteSem c) (s.setCtl c { s.ctl c with quiescedSem := none })
  | initClear (c : κ) (hlife : s.life c = .fresh ∨ s.life c = .down ∧ s.unwaited c = true) :
      Move s (.initClear c) ((s.setCtl c {}).setLife c .clearing)
  | initReady (c : κ) (hlife : s.life c = .clearing) :
      Move s (.initReady c) ((s.setCtl c { s.ctl c with
        generation := 1, shutdown := false, quiescedSem := some false }).setLife c .ready)

section Moves

variable {spiram : Bool} {s s' : Disp κ} {c : κ} {e : Event κ}

theorem toNat_pending_sub {n : UInt16} (h : 0 < n.toNat) : (n - 1).toNat = n.toNat - 1 :=
  UInt16.toNat_sub_of_le _ _ (UInt16.le_iff_toNat_le.mpr h)

theorem toNat_executing_sub {n : UInt8} (h : 0 < n.toNat) : (n - 1).toNat = n.toNat - 1 :=
  UInt8.toNat_sub_of_le _ _ (UInt8.le_iff_toNat_le.mpr h)

theorem pending_pos_iff {n : UInt16} : n > 0 ↔ 0 < n.toNat := by
  rw [gt_iff_lt, UInt16.lt_iff_toNat_lt]
  rfl

theorem executing_pos_iff {n : UInt8} : n > 0 ↔ 0 < n.toNat := by
  rw [gt_iff_lt, UInt8.lt_iff_toNat_lt]
  rfl

theorem decPending_of_pos {d : Ctl} (h : 0 < d.pendingCount.toNat) :
    decPending d = ({ d with pendingCount := d.pendingCount - 1 }, false) := by
  rw [decPending, if_pos (pending_pos_iff.mpr h)]

/-- With enough on the count, the loop cancels and no guard fails. -/
theorem cancelItems_eq (c : κ) {pool : List (Item κ)} {d : Ctl}
    (h : pool.countP (Item.pendingOf c) ≤ d.pendingCount.toNat) :
    ∃ n : UInt16, n.toNat + pool.countP (Item.pendingOf c) = d.pendingCount.toNat ∧
      cancelItems c pool d = (pool.map (Item.cancel c), { d with pendingCount := n }, false) := by
  induction pool generalizing d with
  | nil => exact ⟨d.pendingCount, by simp, rfl⟩
  | cons it rest ih =>
      by_cases hp : it.pendingOf c = true
      · rw [List.countP_cons_of_pos hp] at h ⊢
        have hpos : 0 < d.pendingCount.toNat := by omega
        have hsub := toNat_pending_sub hpos
        obtain ⟨n, hn, heq⟩ := ih (d := { d with pendingCount := d.pendingCount - 1 })
          (by rw [hsub]; omega)
        refine ⟨n, by rw [hsub] at hn; omega, ?_⟩
        simp only [cancelItems, if_pos hp, decPending_of_pos hpos, heq, List.map_cons, Item.cancel,
          Bool.or_false]
      · rw [List.countP_cons_of_neg hp] at h ⊢
        obtain ⟨n, hn, heq⟩ := ih h
        refine ⟨n, hn, ?_⟩
        simp only [cancelItems, if_neg hp, heq, List.map_cons, Item.cancel]

theorem Counted.cancelAll_eq (h : Counted s) (hlife : s.life c ≠ .fresh) :
    s.cancelAll c = s.quiet c := by
  obtain ⟨n, hn, heq⟩ := cancelItems_eq c
    (d := { s.ctl c with shutdown := true, generation := (s.ctl c).generation + 1 })
    (Nat.le_of_eq (h.pending c hlife).symm)
  have hzero : n = 0 := by
    apply UInt16.toNat_inj.mp
    have := h.pending c hlife
    simp only [UInt16.toNat_ofNat] at *
    omega
  simp only [Disp.cancelAll, heq, hzero, Bool.or_false]
  rfl

theorem move_enqueue (h : Sound spiram s) (hlife : s.life c ≠ .fresh) (a : Action) :
    Move s (.enqueue c a) (s.enqueue spiram c a).2 := by
  unfold Disp.enqueue
  dsimp only
  by_cases hshut : (s.ctl c).shutdown = true
  · rw [if_pos hshut]
    exact .refuse c a
  · rw [if_neg hshut]
    cases hfind : s.pool.findIdx? fun it => !it.inUse with
    | none => exact .refuse c a
    | some i =>
        obtain ⟨hlt, hfree, -⟩ := List.findIdx?_eq_some_iff_getElem.mp hfind
        have hget : s.pool[i] = s.item i :=
          Option.some.inj ((List.getElem?_eq_getElem hlt).symm.trans (getElem?_pool hlt))
        have hfree : (s.item i).inUse = false := by simpa [hget] using hfree
        dsimp only
        rw [if_pos (h.tidy.queue_lt hlt hfree)]
        exact .fill c a i hlife (by simpa using hshut) hlt hfree

theorem move_takeUp (h : Sound spiram s) {i : Nat} (hw : s.worker = .received i) :
    Move s .takeUp (s.takeUp i) := by
  have hheld : i ∈ s.held := by simp [Disp.held, hw, Worker.index]
  have huse := (h.tidy.inUse i).mp hheld
  obtain ⟨c, hctx, hlife, -⟩ := h.tidy.owned i huse
  have hexec : (s.item i).executing = false := by
    by_contra he
    obtain ⟨c', hs⟩ := h.tidy.executing i huse (by simpa using he)
    rw [hw] at hs
    cases hs
  have hunsup := h.counted.unsuppressed
  simp only [Disp.takeUp, huse, Bool.not_true, Bool.false_eq_true, if_false, hctx]
  cases hcan : (s.item i).cancelled with
  | true =>
      simp only [Bool.true_or, if_true]
      exact .dropCancelled i hw hcan
  | false =>
      have hp : (s.item i).pendingOf c = true := Item.pendingOf_iff.mpr ⟨huse, hexec, hcan, hctx⟩
      have hpos : 0 < (s.ctl c).pendingCount.toNat := by
        rw [h.counted.pending c hlife]
        exact countP_pos (h.tidy.lt hheld) hp
      simp only [Bool.false_or, Bool.false_eq_true, if_false, if_pos (pending_pos_iff.mpr hpos),
        decPending_of_pos hpos, hunsup, Bool.or_false]
      split_ifs with hstale
      · exact .dropOutdated i c hw hp
      · have hup : (s.ctl c).shutdown = false := by
          rw [Bool.or_eq_true, not_or] at hstale
          simpa using hstale.2
        have hclaim := Move.claim i c hw hp hup
        simpa only [Disp.setCtl, huse, hcan, hctx, hunsup] using hclaim

theorem move_finish (h : Sound spiram s) {i : Nat} (hw : s.worker = .running i c) :
    Move s .finish (s.finish i c) := by
  have hheld : i ∈ s.held := by simp [Disp.held, hw, Worker.index]
  have huse := (h.tidy.inUse i).mp hheld
  obtain ⟨hexec, -, hctx⟩ := h.tidy.serving i c (by rw [hw]; rfl)
  obtain ⟨c', hctx', hlife, -⟩ := h.tidy.owned i huse
  obtain rfl : c' = c := Option.some.inj (hctx'.symm.trans hctx)
  have hpos : 0 < (s.ctl c').executingCount.toNat := by
    rw [h.counted.executing c' hlife]
    exact countP_pos (h.tidy.lt hheld) (Item.executingOf_iff.mpr ⟨huse, hexec, hctx⟩)
  simp only [Disp.finish, if_pos (executing_pos_iff.mpr hpos)]
  exact .finish i c' hw

/-- A wait is needed exactly if something is executing. -/
theorem Sound.waitNeeded_iff (h : Sound spiram s) (hlife : ¬(s.life c = .fresh ∨ s.life c = .clearing)) :
    (s.quiet c).waitNeeded c = true ↔ (s.ctl c).executingCount ≠ 0 := by
  have hwait : (s.quiet c).waitNeeded c =
      ((s.ctl c).executingCount != 0 && (s.ctl c).quiescedSem.isSome) := by
    simp [Disp.waitNeeded, Disp.quiet, Disp.setCtl]
  rw [hwait, Bool.and_eq_true, bne_iff_ne]
  refine ⟨fun hb => hb.1, fun hne => ⟨hne, ?_⟩⟩
  cases hl : s.life c with
  | fresh => exact absurd (Or.inl hl) hlife
  | clearing => exact absurd (Or.inr hl) hlife
  | ready => exact (h.calm c).sem (.inl hl)
  | closing => exact (h.calm c).sem (.inr hl)
  | down =>
      have hzero := h.counted.executing c (by rw [hl]; exact Life.noConfusion)
      rw [(h.calm c).done hl] at hzero
      exact absurd (UInt8.toNat_inj.mp hzero) hne

theorem sem_of_waitNeeded (h : (s.quiet c).waitNeeded c = true) :
    (s.ctl c).quiescedSem.isSome = true := by
  simp only [Disp.waitNeeded, Disp.quiet, Disp.setCtl, Function.update_self, Bool.and_eq_true] at h
  exact h.2

/-- **Every step of the machine is a move.** -/
theorem step_move (h : Sound spiram s) (hs : step spiram s e = some s') : Move s e s' := by
  cases e with
  | enqueue c a =>
      simp only [step] at hs
      split_ifs at hs with hlife
      cases hs
      exact move_enqueue h hlife a
  | receive =>
      cases hw : s.worker <;> cases hq : s.queue <;> simp only [step, hw, hq] at hs <;> cases hs
      rename_i i rest
      have hheld : i ∈ s.held := List.mem_append_right _ (by rw [hq]; exact List.mem_cons_self)
      rw [if_pos (h.tidy.length ▸ h.tidy.lt hheld)]
      exact .receive i rest hw hq
  | takeUp =>
      cases hw : s.worker <;> simp only [step, hw] at hs <;> cases hs
      exact move_takeUp h hw
  | invoke =>
      cases hw : s.worker <;> simp only [step, hw] at hs <;> cases hs
      exact .invoke _ _ hw
  | finish =>
      cases hw : s.worker <;> simp only [step, hw] at hs <;> cases hs
      exact move_finish h hw
  | quiesce c =>
      simp only [step] at hs
      split_ifs at hs with hlife hwait
      all_goals have hfresh : s.life c ≠ .fresh := fun hf => hlife (.inl hf)
      all_goals rw [h.counted.cancelAll_eq hfresh] at hwait hs
      all_goals cases hs
      · refine .wait _ c s.worker _ .other hfresh (sem_of_waitNeeded hwait) ?_
        intro c' hne
        simp [Disp.unwaited, hne, Disp.quiet, Disp.setCtl]
      · exact .quiesced _ c _ .other hfresh
          (not_ne_iff.mp fun hne => hwait ((h.waitNeeded_iff hlife).mpr hne))
  | wake c =>
      simp only [step] at hs
      split_ifs at hs with hcond
      cases hs
      refine .wake _ c s.worker _ .other hcond.2 (by simp [Disp.unwaited, hcond.1]) ?_
      intro c' hne
      simp [Disp.unwaited, hne]
  | quiesceSelf c =>
      cases hw : s.worker <;> simp only [step, hw] at hs <;> try cases hs
      rename_i i c₁
      split_ifs at hs with hlife hwait
      all_goals have hfresh : s.life c ≠ .fresh := fun hf => hlife (.inl hf)
      all_goals rw [h.counted.cancelAll_eq hfresh] at hwait hs
      all_goals cases hs
      · refine .wait _ c (.waiting i c₁ c) s.waiters (.self i c₁ hw) hfresh
          (sem_of_waitNeeded hwait) ?_
        intro c' hne
        have hcc : (some c != some c') = true := by simpa using Ne.symm hne
        simp only [Disp.unwaited, hw, Worker.awaits, hcc]
        rfl
      · exact .quiesced _ c _ (.self i c₁ hw) hfresh
          (not_ne_iff.mp fun hne => hwait ((h.waitNeeded_iff hlife).mpr hne))
  | wakeSelf =>
      cases hw : s.worker <;> simp only [step, hw] at hs <;> try cases hs
      rename_i i c₁ c
      split_ifs at hs with hsem
      cases hs
      refine .wake _ c (.running i c₁) s.waiters (.self i c₁ hw) hsem
        (by simp [Disp.unwaited, hw, Worker.awaits]) ?_
      intro c' hne
      have hcc : (some c != some c') = true := by simpa using Ne.symm hne
      simp only [Disp.unwaited, hw, Worker.awaits, hcc]
      rfl
  | deleteSem c =>
      simp only [step] at hs
      split_ifs at hs with hlife
      cases hs
      exact .deleteSem c hlife.1
  | initClear c =>
      simp only [step] at hs
      split_ifs at hs with hlife
      cases hs
      exact .initClear c hlife
  | initReady c =>
      simp only [step] at hs
      split_ifs at hs with hlife
      cases hs
      exact .initReady c hlife

end Moves

/-! ### Moves keep the indices tidy -/

section TidyMoves

variable {spiram : Bool} {s s' : Disp κ} {c : κ} {e : Event κ}

theorem Tidy.quiet (h : Tidy spiram s) (c : κ) : Tidy spiram (s.quiet c) := by
  have hitem : ∀ j, (s.quiet c).item j = (s.item j).cancel c := item_of_cancel rfl
  constructor
  · rw [Disp.quiet, List.length_map, h.length]
  · exact h.nodup
  · intro i
    rw [hitem, Item.cancel_inUse]
    exact h.inUse i
  · intro i hi
    rw [hitem, Item.cancel_inUse] at hi
    rw [hitem, Item.cancel_ctx, Item.cancel_serial, Item.cancel_action]
    exact h.owned i hi
  · intro i c' hw
    obtain ⟨hexec, hcan, hctx⟩ := h.serving i c' hw
    rw [hitem, Item.cancel_of_executing hexec]
    exact ⟨hexec, hcan, hctx⟩
  · intro i hu he
    rw [hitem, Item.cancel_inUse] at hu
    rw [hitem, Item.cancel_executing] at he
    exact h.executing i hu he

theorem setLife_fresh {l : Life} (hl : l ≠ .fresh) {c' : κ}
    (h : (s.setLife c l).life c' = .fresh) : s.life c' = .fresh := by
  by_cases hc : c' = c
  · subst hc
    exact absurd (by simpa [Disp.setLife] using h) hl
  · simpa [Disp.setLife, hc] using h

theorem Tidy.setLife (h : Tidy spiram s) (c : κ) {l : Life} (hl : l ≠ .fresh) :
    Tidy spiram (s.setLife c l) :=
  h.of_same rfl rfl rfl rfl fun _ hf => setLife_fresh hl hf

theorem Tidy.move (h : Tidy spiram s) (hm : Move s e s') : Tidy spiram s' := by
  cases hm with
  | refuse c a => exact h
  | fill c a i hlife _ hlt hfree => exact h.fill rfl rfl rfl rfl rfl hlife hlt hfree
  | receive i rest hw hq =>
      refine h.of_same rfl ?_ (by rw [hw]; rfl) rfl fun _ hf => hf
      simp [Disp.held, hw, hq, Worker.index]
  | dropCancelled i hw _ => exact h.drop (by rw [hw]; rfl)
  | dropOutdated i c hw _ =>
      exact (h.of_same rfl rfl rfl rfl fun _ hf => hf : Tidy spiram (s.setCtl c _)).drop
        (by rw [Disp.setCtl, hw]; rfl)
  | claim i c hw hp _ =>
      obtain ⟨-, -, hcan, hctx⟩ := Item.pendingOf_iff.mp hp
      exact h.claim rfl rfl rfl rfl rfl hw hcan hctx
  | invoke i c hw =>
      exact h.of_same rfl (by simp [Disp.held, Disp.invokeAction, hw, Worker.index])
        (by rw [hw]; rfl) rfl fun _ hf => hf
  | finish i c hw =>
      exact (h.of_same rfl rfl rfl rfl fun _ hf => hf : Tidy spiram (s.setCtl c _)).drop
        (by rw [Disp.setCtl, hw]; rfl)
  | quiesced e c w _ _ _ => exact (h.quiet c).setLife c Life.noConfusion
  | wait e c w ws hq _ _ _ =>
      refine (h.quiet c).of_same rfl ?_ hq.sameHands.serving rfl fun _ hf => setLife_fresh ?_ hf
      · exact congrArg (· ++ s.queue) hq.sameHands.index
      · exact Life.noConfusion
  | wake e c w ws hw _ _ _ =>
      refine h.of_same rfl ?_ hw.sameHands.serving rfl fun _ hf => setLife_fresh ?_ hf
      · exact congrArg (· ++ s.queue) hw.sameHands.index
      · exact Life.noConfusion
  | deleteSem c _ => exact h.of_same rfl rfl rfl rfl fun _ hf => hf
  | initClear c _ =>
      exact h.of_same rfl rfl rfl rfl fun _ hf => setLife_fresh Life.noConfusion hf
  | initReady c _ =>
      exact h.of_same rfl rfl rfl rfl fun _ hf => setLife_fresh Life.noConfusion hf

end TidyMoves

/-! ### Moves keep the counts -/

@[simp] theorem maybeSignalQuiesced_pendingCount (d : Ctl) :
    (maybeSignalQuiesced d).pendingCount = d.pendingCount := by
  unfold maybeSignalQuiesced; split <;> rfl

@[simp] theorem maybeSignalQuiesced_executingCount (d : Ctl) :
    (maybeSignalQuiesced d).executingCount = d.executingCount := by
  unfold maybeSignalQuiesced; split <;> rfl

@[simp] theorem maybeSignalQuiesced_shutdown (d : Ctl) :
    (maybeSignalQuiesced d).shutdown = d.shutdown := by
  unfold maybeSignalQuiesced; split <;> rfl

section CountedMoves

variable {spiram : Bool} {s s' : Disp κ} {i : Nat} {c c' : κ} {e : Event κ}

theorem Item.pendingOf_ne {it : Item κ} (h : it.ctx = some c) (hne : c' ≠ c) :
    it.pendingOf c' = false := by
  simp [Item.pendingOf, h, Ne.symm hne]

theorem Item.executingOf_ne {it : Item κ} (h : it.ctx = some c) (hne : c' ≠ c) :
    it.executingOf c' = false := by
  simp [Item.executingOf, h, Ne.symm hne]

theorem Item.executingOf_of_pending {it : Item κ} (h : it.pendingOf c = true) (c' : κ) :
    it.executingOf c' = false := by
  obtain ⟨-, hexec, -, -⟩ := Item.pendingOf_iff.mp h
  simp [Item.executingOf, hexec]

theorem Item.pendingOf_of_executing {it : Item κ} (h : it.executing = true) :
    it.pendingOf c = false := by
  simp [Item.pendingOf, h]

/-- Nothing executes while the dispatcher task has not taken an item up. -/
theorem Tidy.not_executing (h : Tidy spiram s) (hw : s.worker.serving = none) (c : κ) (i : Nat) :
    (s.item i).executingOf c = false := by
  by_contra he
  obtain ⟨hu, he, -⟩ := Item.executingOf_iff.mp (by simpa using he)
  obtain ⟨c', hs⟩ := h.executing i hu he
  rw [hw] at hs
  cases hs

theorem depth_lt (spiram : Bool) : depth spiram < 256 := by
  cases spiram <;> decide

/-- A step that writes one item, with the two counters of one connection. -/
theorem Counted.of_ctl {d : Ctl} (h : Counted s) (hctl : s'.ctl = Function.update s.ctl c d)
    (hlife : ∀ c', c' ≠ c → s'.life c' = s.life c') (hsup : s'.suppressed = s.suppressed)
    (hpc : d.pendingCount.toNat = s'.pool.countP (Item.pendingOf c))
    (hec : d.executingCount.toNat = s'.pool.countP (Item.executingOf c))
    (hpn : ∀ c', c' ≠ c → s'.pool.countP (Item.pendingOf c') = s.pool.countP (Item.pendingOf c'))
    (hen : ∀ c', c' ≠ c →
      s'.pool.countP (Item.executingOf c') = s.pool.countP (Item.executingOf c')) :
    Counted s' := by
  constructor
  · intro c' hf
    rw [hctl]
    by_cases hc : c' = c
    · subst hc
      rw [Function.update_self]
      exact hpc
    · rw [Function.update_of_ne hc, hpn c' hc]
      exact h.pending c' (hlife c' hc ▸ hf)
  · intro c' hf
    rw [hctl]
    by_cases hc : c' = c
    · subst hc
      rw [Function.update_self]
      exact hec
    · rw [Function.update_of_ne hc, hen c' hc]
      exact h.executing c' (hlife c' hc ▸ hf)
  · rw [hsup, h.unsuppressed]

theorem countP_quiet_pendingOf (s : Disp κ) (c : κ) :
    (s.quiet c).pool.countP (Item.pendingOf c) = 0 := by
  rw [Disp.quiet, List.countP_map, List.countP_eq_zero]
  intro it _
  simp [Item.cancel_pendingOf_self]

theorem countP_quiet_pendingOf_ne (s : Disp κ) (hne : c' ≠ c) :
    (s.quiet c).pool.countP (Item.pendingOf c') = s.pool.countP (Item.pendingOf c') := by
  rw [Disp.quiet, List.countP_map]
  exact List.countP_congr fun it _ => by rw [Function.comp, Item.cancel_pendingOf_ne hne]

theorem countP_quiet_executingOf (s : Disp κ) (c c' : κ) :
    (s.quiet c).pool.countP (Item.executingOf c') = s.pool.countP (Item.executingOf c') := by
  rw [Disp.quiet, List.countP_map]
  exact List.countP_congr fun it _ => by rw [Function.comp, Item.cancel_executingOf]

theorem life_setLife (s : Disp κ) (l : Life) (hne : c' ≠ c) :
    (s.setLife c l).life c' = s.life c' :=
  Function.update_of_ne hne _ _

/-- A connection that may be initialised has nothing left in the pool but cancelled items. -/
theorem Sound.counts_zero (h : Sound spiram s) (hlife : s.life c = .fresh ∨ s.life c = .down) :
    s.pool.countP (Item.pendingOf c) = 0 ∧ s.pool.countP (Item.executingOf c) = 0 := by
  rcases hlife with hlife | hlife
  · have hctx : ∀ i, (s.item i).inUse = true → (s.item i).ctx ≠ some c := by
      intro i hu hc
      obtain ⟨c', hc', hf, -⟩ := h.tidy.owned i hu
      exact hf (Option.some.inj (hc'.symm.trans hc) ▸ hlife)
    constructor
    · apply countP_eq_zero
      intro i
      by_contra hp
      obtain ⟨hu, -, -, hc⟩ := Item.pendingOf_iff.mp (by simpa using hp)
      exact hctx i hu hc
    · apply countP_eq_zero
      intro i
      by_contra he
      obtain ⟨hu, -, hc⟩ := Item.executingOf_iff.mp (by simpa using he)
      exact hctx i hu hc
  · exact ⟨((h.calm c).shut (.inr hlife)).2, (h.calm c).done hlife⟩

theorem Counted.fill {a : Action} (h : Sound spiram s) (hlife : s.life c ≠ .fresh)
    (hlt : i < s.pool.length) (hfree : (s.item i).inUse = false) :
    Counted { s.setCtl c { s.ctl c with pendingCount := (s.ctl c).pendingCount + 1 } with
      pool := s.pool.set i (s.newItem c a)
      queue := s.queue ++ [i]
      accepted := s.accepted ++ [(c, a)] } := by
  have hold : ∀ c', (s.item i).pendingOf c' = false := fun c' => by simp [Item.pendingOf, hfree]
  have hold' : ∀ c', (s.item i).executingOf c' = false := fun c' => by simp [Item.executingOf, hfree]
  have hnew : (s.newItem c a).pendingOf c = true := by simp [Item.pendingOf, Disp.newItem]
  have hexec : ∀ c', (s.pool.set i (s.newItem c a)).countP (Item.executingOf c') =
      s.pool.countP (Item.executingOf c') := fun c' => countP_set_of_false hlt (hold' c') rfl
  have hsucc := countP_set_of_new hlt (hold c) hnew
  refine h.counted.of_ctl (c := c) rfl (fun _ _ => rfl) rfl ?_ ?_ ?_ ?_
  · -- the pool is too small for the counter to overflow
    have hle : (s.pool.set i (s.newItem c a)).countP (Item.pendingOf c) ≤ depth spiram := by
      rw [← h.tidy.length, ← List.length_set]
      exact List.countP_le_length
    have hdepth := depth_lt spiram
    have hcount := h.counted.pending c hlife
    rw [UInt16.toNat_add, hcount, hsucc]
    exact Nat.mod_eq_of_lt (by rw [UInt16.toNat_one]; omega)
  · rw [hexec]
    exact h.counted.executing c hlife
  · intro c' hne
    exact countP_set_of_false hlt (hold c') (Item.pendingOf_ne rfl hne)
  · intro c' _
    exact hexec c'

theorem Counted.dropCancelled (h : Sound spiram s) (hw : s.worker = .received i)
    (hc : (s.item i).cancelled = true) : Counted (s.drop i) := by
  have hlt : i < s.pool.length := h.tidy.lt (by simp [Disp.held, hw, Worker.index])
  have hnone : s.worker.serving = none := by rw [hw]; rfl
  have hp : ∀ c, (s.drop i).pool.countP (Item.pendingOf c) = s.pool.countP (Item.pendingOf c) :=
    fun c => countP_set_of_false hlt (by simp [Item.pendingOf, hc]) rfl
  have he : ∀ c, (s.drop i).pool.countP (Item.executingOf c) = s.pool.countP (Item.executingOf c) :=
    fun c => countP_set_of_false hlt (h.tidy.not_executing hnone c i) rfl
  constructor
  · intro c hf
    rw [hp]
    exact h.counted.pending c hf
  · intro c hf
    rw [he]
    exact h.counted.executing c hf
  · exact h.counted.unsuppressed

theorem Sound.life_of_pending (h : Sound spiram s) (hp : (s.item i).pendingOf c = true) :
    s.life c ≠ .fresh := by
  obtain ⟨hu, -, -, hctx⟩ := Item.pendingOf_iff.mp hp
  obtain ⟨c', hc', hf, -⟩ := h.tidy.owned i hu
  exact Option.some.inj (hc'.symm.trans hctx) ▸ hf

theorem Counted.dropOutdated (h : Sound spiram s) (hp : (s.item i).pendingOf c = true) :
    Counted ((s.setCtl c (maybeSignalQuiesced
      { s.ctl c with pendingCount := (s.ctl c).pendingCount - 1 })).drop i) := by
  obtain ⟨hu, -, -, hctx⟩ := Item.pendingOf_iff.mp hp
  have hlt := lt_of_inUse hu
  have hlife := h.life_of_pending hp
  have hpred := countP_set_of_old (x := (s.item i).free) hlt hp rfl
  have hcount := h.counted.pending c hlife
  refine h.counted.of_ctl (c := c) rfl (fun _ _ => rfl) rfl ?_ ?_ ?_ ?_
  · rw [maybeSignalQuiesced_pendingCount, toNat_pending_sub (by omega), hcount, ← hpred]
    rfl
  · rw [maybeSignalQuiesced_executingCount]
    exact (h.counted.executing c hlife).trans
      (countP_set_of_false hlt (Item.executingOf_of_pending hp c) rfl).symm
  · intro c' hne
    exact countP_set_of_false hlt (Item.pendingOf_ne hctx hne) rfl
  · intro c' _
    exact countP_set_of_false hlt (Item.executingOf_of_pending hp c') rfl

theorem Counted.claim (h : Sound spiram s) (hw : s.worker = .received i)
    (hp : (s.item i).pendingOf c = true) :
    Counted { s.setCtl c { s.ctl c with
        pendingCount := (s.ctl c).pendingCount - 1
        executingCount := (s.ctl c).executingCount + 1 } with
      pool := s.pool.set i { s.item i with executing := true }
      worker := .claimed i c } := by
  obtain ⟨hu, -, -, hctx⟩ := Item.pendingOf_iff.mp hp
  have hlt := lt_of_inUse hu
  have hlife := h.life_of_pending hp
  have hnew : ∀ c', Item.pendingOf c' { s.item i with executing := true } = false :=
    fun c' => Item.pendingOf_of_executing rfl
  have hnew' : Item.executingOf c { s.item i with executing := true } = true :=
    Item.executingOf_iff.mpr ⟨hu, rfl, hctx⟩
  have hpred := countP_set_of_old hlt hp (hnew c)
  have hcount := h.counted.pending c hlife
  refine h.counted.of_ctl (c := c) rfl (fun _ _ => rfl) rfl ?_ ?_ ?_ ?_
  · show ((s.ctl c).pendingCount - 1).toNat = _
    rw [toNat_pending_sub (by omega), hcount, ← hpred]
    rfl
  · -- nothing was executing, so the counter is at zero
    have hnone : s.worker.serving = none := by rw [hw]; rfl
    have hzero := (h.counted.executing c hlife).trans
      (countP_eq_zero (h.tidy.not_executing hnone c))
    have hsucc := countP_set_of_new hlt (Item.executingOf_of_pending hp c) hnew'
    rw [countP_eq_zero (h.tidy.not_executing hnone c)] at hsucc
    show ((s.ctl c).executingCount + 1).toNat = _
    rw [UInt8.toNat_add, hzero, hsucc]
    rfl
  · intro c' hne
    exact countP_set_of_false hlt (Item.pendingOf_ne hctx hne) (hnew c')
  · intro c' hne
    exact countP_set_of_false hlt (Item.executingOf_ne hctx hne) (Item.executingOf_ne hctx hne)

/-- The item that the dispatcher task serves. -/
theorem Sound.serving_executingOf (h : Sound spiram s) (hw : s.worker.serving = some (i, c)) :
    (s.item i).executingOf c = true ∧ s.life c ≠ .fresh := by
  have hu := (h.tidy.inUse i).mp (mem_held_of_serving hw)
  obtain ⟨hexec, -, hctx⟩ := h.tidy.serving i c hw
  obtain ⟨c', hc', hf, -⟩ := h.tidy.owned i hu
  exact ⟨Item.executingOf_iff.mpr ⟨hu, hexec, hctx⟩,
    Option.some.inj (hc'.symm.trans hctx) ▸ hf⟩

theorem Counted.finish (h : Sound spiram s) (hw : s.worker = .running i c) :
    Counted ((s.setCtl c (maybeSignalQuiesced
      { s.ctl c with executingCount := (s.ctl c).executingCount - 1 })).drop i) := by
  obtain ⟨he, hlife⟩ := h.serving_executingOf (c := c) (i := i) (by rw [hw]; rfl)
  obtain ⟨hu, hexec, hctx⟩ := Item.executingOf_iff.mp he
  have hlt := lt_of_inUse hu
  have hpred := countP_set_of_old (x := (s.item i).free) hlt he rfl
  have hcount := h.counted.executing c hlife
  refine h.counted.of_ctl (c := c) rfl (fun _ _ => rfl) rfl ?_ ?_ ?_ ?_
  · rw [maybeSignalQuiesced_pendingCount]
    exact (h.counted.pending c hlife).trans
      (countP_set_of_false hlt (Item.pendingOf_of_executing hexec) rfl).symm
  · rw [maybeSignalQuiesced_executingCount, toNat_executing_sub (by omega), hcount, ← hpred]
    rfl
  · intro c' _
    exact countP_set_of_false hlt (Item.pendingOf_of_executing hexec) rfl
  · intro c' hne
    exact countP_set_of_false hlt (Item.executingOf_ne hctx hne) rfl

/-- A step that leaves the pool alone. -/
theorem Counted.of_pool (h : Counted s) {d : Ctl} (hpool : s'.pool = s.pool)
    (hctl : s'.ctl = Function.update s.ctl c d) (hlife : ∀ c', c' ≠ c → s'.life c' = s.life c')
    (hsup : s'.suppressed = s.suppressed)
    (hpc : d.pendingCount.toNat = s.pool.countP (Item.pendingOf c))
    (hec : d.executingCount.toNat = s.pool.countP (Item.executingOf c)) : Counted s' := by
  apply h.of_ctl hctl hlife hsup
  · rw [hpool, hpc]
  · rw [hpool, hec]
  · intro c' _
    rw [hpool]
  · intro c' _
    rw [hpool]

theorem Counted.move (h : Sound spiram s) (hm : Move s e s') : Counted s' := by
  cases hm with
  | refuse c a => exact h.counted
  | fill c a i hlife _ hlt hfree => exact Counted.fill h hlife hlt hfree
  | receive i rest _ _ =>
      exact ⟨h.counted.pending, h.counted.executing, h.counted.unsuppressed⟩
  | dropCancelled i hw hc => exact Counted.dropCancelled h hw hc
  | dropOutdated i c _ hp => exact Counted.dropOutdated h hp
  | claim i c hw hp _ => exact Counted.claim h hw hp
  | invoke i c _ => exact ⟨h.counted.pending, h.counted.executing, h.counted.unsuppressed⟩
  | finish i c hw => exact Counted.finish h hw
  | quiesced e c w _ hlife _ =>
      refine h.counted.of_ctl (c := c) rfl (fun c' hne => life_setLife _ _ hne) rfl ?_ ?_ ?_ ?_
      · exact (countP_quiet_pendingOf s c).symm
      · exact (h.counted.executing c hlife).trans (countP_quiet_executingOf s c c).symm
      · exact fun c' hne => countP_quiet_pendingOf_ne s hne
      · exact fun c' _ => countP_quiet_executingOf s c c'
  | wait e c w ws _ hlife _ _ =>
      refine h.counted.of_ctl (c := c) (Function.update_idem ..)
        (fun c' hne => life_setLife _ _ hne) rfl ?_ ?_ ?_ ?_
      · simp only [Disp.quiet, Disp.setCtl, Function.update_self]
        exact (countP_quiet_pendingOf s c).symm
      · simp only [Disp.quiet, Disp.setCtl, Function.update_self]
        exact (h.counted.executing c hlife).trans (countP_quiet_executingOf s c c).symm
      · exact fun c' hne => countP_quiet_pendingOf_ne s hne
      · exact fun c' _ => countP_quiet_executingOf s c c'
  | wake e c w ws _ hsem hun _ =>
      have hlife : s.life c ≠ .fresh := by
        rcases (h.calm c).waited hun with hl | hl <;> rw [hl] <;> exact Life.noConfusion
      exact h.counted.of_pool (c := c) rfl rfl (fun c' hne => life_setLife _ _ hne) rfl
        (h.counted.pending c hlife) (h.counted.executing c hlife)
  | deleteSem c hlife =>
      have hfresh : s.life c ≠ .fresh := by rw [hlife]; exact Life.noConfusion
      exact h.counted.of_pool (c := c) rfl rfl (fun _ _ => rfl) rfl
        (h.counted.pending c hfresh) (h.counted.executing c hfresh)
  | initClear c hlife =>
      obtain ⟨hp, he⟩ := h.counts_zero (hlife.imp_right And.left)
      exact h.counted.of_pool (c := c) rfl rfl (fun c' hne => life_setLife _ _ hne) rfl hp.symm
        he.symm
  | initReady c hlife =>
      have hfresh : s.life c ≠ .fresh := by rw [hlife]; exact Life.noConfusion
      exact h.counted.of_pool (c := c) rfl rfl (fun c' hne => life_setLife _ _ hne) rfl
        (h.counted.pending c hfresh) (h.counted.executing c hfresh)

end CountedMoves

/-! ### Moves keep quiesced connections calm -/

section CalmMoves

variable {spiram : Bool} {s s' : Disp κ} {i : Nat} {c c' : κ} {e : Event κ}

/-- A step that does not concern connection `c`. -/
theorem Calm.of_same (h : Calm s c) (hctl : s'.ctl c = s.ctl c) (hlife : s'.life c = s.life c)
    (hun : s'.unwaited c = s.unwaited c)
    (hp : s'.pool.countP (Item.pendingOf c) = s.pool.countP (Item.pendingOf c))
    (he : s'.pool.countP (Item.executingOf c) = s.pool.countP (Item.executingOf c)) : Calm s' c := by
  constructor
  · rw [hlife, hctl, hp]
    exact h.shut
  · rw [hlife, he]
    exact h.done
  · rw [hlife, hctl, he]
    exact h.signalled
  · rw [hlife, hctl]
    exact h.sem
  · rw [hun, hlife]
    exact h.waited

/-- A connection that is not shut down is not being quiesced. -/
theorem Calm.of_up (h : Calm s c) (hup : (s.ctl c).shutdown = false) (hlife : s'.life c = s.life c)
    (hsem : (s'.ctl c).quiescedSem = (s.ctl c).quiescedSem) (hun : s'.unwaited c = s.unwaited c) :
    Calm s' c := by
  have hopen : ¬(s.life c = .closing ∨ s.life c = .down) := by
    intro hl
    rw [(h.shut hl).1] at hup
    cases hup
  constructor
  · intro hl
    exact absurd (hlife ▸ hl) hopen
  · intro hl
    exact absurd (.inr (hlife ▸ hl)) hopen
  · intro hl
    exact absurd (.inl (hlife ▸ hl)) hopen
  · rw [hlife, hsem]
    exact h.sem
  · rw [hun, hlife]
    exact h.waited

theorem unwaited_congr (hw : s'.worker.awaits = s.worker.awaits) (hws : s'.waiters = s.waiters) :
    s'.unwaited c = s.unwaited c := by
  rw [Disp.unwaited, hw, hws, Disp.unwaited]

/-- `maybe_signal_quiesced` gives the semaphore only if both counters are at zero. -/
theorem maybeSignalQuiesced_sem {d : Ctl} (h : (maybeSignalQuiesced d).quiescedSem = some true) :
    d.executingCount = 0 ∨ d.quiescedSem = some true := by
  unfold maybeSignalQuiesced at h
  split at h
  · rename_i hcond
    simp only [Bool.and_eq_true, beq_iff_eq] at hcond
    exact .inl hcond.2
  · exact .inr h

@[simp] theorem maybeSignalQuiesced_isSome (d : Ctl) :
    (maybeSignalQuiesced d).quiescedSem.isSome = d.quiescedSem.isSome := by
  unfold maybeSignalQuiesced
  split <;> simp

theorem Calm.dropOutdated (h : Sound spiram s) (hw : s.worker = .received i)
    (hp : (s.item i).pendingOf c = true) (c' : κ) :
    Calm ((s.setCtl c (maybeSignalQuiesced
      { s.ctl c with pendingCount := (s.ctl c).pendingCount - 1 })).drop i) c' := by
  obtain ⟨hu, -, -, hctx⟩ := Item.pendingOf_iff.mp hp
  have hlt := lt_of_inUse hu
  have hun : ∀ c', Disp.unwaited ((s.setCtl c (maybeSignalQuiesced
      { s.ctl c with pendingCount := (s.ctl c).pendingCount - 1 })).drop i) c' = s.unwaited c' :=
    fun _ => unwaited_congr (by rw [hw]; rfl) rfl
  by_cases hc : c' = c
  · subst hc
    -- something is pending, so the connection is not being quiesced
    have hopen : ¬(s.life c' = .closing ∨ s.life c' = .down) := by
      intro hl
      have hpos := countP_pos hlt hp
      rw [((h.calm c').shut hl).2] at hpos
      exact absurd hpos (Nat.lt_irrefl 0)
    refine ⟨fun hl => absurd hl hopen, fun hl => absurd (.inr hl) hopen,
      fun hl => absurd (.inl hl) hopen, ?_, ?_⟩
    · intro hl
      simp only [Disp.drop, Disp.setCtl, Function.update_self, maybeSignalQuiesced_isSome]
      exact (h.calm c').sem hl
    · rw [hun]
      exact (h.calm c').waited
  · refine (h.calm c').of_same (Function.update_of_ne hc _ _) rfl (hun c') ?_ ?_
    · exact countP_set_of_false hlt (Item.pendingOf_ne hctx hc) rfl
    · exact countP_set_of_false hlt (Item.executingOf_of_pending hp c') rfl

theorem Calm.finish (h : Sound spiram s) (hw : s.worker = .running i c) (c' : κ) :
    Calm ((s.setCtl c (maybeSignalQuiesced
      { s.ctl c with executingCount := (s.ctl c).executingCount - 1 })).drop i) c' := by
  obtain ⟨he, hlife⟩ := h.serving_executingOf (c := c) (i := i) (by rw [hw]; rfl)
  obtain ⟨hu, hexec, hctx⟩ := Item.executingOf_iff.mp he
  have hlt := lt_of_inUse hu
  have hpos := countP_pos hlt he
  have hun : ∀ c', Disp.unwaited ((s.setCtl c (maybeSignalQuiesced
      { s.ctl c with executingCount := (s.ctl c).executingCount - 1 })).drop i) c' = s.unwaited c' :=
    fun _ => unwaited_congr (by rw [hw]; rfl) rfl
  have hpend : ∀ c', (s.pool.set i (s.item i).free).countP (Item.pendingOf c') =
      s.pool.countP (Item.pendingOf c') :=
    fun c' => countP_set_of_false hlt (Item.pendingOf_of_executing hexec) rfl
  by_cases hc : c' = c
  · subst hc
    have hcounted := (Counted.finish h hw).executing c' hlife
    simp only [Disp.drop, Disp.setCtl, Function.update_self,
      maybeSignalQuiesced_executingCount] at hcounted
    constructor
    · intro hl
      simp only [Disp.drop, Disp.setCtl, Function.update_self, maybeSignalQuiesced_shutdown]
      exact ⟨((h.calm c').shut hl).1, (hpend c').trans ((h.calm c').shut hl).2⟩
    · intro hl
      exact absurd ((h.calm c').done hl) (Nat.pos_iff_ne_zero.mp hpos)
    · intro hl hsem
      simp only [Disp.drop, Disp.setCtl, Function.update_self] at hsem ⊢
      rcases maybeSignalQuiesced_sem hsem with hzero | hgiven
      · exact hcounted.symm.trans (congrArg UInt8.toNat hzero)
      · exact absurd ((h.calm c').signalled hl hgiven) (Nat.pos_iff_ne_zero.mp hpos)
    · intro hl
      simp only [Disp.drop, Disp.setCtl, Function.update_self, maybeSignalQuiesced_isSome]
      exact (h.calm c').sem hl
    · rw [hun]
      exact (h.calm c').waited
  · refine (h.calm c').of_same (Function.update_of_ne hc _ _) rfl (hun c') (hpend c') ?_
    exact countP_set_of_false hlt (Item.executingOf_ne hctx hc) rfl

theorem Calm.move (h : Sound spiram s) (hm : Move s e s') (c' : κ) : Calm s' c' := by
  cases hm with
  | refuse c a => exact h.calm c'
  | fill c a i hlife hup hlt hfree =>
      by_cases hc : c' = c
      · subst hc
        exact (h.calm c').of_up hup rfl (by simp [Disp.setCtl]) rfl
      · refine (h.calm c').of_same (Function.update_of_ne hc _ _) rfl rfl ?_ ?_
        · exact countP_set_of_false hlt (by simp [Item.pendingOf, hfree]) (Item.pendingOf_ne rfl hc)
        · exact countP_set_of_false hlt (by simp [Item.executingOf, hfree]) rfl
  | receive i rest hw _ =>
      exact (h.calm c').of_same rfl rfl (unwaited_congr (by rw [hw]; rfl) rfl) rfl rfl
  | dropCancelled i hw hcan =>
      have hlt : i < s.pool.length := h.tidy.lt (by simp [Disp.held, hw, Worker.index])
      refine (h.calm c').of_same rfl rfl (unwaited_congr (by rw [hw]; rfl) rfl) ?_ ?_
      · exact countP_set_of_false hlt (by simp [Item.pendingOf, hcan]) rfl
      · exact countP_set_of_false hlt (h.tidy.not_executing (by rw [hw]; rfl) c' i) rfl
  | dropOutdated i c hw hp => exact Calm.dropOutdated h hw hp c'
  | claim i c hw hp hup =>
      have hun : Disp.unwaited { s with worker := .claimed i c } c' = s.unwaited c' :=
        unwaited_congr (by rw [hw]; rfl) rfl
      by_cases hc : c' = c
      · subst hc
        exact (h.calm c').of_up hup rfl (by simp [Disp.setCtl]) hun
      · obtain ⟨hu, -, -, hctx⟩ := Item.pendingOf_iff.mp hp
        refine (h.calm c').of_same (Function.update_of_ne hc _ _) rfl hun ?_ ?_
        · exact countP_set_of_false (lt_of_inUse hu) (Item.pendingOf_ne hctx hc)
            (Item.pendingOf_ne hctx hc)
        · exact countP_set_of_false (lt_of_inUse hu) (Item.executingOf_ne hctx hc)
            (Item.executingOf_ne hctx hc)
  | invoke i c hw =>
      exact (h.calm c').of_same rfl rfl (unwaited_congr (by rw [hw]; rfl) rfl) rfl rfl
  | finish i c hw => exact Calm.finish h hw c'
  | quiesced e c w _ hlife he =>
      by_cases hc : c' = c
      · subst hc
        have hl : ((s.quiet c').setLife c' .down).life c' = .down := Function.update_self ..
        have hzero : ((s.quiet c').setLife c' .down).pool.countP (Item.executingOf c') = 0 :=
          (countP_quiet_executingOf s c' c').trans
            ((h.counted.executing c' hlife).symm.trans (congrArg UInt8.toNat he))
        refine ⟨fun _ => ⟨?_, countP_quiet_pendingOf s c'⟩, fun _ => hzero, fun _ _ => hzero, ?_,
          fun _ => .inr hl⟩
        · simp [Disp.setLife, Disp.quiet, Disp.setCtl]
        · rw [hl]
          simp
      · exact (h.calm c').of_same (Function.update_of_ne hc _ _) (Function.update_of_ne hc _ _) rfl
          (countP_quiet_pendingOf_ne s hc) (countP_quiet_executingOf s c c')
  | wait e c w ws _ hlife hsem hun =>
      by_cases hc : c' = c
      · subst hc
        refine ⟨fun _ => ⟨?_, countP_quiet_pendingOf s c'⟩, ?_, ?_, ?_, fun _ => .inl ?_⟩
        · simp [Disp.setLife, Disp.quiet, Disp.setCtl, Disp.takeSem]
        · simp [Disp.setLife]
        · simp [Disp.setLife, Disp.quiet, Disp.setCtl, Disp.takeSem]
        · intro _
          simpa [Disp.setLife, Disp.quiet, Disp.setCtl, Disp.takeSem] using hsem
        · exact Function.update_self ..
      · refine (h.calm c').of_same ?_ (Function.update_of_ne hc _ _) (hun c' hc)
          (countP_quiet_pendingOf_ne s hc) (countP_quiet_executingOf s c c')
        simp [Disp.setLife, Disp.quiet, Disp.setCtl, Disp.takeSem, hc]
  | wake e c w ws _ hsem hwaits hun =>
      by_cases hc : c' = c
      · subst hc
        have hlife := (h.calm c').waited hwaits
        have hzero : s.pool.countP (Item.executingOf c') = 0 := by
          rcases hlife with hl | hl
          · exact (h.calm c').signalled hl hsem
          · exact (h.calm c').done hl
        refine ⟨fun _ => ⟨?_, ((h.calm c').shut hlife).2⟩, fun _ => hzero, fun _ _ => hzero, ?_,
          fun _ => .inr (Function.update_self ..)⟩
        · simpa [Disp.setLife, Disp.setCtl, Disp.takeSem] using ((h.calm c').shut hlife).1
        · simp [Disp.setLife]
      · exact (h.calm c').of_same (Function.update_of_ne hc _ _) (Function.update_of_ne hc _ _)
          (hun c' hc) rfl rfl
  | deleteSem c hlife =>
      by_cases hc : c' = c
      · subst hc
        refine ⟨fun hl => ⟨?_, ((h.calm c').shut hl).2⟩, (h.calm c').done, ?_, ?_, fun _ => .inr hlife⟩
        · simpa [Disp.setCtl] using ((h.calm c').shut hl).1
        · simp [Disp.setCtl]
        · intro hl
          simp [Disp.setCtl, hlife] at hl
      · exact (h.calm c').of_same (Function.update_of_ne hc _ _) rfl rfl rfl rfl
  | initClear c hlife =>
      by_cases hc : c' = c
      · subst hc
        refine ⟨?_, ?_, ?_, ?_, ?_⟩
        iterate 4 simp [Disp.setLife]
        intro hun
        rcases hlife with hl | ⟨-, hun'⟩
        · have := (h.calm c').waited hun
          simp [hl] at this
        · have hun'' : s.unwaited c' = false := hun
          rw [hun'] at hun''
          cases hun''
      · exact (h.calm c').of_same (Function.update_of_ne hc _ _) (Function.update_of_ne hc _ _) rfl
          rfl rfl
  | initReady c hlife =>
      by_cases hc : c' = c
      · subst hc
        refine ⟨?_, ?_, ?_, ?_, ?_⟩
        iterate 3 simp [Disp.setLife]
        · simp [Disp.setLife, Disp.setCtl]
        · intro hun
          have := (h.calm c').waited hun
          simp [hlife] at this
      · exact (h.calm c').of_same (Function.update_of_ne hc _ _) (Function.update_of_ne hc _ _) rfl
          rfl rfl

end CalmMoves

end EspAx25.Dispatcher
