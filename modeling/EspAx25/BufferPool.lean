import EspAx25.Tally
import EspAx25.Transition
import EspAx25.Types

/-!
# EspAx25.BufferPool

The buffer pool (`ax25_buffer.c`), used by any number of tasks.

A counting semaphore counts the free buffers, and a mutex guards their `in_use` flags;
what a task does under the mutex is one step. An allocation takes the semaphore first
and then a buffer, a `free` clears the buffer first and then gives the semaphore, so the
count lags behind the flags by the tasks that are between the two.

Nothing looks at the array beyond `pool_size`, which is therefore its length here, and
nothing here looks at the data of a buffer.
-/

namespace EspAx25.BufferPool

open Transition Tally

/-- `ax25_buffer_t`. -/
structure Buffer where
  len : Nat := 0
  inUse : Bool := false
  deriving Repr, DecidableEq

/-- Where a task is: in none of the functions; in `ax25_buffer_alloc` with the semaphore taken,
or without a buffer after the scan; or in `ax25_buffer_free` with a buffer cleared. -/
inductive Place
  | outside
  | taken
  | inconsistent
  | cleared
  deriving Repr, DecidableEq

/-- What a task got from `ax25_buffer_alloc`, and what it freed. -/
inductive Event (n : Nat)
  | allocated (buffer : Fin n)
  | freed (buffer : Fin n)
  deriving Repr, DecidableEq

variable {n : Nat} {τ : Type}

/-- `ax25_buffer_pool_t` with `n` buffers, the tasks that use it, and what they got and freed,
the newest event first. -/
structure Pool (n : Nat) (τ : Type) where
  buffers : Fin n → Buffer
  available : Nat
  place : τ → Place
  log : List (Event n)

/-- `ax25_buffer_pool_init`. `maxSize` is `AX25_BUFFER_POOL_MAX_SIZE`. -/
def poolInit (maxSize poolSize : Nat) (τ : Type) : Except EspErr (Pool poolSize τ) :=
  if poolSize = 0 then .error .invalidArg
  else if poolSize > maxSize then .error .invalidArg
  else .ok ⟨fun _ => {}, poolSize, fun _ => .outside, []⟩

/-- The step of a task. The index of `free` is `buffer - pool->buffers`. -/
inductive Op (τ : Type)
  | take (t : τ)
  | timeout (t : τ)
  | scan (t : τ)
  | free (t : τ) (index : Int)
  | give (t : τ)

/-- `xSemaphoreGive(pool->available)`, which does not count beyond `n`. -/
def giveSemaphore (available n : Nat) : Nat := if available < n then available + 1 else available

/-- The loop of `ax25_buffer_alloc`. -/
def findFree (p : Pool n τ) : Option (Fin n) :=
  (List.finRange n).find? fun i => !(p.buffers i).inUse

theorem findFree_some {p : Pool n τ} {i : Fin n} (h : findFree p = some i) :
    (p.buffers i).inUse = false := by
  simpa using List.find?_some h

theorem findFree_none {p : Pool n τ} (h : findFree p = none) (i : Fin n) :
    (p.buffers i).inUse = true := by
  simpa using List.find?_eq_none.mp h i (List.mem_finRange i)

section Steps

variable [DecidableEq τ]

/-- `ax25_buffer_alloc` under the mutex. -/
def scan (p : Pool n τ) (t : τ) : Pool n τ :=
  match findFree p with
  | some i =>
    { p with
      buffers := Function.update p.buffers i { len := 0, inUse := true }
      place := Function.update p.place t .outside
      log := .allocated i :: p.log }
  | none => { p with place := Function.update p.place t .inconsistent }

/-- `ax25_buffer_free` up to its giving the semaphore. -/
def free (p : Pool n τ) (t : τ) (index : Int) : Pool n τ :=
  if index < 0 then p
  else if h : index.toNat < n then
    if (p.buffers ⟨index.toNat, h⟩).inUse then
      { p with
        buffers := Function.update p.buffers ⟨index.toNat, h⟩ { len := 0, inUse := false }
        place := Function.update p.place t .cleared
        log := .freed ⟨index.toNat, h⟩ :: p.log }
    else p
  else p

/-- One step. -/
def step (p : Pool n τ) : Op τ → Option (Pool n τ)
  | .take t =>
    if p.place t = .outside ∧ 0 < p.available then
      some { p with
        available := p.available - 1
        place := Function.update p.place t .taken }
    else none
  | .timeout t => if p.place t = .outside ∧ p.available = 0 then some p else none
  | .scan t => if p.place t = .taken then some (scan p t) else none
  | .free t index => if p.place t = .outside then some (free p t index) else none
  | .give t =>
    if p.place t = .inconsistent ∨ p.place t = .cleared then
      some { p with
        available := giveSemaphore p.available n
        place := Function.update p.place t .outside }
    else none

/-- What a step can do. -/
inductive PoolStep (p : Pool n τ) : Op τ → Pool n τ → Prop
  | take {t : τ} : p.place t = .outside → 0 < p.available → PoolStep p (.take t) { p with
      available := p.available - 1
      place := Function.update p.place t .taken }
  | found {t : τ} {i : Fin n} : p.place t = .taken → findFree p = some i →
      (p.buffers i).inUse = false → PoolStep p (.scan t) { p with
        buffers := Function.update p.buffers i { len := 0, inUse := true }
        place := Function.update p.place t .outside
        log := .allocated i :: p.log }
  | notFound {t : τ} : p.place t = .taken → (∀ i, (p.buffers i).inUse = true) →
      PoolStep p (.scan t) { p with place := Function.update p.place t .inconsistent }
  | clear {t : τ} {i : Fin n} : p.place t = .outside → (p.buffers i).inUse = true →
      PoolStep p (.free t i.val) { p with
        buffers := Function.update p.buffers i { len := 0, inUse := false }
        place := Function.update p.place t .cleared
        log := .freed i :: p.log }
  | give {t : τ} : p.place t = .inconsistent ∨ p.place t = .cleared →
      PoolStep p (.give t) { p with
        available := giveSemaphore p.available n
        place := Function.update p.place t .outside }
  | stay (op : Op τ) : PoolStep p op p

/-- A `free` of a buffer that is not in the pool, or not in use, changes nothing. -/
theorem free_cases (p : Pool n τ) (t : τ) (index : Int) :
    (∃ i : Fin n, index = i.val ∧ (p.buffers i).inUse = true ∧ free p t index = { p with
        buffers := Function.update p.buffers i { len := 0, inUse := false }
        place := Function.update p.place t .cleared
        log := .freed i :: p.log }) ∨
      (∀ i : Fin n, index = i.val → (p.buffers i).inUse = false) ∧ free p t index = p := by
  unfold free
  split_ifs with hneg hlt huse
  · exact .inr ⟨fun i hi => by omega, rfl⟩
  · exact .inl ⟨⟨index.toNat, hlt⟩, by simp only; omega, huse, rfl⟩
  · refine .inr ⟨fun i hi => ?_, rfl⟩
    have hi' : i = ⟨index.toNat, hlt⟩ := Fin.ext (by simp only; omega)
    rw [hi']
    simpa using huse
  · exact .inr ⟨fun i hi => by have := i.isLt; omega, rfl⟩

theorem step_cases {p p' : Pool n τ} {op : Op τ} (h : step p op = some p') : PoolStep p op p' := by
  cases op with
  | take t =>
      dsimp only [step] at h
      split_ifs at h with hgo
      cases h
      exact .take hgo.1 hgo.2
  | timeout t =>
      dsimp only [step] at h
      split_ifs at h
      cases h
      exact .stay _
  | scan t =>
      dsimp only [step] at h
      split_ifs at h with hgo
      cases h
      unfold scan
      cases hfind : findFree p with
      | some i => exact .found hgo hfind (findFree_some hfind)
      | none => exact .notFound hgo (findFree_none hfind)
  | free t index =>
      dsimp only [step] at h
      split_ifs at h with hgo
      cases h
      obtain ⟨i, rfl, huse, hfree⟩ | ⟨-, hfree⟩ := free_cases p t index
      · rw [hfree]
        exact .clear hgo huse
      · rw [hfree]
        exact .stay _
  | give t =>
      dsimp only [step] at h
      split_ifs at h with hgo
      cases h
      exact .give hgo

end Steps

/-! ### Who has which buffer -/

/-- The last event about the buffer is its allocation. -/
def held : List (Event n) → Fin n → Bool
  | [], _ => false
  | .allocated i :: log, j => i = j || held log j
  | .freed i :: log, j => i ≠ j && held log j

/-- No buffer is allocated that is held already. -/
def NeverTwice : List (Event n) → Prop
  | [] => True
  | .allocated i :: log => held log i = false ∧ NeverTwice log
  | .freed _ :: log => NeverTwice log

theorem held_of_not_freed {between older : List (Event n)} {i : Fin n}
    (h : .freed i ∉ between) : held (between ++ .allocated i :: older) i = true := by
  induction between with
  | nil => simp [held]
  | cons e between ih =>
      rw [List.mem_cons, not_or] at h
      have hrest := ih h.2
      cases e with
      | allocated j => simp [held, hrest]
      | freed j =>
          have hne : j ≠ i := fun heq => h.1 (by rw [heq])
          simp [held, hrest, hne]

/-- Between two allocations of a buffer it is freed. -/
theorem NeverTwice.freed_between {newer between older : List (Event n)} {i : Fin n}
    (h : NeverTwice (newer ++ .allocated i :: (between ++ .allocated i :: older))) :
    .freed i ∈ between := by
  induction newer with
  | nil =>
      by_contra hnot
      have hheld := h.1
      rw [held_of_not_freed hnot] at hheld
      cases hheld
  | cons e newer ih =>
      cases e with
      | allocated j => exact ih h.2
      | freed j => exact ih h

/-! ### The invariant -/

/-- The buffers that are not in use. -/
def unused (p : Pool n τ) : Nat := places (fun b : Buffer => b.inUse = false) p.buffers

theorem unused_le (p : Pool n τ) : unused p ≤ n := by
  have h := places_le (fun b : Buffer => b.inUse = false) p.buffers
  rwa [Fintype.card_fin] at h

variable [Fintype τ]

/-- The tasks at a place. -/
def tasksAt (x : Place) (p : Pool n τ) : Nat := places (· = x) p.place

/-- What holds in every run. -/
structure PoolOk (p : Pool n τ) : Prop where
  conserved : p.available + tasksAt .taken p + tasksAt .cleared p = unused p
  consistent : ∀ t, p.place t ≠ .inconsistent
  held : ∀ i, (p.buffers i).inUse = held p.log i
  once : NeverTwice p.log

/-- A task that has taken the semaphore finds a buffer. -/
theorem PoolOk.unused_of_taken {p : Pool n τ} (h : PoolOk p) {t : τ} (ht : p.place t = .taken) :
    ∃ i, (p.buffers i).inUse = false := by
  have hpos : 0 < tasksAt .taken p := (places_pos (· = Place.taken)).mpr ⟨t, ht⟩
  have hconserved := h.conserved
  exact (places_pos fun b : Buffer => b.inUse = false).mp (by unfold unused at hconserved; omega)

theorem PoolOk.findFree {p : Pool n τ} (h : PoolOk p) {t : τ} (ht : p.place t = .taken) :
    ∃ i, findFree p = some i := by
  obtain ⟨i, hi⟩ := h.unused_of_taken ht
  cases hfind : BufferPool.findFree p with
  | some j => exact ⟨j, rfl⟩
  | none =>
      rw [findFree_none hfind i] at hi
      cases hi

theorem PoolOk.available_le {p : Pool n τ} (h : PoolOk p) : p.available ≤ n := by
  have := h.conserved
  have := unused_le p
  omega

theorem poolOk_init {maxSize : Nat} {p : Pool n τ} (h : poolInit maxSize n τ = .ok p) :
    PoolOk p := by
  unfold poolInit at h
  split_ifs at h
  cases h
  have hnone : ∀ x : Place, x ≠ .outside → places (· = x) (fun _ : τ => Place.outside) = 0 := by
    intro x hx
    by_contra hpos
    obtain ⟨t, ht⟩ := (places_pos (· = x)).mp (Nat.pos_of_ne_zero hpos)
    exact hx ht.symm
  have hall : places (fun b : Buffer => b.inUse = false) (fun _ : Fin n => ({} : Buffer)) = n := by
    unfold places
    rw [Finset.filter_true_of_mem fun _ _ => rfl, Finset.card_univ, Fintype.card_fin]
  refine ⟨?_, fun t h => (by cases h), fun i => rfl, trivial⟩
  change n + places (· = Place.taken) _ + places (· = Place.cleared) _ =
    places (fun b : Buffer => b.inUse = false) (fun _ : Fin n => ({} : Buffer))
  rw [hnone _ (fun h => by cases h), hnone _ (fun h => by cases h), hall]
  rfl

variable [DecidableEq τ]

/-- A task has gone from one place to another. -/
theorem tasksAt_update (x : Place) (p : Pool n τ) (t : τ) (y : Place) :
    places (· = x) (Function.update p.place t y) + (if p.place t = x then 1 else 0) =
      tasksAt x p + if y = x then 1 else 0 := places_update (· = x) p.place t y

theorem consistent_update {p : Pool n τ} (h : PoolOk p) (t : τ) {y : Place}
    (hy : y ≠ .inconsistent) (u : τ) : Function.update p.place t y u ≠ .inconsistent := by
  by_cases hu : u = t
  · rw [hu, Function.update_self]
    exact hy
  · rw [Function.update_of_ne hu]
    exact h.consistent u

theorem poolOk_step {p p' : Pool n τ} {op : Op τ} (hi : PoolOk p) (hs : step p op = some p') :
    PoolOk p' := by
  have hconserved := hi.conserved
  cases step_cases hs with
  | @take t ht hpos =>
      have htaken := tasksAt_update .taken p t .taken
      have hcleared := tasksAt_update .cleared p t .taken
      rw [ht] at htaken hcleared
      simp only [reduceCtorEq, if_false, if_true] at htaken hcleared
      refine ⟨?_, consistent_update hi t (fun h => by cases h), hi.held, hi.once⟩
      simp only [tasksAt, unused] at htaken hcleared hconserved ⊢
      omega
  | @found t i ht hfind hfree =>
      have htaken := tasksAt_update .taken p t .outside
      have hcleared := tasksAt_update .cleared p t .outside
      have hunused := places_update (fun b : Buffer => b.inUse = false) p.buffers i
        { len := 0, inUse := true }
      rw [ht] at htaken hcleared
      rw [hfree] at hunused
      simp only [reduceCtorEq, if_false, if_true] at htaken hcleared hunused
      have hheld : held p.log i = false := by rw [← hi.held i, hfree]
      refine ⟨?_, consistent_update hi t (fun h => by cases h), fun j => ?_, ⟨hheld, hi.once⟩⟩
      · simp only [tasksAt, unused] at htaken hcleared hunused hconserved ⊢
        omega
      · by_cases hj : j = i
        · simp [hj, BufferPool.held]
        · simp [Function.update_of_ne hj, BufferPool.held, hi.held j, Ne.symm hj]
  | @notFound t ht hfull =>
      obtain ⟨i, hfree⟩ := hi.unused_of_taken ht
      rw [hfull i] at hfree
      cases hfree
  | @clear t i ht huse =>
      have htaken := tasksAt_update .taken p t .cleared
      have hcleared := tasksAt_update .cleared p t .cleared
      have hunused := places_update (fun b : Buffer => b.inUse = false) p.buffers i
        { len := 0, inUse := false }
      rw [ht] at htaken hcleared
      rw [huse] at hunused
      simp only [reduceCtorEq, if_false, if_true] at htaken hcleared hunused
      refine ⟨?_, consistent_update hi t (fun h => by cases h), fun j => ?_, hi.once⟩
      · simp only [tasksAt, unused] at htaken hcleared hunused hconserved ⊢
        omega
      · by_cases hj : j = i
        · simp [hj, BufferPool.held]
        · simp [Function.update_of_ne hj, BufferPool.held, hi.held j, Ne.symm hj]
  | @give t ht =>
      have ht : p.place t = .cleared := ht.resolve_left (hi.consistent t)
      have htaken := tasksAt_update .taken p t .outside
      have hcleared := tasksAt_update .cleared p t .outside
      rw [ht] at htaken hcleared
      simp only [reduceCtorEq, if_false, if_true] at htaken hcleared
      refine ⟨?_, consistent_update hi t (fun h => by cases h), hi.held, hi.once⟩
      have hle := unused_le p
      have hgive : giveSemaphore p.available n = p.available + 1 := if_pos (by omega)
      simp only [tasksAt, unused, hgive] at htaken hcleared hconserved ⊢
      omega
  | stay => exact hi

/-- In every run of any tasks on a pool: the count of the semaphore, the tasks that have taken
it and not scanned yet, and those that have cleared a buffer and not given it yet, are
together the buffers not in use; a buffer that is allocated twice is freed in between; a
scan finds a buffer; a `free` of what is not in the pool, or not in use, changes nothing;
and the count never exceeds the size of the pool. -/
theorem pool_conserved {maxSize : Nat} {p₀ p : Pool n τ} (hinit : poolInit maxSize n τ = .ok p₀)
    (h : Reach (· = p₀) step Always p) :
    p.available + tasksAt .taken p + tasksAt .cleared p = unused p ∧
    (∀ i newer between older,
      p.log = newer ++ .allocated i :: (between ++ .allocated i :: older) → .freed i ∈ between) ∧
    (∀ t, p.place t ≠ .inconsistent ∧ (p.place t = .taken → ∃ i, findFree p = some i)) ∧
    (∀ t (index : Int), (∀ i : Fin n, index = i.val → (p.buffers i).inUse = false) →
      free p t index = p) ∧
    p.available ≤ n := by
  have hi : PoolOk p := h.invariant (fun p hp => hp ▸ poolOk_init hinit)
    fun p op p' hi _ hs => poolOk_step hi hs
  refine ⟨hi.conserved, fun i newer between older hlog => ?_,
    fun t => ⟨hi.consistent t, hi.findFree⟩, fun t index hnot => ?_, hi.available_le⟩
  · have honce := hi.once
    rw [hlog] at honce
    exact honce.freed_between
  · obtain ⟨i, hidx, huse, -⟩ | ⟨-, hsame⟩ := free_cases p t index
    · rw [hnot i hidx] at huse
      cases huse
    · exact hsame

/-- Two tasks and two buffers: one task has taken the semaphore and not scanned yet. -/
theorem pool_conserved_taken :
    ∃ p : Pool 2 Bool, p.place true = .taken ∧ p.available = 1 ∧
      p.available + tasksAt .taken p + tasksAt .cleared p = unused p := by
  have hinit : poolInit 16 2 Bool = .ok ⟨fun _ => {}, 2, fun _ => .outside, []⟩ := rfl
  have hreach : Reach (· = (⟨fun _ => {}, 2, fun _ => .outside, []⟩ : Pool 2 Bool)) step Always
      ⟨fun _ => {}, 1, Function.update (fun _ => .outside) true .taken, []⟩ :=
    .next (.take true) (.start rfl) trivial rfl
  exact ⟨_, rfl, rfl, (pool_conserved hinit hreach).1⟩

end EspAx25.BufferPool
