import EspAx25.Tally
import EspAx25.Transition

/-!
# EspAx25.Agwpe.Manager

The manager of AGWPE clients (`s_manager` of `ax25_agwpe_server.c`), shared by the tasks
that add and remove clients, the task that takes the manager down, the router's callbacks
and the entry points of the clients.

* `n` is `AX25_AGWPE_SERVER_MAX_CLIENTS`, and `π` are the addresses of the clients. `id`
  tells apart the clients that have had one address after the other.
* The sections under `s_manager.mutex` are single steps, and so is everything that a task
  does between two of them: the other tasks see nothing of it but the memory that it frees.
* What a task holds in its local variables is kept by what it is, not by the task: the
  clients that wait for their place in the table, the targets of the dispatches in
  progress, the clients that have to be deinitialised and freed, and those that an entry
  point has looked up.
* `deinits`, `frees`, `removed` and `usedAfterFree` are not in the source. They record what
  has happened to the clients.
-/

namespace EspAx25.Manager

open Tally Transition

/-- `ax25_agwpe_server_t *`. -/
structure Client (π : Type) where
  ptr : π
  id : Nat
  deriving DecidableEq

/-- `manager_dispatch_target_t`. -/
structure Target (n : Nat) (π : Type) where
  client : Client π
  idx : Fin n
  deriving DecidableEq

/-- How far `ax25_agwpe_server_manager_deinit` has come. -/
inductive Phase
  | running
  /-- The router port has been removed. -/
  | deiniting
  /-- The last round has left no `pending_refs`. -/
  | drained
  /-- `s_manager` has been set to zero. -/
  | ended
  deriving Repr, DecidableEq

structure State (n : Nat) (π : Type) where
  clients : Fin n → Option (Client π)
  clientRefcnt : Fin n → UInt16
  clientPendingRemove : Fin n → Bool
  phase : Phase
  /-- The callbacks of the router that have seen `s_manager.initialized`, and have not
  collected their targets. -/
  callbacks : Nat
  /-- The targets that each dispatch in progress still holds. -/
  dispatches : List (List (Target n π))
  /-- In `ax25_agwpe_server_add_client`, before the mutex is taken. -/
  adding : List (Client π)
  /-- `to_free` of any task, before `ax25_agwpe_server_deinit`. -/
  toFree : List (Client π)
  /-- `to_free` of any task, before `free`. -/
  deinited : List (Client π)
  /-- The clients that an entry point has looked up, and works on. -/
  lookedUp : List (Client π)
  allocated : Nat
  deinits : Nat → Nat
  frees : Nat → Nat
  /-- The clients that `ax25_agwpe_server_remove_client` has found. -/
  removed : List Nat
  usedAfterFree : Bool

inductive Event (n : Nat) (π : Type)
  /-- `ax25_agwpe_server_add_client` has allocated and initialised a client. -/
  | add (p : π)
  | place (c : Client π)
  /-- `ax25_agwpe_server_remove_client`. -/
  | remove (p : π)
  /-- The router calls `manager_router_on_frame`. -/
  | callback
  | collect
  /-- A dispatch is done with its next target. -/
  | release (t : Target n π) (ts : List (Target n π))
  /-- `ax25_router_remove_port` of `ax25_agwpe_server_manager_deinit`. -/
  | deinitStart
  | deinitRound
  | deinitEnd
  /-- `ax25_agwpe_server_deinit(to_free)`. -/
  | deinit (c : Client π)
  | free (c : Client π)
  /-- An entry point of a client looks up its argument. -/
  | lookUp (p : π)
  /-- It works on the client. -/
  | operate (c : Client π)
  | leave (c : Client π)

variable {n : Nat} {π : Type}

namespace State

/-- After `ax25_agwpe_server_manager_init`. -/
def init : State n π :=
  { clients := fun _ => none, clientRefcnt := fun _ => 0, clientPendingRemove := fun _ => false
    phase := .running, callbacks := 0, dispatches := [], adding := [], toFree := []
    deinited := [], lookedUp := [], allocated := 0, deinits := fun _ => 0, frees := fun _ => 0
    removed := [], usedAfterFree := false }

/-- The clients whose memory has not been freed. -/
def live (s : State n π) : List (Client π) :=
  s.adding ++ (entries s.clients ++ (s.toFree ++ s.deinited))

/-- `client->initialized`. -/
def initialized (s : State n π) (c : Client π) : Bool := s.deinits c.id == 0

/-- The client of slot `i` is taken out of the table, to be freed. -/
def takeOut (s : State n π) (i : Fin n) (c : Client π) : State n π :=
  { s with
    clients := Function.update s.clients i none
    clientPendingRemove := Function.update s.clientPendingRemove i false
    toFree := c :: s.toFree }

/-- The target that `manager_router_on_frame` finds in slot `i`. -/
def target (s : State n π) (i : Fin n) : Option (Target n π) :=
  match s.clients i with
  | some c => if s.initialized c ∧ s.clientPendingRemove i = false then some ⟨c, i⟩ else none
  | none => none

/-- The section that collects the targets of a dispatch. -/
def collect (s : State n π) : State n π :=
  { s with
    callbacks := s.callbacks - 1
    clientRefcnt := fun i =>
      if (s.target i).isSome then s.clientRefcnt i + 1 else s.clientRefcnt i
    dispatches := (List.finRange n).filterMap s.target :: s.dispatches }

/-- A round of `ax25_agwpe_server_manager_deinit`. -/
def deinitRound (s : State n π) : State n π :=
  let pendingRefs := ∃ i, (s.clients i).isSome ∧ s.clientRefcnt i ≠ 0
  { s with
    clients := fun i => if s.clientRefcnt i = 0 then none else s.clients i
    clientPendingRemove := fun i =>
      if (s.clients i).isSome then s.clientRefcnt i != 0 else s.clientPendingRemove i
    toFree := (List.finRange n).filterMap (fun i =>
      if s.clientRefcnt i = 0 then s.clients i else none) ++ s.toFree
    phase := if pendingRefs then .deiniting else .drained }

section

variable [DecidableEq π]

/-- The slot whose client is at `p`. -/
def find (s : State n π) (p : π) : Option (Fin n × Client π) :=
  (List.finRange n).findSome? fun i =>
    match s.clients i with
    | some c => if c.ptr = p then some (i, c) else none
    | none => none

/-- The client that `manager_has_client_nolock` finds. -/
def hasClient (s : State n π) (p : π) : Option (Client π) :=
  (List.finRange n).findSome? fun i =>
    match s.clients i with
    | some c => if c.ptr = p ∧ s.clientPendingRemove i = false then some c else none
    | none => none

/-- The section of `ax25_agwpe_server_add_client`. -/
def place (s : State n π) (c : Client π) : State n π :=
  let s := { s with adding := s.adding.erase c }
  match (List.finRange n).find? (fun i => (s.clients i).isNone) with
  | some i =>
    { s with
      clients := Function.update s.clients i (some c)
      clientRefcnt := Function.update s.clientRefcnt i 0
      clientPendingRemove := Function.update s.clientPendingRemove i false }
  | none => { s with toFree := c :: s.toFree }

/-- The section of `ax25_agwpe_server_remove_client`. -/
def remove (s : State n π) (p : π) : State n π :=
  match s.find p with
  | none => s
  | some (i, c) =>
    let s :=
      { s with
        clientPendingRemove := Function.update s.clientPendingRemove i true
        removed := c.id :: s.removed }
    if s.clientRefcnt i = 0 then s.takeOut i c else s

/-- The section that follows `ax25_agwpe_server_ax25_in` of a dispatch. -/
def release (s : State n π) (t : Target n π) (ts : List (Target n π)) : State n π :=
  let refcnt :=
    if 0 < s.clientRefcnt t.idx then s.clientRefcnt t.idx - 1 else s.clientRefcnt t.idx
  let s :=
    { s with
      dispatches := ts :: s.dispatches.erase (t :: ts)
      clientRefcnt := Function.update s.clientRefcnt t.idx refcnt }
  match s.clients t.idx with
  | some c =>
    if refcnt = 0 ∧ s.clientPendingRemove t.idx = true ∧ c.ptr = t.client.ptr then
      s.takeOut t.idx c
    else s
  | none => s

end

end State

def step [DecidableEq π] (s : State n π) : Event n π → Option (State n π)
  | .add p =>
    -- the address of a new client is in use by no other one
    if s.phase = .running ∧ ∀ c ∈ s.live, c.ptr ≠ p then
      some { s with adding := ⟨p, s.allocated⟩ :: s.adding, allocated := s.allocated + 1 }
    else none
  | .place c => if s.phase = .running ∧ c ∈ s.adding then some (s.place c) else none
  | .remove p => if s.phase = .running then some (s.remove p) else none
  | .callback =>
    if s.phase = .running then some { s with callbacks := s.callbacks + 1 } else none
  | .collect => if 0 < s.callbacks then some s.collect else none
  | .release t ts => if t :: ts ∈ s.dispatches then some (s.release t ts) else none
  | .deinitStart =>
    if s.phase = .running ∧ s.adding = [] then some { s with phase := .deiniting } else none
  | .deinitRound => if s.phase = .deiniting then some s.deinitRound else none
  | .deinitEnd =>
    if s.phase = .drained then
      some { s with
        clients := fun _ => none, clientRefcnt := fun _ => 0
        clientPendingRemove := fun _ => false, phase := .ended }
    else none
  | .deinit c =>
    if c ∈ s.toFree then
      some { s with
        toFree := s.toFree.erase c, deinited := c :: s.deinited
        deinits := Function.update s.deinits c.id (s.deinits c.id + 1) }
    else none
  | .free c =>
    if c ∈ s.deinited then
      some { s with
        deinited := s.deinited.erase c
        frees := Function.update s.frees c.id (s.frees c.id + 1) }
    else none
  | .lookUp p =>
    if s.phase = .ended then some s
    else
      match s.hasClient p with
      | some c => some { s with lookedUp := c :: s.lookedUp }
      | none => some s
  | .operate c =>
    if c ∈ s.lookedUp then
      some { s with usedAfterFree := s.usedAfterFree || decide (0 < s.frees c.id) }
    else none
  | .leave c => if c ∈ s.lookedUp then some { s with lookedUp := s.lookedUp.erase c } else none

/-- The manager has just been initialised. -/
def IsInit (s : State n π) : Prop := s = State.init

/-! ### Every client is in one place -/

/-- One, if the client `x` has been allocated. -/
def owed (allocated x : Nat) : Nat := if x < allocated then 1 else 0

theorem owed_le_one (allocated x : Nat) : owed allocated x ≤ 1 := by
  unfold owed
  split_ifs <;> decide

theorem owed_succ (allocated x : Nat) :
    owed (allocated + 1) x = owed allocated x + if allocated = x then 1 else 0 := by
  unfold owed
  split_ifs <;> omega

/-- Every client that has been allocated is live in one place, or has been freed once. -/
structure Conserved (s : State n π) : Prop where
  once : ∀ x, count Client.id x s.live + s.frees x = owed s.allocated x
  deinits : ∀ x, s.deinits x = count Client.id x s.deinited + s.frees x
  drained : s.phase = .drained ∨ s.phase = .ended → ∀ i, s.clients i = none

theorem count_live (s : State n π) (x : Nat) :
    count Client.id x s.live =
      count Client.id x s.adding + (count Client.id x (entries s.clients) +
        (count Client.id x s.toFree + count Client.id x s.deinited)) := by
  unfold State.live
  rw [count_append, count_append, count_append]

/-- A client in the table is nowhere else. -/
theorem Conserved.of_table {s : State n π} (h : Conserved s) {i : Fin n} {c : Client π}
    (hi : s.clients i = some c) :
    c.id < s.allocated ∧ count Client.id c.id (entries s.clients) = 1 ∧
      count Client.id c.id s.adding = 0 ∧ count Client.id c.id s.toFree = 0 ∧
      s.deinits c.id = 0 ∧ s.frees c.id = 0 := by
  have hpos : 0 < count Client.id c.id (entries s.clients) :=
    count_pos Client.id (mem_entries.2 ⟨i, hi⟩)
  have honce := h.once c.id
  have howed := owed_le_one s.allocated c.id
  have hdeinits := h.deinits c.id
  rw [count_live] at honce
  refine ⟨?_, by omega, by omega, by omega, by omega, by omega⟩
  by_contra hge
  rw [owed, if_neg hge] at honce
  omega

theorem conserved_init {s : State n π} (h : IsInit s) : Conserved s := by
  subst h
  refine ⟨fun x => ?_, fun x => rfl, fun h => ?_⟩
  · rw [count_live]
    simp [State.init, entries, owed]
  · simp [State.init] at h

/-- A section that takes the client of slot `j` out of the table leaves the others. -/
theorem takeOut_cases {s : State n π} {i j : Fin n} {c : Client π} {out : Client π → Prop}
    (hj : s.clients j = some c) (hout : out c) :
    Function.update s.clients j none i = s.clients i ∨ s.clients i = none ∨
      ∃ d, s.clients i = some d ∧ Function.update s.clients j none i = none ∧ out d := by
  by_cases hij : i = j
  · subst hij
    exact .inr (.inr ⟨c, hj, Function.update_self i none s.clients, hout⟩)
  · exact .inl (Function.update_of_ne hij none s.clients)

theorem Conserved.takeOut {s : State n π} (h : Conserved s) {i : Fin n} {c : Client π}
    (hi : s.clients i = some c) : Conserved (s.takeOut i c) := by
  refine ⟨fun x => ?_, h.deinits, fun hphase => ?_⟩
  · have honce := h.once x
    have hout := count_entries_clear Client.id x hi
    rw [count_live] at honce ⊢
    dsimp only [State.takeOut]
    rw [count_cons]
    omega
  · rw [h.drained hphase i] at hi
    cases hi

theorem Conserved.deinitRound {s : State n π} (h : Conserved s) : Conserved s.deinitRound := by
  refine ⟨fun x => ?_, h.deinits, fun hphase i => ?_⟩
  · have honce := h.once x
    have hsplit := count_entries_split Client.id x s.clients (fun i => s.clientRefcnt i = 0)
    rw [count_live] at honce ⊢
    dsimp only [State.deinitRound]
    rw [count_append]
    unfold entries at hsplit honce ⊢
    omega
  · simp only [State.deinitRound] at hphase ⊢
    split_ifs at hphase with hrefs
    · rcases hphase with hphase | hphase <;> cases hphase
    · split_ifs with hzero
      · rfl
      · -- the client of a slot in use would be among the `pending_refs`
        cases hi : s.clients i with
        | none => rfl
        | some c => exact absurd ⟨i, by rw [hi]; rfl, hzero⟩ hrefs

variable [DecidableEq π]

theorem Conserved.place {s : State n π} (h : Conserved s) {c : Client π} (hc : c ∈ s.adding)
    (hphase : s.phase = .running) : Conserved (s.place c) := by
  have hcount := fun x => count_erase Client.id x hc
  unfold State.place
  dsimp only
  split
  · rename_i i hi
    have hfree : s.clients i = none := by simpa using List.find?_some hi
    refine ⟨fun x => ?_, h.deinits, fun hend => ?_⟩
    · have honce := h.once x
      have hcount := hcount x
      rw [count_live] at honce ⊢
      dsimp only
      rw [count_entries_update Client.id x hfree c]
      omega
    · rw [hphase] at hend
      rcases hend with hend | hend <;> cases hend
  · refine ⟨fun x => ?_, h.deinits, h.drained⟩
    have honce := h.once x
    have hcount := hcount x
    rw [count_live] at honce ⊢
    dsimp only
    rw [count_cons]
    omega

theorem State.find_some {s : State n π} {p : π} {i : Fin n} {c : Client π}
    (h : s.find p = some (i, c)) : s.clients i = some c ∧ c.ptr = p := by
  obtain ⟨j, -, hj⟩ := List.exists_of_findSome?_eq_some h
  cases hc : s.clients j with
  | none =>
      rw [hc] at hj
      cases hj
  | some d =>
      rw [hc] at hj
      dsimp only at hj
      split_ifs at hj with hp
      cases hj
      exact ⟨hc, hp⟩

theorem State.hasClient_some {s : State n π} {p : π} {c : Client π} (h : s.hasClient p = some c) :
    ∃ i, s.clients i = some c ∧ c.ptr = p ∧ s.clientPendingRemove i = false := by
  obtain ⟨j, -, hj⟩ := List.exists_of_findSome?_eq_some h
  cases hc : s.clients j with
  | none =>
      rw [hc] at hj
      cases hj
  | some d =>
      rw [hc] at hj
      dsimp only at hj
      split_ifs at hj with hp
      cases hj
      exact ⟨j, hc, hp⟩

theorem Conserved.remove {s : State n π} (h : Conserved s) (p : π) : Conserved (s.remove p) := by
  unfold State.remove
  split
  · exact h
  · rename_i i c hfind
    dsimp only
    split_ifs
    · exact Conserved.takeOut
        (s := { s with
          clientPendingRemove := Function.update s.clientPendingRemove i true
          removed := c.id :: s.removed })
        ⟨h.once, h.deinits, h.drained⟩ (State.find_some hfind).1
    · exact ⟨h.once, h.deinits, h.drained⟩

theorem Conserved.release {s : State n π} (h : Conserved s) (t : Target n π)
    (ts : List (Target n π)) : Conserved (s.release t ts) := by
  unfold State.release
  generalize (if 0 < s.clientRefcnt t.idx then s.clientRefcnt t.idx - 1
    else s.clientRefcnt t.idx) = refcnt
  dsimp only
  split
  · rename_i c hc
    split_ifs
    · exact Conserved.takeOut
        (s := { s with
          dispatches := ts :: s.dispatches.erase (t :: ts)
          clientRefcnt := Function.update s.clientRefcnt t.idx refcnt })
        ⟨h.once, h.deinits, h.drained⟩ hc
    · exact ⟨h.once, h.deinits, h.drained⟩
  · exact ⟨h.once, h.deinits, h.drained⟩

/-- **No step loses or duplicates a client.** -/
theorem conserved_step {s s' : State n π} {e : Event n π} (h : Conserved s)
    (hs : step s e = some s') : Conserved s' := by
  cases e with
  | add p =>
      simp only [step] at hs
      split_ifs at hs
      cases hs
      refine ⟨fun x => ?_, h.deinits, h.drained⟩
      have honce := h.once x
      rw [count_live] at honce ⊢
      dsimp only
      rw [count_cons, owed_succ]
      dsimp only
      omega
  | place c =>
      simp only [step] at hs
      split_ifs at hs with hguard
      cases hs
      exact h.place hguard.2 hguard.1
  | remove p =>
      simp only [step] at hs
      split_ifs at hs
      cases hs
      exact h.remove p
  | release t ts =>
      simp only [step] at hs
      split_ifs at hs
      cases hs
      exact h.release t ts
  | deinitStart =>
      simp only [step] at hs
      split_ifs at hs
      cases hs
      exact ⟨h.once, h.deinits, fun hphase => by rcases hphase with hphase | hphase <;> cases hphase⟩
  | deinitRound =>
      simp only [step] at hs
      split_ifs at hs
      cases hs
      exact h.deinitRound
  | deinitEnd =>
      simp only [step] at hs
      split_ifs at hs with hphase
      cases hs
      have hempty : s.clients = fun _ => none := funext (h.drained (.inl hphase))
      refine ⟨fun x => ?_, h.deinits, fun _ _ => rfl⟩
      have honce := h.once x
      rw [count_live, hempty] at honce
      rw [count_live]
      exact honce
  | deinit c =>
      simp only [step] at hs
      split_ifs at hs with hc
      cases hs
      have hcount := fun x => count_erase Client.id x hc
      refine ⟨fun x => ?_, fun x => ?_, h.drained⟩
      · have honce := h.once x
        have hcount := hcount x
        rw [count_live] at honce ⊢
        dsimp only
        rw [count_cons]
        omega
      · have hdeinits := h.deinits x
        dsimp only
        rw [count_cons]
        by_cases hx : c.id = x
        · rw [if_pos hx, ← hx, Function.update_self, hx]
          omega
        · rw [if_neg hx, Function.update_of_ne (Ne.symm hx)]
          omega
  | free c =>
      simp only [step] at hs
      split_ifs at hs with hc
      cases hs
      have hcount := fun x => count_erase Client.id x hc
      have hfrees : ∀ x, Function.update s.frees c.id (s.frees c.id + 1) x =
          s.frees x + if c.id = x then 1 else 0 := by
        intro x
        by_cases hx : c.id = x
        · rw [if_pos hx, ← hx, Function.update_self]
        · rw [if_neg hx, Function.update_of_ne (Ne.symm hx), Nat.add_zero]
      refine ⟨fun x => ?_, fun x => ?_, h.drained⟩
      · have honce := h.once x
        have hcount := hcount x
        rw [count_live] at honce ⊢
        dsimp only
        rw [hfrees]
        omega
      · have hdeinits := h.deinits x
        have hcount := hcount x
        dsimp only
        rw [hfrees]
        omega
  | lookUp p =>
      simp only [step] at hs
      split_ifs at hs
      · cases hs
        exact h
      · split at hs <;> cases hs
        · exact ⟨h.once, h.deinits, h.drained⟩
        · exact h
  | callback | collect | operate _ | leave _ =>
      simp only [step] at hs
      split_ifs at hs
      cases hs
      exact ⟨h.once, h.deinits, h.drained⟩

theorem conserved {s : State n π} {ok : State n π → Event n π → Prop}
    (h : Reach IsInit step ok s) : Conserved s :=
  h.invariant (fun _ hs => conserved_init hs) fun _ _ _ hs _ hstep => conserved_step hs hstep

/-! ### What a step does to the table -/

/-- The section takes the client out of the table. -/
def TakesOut (s : State n π) : Event n π → Client π → Prop
  | .remove p, c => ∃ i, s.find p = some (i, c) ∧ s.clientRefcnt i = 0
  | .release t _, c =>
    s.clients t.idx = some c ∧ s.clientRefcnt t.idx ≤ 1 ∧
      s.clientPendingRemove t.idx = true ∧ c.ptr = t.client.ptr
  | .deinitRound, c => ∃ i, s.clients i = some c ∧ s.clientRefcnt i = 0
  | _, _ => False

instance (s : State n π) : ∀ (e : Event n π) (c : Client π), Decidable (TakesOut s e c)
  | .remove p, c => inferInstanceAs (Decidable (∃ i, s.find p = some (i, c) ∧ s.clientRefcnt i = 0))
  | .release t _, c => inferInstanceAs (Decidable (s.clients t.idx = some c ∧
      s.clientRefcnt t.idx ≤ 1 ∧ s.clientPendingRemove t.idx = true ∧ c.ptr = t.client.ptr))
  | .deinitRound, c =>
    inferInstanceAs (Decidable (∃ i, s.clients i = some c ∧ s.clientRefcnt i = 0))
  | .add _, _ | .place _, _ | .callback, _ | .collect, _ | .deinitStart, _ | .deinitEnd, _
  | .deinit _, _ | .free _, _ | .lookUp _, _ | .operate _, _ | .leave _, _ =>
    inferInstanceAs (Decidable False)

/-- The counter after a reference has been given back. -/
theorem given_back_eq_zero (r : UInt16) : (if 0 < r then r - 1 else r) = 0 ↔ r ≤ 1 := by
  rw [UInt16.le_iff_toNat_le, ← UInt16.toNat_inj]
  split_ifs with hpos
  · have hle : (1 : UInt16) ≤ r := UInt16.le_iff_toNat_le.2 (UInt16.lt_iff_toNat_lt.1 hpos)
    rw [UInt16.toNat_sub_of_le _ _ hle]
    exact Nat.sub_eq_zero_iff_le
  · have hzero : r.toNat = 0 := Nat.eq_zero_of_not_pos fun h => hpos (UInt16.lt_iff_toNat_lt.2 h)
    rw [hzero]
    decide

/-- **What a step does to a slot**: nothing, unless it is empty, or its client is taken
out. -/
theorem clients_cases {s s' : State n π} {e : Event n π} (h : Conserved s)
    (hs : step s e = some s') (i : Fin n) :
    s'.clients i = s.clients i ∨ s.clients i = none ∨
      ∃ c, s.clients i = some c ∧ s'.clients i = none ∧ TakesOut s e c := by
  cases e with
  | place d =>
      simp only [step] at hs
      split_ifs at hs
      cases hs
      unfold State.place
      dsimp only
      split
      · rename_i j hj
        have hfree : s.clients j = none := by simpa using List.find?_some hj
        by_cases hij : i = j
        · rw [hij]
          exact .inr (.inl hfree)
        · exact .inl (Function.update_of_ne hij _ _)
      · exact .inl rfl
  | remove p =>
      simp only [step] at hs
      split_ifs at hs
      cases hs
      unfold State.remove
      split
      · exact .inl rfl
      · rename_i j c hfind
        dsimp only
        split_ifs with hzero
        · exact takeOut_cases (State.find_some hfind).1 ⟨j, hfind, hzero⟩
        · exact .inl rfl
  | release t ts =>
      simp only [step] at hs
      split_ifs at hs
      cases hs
      have hone := given_back_eq_zero (s.clientRefcnt t.idx)
      unfold State.release
      generalize (if 0 < s.clientRefcnt t.idx then s.clientRefcnt t.idx - 1
        else s.clientRefcnt t.idx) = refcnt at hone ⊢
      dsimp only
      split
      · rename_i c hc
        split_ifs with hlast
        · exact takeOut_cases hc ⟨hc, hone.1 hlast.1, hlast.2⟩
        · exact .inl rfl
      · exact .inl rfl
  | deinitRound =>
      simp only [step] at hs
      split_ifs at hs
      cases hs
      simp only [State.deinitRound]
      split_ifs with hzero
      · cases hi : s.clients i with
        | none => exact .inl rfl
        | some c => exact .inr (.inr ⟨c, rfl, rfl, i, hi, hzero⟩)
      · exact .inl rfl
  | deinitEnd =>
      simp only [step] at hs
      split_ifs at hs with hphase
      exact .inr (.inl (h.drained (.inl hphase) i))
  | lookUp p =>
      simp only [step] at hs
      split_ifs at hs
      · cases hs
        exact .inl rfl
      · split at hs <;> cases hs <;> exact .inl rfl
  | add _ | callback | collect | deinitStart | deinit _ | free _ | operate _ | leave _ =>
      simp only [step] at hs
      split_ifs at hs
      cases hs
      exact .inl rfl

end EspAx25.Manager
