import EspAx25.Router.Slots

/-!
# EspAx25.Router.Race

The router at the granularity of single assignments.

`ax25_router_send` and `ax25_router_register_port` hold the router mutex and are
single steps. `ax25_router_remove_port` holds it only to find the slot:
`port_ctx_teardown` then writes the fields of the slot one by one, without the mutex,
and the port task reads them without it.

* A `Teardown` is the place where the removal of a registration is. There is at most
  one for each registration; they overlap, also on one slot that has been handed out
  again before the last statement of the first one.
* `TaskPc` is the place where a port task is. Its last writes are made under the
  mutex, but the loop of a teardown that waits for the task sees each of them.
* `lease`, `holder` and `removed` are not in the code. A registration is known by
  the number of its queue and task: `lease` is its port, `holder` is the last
  registration of a slot, and `removed p` is above all registrations of `p` whose
  removal has returned.

A teardown that goes all the way deletes the queue before it clears `port`, and every
teardown clears `port` before it sets `retired`. Between these writes a send meets a
slot without a queue, and a registration takes a slot that is not yet free.
-/

namespace EspAx25

open Transition

/-! ### The machine -/

/-- The statement that `port_ctx_teardown` is about to execute. -/
inductive TeardownPc
  /-- `ctx->running = false` -/
  | stop
  /-- `if (ctx->tx_task == self)` -/
  | testSelf
  /-- The loop that waits for the port task. -/
  | wait
  /-- `if (ctx->tx_task != NULL)` -/
  | testTask
  /-- `vQueueDelete(ctx->tx_queue)`, if there is one -/
  | deleteQueue
  /-- `ctx->tx_queue = NULL` -/
  | clearQueue
  /-- `ctx->tx_task = NULL` -/
  | clearTask
  /-- `ctx->stopped = false` -/
  | clearStopped
  /-- `ctx->port = NULL`, with the queue gone -/
  | detachClean
  /-- `ctx->port = NULL`, with the task still there -/
  | detach
  /-- `ctx->retired = true` -/
  | retire
  deriving Repr, DecidableEq

/-- A call of `ax25_router_remove_port` that has found its slot: the port, the calling
task if that is a port task, and the slot. -/
structure Teardown where
  pc : TeardownPc
  port : PortId
  caller : Option TaskId
  slot : Nat
  deriving Repr, DecidableEq

/-- The place where `router_port_tx_task` is. -/
inductive TaskPc
  /-- Before the frame buffer is allocated. -/
  | start
  /-- `while (ctx->running)` -/
  | test
  /-- About to call `xQueueReceive(ctx->tx_queue, ...)`. -/
  | receive
  /-- In `xQueueReceive` on this queue. -/
  | blocked (q : QueueId)
  /-- `port = ctx->port`, with a frame from this queue. -/
  | got (q : QueueId) (f : Frame)
  /-- About to call the callback of this port. -/
  | found (p : PortId) (q : QueueId) (f : Frame)
  /-- In the callback. -/
  | calling (p : PortId) (q : QueueId) (f : Frame)
  /-- Out of the loop, before the mutex. -/
  | exiting
  /-- Without a frame buffer, before the mutex. -/
  | failing
  /-- `ctx->stopped = true`, without a frame buffer and with the mutex -/
  | stopping
  /-- `ctx->tx_task = NULL`, with the mutex -/
  | clearing
  deriving Repr, DecidableEq

/-- The router with its port tasks, and the removals by the registration that they end. -/
structure Race where
  router : Router
  mutex : Option TaskId
  tasks : TaskId → Option (Nat × TaskPc)
  teardowns : Nat → Option Teardown
  lease : Nat → PortId
  holder : Nat → Nat
  removed : PortId → Nat

/-- The steps. `late` is the way out that time or the heap decides: the wait of a
teardown expires, `xQueueReceive` returns without a frame, there is no frame buffer. -/
inductive RaceEvent
  | register (p : PortId) (alloc : Alloc)
  | send (f : Frame) (source : PortId)
  | remove (p : PortId) (caller : Option TaskId)
  | teardown (k : Nat) (late : Bool)
  | task (t : TaskId) (late : Bool)
  | write (p : PortId) (port : Port)

/-- One statement of `port_ctx_teardown`: the slot and the next statement, `none` after
the last one. -/
def teardownNext (td : Teardown) (ctx : Slot) (late : Bool) : Option (Slot × Option TeardownPc) :=
  match td.pc with
  | .stop => some ({ ctx with running := false }, some .testSelf)
  | .testSelf =>
    some (ctx, some (if td.caller.isSome ∧ ctx.txTask = td.caller then .detach else .wait))
  | .wait => if ctx.txTask = none ∨ ctx.stopped ∨ late then some (ctx, some .testTask) else none
  | .testTask => some (ctx, some (if ctx.txTask.isSome then .detach else .deleteQueue))
  | .deleteQueue => some (ctx, some (if ctx.txQueue.isSome then .clearQueue else .clearTask))
  | .clearQueue => some ({ ctx with txQueue := none }, some .clearTask)
  | .clearTask => some ({ ctx with txTask := none }, some .clearStopped)
  | .clearStopped => some ({ ctx with stopped := false }, some .detachClean)
  | .detachClean => some ({ ctx with port := none }, some .retire)
  | .detach => some ({ ctx with port := none }, some .retire)
  | .retire => some ({ ctx with retired := true }, none)

/-- What a statement of `port_ctx_teardown` does to the queues. -/
def teardownEffect (r : Router) (pc : TeardownPc) (ctx : Slot) : Router :=
  match pc, ctx.txQueue with
  | .deleteQueue, some q => r.deleteQueue q
  | _, _ => r

/-- The task is in a call of `ax25_router_remove_port`. -/
def Race.removing (s : Race) (t : TaskId) : Bool :=
  (List.range s.router.nextId).any fun k =>
    match s.teardowns k with
    | some td => td.caller = some t
    | none => false

/-- One step of `router_port_tx_task`: the slot and where the task is next, `none` if it
is gone. -/
def taskNext (s : Race) (t : TaskId) (pc : TaskPc) (ctx : Slot) (late : Bool) :
    Option (Slot × Option TaskPc) :=
  match pc with
  | .start => some (ctx, some (if late then .failing else .test))
  | .test => some (ctx, some (if ctx.running then .receive else .exiting))
  | .receive => ctx.txQueue.map fun q => (ctx, some (.blocked q))
  | .blocked q =>
    if late then some (ctx, some .test)
    else
      match s.router.queues q with
      | some (f :: _) => some (ctx, some (.got q f))
      | _ => none
  | .got q f =>
    match ctx.port with
    | none => some (ctx, some .test)
    | some p => some (ctx, some (.found p q f))
  | .found p q f => some (ctx, some (.calling p q f))
  | .calling _ _ _ => if s.removing t then none else some (ctx, some .test)
  | .exiting =>
    if s.mutex.isSome then none else some ({ ctx with stopped := true }, some .clearing)
  | .failing =>
    if s.mutex.isSome then none else some ({ ctx with running := false }, some .stopping)
  | .stopping => some ({ ctx with stopped := true }, some .clearing)
  | .clearing => some ({ ctx with txTask := none }, none)

/-- What a step of `router_port_tx_task` does to the queues and the counters. -/
def taskEffect (r : Router) (pc : TaskPc) (late : Bool) : Router :=
  match pc with
  | .blocked q =>
    if late then r else { r with queues := Function.update r.queues q ((r.queues q).map List.tail) }
  | .calling p _ f =>
    r.modifyPort p fun port =>
      { port with
        framesSent := port.framesSent + 1
        bytesSent := port.bytesSent + frameByteCount f }
  | _ => r

/-- Who has the mutex after a step of `router_port_tx_task`. -/
def taskMutex (mutex : Option TaskId) (t : TaskId) : TaskPc → Option TaskId
  | .exiting | .failing => some t
  | .clearing => none
  | _ => mutex

/-- A callback calls `ax25_router_remove_port`, or a task that is no port task does. -/
def Race.mayCall (s : Race) : Option TaskId → Bool
  | none => true
  | some t =>
    match s.tasks t with
    | some (_, .calling _ _ _) => !s.removing t
    | _ => false

/-- One step; `none` if it is not possible. -/
def Race.step (s : Race) : RaceEvent → Option Race
  | .register p alloc =>
    if s.mutex.isSome then none
    else
      match registerPort s.router p alloc with
      | (.ok, r) =>
        let i := ((allocPortSlot s.router).map Prod.fst).getD 0
        let id := s.router.nextId
        some
          { s with
            router := r
            tasks := Function.update s.tasks id (some (i, .start))
            lease := Function.update s.lease id p
            holder := Function.update s.holder i id }
      | (_, r) => some { s with router := r }
  | .send f source =>
    if s.mutex.isSome then none else some { s with router := (routerSend s.router f source).1 }
  | .remove p caller =>
    if s.mutex.isSome ∨ !s.mayCall caller then none
    else
      match findPortSlot s.router p with
      | none => some s
      | some i =>
        if (s.teardowns (s.holder i)).isSome then none
        else
          some
            { s with
              teardowns := Function.update s.teardowns (s.holder i)
                (some { pc := .stop, port := p, caller, slot := i }) }
  | .teardown k late =>
    match s.teardowns k with
    | none => none
    | some td =>
      match s.router.slots[td.slot]? with
      | none => none
      | some ctx =>
        match teardownNext td ctx late with
        | none => none
        | some (new, pc) =>
          some
            { s with
              router := (teardownEffect s.router td.pc ctx).setSlot td.slot new
              teardowns := Function.update s.teardowns k (pc.map fun pc => { td with pc })
              removed :=
                if pc.isNone then
                  Function.update s.removed td.port (max (s.removed td.port) (k + 1))
                else s.removed }
  | .task t late =>
    match s.tasks t with
    | none => none
    | some (i, pc) =>
      match s.router.slots[i]? with
      | none => none
      | some ctx =>
        match taskNext s t pc ctx late with
        | none => none
        | some (new, pc') =>
          some
            { s with
              router := (taskEffect s.router pc late).setSlot i new
              mutex := taskMutex s.mutex t pc
              tasks := Function.update s.tasks t (pc'.map fun pc => (i, pc)) }
  | .write p port => some { s with router := s.router.modifyPort p fun _ => port }

/-- A router after `ax25_router_init`, with any memory. -/
def Race.IsInit (s : Race) : Prop :=
  ∃ maxPorts queueDepth ports,
    s = { router := routerInit maxPorts queueDepth ports, mutex := none, tasks := fun _ => none,
          teardowns := fun _ => none, lease := fun _ => 0, holder := fun _ => 0,
          removed := fun _ => 0 }

/-! ### The condition -/

/-- Where the teardown of the last registration of slot `i` is. -/
def Race.pc (s : Race) (i : Nat) : Option TeardownPc :=
  ((s.teardowns (s.holder i)).filter (·.slot = i)).map Teardown.pc

/-- Between `vQueueDelete` and `ctx->port = NULL`. -/
def TeardownPc.deleted : TeardownPc → Bool
  | .clearQueue | .clearTask | .clearStopped | .detachClean => true
  | _ => false

/-- No send runs while a teardown is between `vQueueDelete` and `ctx->port = NULL`. -/
def Race.SafeSend (s : Race) : RaceEvent → Bool
  | .send _ _ => (List.range s.router.slots.length).all fun i => !(s.pc i).any TeardownPc.deleted
  | _ => true

/-- No registration finds as its first free slot one whose teardown is between
`ctx->port = NULL` and `ctx->retired = true`. -/
def Race.SafeRegister (s : Race) : RaceEvent → Bool
  | .register p _ =>
    match freeSlot s.router.slots with
    | some i => !(passes s.router p && s.pc i = some .retire)
    | none => true
  | _ => true

/-- No registration finds as its first free slot one whose teardown is in this window and
whose task is still there. -/
def Race.VacantRegister (s : Race) : RaceEvent → Bool
  | .register p _ =>
    match freeSlot s.router.slots with
    | some i =>
      !(passes s.router p && s.pc i = some .retire &&
        (s.router.slots[i]?.bind Slot.txTask).isSome)
    | none => true
  | _ => true

theorem Race.SafeRegister.vacant {s : Race} {e : RaceEvent} (h : s.SafeRegister e = true) :
    s.VacantRegister e = true := by
  cases e with
  | register p alloc =>
      unfold Race.SafeRegister at h
      unfold Race.VacantRegister
      dsimp only at h ⊢
      split at h
      · rw [Bool.not_eq_true'] at h
        rw [h]
        rfl
      · rfl
  | _ => rfl

/-- A step that avoids both windows. -/
def Race.Safe (s : Race) (e : RaceEvent) : Prop := s.SafeSend e = true ∧ s.SafeRegister e = true

instance (s : Race) (e : RaceEvent) : Decidable (s.Safe e) := inferInstanceAs (Decidable (_ ∧ _))

/-! ### The invariant -/

/-- The clean path, after the teardown has found that the task is gone. -/
def TeardownPc.clean : TeardownPc → Bool
  | .deleteQueue | .clearQueue | .clearTask | .clearStopped | .detachClean => true
  | _ => false

/-- The fields of slot `i` tell the truth, as far as its teardown has come. -/
structure RaceSlot (s : Race) (i : Nat) (ctx : Slot) : Prop where
  task : ∀ t, ctx.txTask = some t ↔ ∃ pc, s.tasks t = some (i, pc)
  active : ctx.port ≠ none → s.pc i ≠ some .retire
  queue : ctx.port ≠ none → (∀ pc, s.pc i = some pc → pc.deleted = false) →
    ∃ q, ctx.txQueue = some q ∧ (s.router.queues q).isSome
  idle : ctx.port = none → s.pc i = none ∨ s.pc i = some .retire
  free : ctx.port = none → ctx.retired = false → s.pc i = none → ctx.txTask = none
  clean : ∀ pc, s.pc i = some pc → pc.clean = true → ctx.txTask = none
  held : ctx.port ≠ none → s.holder i < s.router.nextId
  old : ∀ q, ctx.txQueue = some q → q < s.router.nextId

structure RaceOk (s : Race) : Prop where
  slot : ∀ {i : Nat} {ctx : Slot}, s.router.slots[i]? = some ctx → RaceSlot s i ctx
  queues : KeysApart Slot.txQueue s.router.slots
  ports : KeysApart Slot.port s.router.slots
  range : ∀ {t : TaskId} {i : Nat} {pc : TaskPc}, s.tasks t = some (i, pc) →
    t < s.router.nextId ∧ i < s.router.slots.length
  /-- Only the last statement of a teardown is left when its slot is handed out again. -/
  ending : ∀ {k : Nat} {td : Teardown}, s.teardowns k = some td →
    k < s.router.nextId ∧ td.slot < s.router.slots.length ∧
      (s.holder td.slot = k ∨ td.pc = .retire)

section Keep

variable {s s' : Race}

theorem pc_eq {i k : Nat} {td : Teardown} (htd : s.teardowns k = some td) (hi : td.slot = i)
    (hk : s.holder i = k) : s.pc i = some td.pc := by
  subst hk
  simp [Race.pc, htd, hi]

theorem pc_congr (htds : s'.teardowns = s.teardowns) (hholder : s'.holder = s.holder) :
    s'.pc = s.pc := by
  funext i
  rw [Race.pc, htds, hholder, Race.pc]

/-- A teardown goes on, or begins, or ends. -/
theorem pc_update {k i : Nat} {td : Option Teardown} (hholder : s'.holder = s.holder)
    (htds : s'.teardowns = Function.update s.teardowns k td)
    (hold : ∀ td', s.teardowns k = some td' → td'.slot = i)
    (hnew : ∀ td', td = some td' → td'.slot = i) (j : Nat) :
    s'.pc j = if j = i ∧ s.holder i = k then td.map Teardown.pc else s.pc j := by
  rw [Race.pc, htds, hholder]
  by_cases hk : s.holder j = k
  · subst hk
    rw [Function.update_self]
    by_cases hj : j = i
    · subst hj
      rw [if_pos ⟨rfl, rfl⟩]
      cases td with
      | none => rfl
      | some td' => simp [hnew td' rfl]
    · -- the teardown is on another slot
      have hnot : ∀ o : Option Teardown, (∀ td', o = some td' → td'.slot = i) →
          o.filter (·.slot = j) = none := by
        intro o ho
        cases o with
        | none => rfl
        | some td' => simp [ho td' rfl, Ne.symm hj]
      rw [if_neg fun hc => hj hc.1, hnot td hnew, Race.pc, hnot _ hold]
  · rw [Function.update_of_ne hk, if_neg, Race.pc]
    rintro ⟨rfl, hc⟩
    exact hk hc

/-- Steps that leave the slots, the tasks and the teardowns alone. -/
theorem RaceOk.of_quiet (h : RaceOk s) (hslots : s'.router.slots = s.router.slots)
    (htasks : s'.tasks = s.tasks) (htds : s'.teardowns = s.teardowns)
    (hholder : s'.holder = s.holder) (hid : s'.router.nextId = s.router.nextId)
    (hqueues : ∀ q, (s.router.queues q).isSome → (s'.router.queues q).isSome) : RaceOk s' where
  slot := by
    intro i ctx hctx
    rw [hslots] at hctx
    obtain ⟨htask, hactive, hqueue, hidle, hfree, hclean, hheld, hold⟩ := h.slot hctx
    rw [← pc_congr htds hholder] at hactive hqueue hidle hfree hclean
    refine ⟨by rw [htasks]; exact htask, hactive, fun hp hdel => ?_, hidle, hfree, hclean,
      by rw [hholder, hid]; exact hheld, by rw [hid]; exact hold⟩
    obtain ⟨q, hq, hsome⟩ := hqueue hp hdel
    exact ⟨q, hq, hqueues q hsome⟩
  queues := by
    rw [hslots]
    exact h.queues
  ports := by
    rw [hslots]
    exact h.ports
  range := by
    rw [htasks, hid, hslots]
    exact h.range
  ending := by
    rw [htds, hid, hslots, hholder]
    exact h.ending

/-- Steps on slot `i`. -/
theorem RaceOk.of_local (h : RaceOk s) {i : Nat} {ctx new : Slot}
    (hctx : s.router.slots[i]? = some ctx) (hslots : s'.router.slots = s.router.slots.set i new)
    (hid : s.router.nextId ≤ s'.router.nextId) (hpc : ∀ j ≠ i, s'.pc j = s.pc j)
    (hholder : ∀ j ≠ i, s'.holder j = s.holder j)
    (htasks : ∀ t j pc, j ≠ i → (s'.tasks t = some (j, pc) ↔ s.tasks t = some (j, pc)))
    (hown : ∀ t pc, s'.tasks t = some (i, pc) → t < s'.router.nextId)
    (hqueues : ∀ q < s.router.nextId, ctx.txQueue ≠ some q → (s.router.queues q).isSome →
      (s'.router.queues q).isSome)
    (hq : ∀ q, new.txQueue = some q → ctx.txQueue = some q ∨ s.router.nextId ≤ q)
    (hport : ∀ p, new.port = some p → ctx.port = some p ∨ ∀ b ∈ s.router.slots, b.port ≠ some p)
    (hending : ∀ k td, s'.teardowns k = some td → k < s'.router.nextId ∧
      td.slot < s.router.slots.length ∧ (s'.holder td.slot = k ∨ td.pc = .retire))
    (hnew : RaceSlot s' i new) : RaceOk s' where
  slot := by
    intro j b hb
    rw [hslots, getElem?_set_some hctx] at hb
    split_ifs at hb with hji
    · subst hji
      cases hb
      exact hnew
    · obtain ⟨htask, hactive, hqueue, hidle, hfree, hclean, hheld, hold⟩ := h.slot hb
      rw [← hpc j hji] at hactive hqueue hidle hfree hclean
      rw [← hholder j hji] at hheld
      refine ⟨fun t => ?_, hactive, fun hp hdel => ?_, hidle, hfree, hclean,
        fun hp => Nat.lt_of_lt_of_le (hheld hp) hid,
        fun q hbq => Nat.lt_of_lt_of_le (hold q hbq) hid⟩
      · rw [htask]
        simp only [htasks t j _ hji]
      · obtain ⟨q, hbq, hsome⟩ := hqueue hp hdel
        exact ⟨q, hbq, hqueues q (hold q hbq)
          (fun hc => h.queues hctx hb (Ne.symm hji) hc hbq) hsome⟩
  queues := by
    rw [hslots]
    exact h.queues.set hctx fun q hnq => (hq q hnq).imp_right fun hge b hb hbq => by
      obtain ⟨j, hj⟩ := List.getElem?_of_mem hb
      exact absurd ((h.slot hj).old q hbq) (Nat.not_lt.mpr hge)
  ports := by
    rw [hslots]
    exact h.ports.set hctx hport
  range := by
    intro t j pc ht
    rw [hslots, List.length_set]
    by_cases hji : j = i
    · subst hji
      exact ⟨hown t pc ht, (List.getElem?_eq_some_iff.mp hctx).1⟩
    · obtain ⟨hlt, hj⟩ := h.range ((htasks t j pc hji).mp ht)
      exact ⟨Nat.lt_of_lt_of_le hlt hid, hj⟩
  ending := by
    rw [hslots, List.length_set]
    exact fun {k td} => hending k td

/-- What a statement of `port_ctx_teardown` can do. Most keep the port; the last two
clear it and retire the slot. -/
theorem teardownNext_cases {td : Teardown} {ctx new : Slot} {late : Bool} {pc' : Option TeardownPc}
    (h : teardownNext td ctx late = some (new, pc')) :
    (new.txQueue = ctx.txQueue ∨ new.txQueue = none) ∧
      (new.txTask = ctx.txTask ∨ (new.txTask = none ∧ td.pc = .clearTask)) ∧
      ((∃ pc, pc' = some pc ∧ td.pc ≠ .retire ∧ pc ≠ .retire ∧ new.port = ctx.port ∧
          new.retired = ctx.retired ∧
          (pc.clean = true → td.pc.clean = true ∨ ctx.txTask = none) ∧
          (pc.deleted = false →
            td.pc.deleted = false ∧ td.pc ≠ .deleteQueue ∧ new.txQueue = ctx.txQueue)) ∨
        (pc' = some .retire ∧ td.pc ≠ .retire ∧ new.port = none ∧ new.retired = ctx.retired) ∨
        (pc' = none ∧ td.pc = .retire ∧ new.port = ctx.port ∧ new.retired = true)) := by
  obtain ⟨pc, port, caller, slot⟩ := td
  cases pc with
  | wait =>
      simp only [teardownNext] at h
      split_ifs at h
      cases h
      simp [TeardownPc.clean, TeardownPc.deleted]
  | testSelf =>
      simp only [teardownNext] at h
      split_ifs at h <;> cases h <;> simp [TeardownPc.clean, TeardownPc.deleted]
  | testTask =>
      simp only [teardownNext] at h
      split_ifs at h with ht
      · cases h
        simp [TeardownPc.clean, TeardownPc.deleted]
      · cases h
        have ht : ctx.txTask = none := by simpa using ht
        simp [TeardownPc.clean, TeardownPc.deleted, ht]
  | deleteQueue =>
      simp only [teardownNext] at h
      split_ifs at h <;> cases h <;> simp [TeardownPc.clean, TeardownPc.deleted]
  | stop | clearQueue | clearTask | clearStopped | detachClean | detach | retire =>
      cases h
      simp [TeardownPc.clean, TeardownPc.deleted]

theorem teardownEffect_frame (r : Router) (pc : TeardownPc) (ctx : Slot) :
    (teardownEffect r pc ctx).slots = r.slots ∧ (teardownEffect r pc ctx).nextId = r.nextId ∧
      (teardownEffect r pc ctx).ports = r.ports ∧
      (∀ q, ctx.txQueue ≠ some q → (teardownEffect r pc ctx).queues q = r.queues q) ∧
      (pc ≠ .deleteQueue → teardownEffect r pc ctx = r) := by
  cases pc <;> cases hq : ctx.txQueue <;> simp [teardownEffect, hq, Router.deleteQueue]
  intro q hne
  simp [Function.update, Ne.symm hne]

theorem teardown_pc {k : Nat} {td : Teardown} {pc' : Option TeardownPc}
    (htd : s.teardowns k = some td) (hholder : s'.holder = s.holder)
    (htds : s'.teardowns = Function.update s.teardowns k (pc'.map fun pc => { td with pc }))
    (j : Nat) : s'.pc j = if j = td.slot ∧ s.holder td.slot = k then pc' else s.pc j := by
  have hnew : ∀ td', (pc'.map fun pc => { td with pc }) = some td' → td'.slot = td.slot := by
    intro td' htd'
    obtain ⟨pc, -, rfl⟩ := Option.map_eq_some_iff.mp htd'
    rfl
  rw [pc_update hholder htds (fun td' htd' => (by rw [htd] at htd'; cases htd'; rfl)) hnew,
    Option.map_map]
  congr 1
  cases pc' <;> rfl

/-- What a teardown may do is known of the ones that are left. -/
theorem RaceOk.ending_update (h : RaceOk s) {k : Nat} {td : Teardown} {pc' : Option TeardownPc}
    (htd : s.teardowns k = some td) (hid : s'.router.nextId = s.router.nextId)
    (hholder : s'.holder = s.holder)
    (htds : s'.teardowns = Function.update s.teardowns k (pc'.map fun pc => { td with pc }))
    (hpc : ∀ pc, pc' = some pc → s.holder td.slot = k) (j : Nat) (td' : Teardown)
    (hj : s'.teardowns j = some td') : j < s'.router.nextId ∧ td'.slot < s.router.slots.length ∧
      (s'.holder td'.slot = j ∨ td'.pc = .retire) := by
  rw [htds] at hj
  rw [hid, hholder]
  by_cases hjk : j = k
  · subst hjk
    rw [Function.update_self] at hj
    obtain ⟨pc, rfl, rfl⟩ := Option.map_eq_some_iff.mp hj
    obtain ⟨hlt, hslot, -⟩ := h.ending htd
    exact ⟨hlt, hslot, .inl (hpc pc rfl)⟩
  · rw [Function.update_of_ne hjk] at hj
    exact h.ending hj

/-- A statement of the teardown of a slot's last registration. -/
theorem raceOk_teardown (h : RaceOk s) {k : Nat} {td : Teardown} {ctx new : Slot} {late : Bool}
    {pc' : Option TeardownPc} (htd : s.teardowns k = some td) (hk : s.holder td.slot = k)
    (hctx : s.router.slots[td.slot]? = some ctx)
    (hnext : teardownNext td ctx late = some (new, pc'))
    (hslots : s'.router.slots = s.router.slots.set td.slot new)
    (hid : s'.router.nextId = s.router.nextId) (htasks : s'.tasks = s.tasks)
    (hholder : s'.holder = s.holder)
    (htds : s'.teardowns = Function.update s.teardowns k (pc'.map fun pc => { td with pc }))
    (hqueues : s'.router.queues = (teardownEffect s.router td.pc ctx).queues) : RaceOk s' := by
  obtain ⟨-, -, -, heffect, hkeep⟩ := teardownEffect_frame s.router td.pc ctx
  obtain ⟨htask, hactive, hqueue, hidle, hfree, hclean, hheld, hold⟩ := h.slot hctx
  obtain ⟨hq, ht, hcases⟩ := teardownNext_cases hnext
  have hpc := teardown_pc htd hholder htds
  have hat : s.pc td.slot = some td.pc := pc_eq htd rfl hk
  have hat' : s'.pc td.slot = pc' := by simp [hpc, hk]
  rw [hat] at hactive hidle
  -- a statement that clears the handle runs when the task is gone
  have ht : new.txTask = ctx.txTask := by
    rcases ht with ht | ⟨ht, hclear⟩
    · exact ht
    · rw [ht, hclean td.pc hat (by rw [hclear]; rfl)]
  have hold' : ∀ q, new.txQueue = some q → ctx.txQueue = some q := by
    intro q hnq
    rcases hq with heq | hnone
    · exact heq ▸ hnq
    · rw [hnone] at hnq
      cases hnq
  refine h.of_local hctx hslots (Nat.le_of_eq hid.symm)
    (fun j hj => by rw [hpc, if_neg fun hc => hj hc.1]) (fun j _ => by rw [hholder])
    (fun t j pc hj => by rw [htasks]) (fun t pc htp => ?_) (fun q _ hne hsome => ?_)
    (fun q hnq => .inl (hold' q hnq)) (fun p hp => .inl ?_)
    (h.ending_update htd hid hholder htds fun _ _ => hk) ?_
  · rw [htasks] at htp
    rw [hid]
    exact (h.range htp).1
  · rw [hqueues, heffect q hne]
    exact hsome
  · rcases hcases with ⟨-, -, -, -, hport, -⟩ | ⟨-, -, hport, -⟩ | ⟨-, -, hport, -⟩
    · exact hport ▸ hp
    · rw [hport] at hp
      cases hp
    · exact hport ▸ hp
  · have htask' : ∀ t, new.txTask = some t ↔ ∃ pc, s'.tasks t = some (td.slot, pc) := by
      rw [ht, htasks]
      exact htask
    have hids : ∀ q, new.txQueue = some q → q < s'.router.nextId := by
      intro q hnq
      rw [hid]
      exact hold q (hold' q hnq)
    rcases hcases with ⟨pc, rfl, hne, hne', hport, -, hcl, hdel⟩ | ⟨rfl, hne, hport, -⟩ |
      ⟨rfl, heq, hport, hret⟩
    · have hp : ctx.port ≠ none := by
        intro hp
        rcases hidle hp with hc | hc
        · cases hc
        · exact hne (Option.some.inj hc)
      refine ⟨htask', fun _ => ?_, fun _ hd => ?_, fun hc => ?_, fun hc => ?_,
        fun pc₁ hpc₁ hc => ?_, fun _ => by rw [hholder, hid]; exact hheld hp, hids⟩
      · rw [hat']
        simpa using hne'
      · obtain ⟨hd₁, hd₂, hd₃⟩ := hdel (hd pc hat')
        obtain ⟨q, hcq, hsome⟩ := hqueue hp fun pc₂ hpc₂ => by
          rw [hat] at hpc₂
          cases hpc₂
          exact hd₁
        refine ⟨q, hd₃ ▸ hcq, ?_⟩
        rw [hqueues, hkeep hd₂]
        exact hsome
      · exact absurd (hport ▸ hc) hp
      · exact absurd (hport ▸ hc) hp
      · rw [hat'] at hpc₁
        cases hpc₁
        rw [ht]
        rcases hcl hc with hc | hc
        · exact hclean td.pc hat hc
        · exact hc
    · refine ⟨htask', fun hc => absurd hport hc, fun hc => absurd hport hc, fun _ => .inr hat',
        fun _ _ hc => ?_, fun pc₁ hpc₁ hc => ?_, fun hc => absurd hport hc, hids⟩
      · rw [hat'] at hc
        cases hc
      · rw [hat'] at hpc₁
        cases hpc₁
        cases hc
    · have hp : ctx.port = none := by
        by_contra hp
        exact hactive hp (by rw [heq])
      rw [← hport] at hp
      refine ⟨htask', fun hc => absurd hp hc, fun hc => absurd hp hc, fun _ => .inl hat',
        fun _ hc => ?_, fun pc₁ hpc₁ _ => ?_, fun hc => absurd hp hc, hids⟩
      · rw [hret] at hc
        cases hc
      · rw [hat'] at hpc₁
        cases hpc₁

/-- The last statement of a teardown whose slot has been handed out again. -/
theorem raceOk_late (h : RaceOk s) {k : Nat} {td : Teardown} {ctx new : Slot} {late : Bool}
    {pc' : Option TeardownPc} (htd : s.teardowns k = some td) (hk : s.holder td.slot ≠ k)
    (hctx : s.router.slots[td.slot]? = some ctx)
    (hnext : teardownNext td ctx late = some (new, pc'))
    (hslots : s'.router.slots = s.router.slots.set td.slot new)
    (hid : s'.router.nextId = s.router.nextId) (htasks : s'.tasks = s.tasks)
    (hholder : s'.holder = s.holder)
    (htds : s'.teardowns = Function.update s.teardowns k (pc'.map fun pc => { td with pc }))
    (hqueues : s'.router.queues = (teardownEffect s.router td.pc ctx).queues) : RaceOk s' := by
  obtain ⟨htask, hactive, hqueue, hidle, -, hclean, hheld, hold⟩ := h.slot hctx
  have hlast : td.pc = .retire := (h.ending htd).2.2.resolve_left hk
  have hsame : s'.pc = s.pc :=
    funext fun j => by rw [teardown_pc htd hholder htds, if_neg fun hc => hk hc.2]
  rw [(teardownEffect_frame s.router td.pc ctx).2.2.2.2 (by rw [hlast]; decide)] at hqueues
  simp only [teardownNext, hlast] at hnext
  cases hnext
  rw [← hsame] at hactive hqueue hidle hclean
  refine h.of_local hctx hslots (Nat.le_of_eq hid.symm) (fun j _ => by rw [hsame])
    (fun j _ => by rw [hholder]) (fun t j pc _ => by rw [htasks]) (fun t pc htp => ?_)
    (fun q _ _ hsome => by rwa [hqueues]) (fun q hq => .inl hq) (fun p hp => .inl hp)
    (h.ending_update htd hid hholder htds fun pc hc => by cases hc)
    ⟨by rw [htasks]; exact htask, hactive, by rw [hqueues]; exact hqueue, hidle,
      fun _ hc => (by cases hc), hclean, by rw [hholder, hid]; exact hheld, by rw [hid]; exact hold⟩
  rw [htasks] at htp
  rw [hid]
  exact (h.range htp).1

/-! ### Port tasks -/

/-- What a step of a port task can do to its slot: only the handle goes, with the task. -/
theorem taskNext_cases {t : TaskId} {pc : TaskPc} {ctx new : Slot} {late : Bool}
    {pc' : Option TaskPc} (h : taskNext s t pc ctx late = some (new, pc')) :
    new.port = ctx.port ∧ new.txQueue = ctx.txQueue ∧ new.retired = ctx.retired ∧
      ((new.txTask = ctx.txTask ∧ pc'.isSome) ∨ (new.txTask = none ∧ pc' = none)) := by
  cases pc with
  | receive =>
      obtain ⟨q, -, hq⟩ := Option.map_eq_some_iff.mp h
      cases hq
      simp
  | blocked q =>
      simp only [taskNext] at h
      split_ifs at h
      · cases h
        simp
      · split at h
        · cases h
          simp
        · cases h
  | got q f =>
      simp only [taskNext] at h
      split at h <;> cases h <;> simp
  | calling p q f =>
      simp only [taskNext] at h
      split_ifs at h
      cases h
      simp
  | exiting | failing =>
      simp only [taskNext] at h
      split_ifs at h
      cases h
      simp
  | start | test | found _ _ _ | stopping | clearing =>
      cases h
      simp

theorem taskEffect_frame (r : Router) (pc : TaskPc) (late : Bool) :
    (taskEffect r pc late).slots = r.slots ∧ (taskEffect r pc late).nextId = r.nextId ∧
      ∀ q, ((taskEffect r pc late).queues q).isSome = (r.queues q).isSome := by
  cases pc with
  | blocked q =>
      cases late with
      | true => exact ⟨rfl, rfl, fun _ => rfl⟩
      | false =>
          refine ⟨rfl, rfl, fun q' => ?_⟩
          by_cases hq : q' = q
          · subst hq
            simp [taskEffect]
          · simp [taskEffect, hq]
  | _ => exact ⟨rfl, rfl, fun _ => rfl⟩

/-- The tasks after a step of task `t` on slot `i`. -/
theorem update_task {tasks : TaskId → Option (Nat × TaskPc)} {t : TaskId} {i : Nat} {pc : TaskPc}
    (ht : tasks t = some (i, pc)) (pc' : Option TaskPc) (t' : TaskId) (j : Nat) (pc₁ : TaskPc) :
    Function.update tasks t (pc'.map fun pc => (i, pc)) t' = some (j, pc₁) ↔
      (t' = t ∧ j = i ∧ pc' = some pc₁) ∨ (t' ≠ t ∧ tasks t' = some (j, pc₁)) := by
  by_cases heq : t' = t
  · subst heq
    cases pc' <;> simp [eq_comm]
  · simp [heq]

theorem raceOk_task (h : RaceOk s) {t : TaskId} {i : Nat} {pc : TaskPc} {ctx new : Slot}
    {late : Bool} {pc' : Option TaskPc} (ht : s.tasks t = some (i, pc))
    (hctx : s.router.slots[i]? = some ctx)
    (hnext : taskNext s t pc ctx late = some (new, pc'))
    (hslots : s'.router.slots = s.router.slots.set i new)
    (hid : s'.router.nextId = s.router.nextId)
    (htasks : s'.tasks = Function.update s.tasks t (pc'.map fun pc => (i, pc)))
    (htds : s'.teardowns = s.teardowns) (hholder : s'.holder = s.holder)
    (hqueues : ∀ q, (s'.router.queues q).isSome = (s.router.queues q).isSome) : RaceOk s' := by
  obtain ⟨htask, hactive, hqueue, hidle, hfree, hclean, hheld, hold⟩ := h.slot hctx
  have hpc := pc_congr htds hholder
  obtain ⟨hport, hnq, hret, htt⟩ := taskNext_cases hnext
  have hhandle : ctx.txTask = some t := (htask t).mpr ⟨pc, ht⟩
  refine h.of_local hctx hslots (Nat.le_of_eq hid.symm) (fun j _ => by rw [hpc])
    (fun j _ => by rw [hholder]) (fun t' j pc₁ hj => ?_) (fun t' pc₁ htp => ?_)
    (fun q _ _ hsome => by rwa [hqueues]) (fun q hq => .inl (hnq ▸ hq))
    (fun p hp => .inl (hport ▸ hp)) (by rw [htds, hid, hholder]; exact fun k td => h.ending) ?_
  · rw [htasks, update_task ht]
    constructor
    · rintro (⟨-, hji, -⟩ | ⟨-, htp⟩)
      · exact absurd hji hj
      · exact htp
    · intro htp
      refine .inr ⟨?_, htp⟩
      intro heq
      subst heq
      rw [ht] at htp
      cases htp
      exact hj rfl
  · rw [hid]
    rw [htasks, update_task ht] at htp
    rcases htp with ⟨rfl, -, -⟩ | ⟨-, htp⟩
    · exact (h.range ht).1
    · exact (h.range htp).1
  · rw [← hport] at hactive hqueue hidle hfree hheld
    rw [← hret] at hfree
    rw [← hpc] at hactive hqueue hidle hfree hclean
    rw [← hnq] at hqueue hold
    have hnone : ctx.txTask ≠ none := by
      rw [hhandle]
      exact Option.some_ne_none t
    refine ⟨fun t' => ?_, hactive, fun hp hd => ?_, hidle,
      fun h₁ h₂ h₃ => absurd (hfree h₁ h₂ h₃) hnone,
      fun pc₁ h₁ h₂ => absurd (hclean pc₁ h₁ h₂) hnone,
      by rw [hholder, hid]; exact hheld, by rw [hid]; exact hold⟩
    · simp only [htasks, update_task ht]
      rcases htt with ⟨htt, hsome⟩ | ⟨htt, rfl⟩
      · obtain ⟨pc₂, rfl⟩ := Option.isSome_iff_exists.mp hsome
        rw [htt, hhandle]
        constructor
        · intro heq
          exact ⟨pc₂, .inl ⟨(Option.some.inj heq).symm, trivial, rfl⟩⟩
        · rintro ⟨pc₁, ⟨rfl, -, -⟩ | ⟨-, htp⟩⟩
          · rfl
          · rw [← hhandle]
            exact (htask t').mpr ⟨pc₁, htp⟩
      · rw [htt]
        refine iff_of_false (by simp) ?_
        rintro ⟨pc₁, ⟨-, -, hc⟩ | ⟨hne, htp⟩⟩
        · cases hc
        · have heq := (htask t').mpr ⟨pc₁, htp⟩
          rw [hhandle] at heq
          exact hne (Option.some.inj heq).symm
    · obtain ⟨q, hq, hsome⟩ := hqueue hp hd
      exact ⟨q, hq, by rwa [hqueues]⟩

/-! ### Registration -/

theorem not_registered_of_passes {r : Router} {p : PortId} (h : passes r p = true) :
    ∀ ctx ∈ r.slots, ctx.port ≠ some p := by
  intro ctx hctx hp
  have hconf := List.any_eq_false.mp (passes_iff.mp h).2 p (List.mem_filterMap.mpr ⟨ctx, hctx, hp⟩)
  simp [conflicts] at hconf

/-- A slot that is handed out has no task, and of its teardown only the last statement
can be left. -/
theorem handed_free (h : RaceOk s) {p : PortId} {alloc : Alloc}
    (hsafe : s.VacantRegister (.register p alloc) = true) (hpass : passes s.router p = true)
    {r' : Router} {i : Nat} {ctx new : Slot} (hrep : SlotReplaced s.router r' i ctx new) :
    (s.pc i = none ∨ s.pc i = some .retire) ∧ ∀ t pc, s.tasks t ≠ some (i, pc) := by
  obtain ⟨htask, -, -, hidle, hfree, -, -, -⟩ := h.slot hrep.old
  obtain ⟨hp, hor⟩ := hrep.available
  have ht : ctx.txTask = none := by
    rcases hor with hret | ⟨ht, -⟩
    · rcases hidle hp with hpc | hpc
      · exact hfree hp hret hpc
      · simpa [Race.VacantRegister, hrep.free hret, hpass, hpc, hrep.old] using hsafe
    · exact ht
  refine ⟨hidle hp, fun t pc hc => ?_⟩
  rw [(htask t).mpr ⟨pc, hc⟩] at ht
  cases ht

/-- Of the teardowns of such a slot only the last statement is left. -/
theorem RaceOk.only_last (h : RaceOk s) {i k : Nat} (hpc : s.pc i = none ∨ s.pc i = some .retire)
    {td : Teardown} (htd : s.teardowns k = some td) (hi : td.slot = i) : td.pc = .retire := by
  rcases (h.ending htd).2.2 with hk | hlast
  · rw [pc_eq htd hi (hi ▸ hk)] at hpc
    rcases hpc with hc | hc
    · cases hc
    · exact Option.some.inj hc
  · exact hlast

theorem raceOk_register (h : RaceOk s) {p : PortId} {i : Nat} {ctx : Slot}
    (hpass : passes s.router p = true)
    (hrep : SlotReplaced s.router s'.router i ctx (.fresh p s.router.nextId))
    (hfree : (s.pc i = none ∨ s.pc i = some .retire) ∧ ∀ t pc, s.tasks t ≠ some (i, pc))
    (hid : s'.router.nextId = s.router.nextId + 1)
    (hnew : s'.router.queues s.router.nextId = some [])
    (htasks : s'.tasks = Function.update s.tasks s.router.nextId (some (i, .start)))
    (htds : s'.teardowns = s.teardowns)
    (hholder : s'.holder = Function.update s.holder i s.router.nextId) : RaceOk s' := by
  have hnone : s.tasks s.router.nextId = none := by
    cases hc : s.tasks s.router.nextId with
    | none => rfl
    | some pair => exact absurd (h.range hc).1 (Nat.lt_irrefl _)
  have hpc : ∀ j ≠ i, s'.pc j = s.pc j := by
    intro j hj
    rw [Race.pc, htds, hholder, Function.update_of_ne hj, Race.pc]
  -- the new registration has no teardown yet
  have hpci : s'.pc i = none := by
    rw [Race.pc, htds, hholder, Function.update_self]
    cases hc : s.teardowns s.router.nextId with
    | none => rfl
    | some td => exact absurd (h.ending hc).1 (Nat.lt_irrefl _)
  refine h.of_local hrep.old hrep.slots (by omega) hpc
    (fun j hj => by rw [hholder, Function.update_of_ne hj]) (fun t j pc hj => ?_)
    (fun t pc htp => ?_) (fun q hlt hne hsome => ?_) (fun q hq => ?_) (fun p' hp' => .inr ?_)
    (fun k td htd => ?_) ?_
  · rw [htasks]
    by_cases ht : t = s.router.nextId
    · subst ht
      simp [hnone, Ne.symm hj]
    · simp [ht]
  · by_cases ht : t = s.router.nextId
    · rw [hid, ht]
      exact Nat.lt_succ_self _
    · rw [htasks, Function.update_of_ne ht] at htp
      exact absurd htp (hfree.2 t pc)
  · rw [hrep.queues q (Nat.ne_of_lt hlt) hne]
    exact hsome
  · cases hq
    exact .inr (Nat.le_refl _)
  · cases hp'
    exact not_registered_of_passes hpass
  · rw [htds] at htd
    obtain ⟨hlt, hslot, hor⟩ := h.ending htd
    refine ⟨by omega, hslot, ?_⟩
    by_cases hi : td.slot = i
    · exact .inr (h.only_last hfree.1 htd hi)
    · rw [hholder, Function.update_of_ne hi]
      exact hor
  · refine ⟨fun t => ?_, fun _ => ?_, fun _ _ => ⟨_, rfl, by rw [hnew]; rfl⟩, fun hc => ?_,
      fun hc => ?_, fun pc hc => ?_, fun _ => ?_, fun q hq => ?_⟩
    · rw [htasks]
      by_cases ht : t = s.router.nextId
      · subst ht
        simp [Slot.fresh]
      · simpa [Slot.fresh, ht, Ne.symm ht] using fun pc => hfree.2 t pc
    · rw [hpci]
      simp
    · cases hc
    · cases hc
    · rw [hpci] at hc
      cases hc
    · rw [hholder, Function.update_self, hid]
      exact Nat.lt_succ_self _
    · cases hq
      rw [hid]
      exact Nat.lt_succ_self _

theorem raceOk_refused (h : RaceOk s) {i : Nat} {ctx : Slot} {running : Bool}
    (hrep : SlotReplaced s.router s'.router i ctx { running })
    (hfree : (s.pc i = none ∨ s.pc i = some .retire) ∧ ∀ t pc, s.tasks t ≠ some (i, pc))
    (hid : s'.router.nextId = s.router.nextId) (htasks : s'.tasks = s.tasks)
    (htds : s'.teardowns = s.teardowns) (hholder : s'.holder = s.holder) : RaceOk s' := by
  have hpc := pc_congr htds hholder
  refine h.of_local hrep.old hrep.slots (Nat.le_of_eq hid.symm) (fun j _ => by rw [hpc])
    (fun j _ => by rw [hholder]) (fun t j pc _ => by rw [htasks]) (fun t pc htp => ?_)
    (fun q hlt hne hsome => ?_) (fun q hq => by cases hq) (fun p hp => by cases hp)
    (by rw [htds, hid, hholder]; exact fun k td => h.ending) ?_
  · rw [htasks] at htp
    exact absurd htp (hfree.2 t pc)
  · rw [hrep.queues q (Nat.ne_of_lt hlt) hne]
    exact hsome
  · refine ⟨fun t => ?_, fun hc => absurd rfl hc, fun hc => absurd rfl hc,
      fun _ => by rw [hpc]; exact hfree.1, fun _ _ _ => rfl, fun _ _ _ => rfl,
      fun hc => absurd rfl hc, fun q hq => by cases hq⟩
    rw [htasks]
    simpa using fun pc => hfree.2 t pc

/-! ### One step -/

/-- **What one step does.** -/
inductive RaceStep (s : Race) : RaceEvent → Race → Prop
  /-- The port is not registered, or cannot be. -/
  | idle (e : RaceEvent) : RaceStep s e s
  | registered {p : PortId} {alloc : Alloc} {r : Router} {i : Nat} {ctx : Slot} :
      passes s.router p = true →
      SlotReplaced s.router r i ctx (.fresh p s.router.nextId) →
      r.nextId = s.router.nextId + 1 → r.queues s.router.nextId = some [] →
      RaceStep s (.register p alloc)
        { s with
          router := r
          tasks := Function.update s.tasks s.router.nextId (some (i, .start))
          lease := Function.update s.lease s.router.nextId p
          holder := Function.update s.holder i s.router.nextId }
  /-- There is no queue or no task. -/
  | refused {p : PortId} {alloc : Alloc} {r : Router} {i : Nat} {ctx : Slot} {running : Bool} :
      passes s.router p = true → SlotReplaced s.router r i ctx { running } →
      r.nextId = s.router.nextId → RaceStep s (.register p alloc) { s with router := r }
  | sent (f : Frame) (source : PortId) :
      RaceStep s (.send f source) { s with router := (routerSend s.router f source).1 }
  | removed {p : PortId} {caller : Option TaskId} {i : Nat} {ctx : Slot} :
      s.router.slots[i]? = some ctx → ctx.port = some p → s.mayCall caller = true →
      s.teardowns (s.holder i) = none →
      RaceStep s (.remove p caller)
        { s with
          teardowns := Function.update s.teardowns (s.holder i)
            (some { pc := .stop, port := p, caller, slot := i }) }
  | teardown {k : Nat} {late : Bool} {td : Teardown} {ctx new : Slot} {pc : Option TeardownPc} :
      s.teardowns k = some td → s.router.slots[td.slot]? = some ctx →
      teardownNext td ctx late = some (new, pc) →
      RaceStep s (.teardown k late)
        { s with
          router := (teardownEffect s.router td.pc ctx).setSlot td.slot new
          teardowns := Function.update s.teardowns k (pc.map fun pc => { td with pc })
          removed :=
            if pc.isNone then
              Function.update s.removed td.port (max (s.removed td.port) (k + 1))
            else s.removed }
  | task {t : TaskId} {late : Bool} {i : Nat} {pc : TaskPc} {ctx new : Slot} {pc' : Option TaskPc} :
      s.tasks t = some (i, pc) → s.router.slots[i]? = some ctx →
      taskNext s t pc ctx late = some (new, pc') →
      RaceStep s (.task t late)
        { s with
          router := (taskEffect s.router pc late).setSlot i new
          mutex := taskMutex s.mutex t pc
          tasks := Function.update s.tasks t (pc'.map fun pc => (i, pc)) }
  | written (p : PortId) (port : Port) :
      RaceStep s (.write p port) { s with router := s.router.modifyPort p fun _ => port }

theorem race_step {e : RaceEvent} (hs : s.step e = some s') : RaceStep s e s' := by
  cases e with
  | register p alloc =>
      unfold Race.step at hs
      dsimp only at hs
      split_ifs at hs
      split at hs
      · rename_i r' hr
        cases hs
        obtain ⟨hpass, i, ctx, hrep, hid, hnew, -⟩ := registerPort_ok hr
        obtain ⟨r₁, halloc⟩ := hrep.handed
        rw [halloc]
        exact .registered hpass hrep hid hnew
      · rename_i err r' hne hr
        cases hs
        rcases registerPort_error hr hne with rfl | ⟨-, hpass, i, ctx, running, hrep, hid, -⟩
        · exact .idle _
        · exact .refused hpass hrep hid
  | send f source =>
      unfold Race.step at hs
      dsimp only at hs
      split_ifs at hs
      cases hs
      exact .sent f source
  | remove p caller =>
      unfold Race.step at hs
      dsimp only at hs
      split_ifs at hs with hcall
      push Not at hcall
      cases hi : findPortSlot s.router p with
      | none =>
          rw [hi] at hs
          cases hs
          exact .idle _
      | some i =>
          rw [hi] at hs
          dsimp only at hs
          split_ifs at hs with hbusy
          cases hs
          obtain ⟨ctx, hctx, hp⟩ := findPortSlot_spec hi
          exact .removed hctx hp (by simpa using hcall.2) (by simpa using hbusy)
  | teardown k late =>
      unfold Race.step at hs
      dsimp only at hs
      split at hs
      · cases hs
      · rename_i td htd
        split at hs
        · cases hs
        · rename_i ctx hctx
          split at hs
          · cases hs
          · rename_i new pc' hnext
            cases hs
            exact .teardown htd hctx hnext
  | task t late =>
      unfold Race.step at hs
      dsimp only at hs
      split at hs
      · cases hs
      · rename_i i pc ht
        split at hs
        · cases hs
        · rename_i ctx hctx
          split at hs
          · cases hs
          · rename_i new pc' hnext
            cases hs
            exact .task ht hctx hnext
  | write p port =>
      cases hs
      exact .written p port

theorem remove_pc {i : Nat} {td : Teardown} (hnone : s.teardowns (s.holder i) = none)
    (hslot : td.slot = i) (hholder : s'.holder = s.holder)
    (htds : s'.teardowns = Function.update s.teardowns (s.holder i) (some td)) (j : Nat) :
    s'.pc j = if j = i then some td.pc else s.pc j := by
  have hnew : ∀ td', some td = some td' → td'.slot = i := by
    rintro td' ⟨⟩
    exact hslot
  rw [pc_update hholder htds (fun td' hc => (by rw [hnone] at hc; cases hc)) hnew]
  simp

/-- A new teardown: the slot is active. -/
theorem raceOk_remove (h : RaceOk s) {i : Nat} {ctx : Slot} {td : Teardown}
    (hctx : s.router.slots[i]? = some ctx) (hp : ctx.port ≠ none)
    (hnone : s.teardowns (s.holder i) = none) (hslot : td.slot = i) (hstop : td.pc = .stop)
    (hrouter : s'.router = s.router) (htasks : s'.tasks = s.tasks) (hholder : s'.holder = s.holder)
    (htds : s'.teardowns = Function.update s.teardowns (s.holder i) (some td)) : RaceOk s' := by
  obtain ⟨htask, hactive, hqueue, -, -, -, hheld, hold⟩ := h.slot hctx
  have hpc := remove_pc hnone hslot hholder htds
  have hat : s'.pc i = some .stop := by rw [hpc, if_pos rfl, hstop]
  refine h.of_local hctx (by rw [hrouter, set_of_getElem? hctx]) (Nat.le_of_eq (by rw [hrouter]))
    (fun j hj => by rw [hpc, if_neg hj]) (fun j _ => by rw [hholder])
    (fun t j pc _ => by rw [htasks]) (fun t pc htp => ?_) (fun q _ _ hsome => by rwa [hrouter])
    (fun q hq => .inl hq) (fun p hp => .inl hp) (fun k td' hk => ?_) ?_
  · rw [htasks] at htp
    rw [hrouter]
    exact (h.range htp).1
  · rw [htds] at hk
    rw [hrouter, hholder]
    by_cases heq : k = s.holder i
    · subst heq
      rw [Function.update_self] at hk
      cases hk
      rw [hslot]
      exact ⟨hheld hp, (List.getElem?_eq_some_iff.mp hctx).1, .inl rfl⟩
    · rw [Function.update_of_ne heq] at hk
      exact h.ending hk
  · refine ⟨by rw [htasks]; exact htask, fun _ => by rw [hat]; simp, fun _ _ => ?_,
      fun hc => absurd hc hp, fun hc => absurd hc hp, fun pc hc hcl => ?_,
      by rw [hrouter, hholder]; exact hheld, by rw [hrouter]; exact hold⟩
    · rw [hrouter]
      refine hqueue hp fun pc hc => ?_
      simp [Race.pc, hnone] at hc
    · rw [hat] at hc
      cases hc
      cases hcl

theorem raceOk_step (h : RaceOk s) {e : RaceEvent} (hsafe : s.VacantRegister e = true)
    (hs : s.step e = some s') : RaceOk s' := by
  cases race_step hs with
  | idle => exact h
  | registered hpass hrep hid hnew =>
      exact raceOk_register h hpass hrep (handed_free h hsafe hpass hrep) hid hnew rfl rfl rfl
  | refused hpass hrep hid =>
      exact raceOk_refused h hrep (handed_free h hsafe hpass hrep) hid rfl rfl rfl
  | sent f source =>
      obtain ⟨hslots, hid, hqueues, -⟩ := routerSend_frame s.router f source
      exact h.of_quiet hslots rfl rfl rfl hid fun q hq => by rwa [hqueues]
  | removed hctx hp _ hidle =>
      exact raceOk_remove h hctx (by rw [hp]; exact Option.some_ne_none _) hidle rfl rfl rfl rfl rfl
        rfl
  | @teardown k late td ctx new pc htd hctx hnext =>
      obtain ⟨hslots, hid, -⟩ := teardownEffect_frame s.router td.pc ctx
      have hset : ((teardownEffect s.router td.pc ctx).setSlot td.slot new).slots =
          s.router.slots.set td.slot new := by simp [Router.setSlot, hslots]
      by_cases hk : s.holder td.slot = k
      · exact raceOk_teardown h htd hk hctx hnext hset hid rfl rfl rfl rfl
      · exact raceOk_late h htd hk hctx hnext hset hid rfl rfl rfl rfl
  | @task t late i pc ctx new pc' ht hctx hnext =>
      obtain ⟨hslots, hid, hqueues⟩ := taskEffect_frame s.router pc late
      exact raceOk_task h ht hctx hnext (by simp [Router.setSlot, hslots]) hid rfl rfl rfl hqueues
  | written => exact h.of_quiet rfl rfl rfl rfl rfl fun _ => id

theorem raceOk_init (h : s.IsInit) : RaceOk s := by
  obtain ⟨maxPorts, queueDepth, ports, rfl⟩ := h
  have hslot : ∀ {i : Nat} {ctx : Slot},
      (routerInit maxPorts queueDepth ports).slots[i]? = some ctx → ctx = {} := by
    intro i ctx hctx
    exact List.eq_of_mem_replicate (List.mem_of_getElem? hctx)
  refine ⟨fun hctx => ?_, fun _ _ _ _ _ ha _ _ hq => ?_, fun _ _ _ _ _ ha _ _ hp => ?_,
    fun ht => (by cases ht), fun htd => by cases htd⟩
  · cases hslot hctx
    exact ⟨fun t => by simp, fun hc => absurd rfl hc, fun hc => absurd rfl hc, fun _ => .inl rfl,
      fun _ _ _ => rfl, fun _ _ _ => rfl, fun hc => absurd rfl hc, fun q hq => by cases hq⟩
  · cases hslot ha
    cases hq
  · cases hslot ha
    cases hp

/-! ### No slot is retired early -/

/-- A slot is retired only when its teardown ends, and is not handed out before. -/
structure RetiredLast (s : Race) : Prop where
  last : ∀ {k : Nat} {td : Teardown}, s.teardowns k = some td → s.holder td.slot = k
  inUse : ∀ {i : Nat} {ctx : Slot}, s.router.slots[i]? = some ctx →
    ctx.port ≠ none ∨ s.pc i ≠ none → ctx.retired = false

theorem RetiredLast.of_local (h : RetiredLast s) {i : Nat} {ctx new : Slot}
    (hctx : s.router.slots[i]? = some ctx) (hslots : s'.router.slots = s.router.slots.set i new)
    (hpc : ∀ j ≠ i, s'.pc j = s.pc j)
    (hlast : ∀ k td, s'.teardowns k = some td → s'.holder td.slot = k)
    (hnew : new.port ≠ none ∨ s'.pc i ≠ none → new.retired = false) : RetiredLast s' := by
  refine ⟨fun {k td} => hlast k td, fun {j b} hb hor => ?_⟩
  rw [hslots, getElem?_set_some hctx] at hb
  split_ifs at hb with hji
  · subst hji
    cases hb
    exact hnew hor
  · rw [hpc j hji] at hor
    exact h.inUse hb hor

/-- A slot that is handed out outside the window has no teardown. -/
theorem handed_untouched (h : RaceOk s) (hr : RetiredLast s) {p : PortId} {alloc : Alloc}
    (hsafe : s.SafeRegister (.register p alloc) = true) (hpass : passes s.router p = true)
    {r' : Router} {i : Nat} {ctx new : Slot} (hrep : SlotReplaced s.router r' i ctx new) :
    s.pc i = none := by
  rcases (handed_free h (Race.SafeRegister.vacant hsafe) hpass hrep).1 with hpc | hpc
  · exact hpc
  · have hret := hr.inUse hrep.old (.inr (by rw [hpc]; exact Option.some_ne_none _))
    simp [Race.SafeRegister, hrep.free hret, hpass, hpc] at hsafe

theorem retiredLast_remove (hr : RetiredLast s) {i : Nat} {ctx : Slot} {td : Teardown}
    (hctx : s.router.slots[i]? = some ctx) (hp : ctx.port ≠ none)
    (hnone : s.teardowns (s.holder i) = none) (hslot : td.slot = i) (hrouter : s'.router = s.router)
    (hholder : s'.holder = s.holder)
    (htds : s'.teardowns = Function.update s.teardowns (s.holder i) (some td)) :
    RetiredLast s' := by
  refine hr.of_local hctx (by rw [hrouter, set_of_getElem? hctx])
    (fun j hj => by rw [remove_pc hnone hslot hholder htds, if_neg hj]) (fun k td' htd => ?_)
    fun _ => hr.inUse hctx (.inl hp)
  rw [htds] at htd
  rw [hholder]
  by_cases hk : k = s.holder i
  · subst hk
    rw [Function.update_self] at htd
    cases htd
    rw [hslot]
  · rw [Function.update_of_ne hk] at htd
    exact hr.last htd

theorem retiredLast_teardown (h : RaceOk s) (hr : RetiredLast s) {k : Nat} {td : Teardown}
    {ctx new : Slot} {late : Bool} {pc' : Option TeardownPc} (htd : s.teardowns k = some td)
    (hctx : s.router.slots[td.slot]? = some ctx)
    (hnext : teardownNext td ctx late = some (new, pc'))
    (hslots : s'.router.slots = s.router.slots.set td.slot new) (hholder : s'.holder = s.holder)
    (htds : s'.teardowns = Function.update s.teardowns k (pc'.map fun pc => { td with pc })) :
    RetiredLast s' := by
  have hk := hr.last htd
  have hat : s.pc td.slot = some td.pc := pc_eq htd rfl hk
  have hret : ctx.retired = false :=
    hr.inUse hctx (.inr (by rw [hat]; exact Option.some_ne_none _))
  have hpc := teardown_pc htd hholder htds
  refine hr.of_local hctx hslots (fun j hj => by rw [hpc, if_neg fun hc => hj hc.1])
    (fun k' td' htd' => ?_) fun hor => ?_
  · rw [htds] at htd'
    rw [hholder]
    by_cases hkk : k' = k
    · subst hkk
      rw [Function.update_self] at htd'
      obtain ⟨pc, -, rfl⟩ := Option.map_eq_some_iff.mp htd'
      exact hk
    · rw [Function.update_of_ne hkk] at htd'
      exact hr.last htd'
  · obtain ⟨-, -, ⟨_, -, -, -, -, heq, -⟩ | ⟨-, -, -, heq⟩ | ⟨rfl, hlast, hport, -⟩⟩ :=
      teardownNext_cases hnext
    · rw [heq, hret]
    · rw [heq, hret]
    · -- after the last statement the slot is no longer in use
      have hp : ctx.port = none := by
        by_contra hp
        exact (h.slot hctx).active hp (by rw [hat, hlast])
      rw [hpc, if_pos ⟨rfl, hk⟩, hport, hp] at hor
      simp at hor

theorem retiredLast_step (h : RaceOk s) (hr : RetiredLast s) {e : RaceEvent}
    (hsafe : s.SafeRegister e = true) (hs : s.step e = some s') : RetiredLast s' := by
  cases race_step hs with
  | idle => exact hr
  | @registered p alloc r i ctx hpass hrep hid hnew =>
      have hnone := handed_untouched h hr hsafe hpass hrep
      refine hr.of_local hrep.old hrep.slots (fun j hj => ?_) (fun k td htd => ?_) fun _ => rfl
      · simp [Race.pc, Function.update_of_ne hj]
      · have hlast : s.holder td.slot = k := hr.last htd
        have hk : td.slot ≠ i := by
          rintro rfl
          rw [pc_eq (s := s) htd rfl hlast] at hnone
          cases hnone
        dsimp only
        rw [Function.update_of_ne hk]
        exact hlast
  | refused _ hrep =>
      exact hr.of_local hrep.old hrep.slots (fun _ _ => rfl) (fun k td => hr.last) fun _ => rfl
  | sent f source =>
      refine ⟨hr.last, fun {i ctx} hctx => hr.inUse ?_⟩
      dsimp only at hctx
      rwa [(routerSend_frame s.router f source).1] at hctx
  | removed hctx hp _ hnone =>
      exact retiredLast_remove hr hctx (by rw [hp]; exact Option.some_ne_none _) hnone rfl rfl rfl
        rfl
  | @teardown k late td ctx new pc htd hctx hnext =>
      have hslots := (teardownEffect_frame s.router td.pc ctx).1
      exact retiredLast_teardown h hr htd hctx hnext (by simp [Router.setSlot, hslots]) rfl rfl
  | @task t late i pc ctx new pc' ht hctx hnext =>
      obtain ⟨hport, -, hret, -⟩ := taskNext_cases hnext
      have hset :
          ((taskEffect s.router pc late).setSlot i new).slots = s.router.slots.set i new := by
        simp [Router.setSlot, (taskEffect_frame s.router pc late).1]
      refine hr.of_local hctx hset (fun _ _ => rfl) (fun k td => hr.last) fun hor => ?_
      rw [hret]
      exact hr.inUse hctx (hport ▸ hor)
  | written => exact ⟨hr.last, hr.inUse⟩

theorem retiredLast_init (h : s.IsInit) : RetiredLast s := by
  obtain ⟨maxPorts, queueDepth, ports, rfl⟩ := h
  refine ⟨fun htd => (by cases htd), fun hctx _ => ?_⟩
  cases List.eq_of_mem_replicate (List.mem_of_getElem? hctx)
  rfl

theorem safe_ok (h : Reach Race.IsInit Race.step Race.Safe s) : RaceOk s ∧ RetiredLast s :=
  h.invariant (I := fun s => RaceOk s ∧ RetiredLast s)
    (fun _ hi => ⟨raceOk_init hi, retiredLast_init hi⟩) fun _ _ _ hi hsafe hs =>
    ⟨raceOk_step hi.1 (Race.SafeRegister.vacant hsafe.2) hs, retiredLast_step hi.1 hi.2 hsafe.2 hs⟩

end Keep

/-! ### The two windows -/

/-- A slot with a port has a queue. -/
def Race.Intact (s : Race) : Prop :=
  ∀ (i : Nat) (ctx : Slot), s.router.slots[i]? = some ctx → ctx.port ≠ none →
    ∃ q, ctx.txQueue = some q ∧ (s.router.queues q).isSome

section Windows

variable {s : Race}

/-- Outside the first window the router is as `ax25_router_send` takes it to be. -/
theorem RaceOk.wf (h : RaceOk s) (hintact : s.Intact) : s.router.Wf where
  apart := by
    rw [List.pairwise_iff_getElem]
    intro i j hi hj hij p p' hp hp'
    have hgi := List.getElem?_eq_getElem hi
    have hgj := List.getElem?_eq_getElem hj
    obtain ⟨q, hq, -⟩ := hintact i _ hgi (by rw [hp]; exact Option.some_ne_none p)
    refine ⟨?_, fun heq => h.queues hgi hgj (Nat.ne_of_lt hij) hq (heq ▸ hq)⟩
    intro heq
    subst heq
    exact h.ports hgi hgj (Nat.ne_of_lt hij) hp hp'
  live := by
    intro ctx hctx p hp
    obtain ⟨i, hi⟩ := List.getElem?_of_mem hctx
    obtain ⟨q, hq, hsome⟩ := hintact i ctx hi (by rw [hp]; exact Option.some_ne_none p)
    obtain ⟨frames, hf⟩ := Option.isSome_iff_exists.mp hsome
    exact ⟨q, frames, hq, hf⟩

theorem RaceOk.intact (h : RaceOk s) {f : Frame} {source : PortId}
    (hsafe : s.SafeSend (.send f source) = true) : s.Intact := by
  intro i ctx hctx hp
  refine (h.slot hctx).queue hp fun pc hpc => ?_
  have hi := List.mem_range.mpr (List.getElem?_eq_some_iff.mp hctx).1
  have hall := List.all_eq_true.mp hsafe i hi
  simpa [hpc] using hall

/-- A send to a router whose active slots have queues meets no dead queue. -/
theorem outcome_ne_fault {r : Router} (h : r.Wf) {f : Frame} {source : PortId} {o : Offer}
    (ho : o ∈ (routerSend r f source).2) : o.outcome ≠ .fault := by
  obtain ⟨ctx, hctx, hoff⟩ := (mem_routerSend h).mp ho
  obtain ⟨p, hp, -, -, rfl⟩ := offerAt_eq_some.mp hoff
  obtain ⟨q, frames, hq, hf⟩ := h.live ctx hctx p hp
  simp only [Router.sendOutcome, hq, Option.bind_some, bindSource_queues, hf]
  split_ifs <;> simp

/-- **Teardown races.** In every run that avoids the two windows, a slot with a port has
a live queue unless its teardown is between `vQueueDelete` and `ctx->port = NULL`, every
send finds a queue in each active slot, no registration gets a slot on which a task still
runs, and no slot with a port is retired. -/
theorem teardown_races (h : Reach Race.IsInit Race.step Race.Safe s) :
    (∀ (i : Nat) (ctx : Slot), s.router.slots[i]? = some ctx → ctx.port ≠ none →
      (∀ pc, s.pc i = some pc → pc.deleted = false) →
        ∃ q, ctx.txQueue = some q ∧ (s.router.queues q).isSome) ∧
    (∀ f source s', s.Safe (.send f source) → s.step (.send f source) = some s' →
      s.Intact ∧ ∀ o ∈ (routerSend s.router f source).2, o.outcome ≠ .fault) ∧
    (∀ p alloc s' i (ctx : Slot), s.Safe (.register p alloc) → ¬ s.router.Registered p →
      s.step (.register p alloc) = some s' → s'.router.slots[i]? = some ctx → ctx.port = some p →
        ∀ t pc, s.tasks t ≠ some (i, pc)) ∧
    ∀ (i : Nat) (ctx : Slot), s.router.slots[i]? = some ctx → ctx.port ≠ none →
      ctx.retired = false := by
  obtain ⟨hok, hretired⟩ := safe_ok h
  refine ⟨fun i ctx hctx => (hok.slot hctx).queue, fun f source s' hsafe _ => ?_,
    fun p alloc s' i ctx hsafe hp hs hctx hport => ?_,
    fun i ctx hctx hp => hretired.inUse hctx (.inl hp)⟩
  · have hintact := hok.intact hsafe.1
    exact ⟨hintact, fun o ho => outcome_ne_fault (hok.wf hintact) ho⟩
  · cases race_step hs with
    | idle => exact absurd ⟨ctx, List.mem_of_getElem? hctx, hport⟩ hp
    | registered hpass hrep =>
        dsimp only at hctx
        rw [hrep.slots, getElem?_set_some hrep.old] at hctx
        split_ifs at hctx with hij
        · subst hij
          exact (handed_free hok (Race.SafeRegister.vacant hsafe.2) hpass hrep).2
        · exact absurd ⟨ctx, List.mem_of_getElem? hctx, hport⟩ hp
    | refused _ hrep =>
        dsimp only at hctx
        rw [hrep.slots, getElem?_set_some hrep.old] at hctx
        split_ifs at hctx with hij
        · cases hctx
          cases hport
        · exact absurd ⟨ctx, List.mem_of_getElem? hctx, hport⟩ hp

end Windows

/-- A router of one slot, with promiscuous ports. -/
def sampleRace : Race :=
  { router := routerInit 1 8 fun _ => { mode := .promiscuous }
    mutex := none, tasks := fun _ => none, teardowns := fun _ => none
    lease := fun _ => 0, holder := fun _ => 0, removed := fun _ => 0 }

theorem sampleRace_isInit : sampleRace.IsInit := ⟨1, 8, _, rfl⟩

/-- A send while the teardown waits for the port task. -/
theorem teardown_races_waiting :
    ∃ s, Reach Race.IsInit Race.step Race.Safe s ∧ s.Safe (.send frameInit 1) ∧
      ∀ o ∈ (routerSend s.router frameInit 1).2, o.outcome ≠ .fault := by
  have hrun : replay Race.step Race.Safe sampleRace
      [.register 0 {}, .remove 0 none, .teardown 0 false, .teardown 0 false] = some _ := rfl
  have hreach := Reach.replay (.start sampleRace_isInit) hrun
  exact ⟨_, hreach, ⟨rfl, rfl⟩, ((teardown_races hreach).2.1 frameInit 1 _ ⟨rfl, rfl⟩ rfl).2⟩

/-- Port 0 is removed by another task: its task exits, and the teardown deletes the
queue. -/
def queueDeleted : List RaceEvent :=
  [.register 0 {}, .remove 0 none, .teardown 0 false, .teardown 0 false, .task 0 false,
    .task 0 false, .task 0 false, .task 0 false, .teardown 0 false, .teardown 0 false,
    .teardown 0 false]

/-- Port 0 is removed by its own callback, which has come to `ctx->retired = true`. -/
def selfDetached : List RaceEvent :=
  [.register 0 {}, .task 0 false, .task 0 false, .task 0 false, .send frameInit 1, .task 0 false,
    .task 0 false, .task 0 false, .remove 0 (some 0), .teardown 0 false, .teardown 0 false,
    .teardown 0 false]

/-- **Both windows are open.** A send meets the deleted queue of port 0; port 2 gets the
slot of port 0 while the task of port 0 still runs, and is then marked as retired. -/
theorem teardown_windows :
    (∃ s, Reach Race.IsInit Race.step Always s ∧ (s.step (.send frameInit 1)).isSome ∧
      ∃ o ∈ (routerSend s.router frameInit 1).2, o.outcome = .fault) ∧
    (∃ s s' ctx pc, Reach Race.IsInit Race.step Always s ∧ s.step (.register 2 {}) = some s' ∧
      s'.router.slots[0]? = some ctx ∧ ctx.port = some 2 ∧ s.tasks 0 = some (0, pc)) ∧
    ∃ s ctx, Reach Race.IsInit Race.step Always s ∧ s.router.slots[0]? = some ctx ∧
      ctx.port = some 2 ∧ ctx.retired = true := by
  have hdeleted : replay Race.step Always sampleRace queueDeleted = some _ := rfl
  have hself : replay Race.step Always sampleRace selfDetached = some _ := rfl
  have hretired : replay Race.step Always sampleRace
      (selfDetached ++ [.register 2 {}, .teardown 0 false]) = some _ := rfl
  refine ⟨⟨_, Reach.replay (.start sampleRace_isInit) hdeleted, rfl, ?_⟩,
    ⟨_, _, _, _, Reach.replay (.start sampleRace_isInit) hself, rfl, rfl, rfl, rfl⟩,
    ⟨_, _, Reach.replay (.start sampleRace_isInit) hretired, rfl, rfl, rfl⟩⟩
  exact ⟨_, List.mem_cons_self, rfl⟩

end EspAx25
