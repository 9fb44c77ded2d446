import EspAx25.Conn.Send
import EspAx25.Transition
import Mathlib.Logic.Function.Basic

/-!
# EspAx25.Dispatcher.Machine

The callback dispatcher that all connections share (`ax25_conn_dispatcher.c`).

Actions that come up on the timer task are copied into a pool of items, and the index
of the item is sent through a queue to the dispatcher task, which invokes the
callback. `ax25_conn_deinit` quiesces a connection: what is queued for it is
cancelled, and what is being executed is waited for.

A step is what is done under one hold of the dispatcher mutex, or between two of them:
the dispatcher task receives an index, takes the item up, invokes the callback and
finishes; a quiescing task marks and cancels, and may wait for the semaphore of the
connection. `ax25_conn_init` clears the whole context first and fills it in later, both
without the mutex, and is two steps.

The queue and the pool exist from the start: `ax25_conn_init` has created them before
it returns, and so before the first action. Not in the code are

* `life` and `waiters`: how far a connection is between `ax25_conn_init` and the end of
  `ax25_conn_deinit`, and how many tasks other than the dispatcher task wait for its
  semaphore. A context is initialised only if it is new or has been quiesced, and its
  semaphore is deleted only if nobody waits for it.
* `serial`, `accepted` and `invoked`: the actions in the order in which they were
  enqueued, and the invocations.
* `suppressed`: a guard `count > 0` has skipped a decrement.
-/

namespace EspAx25.Dispatcher

open Transition

/-- `AX25_CONN_DISPATCHER_DEPTH`, with and without `CONFIG_SPIRAM`. -/
def depth (spiram : Bool) : Nat := if spiram then 128 else 64

variable {κ : Type}

/-- `ax25_conn_dispatch_item_t`. The default is an item after `calloc`. -/
structure Item (κ : Type) where
  inUse : Bool := false
  cancelled : Bool := false
  executing : Bool := false
  ctx : Option κ := none
  generation : UInt32 := 0
  action : Action := .error .ok "" 0
  serial : Nat := 0
  deriving DecidableEq

/-- The `dispatcher_` fields of an `ax25_conn_t`. The semaphore is `none` if its handle
is NULL. The default is the context after `memset`. -/
structure Ctl where
  generation : UInt32 := 0
  pendingCount : UInt16 := 0
  executingCount : UInt8 := 0
  shutdown : Bool := false
  quiescedSem : Option Bool := none
  deriving DecidableEq

/-- Where `dispatch_task` is. -/
inductive Worker (κ : Type)
  /-- In `xQueueReceive`. -/
  | idle
  /-- With an index, before the mutex. -/
  | received (i : Nat)
  /-- Before `invoke_action`, with the item marked as executing. -/
  | claimed (i : Nat) (c : κ)
  /-- In the callback. -/
  | running (i : Nat) (c : κ)
  /-- In the callback, in `ax25_conn_dispatcher_quiesce`, waiting for the semaphore of
  connection `on`. -/
  | waiting (i : Nat) (c : κ) (on : κ)
  deriving DecidableEq

/-- The connection whose semaphore the dispatcher task waits for. -/
def Worker.awaits : Worker κ → Option κ
  | .waiting _ _ on => some on
  | _ => none

/-- How far a connection is. -/
inductive Life
  /-- Never initialised: the memory holds anything. -/
  | fresh
  /-- In `ax25_conn_init`, cleared. -/
  | clearing
  | ready
  /-- Some call of `ax25_conn_dispatcher_quiesce` waits, and none has returned. -/
  | closing
  /-- A call of `ax25_conn_dispatcher_quiesce` has returned. -/
  | down
  deriving Repr, DecidableEq

/-- One call of `invoke_action`. -/
structure Invocation (κ : Type) where
  serial : Nat
  ctx : κ
  action : Action
  deriving DecidableEq

structure Disp (κ : Type) where
  pool : List (Item κ)
  queue : List Nat
  ctl : κ → Ctl
  worker : Worker κ
  life : κ → Life
  waiters : κ → Nat
  accepted : List (κ × Action)
  invoked : List (Invocation κ)
  suppressed : Bool

/-! ### Connections -/

/-- `maybe_signal_quiesced`. -/
def maybeSignalQuiesced (d : Ctl) : Ctl :=
  if d.shutdown && d.pendingCount == 0 && d.executingCount == 0 then
    { d with quiescedSem := d.quiescedSem.map fun _ => true }
  else d

/-- `if (ctx->dispatcher_pending_count > 0) ctx->dispatcher_pending_count--`, and whether
the decrement was skipped. -/
def decPending (d : Ctl) : Ctl × Bool :=
  if d.pendingCount > 0 then ({ d with pendingCount := d.pendingCount - 1 }, false) else (d, true)

/-- The item is given back to the pool. -/
def Item.free (it : Item κ) : Item κ :=
  { it with inUse := false, cancelled := false, executing := false, ctx := none }

variable [DecidableEq κ]

namespace Disp

def setCtl (s : Disp κ) (c : κ) (d : Ctl) : Disp κ :=
  { s with ctl := Function.update s.ctl c d }

/-- The contents of the slot that an action is copied into. -/
def newItem (s : Disp κ) (c : κ) (action : Action) : Item κ :=
  { inUse := true, ctx := some c, generation := (s.ctl c).generation, action
    serial := s.accepted.length }

/-- `ax25_conn_dispatcher_enqueue`. -/
def enqueue (spiram : Bool) (s : Disp κ) (c : κ) (action : Action) : EspErr × Disp κ :=
  let d := s.ctl c
  if d.shutdown then (.invalidState, s)
  else
    match s.pool.findIdx? fun it => !it.inUse with
    | none => (.noMem, s)
    | some slot =>
      let item := s.newItem c action
      let d := { d with pendingCount := d.pendingCount + 1 }
      if s.queue.length < depth spiram then
        (.ok, { s.setCtl c d with
          pool := s.pool.set slot item
          queue := s.queue ++ [slot]
          accepted := s.accepted ++ [(c, action)] })
      else
        (.noMem, { s.setCtl c { d with pendingCount := d.pendingCount - 1 } with
          pool := s.pool.set slot { item with inUse := false, ctx := none } })

/-! ### The dispatcher task -/

/-- `s_dispatch_pool[i]` -/
def item (s : Disp κ) (i : Nat) : Item κ := s.pool.getD i {}

/-- The item is given back without an invocation. -/
def drop (s : Disp κ) (i : Nat) : Disp κ :=
  { s with pool := s.pool.set i (s.item i).free, worker := .idle }

/-- The first hold of the mutex in `dispatch_task`. -/
def takeUp (s : Disp κ) (i : Nat) : Disp κ :=
  let it := s.item i
  if !it.inUse then { s with worker := .idle }
  else
    match it.ctx with
    | none => s.drop i
    | some c =>
      let d := s.ctl c
      if it.cancelled || it.generation != d.generation || d.shutdown then
        -- a cancelled item has been taken off the count already
        if it.cancelled then s.drop i
        else if d.pendingCount > 0 then
          (s.setCtl c (maybeSignalQuiesced { d with pendingCount := d.pendingCount - 1 })).drop i
        else { s.drop i with suppressed := true }
      else
        let (d, skipped) := decPending d
        { s.setCtl c { d with executingCount := d.executingCount + 1 } with
          pool := s.pool.set i { it with executing := true }
          worker := .claimed i c
          suppressed := s.suppressed || skipped }

/-- `invoke_action`: the callback starts. -/
def invokeAction (s : Disp κ) (i : Nat) (c : κ) : Disp κ :=
  { s with
    worker := .running i c
    invoked := s.invoked ++ [⟨(s.item i).serial, c, (s.item i).action⟩] }

/-- The second hold of the mutex in `dispatch_task`, after the callback. -/
def finish (s : Disp κ) (i : Nat) (c : κ) : Disp κ :=
  let d := s.ctl c
  if d.executingCount > 0 then
    (s.setCtl c (maybeSignalQuiesced { d with executingCount := d.executingCount - 1 })).drop i
  else { s.drop i with suppressed := true }

end Disp

/-! ### Quiescing -/

/-- `item->in_use && !item->executing && !item->cancelled && item->ctx == ctx` -/
def Item.pendingOf (c : κ) (it : Item κ) : Bool :=
  it.inUse && !it.executing && !it.cancelled && it.ctx == some c

/-- The loop of `ax25_conn_dispatcher_quiesce` over the pool. The last result is whether
a decrement was skipped. -/
def cancelItems (c : κ) : List (Item κ) → Ctl → List (Item κ) × Ctl × Bool
  | [], d => ([], d, false)
  | it :: rest, d =>
    if it.pendingOf c then
      let (d, skipped) := decPending d
      let (rest, d, skipped') := cancelItems c rest d
      ({ it with cancelled := true } :: rest, d, skipped || skipped')
    else
      let (rest, d, skipped) := cancelItems c rest d
      (it :: rest, d, skipped)

namespace Disp

/-- The hold of the mutex in `ax25_conn_dispatcher_quiesce`, up to the test of
`wait_needed`. -/
def cancelAll (s : Disp κ) (c : κ) : Disp κ :=
  let d := s.ctl c
  let (pool, d, skipped) :=
    cancelItems c s.pool { d with shutdown := true, generation := d.generation + 1 }
  { s.setCtl c d with pool, suppressed := s.suppressed || skipped }

/-- `wait_needed`, with a semaphore to wait for. -/
def waitNeeded (s : Disp κ) (c : κ) : Bool :=
  let d := s.ctl c
  (d.pendingCount != 0 || d.executingCount != 0) && d.quiescedSem.isSome

/-- `xSemaphoreTake(ctx->dispatcher_quiesced_sem, 0)`, or the end of a wait for it. -/
def takeSem (s : Disp κ) (c : κ) : Disp κ :=
  s.setCtl c { s.ctl c with quiescedSem := (s.ctl c).quiescedSem.map fun _ => false }

def setLife (s : Disp κ) (c : κ) (l : Life) : Disp κ :=
  { s with life := Function.update s.life c l }

/-- Nobody is in `xSemaphoreTake` on the semaphore of `c`. -/
def unwaited (s : Disp κ) (c : κ) : Bool :=
  s.waiters c == 0 && s.worker.awaits != some c

end Disp

/-! ### The machine -/

/-- The steps. `quiesce` and `wake` are those of a task other than the dispatcher task;
`quiesceSelf` and `wakeSelf` are those of the dispatcher task, in a callback. -/
inductive Event (κ : Type)
  | enqueue (c : κ) (action : Action)
  | receive
  | takeUp
  | invoke
  | finish
  | quiesce (c : κ)
  | wake (c : κ)
  | quiesceSelf (c : κ)
  | wakeSelf
  /-- `ax25_conn_deinit` deletes the semaphore. -/
  | deleteSem (c : κ)
  /-- `ax25_conn_init` clears the context. -/
  | initClear (c : κ)
  /-- `ax25_conn_init` creates the semaphore and sets the generation. -/
  | initReady (c : κ)
  deriving DecidableEq

def step (spiram : Bool) (s : Disp κ) : Event κ → Option (Disp κ)
  | .enqueue c action =>
    if s.life c = .fresh then none else some (s.enqueue spiram c action).2
  | .receive =>
    match s.worker, s.queue with
    | .idle, i :: rest =>
      some { s with queue := rest, worker := if i < depth spiram then .received i else .idle }
    | _, _ => none
  | .takeUp =>
    match s.worker with
    | .received i => some (s.takeUp i)
    | _ => none
  | .invoke =>
    match s.worker with
    | .claimed i c => some (s.invokeAction i c)
    | _ => none
  | .finish =>
    match s.worker with
    | .running i c => some (s.finish i c)
    | _ => none
  | .quiesce c =>
    if s.life c = .fresh ∨ s.life c = .clearing then none
    else
      let s := s.cancelAll c
      if s.waitNeeded c then
        some { (s.takeSem c).setLife c .closing with
          waiters := Function.update s.waiters c (s.waiters c + 1) }
      else some (s.setLife c .down)
  | .wake c =>
    if s.waiters c ≠ 0 ∧ (s.ctl c).quiescedSem = some true then
      some { (s.takeSem c).setLife c .down with
        waiters := Function.update s.waiters c (s.waiters c - 1) }
    else none
  | .quiesceSelf c =>
    match s.worker with
    | .running i c' =>
      if s.life c = .fresh ∨ s.life c = .clearing then none
      else
        let s := s.cancelAll c
        if s.waitNeeded c then
          some { (s.takeSem c).setLife c .closing with worker := .waiting i c' c }
        else some (s.setLife c .down)
    | _ => none
  | .wakeSelf =>
    match s.worker with
    | .waiting i c' c =>
      if (s.ctl c).quiescedSem = some true then
        some { (s.takeSem c).setLife c .down with worker := .running i c' }
      else none
    | _ => none
  | .deleteSem c =>
    if s.life c = .down ∧ s.unwaited c then
      some (s.setCtl c { s.ctl c with quiescedSem := none })
    else none
  | .initClear c =>
    if s.life c = .fresh ∨ s.life c = .down ∧ s.unwaited c then
      some ((s.setCtl c {}).setLife c .clearing)
    else none
  | .initReady c =>
    if s.life c = .clearing then
      some ((s.setCtl c { s.ctl c with
        generation := 1, shutdown := false, quiescedSem := some false }).setLife c .ready)
    else none

/-- The dispatcher after `ax25_conn_dispatcher_init_once`, with any memory behind the
connections. -/
def IsInit (spiram : Bool) (s : Disp κ) : Prop :=
  ∃ ctl,
    s = { pool := List.replicate (depth spiram) {}, queue := [], ctl, worker := .idle
          life := fun _ => .fresh, waiters := fun _ => 0, accepted := [], invoked := []
          suppressed := false }

/-- The step is the return of a call `ax25_conn_dispatcher_quiesce(ctx)`: at once, or
from the wait. -/
def Returns (s : Disp κ) (c : κ) : Event κ → Bool
  | .quiesce c' | .quiesceSelf c' => c' == c && !(s.cancelAll c).waitNeeded c
  | .wake c' => c' == c
  | .wakeSelf => s.worker.awaits == some c
  | _ => false

end EspAx25.Dispatcher
