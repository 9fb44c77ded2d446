import EspAx25.Conn.Machine
import EspAx25.Dispatcher.Machine

/-!
# EspAx25.Agwpe.Callbacks

The connections of an AGWPE server and their callbacks on the dispatcher task
(`ax25_agwpe_server.c`).

The server owns an array of slots with a connection in each; `κ` is the type of their
indices. A timer callback of a connection runs on the timer task, which enqueues its
batch to the dispatcher action by action. The dispatcher task invokes the callbacks:
`conn_on_disconnect` leaves the cleanup to others, and `conn_on_error` takes the server
mutex, deinitialises the connection and frees the slot.

The callbacks of the dispatcher task are given step by step (`CallbackPc`). All other
tasks (router ports, clients of the server, and the timer task where the dispatcher has
no room) are one environment: it may run an operation of any connection, take and release
the server mutex, allocate and free slots, and deinitialise and initialise connections,
in any order. That is more than the code does, so what holds of every run holds of the
code; a run that shows a failure uses only what the code does.

`conn_on_connect`, `conn_on_data` and `conn_on_frame` change nothing of what is modelled
here, and `on_link_reset` and `on_final` are not registered.
-/

namespace EspAx25.Agwpe

open EspAx25.Dispatcher (Disp)

/-- The part of `agwpe_conn_slot_t` that the callbacks look at, with the copy of the
generation in the `conn_cb_ctx_t` of the slot. -/
structure ConnSlot where
  inUse : Bool := false
  connNeedsCleanup : Bool := false
  generation : UInt32 := 0
  ctxGeneration : UInt32 := 0
  deriving DecidableEq

/-- `alloc_conn_slot`, with the callback context that its callers fill in. -/
def ConnSlot.alloc (slot : ConnSlot) : ConnSlot :=
  let generation := if slot.generation = 0 then 1 else slot.generation
  { inUse := true, connNeedsCleanup := false, generation, ctxGeneration := generation }

/-- `free_conn_slot` -/
def ConnSlot.free (slot : ConnSlot) : ConnSlot :=
  let next := slot.generation + 1
  let generation := if next = 0 then 1 else next
  { slot with inUse := false, generation, ctxGeneration := generation }

/-- The callbacks that the server registers. -/
def connCallbacks : Callbacks :=
  { onConnect := true, onDisconnect := true, onLinkReset := false, onError := true
    onFinal := false, onData := true, onTxFrame := true }

/-- Where the dispatcher task is in a callback. -/
inductive CallbackPc
  /-- At the start of the callback. -/
  | start
  /-- In `conn_on_error`, before `xSemaphoreTake(srv->mutex)`. -/
  | wantMutex
  /-- In `conn_on_error`, before `ax25_conn_deinit`. -/
  | locked
  /-- In `ax25_conn_deinit`, in or after `ax25_conn_dispatcher_quiesce`. -/
  | deinit
  /-- In `conn_on_error`, before `free_conn_slot`. -/
  | release
  /-- Before the second hold of the dispatcher mutex. -/
  | done
  deriving Repr, DecidableEq

/-- Who holds the server mutex. -/
inductive Holder
  | dispatcher
  | other
  deriving Repr, DecidableEq

structure Server (κ : Type) where
  initialized : Bool
  disp : Disp κ
  conn : κ → Conn
  slot : κ → ConnSlot
  mutex : Option Holder
  callback : CallbackPc
  /-- What the timer task has still to enqueue, in `drain_deferred`. -/
  batch : List (κ × Action)

inductive Event (κ : Type)
  /-- A timer elapses. -/
  | fire (c : κ) (t : TimerId)
  /-- The timer task runs the callback of a timer, up to `drain_deferred`. -/
  | expire (c : κ) (t : TimerId) (heap : Bool)
  /-- The timer task enqueues the next action of its batch. -/
  | drain
  /-- A frame or an API call, on another task. -/
  | call (c : κ) (op : Op) (heap refuses : Bool)
  /-- The dispatcher task outside of a callback, or a piece of `ax25_conn_deinit` or
  `ax25_conn_init` on another task. -/
  | disp (e : Dispatcher.Event κ)
  /-- The next step of the callback on the dispatcher task. -/
  | callback
  /-- Another task takes the server mutex. -/
  | lock
  /-- Another task releases the server mutex. -/
  | unlock
  | alloc (c : κ)
  | free (c : κ) (needsCleanup : Bool)
  /-- `ax25_conn_deinit` on another task: `ctx->initialized = false`. -/
  | mark (c : κ)
  /-- The end of `ax25_conn_init`. -/
  | ready (c : κ) (localAddr : Address)
  /-- `ax25_agwpe_server_deinit`: `server->initialized = false`. -/
  | stop
  deriving DecidableEq

def timerOp : TimerId → Op
  | .t1 => .timerT1
  | .t2 => .timerT2
  | .t3 => .timerT3

/-- The steps of the dispatcher that are not made through `drain` or `callback`. -/
def outside : Dispatcher.Event κ → Bool
  | .enqueue _ _ | .quiesceSelf _ | .wakeSelf => false
  | _ => true

namespace Server

variable {κ : Type} [DecidableEq κ]

/-- `resolve_valid_conn_callback_ctx` -/
def resolve (s : Server κ) (c : κ) : Bool :=
  s.initialized && (s.slot c).inUse && (s.slot c).ctxGeneration == (s.slot c).generation

def setConn (s : Server κ) (c : κ) (conn : Conn) : Server κ :=
  { s with conn := Function.update s.conn c conn }

def setSlot (s : Server κ) (c : κ) (slot : ConnSlot) : Server κ :=
  { s with slot := Function.update s.slot c slot }

/-- `ctx->initialized = false; ctx->magic_cookie = 0` -/
def unmake (s : Server κ) (c : κ) : Server κ :=
  s.setConn c { s.conn c with initialized := false, magicCookie := 0 }

/-- A step of the dispatcher that is part of a step of the server. -/
def liftDisp (spiram : Bool) (s : Server κ) (e : Dispatcher.Event κ) : Option (Server κ) :=
  (Dispatcher.step spiram s.disp e).map fun d => { s with disp := d }

/-- One step of the callback for item `i` of connection `c`. -/
def callbackStep (spiram : Bool) (s : Server κ) (i : Nat) (c : κ) : Option (Server κ) :=
  match s.callback with
  | .start =>
    match (s.disp.item i).action with
    | .error .. => some { s with callback := if s.resolve c then .wantMutex else .done }
    | .disconnect =>
      if s.resolve c then
        some { s.setSlot c { s.slot c with connNeedsCleanup := true }.free with callback := .done }
      else some { s with callback := .done }
    | _ => some { s with callback := .done }
  | .wantMutex =>
    if s.mutex = none then some { s with mutex := some .dispatcher, callback := .locked } else none
  | .locked =>
    if (s.conn c).initialized then
      ({ s.unmake c with callback := .deinit }).liftDisp spiram (.quiesceSelf c)
    else some { s with callback := .release }
  | .deinit => some { s with callback := .release }
  | .release => some { s.setSlot c (s.slot c).free with mutex := none, callback := .done }
  | .done => none

def step (spiram : Bool) (s : Server κ) : Event κ → Option (Server κ)
  | .fire c t => some (s.setConn c ((s.conn c).fire t))
  | .expire c t heap =>
    match s.batch with
    | [] =>
      let r := (s.conn c).step (.call (timerOp t) heap false)
      some { s.setConn c r.conn with batch := r.out.map fun a => (c, a) }
    | _ :: _ => none
  | .drain =>
    match s.batch with
    | [] => none
    | (c, action) :: rest => ({ s with batch := rest }).liftDisp spiram (.enqueue c action)
  | .call c op heap refuses =>
    match op with
    | .timerT1 | .timerT2 | .timerT3 => none
    | _ => some (s.setConn c ((s.conn c).step (.call op heap refuses)).conn)
  | .disp e =>
    match e with
    | .invoke => ({ s with callback := .start }).liftDisp spiram e
    | .finish => if s.callback = .done then s.liftDisp spiram e else none
    | .initClear c => (s.unmake c).liftDisp spiram e
    | _ => if outside e then s.liftDisp spiram e else none
  | .callback =>
    match s.disp.worker with
    | .running i c => s.callbackStep spiram i c
    | .waiting _ _ _ => s.liftDisp spiram .wakeSelf
    | _ => none
  | .lock => if s.mutex = none then some { s with mutex := some .other } else none
  | .unlock => if s.mutex = some .other then some { s with mutex := none } else none
  | .alloc c => if (s.slot c).inUse then none else some (s.setSlot c (s.slot c).alloc)
  | .free c needsCleanup =>
    some (s.setSlot c { s.slot c with
      connNeedsCleanup := (s.slot c).connNeedsCleanup || needsCleanup }.free)
  | .mark c => some (s.unmake c)
  | .ready c localAddr =>
    if s.disp.life c = .ready then
      some (s.setConn c (Conn.fresh localAddr connCallbacks Config.default))
    else none
  | .stop => some { s with initialized := false }

/-- A server after `ax25_agwpe_server_init`: no connection is initialised. -/
def IsInit (spiram : Bool) (s : Server κ) : Prop :=
  Dispatcher.IsInit spiram s.disp ∧ (∀ c, (s.conn c).initialized = false) ∧ s.mutex = none ∧
    s.callback = .done ∧ s.batch = []

end Server

end EspAx25.Agwpe
