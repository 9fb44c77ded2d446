import Mathlib.Logic.Function.Basic
import EspAx25.Frame
import EspAx25.Transducer

/-!
# EspAx25.Router.State

The router of `ax25_router.c`: its port table and the operations on it.

* A port structure belongs to the application and is known by its address, a
  `PortId`; `Router.ports` is what the memory holds at each address. Queues are
  kept in the same way: `Router.queues` is `none` at a handle that was never
  created or has been deleted, so a stale handle is not a queue.
* One counter (`nextId`) makes the handles: the queue and the task of one
  registration have the same number, and no later registration has it again.
* `xQueueSend` on a handle that is no queue is undefined behaviour. It is the
  outcome `fault` of an offer here, and changes nothing.
* The router is the one after `ax25_router_init`; the arguments are not `NULL`.
-/

namespace EspAx25

open Transducer

/-! ### Ports and slots -/

/-- `ax25_router_port_mode_t`. -/
inductive PortMode
  | static
  | default
  | promiscuous
  | digipeater
  | dynamic
  deriving Repr, DecidableEq

/-- The address of an `ax25_router_port_t`. -/
abbrev PortId := Nat

/-- A `QueueHandle_t` that is not `NULL`. -/
abbrev QueueId := Nat

/-- A `TaskHandle_t` that is not `NULL`. -/
abbrev TaskId := Nat

/-- `ax25_router_port_t`. Of the callback only its presence is kept: `user_data`
is handed on to it and never read. -/
structure Port where
  destination : Address := {}
  mode : PortMode := .static
  hasCallback : Bool := true
  framesSent : UInt32 := 0
  bytesSent : UInt32 := 0
  framesDropped : UInt32 := 0
  deriving Repr, DecidableEq, Inhabited

/-- `ax25_router_port_ctx_t`. The default value is the slot after `calloc`. -/
structure Slot where
  port : Option PortId := none
  txQueue : Option QueueId := none
  txTask : Option TaskId := none
  running : Bool := false
  stopped : Bool := false
  retired : Bool := false
  deriving Repr, DecidableEq, Inhabited

/-- `ax25_router_t`, with the memory it points into. -/
structure Router where
  slots : List Slot
  queueDepth : Nat
  ports : PortId → Port
  queues : QueueId → Option (List Frame)
  nextId : Nat

/-- `ax25_router_init`, with `max_ports` slots and queues of `queue_depth` frames;
both are at least one. -/
def routerInit (maxPorts queueDepth : Nat) (ports : PortId → Port) : Router :=
  { slots := List.replicate (max maxPorts 1) {}
    queueDepth := max queueDepth 1
    ports
    queues := fun _ => none
    nextId := 0 }

/-- Replace slot `i`. -/
def Router.setSlot (r : Router) (i : Nat) (slot : Slot) : Router :=
  { r with slots := r.slots.set i slot }

/-- Change the port structure at `p`. -/
def Router.modifyPort (r : Router) (p : PortId) (f : Port → Port) : Router :=
  { r with ports := Function.update r.ports p (f (r.ports p)) }

/-- `vQueueDelete`. -/
def Router.deleteQueue (r : Router) (q : QueueId) : Router :=
  { r with queues := Function.update r.queues q none }

/-! ### Helpers -/

/-- `next_digipeater_index`; `none` for -1. -/
def nextDigipeaterIndex (frame : Frame) : Option Nat :=
  frame.digipeaters.findIdx? fun d => !d.hasBeenRepeated

/-- `next_digipeater`. -/
def nextDigipeater (frame : Frame) : Option Address :=
  frame.digipeaters.find? fun d => !d.hasBeenRepeated

/-- `frame_byte_count`. -/
def frameByteCount (frame : Frame) : UInt32 :=
  UInt32.ofNat (addressLen * (2 + frame.digipeaters.length)
    + (1 + if frame.type = .i ∨ frame.type = .ui then 1 else 0) + frame.payload.length)

/-- `port_dynamic_is_bound`. -/
def portDynamicIsBound (port : Port) : Bool := port.destination.callsign != []

/-- `port_is_eligible`. -/
def portIsEligible (port : Port) (frame : Frame) (nextDigi : Option Address) : Bool :=
  match port.mode with
  | .promiscuous => true
  | .default => false
  | .digipeater =>
    match nextDigi with
    | none => false
    | some d => addressEquals port.destination d
  | .static => nextDigi.isNone && addressEquals port.destination frame.destination
  | .dynamic =>
    if !portDynamicIsBound port then false
    else nextDigi.isNone && addressEquals port.destination frame.destination

/-! ### Sending -/

/-- What became of a frame that was offered to a port. -/
inductive SendOutcome
  | queued
  | dropped
  | fault
  deriving Repr, DecidableEq

/-- A frame offered to a port: the port, the queue handle that was used, the copy. -/
structure Offer where
  port : PortId
  queue : Option QueueId
  frame : Frame
  outcome : SendOutcome
  deriving Repr, DecidableEq

/-- What `xQueueSend(queue, frame, 0)` does. -/
def Router.sendOutcome (r : Router) (queue : Option QueueId) : SendOutcome :=
  match queue.bind r.queues with
  | none => .fault
  | some frames => if frames.length < r.queueDepth then .queued else .dropped

/-- `enqueue_tx_frame`, for a slot whose port is `p`. -/
def enqueueTxFrame (r : Router) (ctx : Slot) (p : PortId) (frame : Frame) : Router × Offer :=
  let outcome := r.sendOutcome ctx.txQueue
  let offer : Offer := { port := p, queue := ctx.txQueue, frame, outcome }
  match outcome with
  | .queued =>
    ({ r with
        queues := fun q =>
          if ctx.txQueue = some q then (r.queues q).map (· ++ [frame]) else r.queues q }, offer)
  | .dropped => (r.modifyPort p fun port => { port with framesDropped := port.framesDropped + 1 }, offer)
  | .fault => (r, offer)

/-- The copy that `enqueue_tx_frame_for_port` hands on. -/
def forwarded (mode : PortMode) (frame : Frame) (nextDigiIdx : Option Nat) : Frame :=
  match mode, nextDigiIdx with
  | .digipeater, some i =>
    { frame with
      digipeaters := frame.digipeaters.modify i fun d => { d with hasBeenRepeated := true } }
  | _, _ => frame

/-- `enqueue_tx_frame_for_port`. -/
def enqueueTxFrameForPort (r : Router) (ctx : Slot) (p : PortId) (frame : Frame)
    (nextDigiIdx : Option Nat) : Router × Offer :=
  enqueueTxFrame r ctx p (forwarded (r.ports p).mode frame nextDigiIdx)

/-- The binding of an unbound dynamic source port in `ax25_router_send`. -/
def bindSource (r : Router) (frame : Frame) (source : PortId) : Router :=
  if (r.ports source).mode = .dynamic ∧ !portDynamicIsBound (r.ports source) then
    r.modifyPort source fun port => { port with destination := frame.source }
  else r

/-- A port that makes the default port stand back, once it is eligible. -/
def normalPort (port : Port) : Bool :=
  port.mode = .static || port.mode = .digipeater || (port.mode = .dynamic && portDynamicIsBound port)

/-- The body of the first pass: router and `normal_port_matched`. -/
def firstPass (frame : Frame) (source : PortId) : Router × Bool → Slot → (Router × Bool) × List Offer
  | (r, matched), ctx =>
    match ctx.port with
    | none => ((r, matched), [])
    | some p =>
      if p = source then ((r, matched), [])
      else if !portIsEligible (r.ports p) frame (nextDigipeater frame) then ((r, matched), [])
      else
        let matched := matched || normalPort (r.ports p)
        let (r, offer) := enqueueTxFrameForPort r ctx p frame (nextDigipeaterIndex frame)
        ((r, matched), [offer])

/-- The body of the second pass. -/
def secondPass (frame : Frame) (source : PortId) (r : Router) (ctx : Slot) : Router × List Offer :=
  match ctx.port with
  | none => (r, [])
  | some p =>
    if p = source then (r, [])
    else if (r.ports p).mode = .default then
      let (r, offer) := enqueueTxFrameForPort r ctx p frame (nextDigipeaterIndex frame)
      (r, [offer])
    else (r, [])

/-- `ax25_router_send`. -/
def routerSend (r : Router) (frame : Frame) (source : PortId) : Router × List Offer :=
  let r := bindSource r frame source
  let ((r, matched), offers) := run (firstPass frame source) (r, false) r.slots
  if matched then (r, offers)
  else
    let (r, more) := run (secondPass frame source) r r.slots
    (r, offers ++ more)

/-! ### Registering -/

/-- The first scan of `alloc_port_slot`. -/
def freeSlot (slots : List Slot) : Option Nat :=
  slots.findIdx? fun ctx => ctx.port.isNone && !ctx.retired

/-- The second scan of `alloc_port_slot`. -/
def reclaimableSlot (slots : List Slot) : Option Nat :=
  slots.findIdx? fun ctx => ctx.port.isNone && ctx.retired && ctx.txTask.isNone && !ctx.running

/-- `alloc_port_slot`: the slot and the router after a leftover queue was deleted. -/
def allocPortSlot (r : Router) : Option (Nat × Router) :=
  match freeSlot r.slots with
  | some i => some (i, r)
  | none =>
    match reclaimableSlot r.slots with
    | none => none
    | some i =>
      let ctx := r.slots.getD i {}
      let r :=
        match ctx.txQueue with
        | some q => r.deleteQueue q
        | none => r
      some (i, r.setSlot i { ctx with txQueue := none, retired := false, stopped := false })

/-- `find_port_slot`. -/
def findPortSlot (r : Router) (port : PortId) : Option Nat :=
  r.slots.findIdx? fun ctx => ctx.port = some port

/-- A mode whose destinations must differ. -/
def PortMode.addressed (mode : PortMode) : Bool := mode = .static || mode = .digipeater

/-- The three tests of `ax25_router_register_port` against a registered port. -/
def conflicts (ports : PortId → Port) (port : PortId) (ep : PortId) : Bool :=
  ep = port ||
    ((ports port).mode = .default && (ports ep).mode = .default) ||
    ((ports port).mode.addressed && (ports ep).mode.addressed &&
      addressEquals (ports port).destination (ports ep).destination)

/-- What the heap grants a registration. -/
structure Alloc where
  queue : Bool := true
  task : Bool := true

/-- `ax25_router_register_port`. -/
def registerPort (r : Router) (port : PortId) (alloc : Alloc) : EspErr × Router :=
  if !(r.ports port).hasCallback then (.invalidArg, r)
  else if (r.slots.filterMap Slot.port).any (conflicts r.ports port) then (.invalidState, r)
  else
    match allocPortSlot r with
    | none => (.noMem, r)
    | some (i, r) =>
      if !alloc.queue then (.noMem, r.setSlot i {})
      else if !alloc.task then (.noMem, r.setSlot i { running := true })
      else
        let id := r.nextId
        let r := r.setSlot i { port := some port, txQueue := some id, txTask := some id, running := true }
        let r := { r with queues := Function.update r.queues id (some []), nextId := id + 1 }
        (.ok, r.modifyPort port fun p => { p with framesSent := 0, bytesSent := 0, framesDropped := 0 })

/-! ### Removing -/

/-- The last writes of `router_port_tx_task`. -/
def Slot.taskExit (ctx : Slot) : Slot := { ctx with stopped := true, txTask := none }

/-- The slot after its teardown has waited, and the port task has left its loop or not. -/
def Slot.afterWait (ctx : Slot) (exits : Bool) : Slot :=
  if ctx.txTask.isSome ∧ exits then ctx.taskExit else ctx

/-- `port_ctx_teardown` as one step, called by the task `self` (`none` for a task that
is no port task). `exits` says that the port task leaves its loop while the caller
waits for it. -/
def portCtxTeardown (r : Router) (i : Nat) (self : Option TaskId) (exits : Bool) : Router :=
  let ctx := { r.slots.getD i {} with running := false }
  if self.isSome ∧ ctx.txTask = self then r.setSlot i { ctx with port := none, retired := true }
  else
    let ctx := ctx.afterWait exits
    if ctx.txTask.isSome then r.setSlot i { ctx with port := none, retired := true }
    else
      let r :=
        match ctx.txQueue with
        | some q => r.deleteQueue q
        | none => r
      r.setSlot i
        { ctx with txQueue := none, txTask := none, stopped := false, port := none, retired := true }

/-- `ax25_router_remove_port`. -/
def removePort (r : Router) (port : PortId) (self : Option TaskId) (exits : Bool) : EspErr × Router :=
  match findPortSlot r port with
  | none => (.notFound, r)
  | some i => (.ok, portCtxTeardown r i self exits)

/-- One round of the loop of `router_port_tx_task` on slot `i`, if its queue is not
empty: a frame is taken from the queue and delivered, unless the port is gone. -/
def portTaskRound (r : Router) (i : Nat) : Option Router :=
  let ctx := r.slots.getD i {}
  match ctx.txQueue with
  | none => none
  | some q =>
    match r.queues q with
    | some (frame :: rest) =>
      let r := { r with queues := Function.update r.queues q (some rest) }
      match ctx.port with
      | none => some r
      | some p =>
        some (r.modifyPort p fun port =>
          { port with
            framesSent := port.framesSent + 1
            bytesSent := port.bytesSent + frameByteCount frame })
    | _ => none

end EspAx25
