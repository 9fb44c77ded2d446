import Mathlib.Data.Fin.Basic
import Mathlib.Data.List.FinRange
import Mathlib.Logic.Function.Basic
import EspAx25.Agwpe.Convert
import EspAx25.Transition

/-!
# EspAx25.Agwpe.Sessions

The connection slots of an AGWPE server (`ax25_agwpe_server.c`): how a slot is found,
allocated, set up for a command of the client or for a SABM of the router, and freed;
and the check that a callback of a connection makes.

* `n` is `max_conns`, any number. The callback contexts are parallel to the slots, so
  a context is named by the index of its slot, and the comparisons of
  `resolve_valid_conn_callback_ctx` with the array always hold.
* Of the connection of a slot the model keeps whether it is initialised, whether it is
  DISCONNECTED, and its two addresses. The results of the calls to the router and to the
  connection are an input of every operation (`Calls`).
* `lifetime` is not in the source: it counts the allocations of a slot.
* The generation in the callback context is in storage that all lifetimes of the slot
  share, so it never differs from that of the slot, and a callback of an old lifetime is
  accepted whenever the slot is in use again (`stale_callback_exact`).
-/

namespace EspAx25.Sessions

open Transition

/-! ### The server -/

/-- `strcasecmp(a, b) == 0`, in the C locale. -/
def strcaseEq (a b : List Byte) : Bool := a.map toUpper == b.map toUpper

/-- The results of `ax25_router_register_port`, `ax25_conn_init`, `ax25_conn_connect`,
`ax25_conn_shutdown`, and `acquire_deferred` in `ax25_conn_on_frame`. -/
structure Calls where
  registerPort : EspErr
  connInit : EspErr
  connConnect : EspErr
  connShutdown : EspErr
  connOnFrame : EspErr

/-- `agwpe_conn_slot_t`. -/
structure Slot where
  inUse : Bool := false
  connNeedsCleanup : Bool := false
  generation : UInt32 := 0
  connInitialized : Bool := false
  /-- `conn.state` is DISCONNECTED. -/
  connDisconnected : Bool := true
  localAddr : Address := {}
  remoteAddr : Address := {}
  localCall : Fin agwpeCallsignLen → Byte := fun _ => 0
  remoteCall : Fin agwpeCallsignLen → Byte := fun _ => 0
  pid : Byte := 0
  port : Byte := 0
  connRouterPortRegistered : Bool := false
  deriving DecidableEq

/-- `conn_cb_ctx_t`. -/
structure CbCtx where
  /-- `server` and `slot` point to the server and to the slot of the context. -/
  pointers : Bool := false
  generation : UInt32 := 0
  deriving DecidableEq

/-- `ax25_agwpe_server_t`. -/
structure Server (n : Nat) where
  initialized : Bool
  port : Byte
  callsignRegistered : Bool
  registeredCall : Fin agwpeCallsignLen → Byte
  conns : Fin n → Slot
  cbContexts : Fin n → CbCtx
  lifetime : Fin n → Nat

namespace Server

variable {n : Nat} (srv : Server n)

/-- After `ax25_agwpe_server_init`. -/
def init (port : Byte) : Server n :=
  { initialized := true, port, callsignRegistered := false, registeredCall := fun _ => 0
    conns := fun _ => {}, cbContexts := fun _ => {}, lifetime := fun _ => 0 }

def setSlot (i : Fin n) (slot : Slot) : Server n :=
  { srv with conns := Function.update srv.conns i slot }

/-- `find_conn_slot_any_state`. -/
def findConnSlotAnyState (localCall remoteCall : List Byte) : Option (Fin n) :=
  (List.finRange n).find? fun i =>
    let s := srv.conns i
    s.inUse && strcaseEq (agwpeGetCallsign s.localCall) localCall &&
      strcaseEq (agwpeGetCallsign s.remoteCall) remoteCall

/-- `alloc_conn_slot`: the slot is cleared, except for its generation. -/
def allocConnSlot : Option (Fin n × Server n) :=
  ((List.finRange n).find? fun i => !(srv.conns i).inUse).map fun i =>
    let generation := (srv.conns i).generation
    let slot : Slot := { inUse := true, generation := if generation = 0 then 1 else generation }
    (i, { srv.setSlot i slot with
          lifetime := Function.update srv.lifetime i (srv.lifetime i + 1) })

/-- `free_conn_slot`. -/
def freeConnSlot (i : Fin n) : Server n :=
  let slot := srv.conns i
  let next := slot.generation + 1
  let generation := if next = 0 then 1 else next
  { srv with
    conns := Function.update srv.conns i
      { slot with inUse := false, generation, connRouterPortRegistered := false }
    cbContexts := Function.update srv.cbContexts i { srv.cbContexts i with generation } }

/-- `ax25_conn_deinit(&slot->conn)`. -/
def deinitConn (i : Fin n) : Server n :=
  srv.setSlot i { srv.conns i with connInitialized := false }

/-- `sweep_released_conn_slots`, when nothing interferes. -/
def sweepReleasedConnSlots : Server n :=
  { srv with
    conns := fun i =>
      let slot := srv.conns i
      if slot.inUse || !slot.connNeedsCleanup then slot
      else { slot with connInitialized := false, connNeedsCleanup := false } }

/-- What is filled in after the allocation: the slot, and its callback context. -/
def fillSlot (i : Fin n) (localStr remoteStr : List Byte) (pid port : Byte) : Server n :=
  { srv.setSlot i
      { srv.conns i with
        localCall := agwpeSetCallsign localStr
        remoteCall := agwpeSetCallsign remoteStr
        pid
        port } with
    cbContexts := Function.update srv.cbContexts i
      { pointers := true, generation := (srv.conns i).generation } }

/-- `register_conn_router_port`. -/
def registerConnRouterPort (localStr : List Byte) (calls : Calls) : EspErr :=
  match addressFromString localStr with
  | (.ok, _) => calls.registerPort
  | (err, _) => err

/-- The router port and `ax25_conn_init`. If one of them fails, the slot is free
again. -/
def openConn (i : Fin n) (localStr : List Byte) (calls : Calls) : Except (Server n) (Server n) :=
  if registerConnRouterPort localStr calls ≠ .ok then .error (srv.freeConnSlot i)
  else if calls.connInit ≠ .ok then .error (srv.freeConnSlot i)
  else
    .ok (srv.setSlot i
      { srv.conns i with
        connRouterPortRegistered := true
        connInitialized := true
        connDisconnected := true
        localAddr := (addressFromString localStr).2 })

/-- The connection leaves DISCONNECTED with the address of its peer. -/
def setRemote (i : Fin n) (remoteAddr : Address) : Server n :=
  srv.setSlot i { srv.conns i with remoteAddr, connDisconnected := false }

/-- The frame is a SABM that makes a connection in DISCONNECTED take its source for the peer. -/
def takesPeer (i : Fin n) (frame : Frame) (calls : Calls) : Bool :=
  let slot := srv.conns i
  slot.connInitialized && frame.type != .ui && addressEquals frame.destination slot.localAddr &&
    !(frame.digipeaters.any fun digi => !digi.hasBeenRepeated) && calls.connOnFrame == .ok &&
    slot.connDisconnected && frame.type == .u && frame.control &&& 0xEF == ctrlSabm

/-- `ax25_conn_on_frame(&slot->conn, frame)`. In the other states the peer stays. -/
def connOnFrame (i : Fin n) (frame : Frame) (calls : Calls) : Server n :=
  if srv.takesPeer i frame calls then srv.setRemote i frame.source else srv

/-! ### Commands -/

/-- `initiate_connection`. -/
def initiateConnection (frame : AgwpeFrame) (pid : Byte) (calls : Calls) : Server n :=
  let fromStr := agwpeGetCallsign frame.header.callFrom
  let toStr := agwpeGetCallsign frame.header.callTo
  match srv.findConnSlotAnyState fromStr toStr with
  | some _ => srv
  | none =>
    match srv.allocConnSlot with
    | none => srv
    | some (i, srv) =>
      match (srv.fillSlot i fromStr toStr pid frame.header.port).openConn i fromStr calls with
      | .error srv => srv
      | .ok srv =>
        let remoteAddr := (addressFromString toStr).2
        if calls.connConnect ≠ .ok then
          ((srv.setRemote i remoteAddr).deinitConn i).freeConnSlot i
        else srv.setRemote i remoteAddr

/-- `handle_connect_via`. -/
def handleConnectVia (frame : AgwpeFrame) (calls : Calls) : Server n :=
  match parseAgwpeDigipeaterPath frame.contents with
  | .error _ => srv
  | .ok (_, consumed) =>
    if consumed > frame.header.dataLen.toNat then srv
    else srv.initiateConnection frame pidNone calls

/-- `handle_disconnect`. -/
def handleDisconnect (frame : AgwpeFrame) (calls : Calls) : Server n :=
  match srv.findConnSlotAnyState (agwpeGetCallsign frame.header.callFrom)
      (agwpeGetCallsign frame.header.callTo) with
  | none => srv
  | some i =>
    if calls.connShutdown ≠ .ok then (srv.deinitConn i).freeConnSlot i else srv

/-- `handle_register_call`. -/
def handleRegisterCall (frame : AgwpeFrame) : Server n :=
  { srv with registeredCall := frame.header.callFrom, callsignRegistered := true }

/-- `handle_unregister_call`. -/
def handleUnregisterCall : Server n :=
  { srv with callsignRegistered := false, registeredCall := fun _ => 0 }

/-- `ax25_agwpe_server_agwpe_in`. The other kinds do not change the slots. -/
def agwpeIn (frame : AgwpeFrame) (calls : Calls) : Server n :=
  if srv.initialized then
    (match frame.header.dataKind with
      | 0x58 => srv.handleRegisterCall frame
      | 0x78 => srv.handleUnregisterCall
      | 0x43 => srv.initiateConnection frame pidNone calls
      | 0x76 => srv.handleConnectVia frame calls
      | 0x63 => srv.initiateConnection frame frame.header.pid calls
      | 0x64 => srv.handleDisconnect frame calls
      | _ => srv).sweepReleasedConnSlots
  else srv

/-! ### Incoming frames -/

/-- An incoming SABM of a path that has been traversed: `ax25_agwpe_server_ax25_in` from
`callsign_registered` on. -/
def acceptSabm (frame : Frame) (calls : Calls) : Server n :=
  let srcCall := (addressToString frame.source (agwpeCallsignLen + 1)).toOption.getD []
  let dstCall := (addressToString frame.destination (agwpeCallsignLen + 1)).toOption.getD []
  if srv.callsignRegistered then
    let regCall := agwpeGetCallsign srv.registeredCall
    if strcaseEq dstCall regCall then
      match srv.findConnSlotAnyState regCall srcCall with
      | some _ => srv
      | none =>
        match srv.allocConnSlot with
        | none => srv
        | some (i, srv) =>
          match (srv.fillSlot i regCall srcCall pidNone srv.port).openConn i regCall calls with
          | .error srv => srv
          | .ok srv => srv.connOnFrame i frame calls
    else srv
  else srv

/-- `ax25_agwpe_server_ax25_in`. -/
def ax25In (frame : Frame) (calls : Calls) : Server n :=
  if srv.initialized then
    (if frame.type = .u ∧ frame.control &&& ~~~ctrlPfBit = ctrlSabm &&& ~~~ctrlPfBit then
        if frame.digipeaters.any fun digi => !digi.hasBeenRepeated then srv
        else srv.acceptSabm frame calls
      else srv).sweepReleasedConnSlots
  else srv

/-! ### Callbacks -/

/-- `resolve_valid_conn_callback_ctx`, for the context of slot `i`. -/
def resolve (i : Fin n) : Bool :=
  (srv.cbContexts i).pointers && srv.initialized && (srv.conns i).inUse &&
    (srv.cbContexts i).generation == (srv.conns i).generation

/-- `conn_router_on_frame`: a frame for the connection of slot `i`, on its own router port. -/
def connRouterOnFrame (i : Fin n) (frame : Frame) (calls : Calls) : Server n :=
  if srv.resolve i then srv.connOnFrame i frame calls else srv

/-- The connection comes to DISCONNECTED; its callback follows. -/
def connEnds (i : Fin n) : Server n := srv.setSlot i { srv.conns i with connDisconnected := true }

end Server

/-- The callbacks that the server registers. -/
inductive CallbackKind
  | onConnect
  | onDisconnect
  | onData
  | onTxFrame
  | onError
  deriving Repr, DecidableEq

/-- What a callback does to the slots. -/
def Server.callback {n : Nat} (srv : Server n) (i : Fin n) : CallbackKind → Server n
  | .onDisconnect =>
    if srv.resolve i then
      (srv.setSlot i { srv.conns i with connNeedsCleanup := true }).freeConnSlot i
    else srv
  | .onError => if srv.resolve i then (srv.deinitConn i).freeConnSlot i else srv
  | _ => srv

/-! ### Runs -/

/-- A callback: the slot of its context, and the lifetime of the slot that it was issued
in. -/
structure Callback (n : Nat) where
  slot : Fin n
  lifetime : Nat
  deriving DecidableEq

/-- The server, the callbacks issued so far, and those that were accepted although they
belong to another lifetime of the slot. -/
structure Sys (n : Nat) where
  srv : Server n
  issued : List (Callback n)
  misattributed : List (Callback n)

inductive Event (n : Nat)
  | agwpe (frame : AgwpeFrame) (calls : Calls)
  | ax25 (frame : Frame) (calls : Calls)
  /-- `alloc_conn_slot` alone. -/
  | alloc
  /-- `free_conn_slot` alone. -/
  | free (i : Fin n)
  /-- `ax25_agwpe_server_deinit`. -/
  | stop
  /-- The connection of a slot issues a callback. -/
  | issue (i : Fin n)
  /-- A callback is invoked. -/
  | deliver (cb : Callback n) (kind : CallbackKind)

variable {n : Nat}

/-- The slot has been given to another session. -/
def Server.Reused (srv : Server n) (cb : Callback n) : Prop :=
  (srv.conns cb.slot).inUse = true ∧ srv.lifetime cb.slot ≠ cb.lifetime

instance (srv : Server n) (cb : Callback n) : Decidable (srv.Reused cb) :=
  inferInstanceAs (Decidable (_ ∧ _))

def step (s : Sys n) : Event n → Option (Sys n)
  | .agwpe frame calls => some { s with srv := s.srv.agwpeIn frame calls }
  | .ax25 frame calls => some { s with srv := s.srv.ax25In frame calls }
  | .alloc =>
    match s.srv.allocConnSlot with
    | none => none
    | some (_, srv) => some { s with srv }
  | .free i => some { s with srv := s.srv.freeConnSlot i }
  | .stop => some { s with srv := { s.srv with initialized := false } }
  | .issue i =>
    if (s.srv.conns i).connInitialized then
      some { s with issued := ⟨i, s.srv.lifetime i⟩ :: s.issued }
    else none
  | .deliver cb kind =>
    if cb ∈ s.issued then
      some { s with
        srv := s.srv.callback cb.slot kind
        misattributed :=
          if s.srv.resolve cb.slot ∧ s.srv.Reused cb then cb :: s.misattributed
          else s.misattributed }
    else none

def IsInit (s : Sys n) : Prop :=
  (∃ port, s.srv = Server.init port) ∧ s.issued = [] ∧ s.misattributed = []

/-! ### The generations of slot and context -/

/-- A slot and its context: an initialised connection has been given the context, and a
context that has been filled in has the generation of the slot. -/
structure SlotOk (slot : Slot) (ctx : CbCtx) : Prop where
  pointers : slot.connInitialized = true → ctx.pointers = true
  generation : ctx.pointers = true → ctx.generation = slot.generation ∧ slot.generation ≠ 0

def Synced (srv : Server n) : Prop := ∀ i, SlotOk (srv.conns i) (srv.cbContexts i)

/-- What every operation keeps. -/
structure Keeps (srv srv' : Server n) : Prop where
  synced : Synced srv → Synced srv'
  pointers : ∀ i, (srv.cbContexts i).pointers = true → (srv'.cbContexts i).pointers = true

namespace Keeps

variable {srv srv₁ srv₂ : Server n} {i : Fin n}

theorem refl (srv : Server n) : Keeps srv srv := ⟨id, fun _ => id⟩

theorem trans (h₁ : Keeps srv srv₁) (h₂ : Keeps srv₁ srv₂) : Keeps srv srv₂ :=
  ⟨h₂.synced ∘ h₁.synced, fun i => h₂.pointers i ∘ h₁.pointers i⟩

/-- An operation on slot `i` and its context. -/
theorem of_update {slot : Slot} {ctx : CbCtx} (hconns : srv₁.conns = Function.update srv.conns i slot)
    (hctx : srv₁.cbContexts = Function.update srv.cbContexts i ctx)
    (hok : SlotOk (srv.conns i) (srv.cbContexts i) → SlotOk slot ctx)
    (hpointers : (srv.cbContexts i).pointers = true → ctx.pointers = true) : Keeps srv srv₁ := by
  refine ⟨fun h j => ?_, fun j hj => ?_⟩
  · rw [hconns, hctx]
    by_cases hji : j = i
    · rw [hji, Function.update_self, Function.update_self]
      exact hok (h i)
    · rw [Function.update_of_ne hji, Function.update_of_ne hji]
      exact h j
  · rw [hctx]
    by_cases hji : j = i
    · rw [hji, Function.update_self]
      exact hpointers (hji ▸ hj)
    · rw [Function.update_of_ne hji]
      exact hj

/-- An operation on slot `i` alone, that does not initialise the connection. -/
theorem setSlot {slot : Slot} (hgen : slot.generation = (srv.conns i).generation)
    (hinit : slot.connInitialized = true →
      (srv.conns i).connInitialized = true ∨ (srv.cbContexts i).pointers = true) :
    Keeps srv (srv.setSlot i slot) := by
  refine of_update rfl (Function.update_eq_self i srv.cbContexts).symm (fun h => ?_) id
  refine ⟨fun h' => ?_, fun hp => by rw [hgen]; exact h.generation hp⟩
  rcases hinit h' with hold | hp
  · exact h.pointers hold
  · exact hp

theorem free (srv : Server n) (i : Fin n) : Keeps srv (srv.freeConnSlot i) := by
  refine of_update rfl rfl (fun h => ⟨h.pointers, fun _ => ⟨rfl, ?_⟩⟩) id
  dsimp only
  split_ifs with hzero
  · decide
  · exact hzero

theorem alloc (h : srv.allocConnSlot = some (i, srv₁)) :
    Keeps srv srv₁ ∧ (srv₁.conns i).generation ≠ 0 := by
  obtain ⟨j, -, hj⟩ := Option.map_eq_some_iff.mp h
  cases hj
  refine ⟨of_update rfl (Function.update_eq_self i srv.cbContexts).symm (fun h => ?_) id, ?_⟩
  · refine ⟨fun h' => (by cases h'), fun hp => ?_⟩
    obtain ⟨hgen, hne⟩ := h.generation hp
    rw [if_neg hne]
    exact ⟨hgen, hne⟩
  · simp only [Server.setSlot, Function.update_self]
    split_ifs with hzero
    · decide
    · exact hzero

theorem fill (hgen : (srv.conns i).generation ≠ 0) (localStr remoteStr : List Byte)
    (pid port : Byte) :
    Keeps srv (srv.fillSlot i localStr remoteStr pid port) ∧
      ((srv.fillSlot i localStr remoteStr pid port).cbContexts i).pointers = true :=
  ⟨of_update rfl rfl (fun _ => ⟨fun _ => rfl, fun _ => ⟨rfl, hgen⟩⟩) fun _ => rfl, by
    simp only [Server.fillSlot, Function.update_self]⟩

theorem deinit (srv : Server n) (i : Fin n) : Keeps srv (srv.deinitConn i) :=
  setSlot rfl fun h => by cases h

theorem setRemote (srv : Server n) (i : Fin n) (remoteAddr : Address) :
    Keeps srv (srv.setRemote i remoteAddr) := setSlot rfl .inl

theorem connOnFrame (srv : Server n) (i : Fin n) (frame : Frame) (calls : Calls) :
    Keeps srv (srv.connOnFrame i frame calls) := by
  unfold Server.connOnFrame
  split_ifs
  · exact setRemote srv i _
  · exact refl srv

/-- From the allocation to the initialised connection, or to the free slot. -/
theorem openConn (h : srv.allocConnSlot = some (i, srv₁)) (localStr remoteStr : List Byte)
    (pid port : Byte) (calls : Calls) :
    match (srv₁.fillSlot i localStr remoteStr pid port).openConn i localStr calls with
    | .error srv₂ => Keeps srv srv₂
    | .ok srv₂ => Keeps srv srv₂ := by
  obtain ⟨halloc, hgen⟩ := alloc h
  obtain ⟨hfill, hpointers⟩ := fill hgen localStr remoteStr pid port
  have hkept := halloc.trans hfill
  unfold Server.openConn
  split_ifs
  · exact hkept.trans (free _ i)
  · exact hkept.trans (free _ i)
  · exact hkept.trans (setSlot rfl fun _ => .inr hpointers)

theorem initiateConnection (srv : Server n) (frame : AgwpeFrame) (pid : Byte) (calls : Calls) :
    Keeps srv (srv.initiateConnection frame pid calls) := by
  unfold Server.initiateConnection
  dsimp only
  split
  · exact refl srv
  · split
    · exact refl srv
    · rename_i i srv₁ halloc
      have hopen := openConn halloc (agwpeGetCallsign frame.header.callFrom)
        (agwpeGetCallsign frame.header.callTo) pid frame.header.port calls
      split
      · rename_i heq
        rw [heq] at hopen
        exact hopen
      · rename_i heq
        rw [heq] at hopen
        split_ifs
        · exact ((hopen.trans (setRemote _ i _)).trans (deinit _ i)).trans (free _ i)
        · exact hopen.trans (setRemote _ i _)

theorem handleDisconnect (srv : Server n) (frame : AgwpeFrame) (calls : Calls) :
    Keeps srv (srv.handleDisconnect frame calls) := by
  unfold Server.handleDisconnect
  split
  · exact refl srv
  · split_ifs
    · exact (deinit srv _).trans (free _ _)
    · exact refl srv

theorem handleConnectVia (srv : Server n) (frame : AgwpeFrame) (calls : Calls) :
    Keeps srv (srv.handleConnectVia frame calls) := by
  unfold Server.handleConnectVia
  split
  · exact refl srv
  · split_ifs
    · exact refl srv
    · exact initiateConnection srv frame pidNone calls

theorem sweep (srv : Server n) : Keeps srv srv.sweepReleasedConnSlots := by
  refine ⟨fun h i => ?_, fun i => id⟩
  unfold Server.sweepReleasedConnSlots
  dsimp only
  split_ifs
  · exact h i
  · exact ⟨fun h' => (by cases h'), (h i).generation⟩

theorem agwpeIn (srv : Server n) (frame : AgwpeFrame) (calls : Calls) :
    Keeps srv (srv.agwpeIn frame calls) := by
  unfold Server.agwpeIn
  split_ifs
  · refine Keeps.trans ?_ (sweep _)
    split
    · exact ⟨id, fun _ => id⟩
    · exact ⟨id, fun _ => id⟩
    · exact initiateConnection srv frame pidNone calls
    · exact handleConnectVia srv frame calls
    · exact initiateConnection srv frame frame.header.pid calls
    · exact handleDisconnect srv frame calls
    · exact refl srv
  · exact refl srv

theorem acceptSabm (srv : Server n) (frame : Frame) (calls : Calls) :
    Keeps srv (srv.acceptSabm frame calls) := by
  unfold Server.acceptSabm
  dsimp only
  split_ifs
  · split
    · exact refl srv
    · split
      · exact refl srv
      · rename_i i srv₁ halloc
        have hopen := openConn halloc (agwpeGetCallsign srv.registeredCall)
          ((addressToString frame.source (agwpeCallsignLen + 1)).toOption.getD []) pidNone srv₁.port
          calls
        split
        · rename_i heq
          rw [heq] at hopen
          exact hopen
        · rename_i heq
          rw [heq] at hopen
          exact hopen.trans (connOnFrame _ i frame calls)
  · exact refl srv
  · exact refl srv

theorem ax25In (srv : Server n) (frame : Frame) (calls : Calls) :
    Keeps srv (srv.ax25In frame calls) := by
  unfold Server.ax25In
  split_ifs
  · exact sweep srv
  · exact (acceptSabm srv frame calls).trans (sweep _)
  · exact sweep srv
  · exact refl srv

theorem callback (srv : Server n) (i : Fin n) (kind : CallbackKind) :
    Keeps srv (srv.callback i kind) := by
  cases kind with
  | onDisconnect =>
      simp only [Server.callback]
      split_ifs
      · have hmark : Keeps srv (srv.setSlot i { srv.conns i with connNeedsCleanup := true }) :=
          setSlot rfl .inl
        exact hmark.trans (free _ i)
      · exact refl srv
  | onError =>
      simp only [Server.callback]
      split_ifs
      · exact (deinit srv i).trans (free _ i)
      · exact refl srv
  | onConnect | onData | onTxFrame => exact refl srv

end Keeps

/-! ### Stale callbacks -/

/-- The invariant: the contexts of the callbacks that have been issued are filled in. -/
structure SysOk (s : Sys n) : Prop where
  synced : Synced s.srv
  issued : ∀ cb ∈ s.issued, (s.srv.cbContexts cb.slot).pointers = true

theorem sysOk_init {s : Sys n} (h : IsInit s) : SysOk s := by
  obtain ⟨⟨port, hsrv⟩, hissued, -⟩ := h
  refine ⟨fun i => ?_, fun cb hcb => ?_⟩
  · rw [hsrv]
    exact ⟨fun h => (by cases h), fun h => (by cases h)⟩
  · rw [hissued] at hcb
    cases hcb

/-- A step on the server alone. -/
theorem SysOk.of_keeps {s : Sys n} (h : SysOk s) {srv : Server n} (hk : Keeps s.srv srv)
    (misattributed : List (Callback n)) : SysOk { s with srv, misattributed } :=
  ⟨hk.synced h.synced, fun cb hcb => hk.pointers _ (h.issued cb hcb)⟩

theorem sysOk_step {s s' : Sys n} {e : Event n} (h : SysOk s) (hs : step s e = some s') :
    SysOk s' := by
  cases e with
  | agwpe frame calls =>
      cases hs
      exact h.of_keeps (Keeps.agwpeIn _ frame calls) _
  | ax25 frame calls =>
      cases hs
      exact h.of_keeps (Keeps.ax25In _ frame calls) _
  | alloc =>
      simp only [step] at hs
      split at hs
      · cases hs
      · rename_i i srv halloc
        cases hs
        exact h.of_keeps (Keeps.alloc halloc).1 _
  | free i =>
      cases hs
      exact h.of_keeps (Keeps.free _ i) _
  | stop =>
      cases hs
      have hk : Keeps s.srv { s.srv with initialized := false } := ⟨id, fun _ => id⟩
      exact h.of_keeps hk _
  | issue i =>
      simp only [step] at hs
      split_ifs at hs with hinit
      cases hs
      refine ⟨h.synced, fun cb hcb => ?_⟩
      rcases List.mem_cons.mp hcb with rfl | hcb
      · exact (h.synced i).pointers hinit
      · exact h.issued cb hcb
  | deliver cb kind =>
      simp only [step] at hs
      split at hs
      · cases hs
        exact h.of_keeps (Keeps.callback _ cb.slot kind) _
      · cases hs

/-- **What the check decides.** For a callback that has been issued, in whatever
lifetime of the slot, it only tells whether the slot is in use. -/
theorem SysOk.resolve_eq {s : Sys n} (h : SysOk s) {cb : Callback n} (hcb : cb ∈ s.issued) :
    s.srv.resolve cb.slot = (s.srv.initialized && (s.srv.conns cb.slot).inUse) := by
  have hpointers := h.issued cb hcb
  have hgen := ((h.synced cb.slot).generation hpointers).1
  simp only [Server.resolve, hpointers, hgen, Bool.true_and, beq_self_eq_true, Bool.and_true]

/-- The step does not deliver a callback of an old lifetime to a slot that is in use
again. -/
def NoReuse (s : Sys n) : Event n → Prop
  | .deliver cb _ => s.srv.initialized = true → ¬ s.srv.Reused cb
  | _ => True

instance (s : Sys n) (e : Event n) : Decidable (NoReuse s e) := by
  cases e <;> unfold NoReuse <;> infer_instance

/-- A step adds to the callbacks that are accepted wrongly exactly if it delivers one of
them to a slot that is in use again. -/
theorem misattributed_step {s s' : Sys n} {e : Event n} (h : SysOk s) (hs : step s e = some s') :
    (NoReuse s e → s'.misattributed = s.misattributed) ∧
      (¬ NoReuse s e → ∃ cb, s'.misattributed = cb :: s.misattributed) := by
  cases e with
  | agwpe frame calls | ax25 frame calls | free i | stop =>
      cases hs
      exact ⟨fun _ => rfl, fun hno => absurd trivial hno⟩
  | alloc =>
      simp only [step] at hs
      split at hs
      · cases hs
      · cases hs
        exact ⟨fun _ => rfl, fun hno => absurd trivial hno⟩
  | issue i =>
      simp only [step] at hs
      split_ifs at hs
      cases hs
      exact ⟨fun _ => rfl, fun hno => absurd trivial hno⟩
  | deliver cb kind =>
      simp only [step] at hs
      split_ifs at hs with hmem
      · rename_i hacc
        cases hs
        rw [h.resolve_eq hmem, Bool.and_eq_true] at hacc
        exact ⟨fun hno => absurd hacc.2 (hno hacc.1.1), fun _ => ⟨cb, rfl⟩⟩
      · rename_i hacc
        cases hs
        refine ⟨fun _ => rfl, fun hno => ?_⟩
        simp only [NoReuse, not_forall, not_not] at hno
        obtain ⟨hinit, hreused⟩ := hno
        rw [h.resolve_eq hmem, hinit, hreused.1] at hacc
        exact absurd ⟨rfl, hreused⟩ hacc

/-- **Stale callbacks are accepted exactly when the slot is in use again.** In every run
that delivers no callback of an old lifetime to a slot in use, no callback is attributed to
another session; and every step that delivers one does attribute it to the session that has
the slot now. -/
theorem stale_callback_exact :
    (∀ s : Sys n, Reach IsInit step NoReuse s → s.misattributed = []) ∧
    ∀ (s s' : Sys n) (e : Event n), Reach IsInit step Always s → step s e = some s' →
      ¬ NoReuse s e → s'.misattributed ≠ [] := by
  constructor
  · intro s h
    have hinv : SysOk s ∧ s.misattributed = [] :=
      h.invariant (I := fun s => SysOk s ∧ s.misattributed = [])
        (fun s hs => ⟨sysOk_init hs, hs.2.2⟩) fun s e s' hs hok hstep =>
          ⟨sysOk_step hs.1 hstep, ((misattributed_step hs.1 hstep).1 hok).trans hs.2⟩
    exact hinv.2
  · intro s s' e h hstep hno
    have hinv : SysOk s :=
      h.invariant (fun s hs => sysOk_init hs) fun s e s' hs _ hstep => sysOk_step hs hstep
    obtain ⟨cb, hcb⟩ := (misattributed_step hinv hstep).2 hno
    rw [hcb]
    exact List.cons_ne_nil cb _

/-! ### A slot that is used again -/

/-- A 'C' command. -/
def connectFrame (callFrom callTo : List Byte) : AgwpeFrame :=
  { agwpeFrameInit with
    header :=
      { agwpeFrameInit.header with
        dataKind := 0x43
        callFrom := agwpeSetCallsign callFrom
        callTo := agwpeSetCallsign callTo } }

/-- Every call succeeds. -/
def allOk : Calls := ⟨.ok, .ok, .ok, .ok, .ok⟩

/-- A server with one slot. -/
def oneSlot : Sys 1 := { srv := Server.init 0, issued := [], misattributed := [] }

theorem isInit_oneSlot : IsInit oneSlot := ⟨⟨0, rfl⟩, rfl, rfl⟩

/-- A asks for a connection to B, which ends; then for one to C. -/
def secondSession : List (Event 1) :=
  [.agwpe (connectFrame [0x41] [0x42]) allOk, .issue 0, .issue 0, .deliver ⟨0, 1⟩ .onDisconnect,
    .agwpe (connectFrame [0x41] [0x43]) allOk]

/-- A second callback of the session with B ends the session with C. -/
theorem stale_callback_accepted :
    ¬ ∀ (n : Nat) (s : Sys n), Reach IsInit step Always s → s.misattributed = [] := by
  intro hall
  have hrun : (replay step Always oneSlot (secondSession ++ [.deliver ⟨0, 1⟩ .onDisconnect])).map
      (fun s => (s.misattributed, (s.srv.conns 0).inUse)) = some ([⟨0, 1⟩], false) := by
    decide +kernel
  cases hs : replay step Always oneSlot (secondSession ++ [.deliver ⟨0, 1⟩ .onDisconnect]) with
  | none =>
      rw [hs] at hrun
      cases hrun
  | some s =>
      rw [hs] at hrun
      have hnil := hall 1 s (Reach.replay (.start isInit_oneSlot) hs)
      have hone : s.misattributed = [⟨0, 1⟩] := congrArg Prod.fst (Option.some.inj hrun)
      rw [hnil] at hone
      cases hone

/-- Delivered before the slot is used again, it is rejected. -/
theorem stale_callback_exact_rejected :
    ∃ s : Sys 1, replay step NoReuse oneSlot
        (secondSession.take 4 ++ [.deliver ⟨0, 1⟩ .onData]) = some s ∧ s.misattributed = [] := by
  cases hs : replay step NoReuse oneSlot (secondSession.take 4 ++ [.deliver ⟨0, 1⟩ .onData]) with
  | none =>
      have hrun : (replay step NoReuse oneSlot
          (secondSession.take 4 ++ [.deliver ⟨0, 1⟩ .onData])).isSome = true := by decide +kernel
      rw [hs] at hrun
      cases hrun
  | some s => exact ⟨s, rfl, stale_callback_exact.1 s (Reach.replay (.start isInit_oneSlot) hs)⟩

end EspAx25.Sessions
