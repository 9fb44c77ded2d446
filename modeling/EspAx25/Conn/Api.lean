import EspAx25.Conn.Handlers

/-!
# EspAx25.Conn.Api

The public functions of `ax25_conn.c` and the three timer callbacks.

Each function is split where the source is: checks made without the mutex, then
`acquire_deferred`, then the locked section. The locked sections are functions
on `Locked` (named after the function they belong to), so that a property of all
of them is a property of `Op.body`. What a call has done when it gives the mutex
back is a `Call`; draining its batch is left to the machines built on top.
-/

namespace EspAx25

/-- A call after its (first) locked section: the context, the deferred buffer it
holds, the actions it has recorded, and how the section ended. -/
structure Call where
  conn : Conn
  buffer : Option Conn.Buffer
  batch : List Action
  outcome : Outcome

/-- A call that returns without having touched the context. -/
def Call.early (c : Conn) (ret : EspErr) : Call := ⟨c, none, [], .returned ret⟩

/-- `LOCK`, `acquire_deferred`, the body, `UNLOCK`. Without a buffer the call
returns `failed`, having done nothing. -/
def Conn.locked (heap : Bool) (c : Conn) (failed : EspErr) (body : Locked → Locked × Outcome) :
    Call :=
  match c.acquireDeferred heap with
  | none => .early c failed
  | some (buf, c) =>
    let r := body ⟨c, []⟩
    ⟨r.1.conn, some buf, r.1.deferred, r.2⟩

/-! ### Initialisation -/

/-- The results of the resource allocations that `ax25_conn_init` makes, in
order. -/
structure InitResources where
  mutex : Bool
  quiescedSem : Bool
  dispatcher : EspErr
  deferredPool : Bool
  timerT1 : EspErr
  timerT2 : EspErr
  timerT3 : EspErr

/-- The normalisation of the window size in `ax25_conn_init`. -/
def Config.normalize (cfg : Config) : Config :=
  if cfg.windowSize < 1 ∨ cfg.windowSize > 7 then { cfg with windowSize := 4 } else cfg

/-- The context that a successful `ax25_conn_init` leaves behind: all zero but
for what is set here. -/
def Conn.fresh (localAddr : Address) (callbacks : Callbacks) (cfg : Config) : Conn :=
  { config := cfg
    localAddr := localAddr
    remoteAddr := {}
    remoteAddrSet := false
    path := []
    callbacks := callbacks
    state := .disconnected
    isLocalInitiated := false
    refusePending := false
    vs := 0, vr := 0, va := 0
    peerBusy := false, localBusy := false, rejSent := false, ackPending := false
    retryCount := 0
    t1CurrentMs := cfg.t1Ms
    deferredPoolInUse := fun _ => false
    txQueue := fun _ => {}
    timerT1 := {}, timerT2 := {}, timerT3 := {}
    initialized := true
    magicCookie := liveCookie }

/-- `ax25_conn_init`. -/
def Conn.init (res : InitResources) (localAddr : Address) (callbacks : Callbacks)
    (config : Option Config) : Except EspErr Conn :=
  if !callbacks.onTxFrame || !callbacks.onData then .error .invalidArg
  else if !res.mutex then .error .noMem
  else if !res.quiescedSem then .error .noMem
  else if res.dispatcher ≠ .ok then .error res.dispatcher
  else if !res.deferredPool then .error .noMem
  else if res.timerT1 ≠ .ok then .error res.timerT1
  else if res.timerT2 ≠ .ok then .error res.timerT2
  else if res.timerT3 ≠ .ok then .error res.timerT3
  else .ok (Conn.fresh localAddr callbacks (config.getD Config.default).normalize)

/-! ### Locked sections -/

namespace Locked

/-- `ax25_conn_connect_via`, locked. -/
def connectVia (s : Locked) (remoteAddr : Address) (digipeaters : List Address) :
    Locked × EspErr :=
  if s.conn.state ≠ .disconnected then (s, .invalidState)
  else
    let s := s.modify fun c =>
      { c with
        remoteAddr := remoteAddr, remoteAddrSet := true, isLocalInitiated := true,
        retryCount := 0 }
    match s.conn.setConnPath digipeaters with
    | (_, .ok) =>
      let s := s.modify fun c =>
        ((c.setConnPath digipeaters).1.resetStateVars).seedT1ForPath
      match s.sendSabm true with
      | (s, .ok) => (s.modify fun c => { c with state := .awaitingConnection }.startTimerT1, .ok)
      | (s, err) => (s, err)
    | (_, err) => (s, err)

/-- `ax25_conn_on_frame`, locked: the source filter and the state dispatch. -/
def onFrame (s : Locked) (frame : Frame) : Locked × Outcome :=
  if s.conn.remoteAddrSet ∧ s.conn.state ≠ .disconnected ∧
      !addressEquals frame.source s.conn.remoteAddr then (s, .returned .ok)
  else
    match s.conn.state with
    | .disconnected => s.handleFrameDisconnected frame
    | .awaitingConnection => s.handleFrameAwaitingConnection frame
    | .awaitingRelease =>
      let r := s.handleFrameAwaitingRelease frame
      (r.1, .returned r.2)
    | .connected =>
      let r := s.handleFrameConnected frame
      (r.1, .returned r.2)
    | .timerRecovery =>
      let r := s.handleFrameTimerRecovery frame
      (r.1, .returned r.2)

/-- `ax25_conn_send_data`, locked. -/
def sendData (s : Locked) (data : List Byte) : Locked × EspErr :=
  if s.conn.state ≠ .connected ∧ s.conn.state ≠ .timerRecovery then (s, .invalidState)
  else
    match s.conn.queueIFrame data with
    | (c, .ok) => { s with conn := c }.sendPendingIFrames
    | (_, err) => (s, err)

/-- `ax25_conn_shutdown`, locked. -/
def shutdown (s : Locked) : Locked × EspErr :=
  if s.conn.state = .disconnected then (s, .ok)
  else if s.conn.state = .awaitingRelease then (s, .ok)
  else
    let s := s.modify fun c => { c.stopAllTimers with retryCount := 0 }
    match s.sendDisc true with
    | (s, .ok) => (s.modify fun c => { c with state := .awaitingRelease }.startTimerT1, .ok)
    | (s, err) => (s, err)

/-- `ax25_conn_set_busy`, locked. -/
def setBusy (s : Locked) (busy : Bool) : Locked :=
  if s.conn.localBusy ≠ busy then
    let s := s.modify fun c => { c with localBusy := busy }
    if s.conn.state = .connected ∨ s.conn.state = .timerRecovery then
      if busy then
        let s := s.modify fun c => { c with ackPending := false }.stopTimerT2
        (s.sendRnr false false).1
      else (s.sendRr false false).1
    else s
  else s

/-- The `TIMER_RECOVERY` case of `timer_t1_callback`, which the `CONNECTED` case
falls into. -/
def pollOrFail (s : Locked) : Locked :=
  if s.conn.retryCount ≥ s.conn.config.n2Retries then
    let s := s.deferOnError .timeout "Link failure (N2 exceeded)"
    (s.sendDm true).1.enterDisconnectedState
  else
    let s := s.modify fun c => { c with retryCount := c.retryCount + 1 }
    (s.sendRr true true).1.modify Conn.startTimerT1

/-- `timer_t1_callback`, locked. -/
def timerT1Callback (s : Locked) : Locked :=
  match s.conn.state with
  | .awaitingConnection =>
    if s.conn.retryCount ≥ s.conn.config.n2Retries then
      (s.deferOnError .timeout "Connection timeout (N2 exceeded)").enterDisconnectedState
    else
      let s := s.modify fun c => { c with retryCount := c.retryCount + 1 }
      (s.sendSabm true).1.modify Conn.startTimerT1
  | .awaitingRelease =>
    if s.conn.retryCount ≥ s.conn.config.n2Retries then
      (s.deferOnError .timeout "Disconnect timeout (N2 exceeded)").enterDisconnectedState
    else
      let s := s.modify fun c => { c with retryCount := c.retryCount + 1 }
      (s.sendDisc true).1.modify Conn.startTimerT1
  | .connected => (s.modify fun c => { c with state := .timerRecovery, retryCount := 0 }).pollOrFail
  | .timerRecovery => s.pollOrFail
  | .disconnected => s

/-- `timer_t2_callback`, locked. -/
def timerT2Callback (s : Locked) : Locked :=
  if s.conn.state = .connected ∨ s.conn.state = .timerRecovery then
    if s.conn.ackPending then
      (s.sendAck false false).1.modify fun c => { c with ackPending := false }
    else s
  else s

/-- `timer_t3_callback`, locked. -/
def timerT3Callback (s : Locked) : Locked :=
  if s.conn.state = .connected then
    (s.sendRr true true).1.modify fun c =>
      { c with state := .timerRecovery, retryCount := 0 }.startTimerT1
  else s

end Locked

/-! ### Operations -/

/-- The operations that take the connection mutex. `ax25_conn_refuse` does not. -/
inductive Op
  | connectVia (remoteAddr : Address) (digipeaters : List Address)
  | onFrame (frame : Frame)
  | sendData (data : List Byte)
  | shutdown
  | setBusy (busy : Bool)
  | timerT1
  | timerT2
  | timerT3
  deriving DecidableEq

namespace Op

/-- The checks made before `LOCK`: `some ret` if the call returns there. -/
def precheck (c : Conn) : Op → Option EspErr
  | connectVia _ digipeaters =>
    if !c.initialized then some .invalidArg
    else if digipeaters.length > maxDigipeaters then some .invalidArg
    else none
  | onFrame frame =>
    if !c.initialized then some .invalidArg
    else if frame.type = .ui then some .ok
    else if !addressEquals frame.destination c.localAddr then some .ok
    else if frame.digipeaters.any (!·.hasBeenRepeated) then some .ok
    else none
  | sendData data =>
    if !c.initialized || data.isEmpty then some .invalidArg
    else if data.length > maxInfoLen then some .invalidSize
    else none
  | shutdown | setBusy _ => if !c.initialized then some .invalidArg else none
  | timerT1 | timerT2 | timerT3 =>
    if c.magicCookie != liveCookie || !c.initialized then some .ok else none

/-- The locked section of an operation. -/
def body : Op → Locked → Locked × Outcome
  | connectVia remoteAddr digipeaters, s =>
    let r := s.connectVia remoteAddr digipeaters
    (r.1, .returned r.2)
  | onFrame frame, s => s.onFrame frame
  | sendData data, s =>
    let r := s.sendData data
    (r.1, .returned r.2)
  | shutdown, s =>
    let r := s.shutdown
    (r.1, .returned r.2)
  | setBusy busy, s => (s.setBusy busy, .returned .ok)
  | timerT1, s => (s.timerT1Callback, .returned .ok)
  | timerT2, s => (s.timerT2Callback, .returned .ok)
  | timerT3, s => (s.timerT3Callback, .returned .ok)

/-- What a call returns when `acquire_deferred` fails; a timer callback has no
result. -/
def noMemResult : Op → EspErr
  | timerT1 | timerT2 | timerT3 => .ok
  | _ => .noMem

/-- A timer callback consumes the expiry it was started for. -/
def consumeExpiry (c : Conn) : Op → Conn
  | timerT1 => { c with timerT1 := c.timerT1.expire }
  | timerT2 => { c with timerT2 := c.timerT2.expire }
  | timerT3 => { c with timerT3 := c.timerT3.expire }
  | _ => c

/-- An operation up to the end of its (first) locked section. -/
def call (heap : Bool) (c : Conn) (op : Op) : Call :=
  let c := op.consumeExpiry c
  match op.precheck c with
  | some ret => .early c ret
  | none => c.locked heap op.noMemResult op.body

end Op

/-- `ax25_conn_refuse`. -/
def Conn.refuse (c : Conn) : Conn × EspErr :=
  if !c.initialized then (c, .invalidArg) else ({ c with refusePending := true }, .ok)

end EspAx25
