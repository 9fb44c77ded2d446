import EspAx25.Conn.State

/-!
# EspAx25.Conn.Send

Recording of deferred actions, the transmit helpers, the transmit queue and the
N(R) handling of `ax25_conn.c`.

Every function here runs with the connection mutex held. It sees the context
and the batch of actions of the current call, so it works on a `Locked` pair of
the two (the arguments `ctx` and `deferred` of the source).
-/

namespace EspAx25

/-! ### Deferred actions -/

/-- `ax25_conn_dispatch_action_t`. -/
inductive Action
  /-- `on_error`, with code, message and the retry count at that time. -/
  | error (code : EspErr) (message : String) (retryCount : UInt8)
  | disconnect
  | linkReset
  /-- `on_connect`. It is never recorded: the handlers call it directly, with
  the mutex released, and the machine logs that call with this constructor. -/
  | connect (remoteAddr : Address) (isLocal : Bool)
  | final
  | data (payload : List Byte)
  | frame (f : Frame)
  deriving Repr, DecidableEq

/-- `AX25_CONN_MAX_DEFERRED_ACTIONS`. -/
def maxDeferredActions : Nat := 12

/-- What a call works on between `LOCK` and `UNLOCK`. -/
structure Locked where
  conn : Conn
  deferred : List Action

namespace Locked

/-- Change the context and keep the batch. -/
def modify (s : Locked) (f : Conn → Conn) : Locked := { s with conn := f s.conn }

@[simp] theorem modify_conn (s : Locked) (f : Conn → Conn) : (s.modify f).conn = f s.conn := rfl

@[simp] theorem modify_deferred (s : Locked) (f : Conn → Conn) :
    (s.modify f).deferred = s.deferred := rfl

/-- `defer_action`: append unless the batch is full. -/
def deferAction (s : Locked) (a : Action) : Locked × Bool :=
  if s.deferred.length ≥ maxDeferredActions then (s, false)
  else ({ s with deferred := s.deferred ++ [a] }, true)

/-- `defer_on_error`. -/
def deferOnError (s : Locked) (code : EspErr) (msg : String) : Locked :=
  (s.deferAction (.error code msg s.conn.retryCount)).1

/-- `defer_on_disconnect`. -/
def deferOnDisconnect (s : Locked) : Locked := (s.deferAction .disconnect).1

/-- `defer_on_link_reset`. -/
def deferOnLinkReset (s : Locked) : Locked := (s.deferAction .linkReset).1

/-- `defer_on_final`. -/
def deferOnFinal (s : Locked) : Locked := (s.deferAction .final).1

/-- `defer_on_data`: a payload that does not fit the action is not recorded. -/
def deferOnData (s : Locked) (payload : List Byte) : Locked :=
  if payload.length > maxInfoLen then s else (s.deferAction (.data payload)).1

/-! ### Frame transmission -/

/-- `send_frame_internal`. -/
def sendFrameInternal (s : Locked) (f : Frame) : Locked × EspErr :=
  match s.deferAction (.frame f) with
  | (s, true) => (s, .ok)
  | (s, false) => (s, .noMem)

/-- The fields that every transmit helper fills in the same way: the addresses
and the path (`apply_conn_path`) come from the context. -/
def outFrame (c : Conn) (isCommand : Bool) (type : FrameType) (control : Byte) : Frame :=
  { frameInit with
    destination := c.remoteAddr
    source := c.localAddr
    digipeaters := c.path
    isCommand := isCommand
    type := type
    control := control }

/-- The body shared by the four U-frame helpers. -/
def sendUFrame (ctrl : Byte) (isCommand : Bool) (s : Locked) (pf : Bool) : Locked × EspErr :=
  s.sendFrameInternal (outFrame s.conn isCommand .u (ctrl ||| pfBits pf))

/-- `send_sabm`. -/
def sendSabm : Locked → Bool → Locked × EspErr := sendUFrame ctrlSabm true

/-- `send_disc`. -/
def sendDisc : Locked → Bool → Locked × EspErr := sendUFrame ctrlDisc true

/-- `send_ua`. -/
def sendUa : Locked → Bool → Locked × EspErr := sendUFrame ctrlUa false

/-- `send_dm`. -/
def sendDm : Locked → Bool → Locked × EspErr := sendUFrame ctrlDm false

/-- The body shared by the three S-frame helpers. -/
def sendSFrame (build : Nat → Bool → Byte) (s : Locked) (pf isCommand : Bool) :
    Locked × EspErr :=
  s.sendFrameInternal (outFrame s.conn isCommand .s (build s.conn.vr pf))

/-- `send_rr`. -/
def sendRr : Locked → Bool → Bool → Locked × EspErr := sendSFrame frameBuildRrControl

/-- `send_rnr`. -/
def sendRnr : Locked → Bool → Bool → Locked × EspErr := sendSFrame frameBuildRnrControl

/-- `send_ack`. -/
def sendAck (s : Locked) (pf isCommand : Bool) : Locked × EspErr :=
  if s.conn.localBusy then s.sendRnr pf isCommand else s.sendRr pf isCommand

/-- `send_rej`: unlike the other two S frames it also changes the context. -/
def sendRej (s : Locked) (pf isCommand : Bool) : Locked × EspErr :=
  sendSFrame frameBuildRejControl (s.modify fun c => { c with rejSent := true }) pf isCommand

/-- The I frame that `send_i_frame` builds. -/
def iFrame (c : Conn) (ns : Nat) (data : List Byte) (len : Nat) : Frame :=
  { outFrame c true .i (frameBuildIControl ns c.vr false) with
    pid := pidNone
    payload := if 0 < len ∧ len ≤ maxInfoLen then data.take len else [] }

/-- `send_i_frame`. -/
def sendIFrame (s : Locked) (ns : Nat) (data : List Byte) (len : Nat) : Locked × EspErr :=
  (s.modify fun c => { c with ackPending := false }).sendFrameInternal (iFrame s.conn ns data len)

/-- The loop body of `send_pending_i_frames`, over the sequence numbers still
to be visited. -/
def sendPendingLoop : List Nat → Locked → Locked × EspErr
  | [], s => (s, .ok)
  | seq :: rest, s =>
    let pf := s.conn.txQueue seq
    if pf.inUse && !pf.transmitted then
      match s.sendIFrame seq pf.data pf.len with
      | (s, .ok) =>
        sendPendingLoop rest
          (s.modify fun c => ((c.setTransmitted seq true).startTimerT1).stopTimerT3)
      | (s, err) => (s, err)
    else sendPendingLoop rest s

/-- `send_pending_i_frames`. -/
def sendPendingIFrames (s : Locked) : Locked × EspErr :=
  if s.conn.peerBusy then (s, .ok)
  else sendPendingLoop (Conn.seqRange s.conn.va s.conn.vs) s

end Locked

namespace Conn

/-- `queue_i_frame`. -/
def queueIFrame (c : Conn) (data : List Byte) : Conn × EspErr :=
  if c.outstandingFrames ≥ c.config.windowSize.toNat then (c, .noMem)
  else if (c.txQueue c.vs).inUse then (c, .noMem)
  else
    ({ c with
        txQueue := Function.update c.txQueue c.vs
          { data := data, len := data.length, ns := c.vs, inUse := true, transmitted := false }
        vs := mod8 (c.vs + 1) }, .ok)

/-! ### N(R) handling -/

/-- `is_valid_nr`. -/
def isValidNr (c : Conn) (nr : Nat) : Bool :=
  if c.va ≤ c.vs then c.va ≤ nr && nr ≤ c.vs else c.va ≤ nr || nr ≤ c.vs

/-- The `while (va != nr)` loop of `handle_received_nr`, with eight rounds of
fuel for the at most seven frames of a window. -/
def retire (nr : Nat) : Nat → Conn → Conn
  | 0, c => c
  | fuel + 1, c =>
    if c.va = nr then c
    else
      retire nr fuel
        { c with
          txQueue := Function.update c.txQueue c.va { c.txQueue c.va with inUse := false }
          va := mod8 (c.va + 1) }

/-- `handle_received_nr`. -/
def handleReceivedNr (c : Conn) (nr : Nat) : Conn :=
  let ackProgress := c.va != nr
  if !c.isValidNr nr then c
  else
    let c := c.retire nr 8
    if c.state = .connected then
      if c.va = c.vs then c.stopTimerT1.startTimerT3
      else if ackProgress then c.stopTimerT3.startTimerT1
      else c
    else c

end Conn

namespace Locked

/-- `enter_disconnected_state`. -/
def enterDisconnectedState (s : Locked) : Locked :=
  let wasConnected := s.conn.state = .connected ∨ s.conn.state = .timerRecovery ∨
    s.conn.state = .awaitingRelease ∨ s.conn.state = .awaitingConnection
  let s := s.modify fun c =>
    { c.stopAllTimers.resetStateVars with
      state := .disconnected
      remoteAddrSet := false
      path := []
      t1CurrentMs := c.config.t1Ms }
  let s := s.deferOnFinal
  if wasConnected then s.deferOnDisconnect else s

/-- `start_nr_error_recovery`. -/
def startNrErrorRecovery (s : Locked) (msg : String) : Locked × EspErr :=
  let s := s.modify Conn.stopAllTimers
  let s := s.deferOnError .invalidResponse msg
  let s := s.modify Conn.resetStateVars
  let s := (s.sendSabm true).1
  let s := s.modify fun c => { c with state := .awaitingConnection }.startTimerT1
  (s, .invalidResponse)

end Locked

end EspAx25
