import EspAx25.Conn.Send

/-!
# EspAx25.Conn.Handlers

The five state handlers of `ax25_conn.c`.

Two of them release the mutex in the middle, to call `on_connect`
(`invoke_on_connect_unlocked`). Such a handler ends its first locked section
with `Outcome.onConnect`, which carries what it does once it holds the mutex
again (`Resume`). Everything between the two sections belongs to other tasks
and to the callback itself.

The handlers of the two data-transfer states are cut along the frame type; each
piece is the corresponding block of the C function.
-/

namespace EspAx25

/-- What a handler still has to do after `on_connect` has returned. -/
inductive Resume
  /-- `handle_frame_disconnected`: refuse or accept the SABM `frame`. -/
  | decide (frame : Frame)
  /-- `handle_frame_awaiting_connection`: nothing but return. -/
  | finish
  deriving Repr, DecidableEq

/-- How a locked section ends. -/
inductive Outcome
  | returned (ret : EspErr)
  /-- The mutex is released to call `on_connect`. -/
  | onConnect (isLocal : Bool) (rest : Resume)
  deriving Repr, DecidableEq

/-- The U-frame type, with the P/F bit masked out. -/
def Frame.uType (f : Frame) : Byte := f.control &&& 0xEF

/-- The S-frame type. -/
def Frame.sType (f : Frame) : Byte := f.control &&& 0x0F

/-- The P/F bit. -/
def Frame.pf (f : Frame) : Bool := frameHasPf f.control

/-- N(R). -/
def Frame.nr (f : Frame) : Nat := frameExtractNr f.control

/-- N(S). -/
def Frame.ns (f : Frame) : Nat := frameExtractNs f.control

theorem Frame.nr_lt (f : Frame) : f.nr < 8 := frameExtractNr_lt _

namespace Locked

/-- `invoke_on_connect_unlocked` up to its `UNLOCK`. -/
def invokeOnConnect (s : Locked) (isLocal : Bool) (rest : Resume) : Locked × Outcome :=
  (s.modify fun c => { c with isLocalInitiated := isLocal, refusePending := false },
    .onConnect isLocal rest)

/-! ### No session -/

/-- `handle_frame_disconnected`, up to `on_connect` or its end. -/
def handleFrameDisconnected (s : Locked) (frame : Frame) : Locked × Outcome :=
  if frame.type = .u then
    if frame.uType = ctrlSabm then
      let s := s.modify fun c => { c with remoteAddr := frame.source, remoteAddrSet := true }
      let s := s.modify fun c => (c.setConnPathFromFrame frame).seedT1ForPath
      s.invokeOnConnect false (.decide frame)
    else if frame.uType = ctrlDisc then ((s.sendDm frame.pf).1, .returned .ok)
    else (s, .returned .ok)
  else (s, .returned .ok)

/-- `handle_frame_disconnected` after `on_connect` has returned. -/
def decideSabm (s : Locked) (frame : Frame) : Locked :=
  if s.conn.refusePending then
    (s.sendDm frame.pf).1.enterDisconnectedState
  else
    let s := s.modify Conn.resetStateVars
    let s := (s.sendUa frame.pf).1
    s.modify fun c => { c with state := .connected }.startTimerT3

/-- The second locked section of a handler. -/
def resume (s : Locked) : Resume → Locked
  | .decide frame => s.decideSabm frame
  | .finish => s

/-! ### Awaiting connection or release -/

/-- `handle_frame_awaiting_connection`, up to `on_connect` or its end. -/
def handleFrameAwaitingConnection (s : Locked) (frame : Frame) : Locked × Outcome :=
  if frame.type = .u then
    if frame.uType = ctrlUa then
      if frame.pf then
        let s := s.modify fun c =>
          { c.stopTimerT1.resetStateVars with state := .connected }.startTimerT3
        s.invokeOnConnect true .finish
      else (s, .returned .ok)
    else if frame.uType = ctrlDm then
      let s := s.modify Conn.stopTimerT1
      let s := s.deferOnError .notAllowed "Connection refused (DM)"
      (s.enterDisconnectedState, .returned .ok)
    else if frame.uType = ctrlSabm then
      let s := s.modify fun c =>
        ((c.setConnPathFromFrame frame).seedT1ForPath).resetStateVars
      let s := (s.sendUa frame.pf).1
      let s := s.modify fun c => { c.stopTimerT1 with state := .connected }.startTimerT3
      s.invokeOnConnect true .finish
    else if frame.uType = ctrlDisc then ((s.sendDm frame.pf).1, .returned .ok)
    else (s, .returned .ok)
  else (s, .returned .ok)

/-- `handle_frame_awaiting_release`. -/
def handleFrameAwaitingRelease (s : Locked) (frame : Frame) : Locked × EspErr :=
  if frame.type = .u then
    if frame.uType = ctrlUa ∨ frame.uType = ctrlDm then
      ((s.modify Conn.stopTimerT1).enterDisconnectedState, .ok)
    else if frame.uType = ctrlSabm then ((s.sendDm frame.pf).1, .ok)
    else if frame.uType = ctrlDisc then
      (((s.sendUa frame.pf).1.modify Conn.stopTimerT1).enterDisconnectedState, .ok)
    else (s, .ok)
  else (s, .ok)

/-! ### Connected -/

/-- The poll response at the head of each S-frame branch. -/
def answerPoll (s : Locked) (frame : Frame) : Locked :=
  if frame.pf && frame.isCommand then (s.sendAck true false).1 else s

/-- The acknowledgement of an in-sequence I frame: at once when polled, else
by T2. -/
def acknowledge (s : Locked) (frame : Frame) : Locked :=
  if frame.pf then (s.sendAck true false).1
  else s.modify fun c => { c with ackPending := true }.startTimerT2

/-- The reaction to an out-of-sequence I frame. -/
def rejectSequence (s : Locked) (frame : Frame) : Locked :=
  if !s.conn.rejSent then (s.sendRej frame.pf false).1
  else if frame.pf then (s.sendAck true false).1
  else s

/-- An in-sequence I frame is consumed: V(R) advances and a non-empty payload
is recorded for `on_data`. -/
def consume (s : Locked) (frame : Frame) : Locked :=
  let s := s.modify fun c => { c with vr := mod8 (c.vr + 1), rejSent := false }
  if frame.payload.length > 0 then s.deferOnData frame.payload else s

/-- `handle_frame_connected`, U frames. -/
def connectedU (s : Locked) (frame : Frame) : Locked × EspErr :=
  if frame.uType = ctrlSabm then
    let s := s.deferOnLinkReset
    let s := s.modify fun c =>
      (((c.setConnPathFromFrame frame).seedT1ForPath).resetStateVars).stopTimerT1
    let s := (s.sendUa frame.pf).1
    (s.modify Conn.startTimerT3, .ok)
  else if frame.uType = ctrlDisc then
    ((s.sendUa frame.pf).1.enterDisconnectedState, .ok)
  else if frame.uType = ctrlDm then
    ((s.deferOnError .invalidState "Received DM while connected").enterDisconnectedState, .ok)
  else if frame.uType = ctrlFrmr then
    let s := s.deferOnError .invalidResponse "Received FRMR"
    let s := ((s.modify Conn.resetStateVars).sendSabm true).1
    (s.modify fun c => { c with state := .awaitingConnection }.startTimerT1, .ok)
  else (s, .ok)

/-- `handle_frame_connected`, S frames. -/
def connectedS (s : Locked) (frame : Frame) : Locked × EspErr :=
  let nr := frame.nr
  if !s.conn.isValidNr nr then s.startNrErrorRecovery "Invalid N(R) while connected"
  else
    let s := s.modify (·.handleReceivedNr nr)
    if frame.sType = ctrlRr then
      let s := s.modify fun c => { c with peerBusy := false }
      let s := s.answerPoll frame
      (s.sendPendingIFrames.1, .ok)
    else if frame.sType = ctrlRnr then
      let s := s.modify fun c => { c with peerBusy := true }
      (s.answerPoll frame, .ok)
    else if frame.sType = ctrlRej then
      let s := s.modify fun c => { c with peerBusy := false }
      let s := s.answerPoll frame
      let s := s.modify (·.markUntransmitted nr)
      (s.sendPendingIFrames.1, .ok)
    else (s, .ok)

/-- `handle_frame_connected`, I frames. -/
def connectedI (s : Locked) (frame : Frame) : Locked × EspErr :=
  let nr := frame.nr
  if !s.conn.isValidNr nr then
    s.startNrErrorRecovery "Invalid N(R) in I frame while connected"
  else
    let s := s.modify fun c => { c.handleReceivedNr nr with peerBusy := false }
    if frame.ns = s.conn.vr then
      if s.conn.localBusy then
        -- busy: neither consume the payload nor advance V(R)
        let s := (s.acknowledge frame).modify Conn.startTimerT3
        (s.sendPendingIFrames.1, .ok)
      else
        let s := (((s.consume frame).acknowledge frame)).modify Conn.startTimerT3
        (s.sendPendingIFrames.1, .ok)
    else
      let s := s.rejectSequence frame
      (s.sendPendingIFrames.1, .ok)

/-- `handle_frame_connected`. -/
def handleFrameConnected (s : Locked) (frame : Frame) : Locked × EspErr :=
  match frame.type with
  | .u => s.connectedU frame
  | .s => s.connectedS frame
  | .i => s.connectedI frame
  | _ => (s, .ok)

/-! ### Timer recovery -/

/-- `handle_frame_timer_recovery`, U frames. Unlike `connectedU`, a SABM records
no link reset here. -/
def timerRecoveryU (s : Locked) (frame : Frame) : Locked × EspErr :=
  if frame.uType = ctrlSabm then
    let s := s.modify fun c =>
      (((c.setConnPathFromFrame frame).seedT1ForPath).resetStateVars).stopTimerT1
    let s := (s.sendUa frame.pf).1
    (s.modify fun c => { c with state := .connected }.startTimerT3, .ok)
  else if frame.uType = ctrlDisc then
    ((s.sendUa frame.pf).1.enterDisconnectedState, .ok)
  else if frame.uType = ctrlDm then
    ((s.deferOnError .invalidState "Received DM in timer recovery").enterDisconnectedState, .ok)
  else if frame.uType = ctrlFrmr then
    let s := s.deferOnError .invalidResponse "Received FRMR in timer recovery"
    let s := ((s.modify Conn.resetStateVars).sendSabm true).1
    (s.modify fun c => { c with state := .awaitingConnection }.startTimerT1, .ok)
  else (s, .ok)

/-- `pf && !frame->is_command`: this S frame concludes the recovery. -/
def responseFinal (frame : Frame) : Bool := frame.pf && !frame.isCommand

/-- The block under `if (response_final)`. -/
def concludeRecovery (s : Locked) : Locked :=
  s.modify fun c =>
    let c := { c.stopTimerT1 with retryCount := 0, state := .connected }
    if c.va ≠ c.vs then c.markUntransmitted c.va else c

/-- The timers at the end of the S-frame branch, with the retransmission if one
is due. -/
def settleRecovery (s : Locked) (retransmitOutstanding : Bool) : Locked :=
  if s.conn.state = .connected then
    if s.conn.va = s.conn.vs then s.modify fun c => c.stopTimerT1.startTimerT3
    else
      let s := s.modify Conn.stopTimerT3
      let s := if retransmitOutstanding then s.sendPendingIFrames.1 else s
      s.modify Conn.startTimerT1
  else if retransmitOutstanding then s.sendPendingIFrames.1
  else s

/-- `handle_frame_timer_recovery`, S frames. -/
def timerRecoveryS (s : Locked) (frame : Frame) : Locked × EspErr :=
  let nr := frame.nr
  if !s.conn.isValidNr nr then s.startNrErrorRecovery "Invalid N(R) in timer recovery"
  else
    let s := s.modify (·.handleReceivedNr nr)
    let retransmitOutstanding := responseFinal frame && s.conn.va != s.conn.vs
    let s := if responseFinal frame then s.concludeRecovery else s
    if frame.sType = ctrlRr then
      let s := (s.modify fun c => { c with peerBusy := false }).answerPoll frame
      (s.settleRecovery retransmitOutstanding, .ok)
    else if frame.sType = ctrlRnr then
      let s := (s.modify fun c => { c with peerBusy := true }).answerPoll frame
      (s.settleRecovery retransmitOutstanding, .ok)
    else if frame.sType = ctrlRej then
      let s := (s.modify fun c => { c with peerBusy := false }).answerPoll frame
      let s := s.modify (·.markUntransmitted nr)
      (s.settleRecovery (s.conn.va != s.conn.vs), .ok)
    else (s.settleRecovery retransmitOutstanding, .ok)

/-- `handle_frame_timer_recovery`, I frames. -/
def timerRecoveryI (s : Locked) (frame : Frame) : Locked × EspErr :=
  let nr := frame.nr
  if !s.conn.isValidNr nr then
    s.startNrErrorRecovery "Invalid N(R) in I frame during timer recovery"
  else
    let s := s.modify fun c => { c.handleReceivedNr nr with peerBusy := false }
    if frame.ns = s.conn.vr then
      if s.conn.localBusy then (s.acknowledge frame, .ok)
      else ((s.consume frame).acknowledge frame, .ok)
    else (s.rejectSequence frame, .ok)

/-- `handle_frame_timer_recovery`. -/
def handleFrameTimerRecovery (s : Locked) (frame : Frame) : Locked × EspErr :=
  match frame.type with
  | .u => s.timerRecoveryU frame
  | .s => s.timerRecoveryS frame
  | .i => s.timerRecoveryI frame
  | _ => (s, .ok)

end Locked

end EspAx25
