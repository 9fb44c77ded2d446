import EspAx25.Agwpe.Monitor
import EspAx25.Agwpe.Sessions
import EspAx25.Agwpe.Unproto
import EspAx25.Conn.State
import EspAx25.Outbox

/-!
# EspAx25.Agwpe.Replies

What an AGWPE server (`ax25_agwpe_server.c`) sends to its client: the answers to requests, the
notices of its connections, their data, and the frames that it monitors. All of it goes through
one queue, `tx_queue`, from which `tx_task_func` hands frame after frame to `on_agwpe_frame`.

Several tasks put frames into the queue, each of them one after the other: the task that handles
the requests, the tasks that run the callbacks of the connections, and the task of the router
port. `enqueue_agwpe_frame` drops a frame when the queue is full, and no caller looks at its
result.

Main results:

* `requests_answered`: the answers that a client gets are those to its requests, in order.
-/

namespace EspAx25

open Memory Printing Transition
open Sessions (Slot)

/-! ### The server -/

/-- The fields of `ax25_agwpe_server_t` that answers depend on, and the queue. -/
structure AgwpeServer where
  port : Byte
  portDesc : List Byte
  rawEnabled : Bool := false
  monitorEnabled : Bool := false
  callsignRegistered : Bool := false
  registeredCall : Fin agwpeCallsignLen → Byte := fun _ => 0
  txQueueDepth : Nat
  txQueue : Outbox AgwpeFrame := {}

/-- `AX25_AGWPE_SERVER_TX_QUEUE_DEPTH`. -/
def agwpeServerTxQueueDepth : Nat := 16

namespace AgwpeServer

/-- `ax25_agwpe_server_init_internal`. -/
def init (port : Byte) (portDescription : Option (List Byte)) (txQueueDepth : Nat) : AgwpeServer :=
  let depth := if txQueueDepth > 0 then txQueueDepth else agwpeServerTxQueueDepth
  { port
    portDesc :=
      (match portDescription with
        | some description => description
        | none => literal "Port" ++ (decimal (port.toNat + 1) ++ literal " esp-ax25 radio")).take 63
    txQueueDepth := if depth > agwpeServerTxQueueDepth then agwpeServerTxQueueDepth else depth }

/-- `enqueue_agwpe_frame`. -/
def enqueueAgwpeFrame (srv : AgwpeServer) (frame : AgwpeFrame) : AgwpeServer :=
  { srv with txQueue := srv.txQueue.post srv.txQueueDepth frame }

end AgwpeServer

/-! ### Answers -/

/-- A frame of a kind, with so much data. -/
def replyFrame (kind port : Byte) (data : List Byte) : AgwpeFrame :=
  .ofContents { agwpeFrameInit.header with dataKind := kind, port } data

/-- `handle_version_req`. -/
def handleVersionReq : AgwpeFrame := replyFrame 0x52 0 (writeLe32 2005 ++ writeLe32 127)

/-- `handle_port_info_req`. -/
def handlePortInfoReq (srv : AgwpeServer) : AgwpeFrame :=
  let info := (literal "1;Port" ++ (decimal (srv.port.toNat + 1) ++ (literal " " ++
    (srv.portDesc ++ literal ";")))).take 199
  replyFrame 0x47 0 ((info ++ [0]).take agwpeMaxDataLen)

/-- `handle_port_cap_req`. `active` slots are in use. -/
def handlePortCapReq (frame : AgwpeFrame) (active : Nat) : AgwpeFrame :=
  replyFrame 0x67 frame.header.port [0, 1, 0x19, 4, 0xC8, 4, 7, UInt8.ofNat active, 1, 0, 0, 0]

/-- The reply of `handle_register_call`. -/
def registerCallReply (frame : AgwpeFrame) : AgwpeFrame :=
  .ofContents { agwpeFrameInit.header with
    dataKind := 0x58, port := frame.header.port, callFrom := frame.header.callFrom } [1]

/-- `handle_outstanding_port`: the frames that wait for the client. -/
def handleOutstandingPort (srv : AgwpeServer) (frame : AgwpeFrame) : AgwpeFrame :=
  replyFrame 0x79 frame.header.port (writeLe32 (UInt32.ofNat srv.txQueue.queue.length))

/-- The I frames that a connection has not seen acknowledged. -/
def pendingIFrames (conn : Conn) : Nat := (List.range 8).countP fun i => (conn.txQueue i).inUse

/-- `handle_outstanding_conn`, for the connection of the slot that it has found. -/
def handleOutstandingConn (frame : AgwpeFrame) (found : Option Conn) : AgwpeFrame :=
  let count := match found with
    | some conn => pendingIFrames conn
    | none => 0
  .ofContents { agwpeFrameInit.header with
      dataKind := 0x59, port := frame.header.port
      callFrom := frame.header.callFrom, callTo := frame.header.callTo }
    (writeLe32 (UInt32.ofNat count))

/-- `handle_heard_stations`. -/
def handleHeardStations (frame : AgwpeFrame) : List AgwpeFrame :=
  List.replicate 20 (replyFrame 0x48 frame.header.port [])

/-! ### Notices of sessions -/

/-- A frame about the session of a slot, from the remote station. -/
def sessionFrame (kind : Byte) (slot : Slot) (info : List Byte) : AgwpeFrame :=
  .ofContents { agwpeFrameInit.header with
      dataKind := kind, port := slot.port
      callFrom := agwpeSetCallsign (agwpeGetCallsign slot.remoteCall)
      callTo := agwpeSetCallsign (agwpeGetCallsign slot.localCall) }
    info

/-- The info string that `conn_on_connect` and `conn_on_disconnect` put together in 100 bytes. -/
def noticeInfo (label : String) (remoteStr : List Byte) : List Byte :=
  let info := (literal label).take 99
  let info := info ++ remoteStr.take (99 - info.length)
  let info := if info.length < 99 then info ++ [0x0D] else info
  (info ++ [0]).take agwpeMaxDataLen

/-- The frame of `conn_on_connect`. -/
def connectNotice (slot : Slot) (isLocalInitiated : Bool) : AgwpeFrame :=
  sessionFrame 0x43 slot
    (noticeInfo
      (if isLocalInitiated then "*** CONNECTED With Station " else "*** CONNECTED To Station ")
      (agwpeGetCallsign slot.remoteCall))

/-- The frame of `conn_on_disconnect`. -/
def disconnectNotice (slot : Slot) : AgwpeFrame :=
  sessionFrame 0x64 slot
    (noticeInfo "*** DISCONNECTED From Station " (agwpeGetCallsign slot.remoteCall))

/-- What `snprintf` makes of a label and a callsign, in 100 bytes. -/
def printedInfo (label : String) (call : List Byte) : List Byte :=
  (literal label ++ (call ++ [0x0D])).take 99 ++ [0]

/-- The frame of `conn_on_error`. -/
def errorNotice (slot : Slot) (isTimeout : Bool) : AgwpeFrame :=
  sessionFrame 0x64 slot
    (printedInfo
      (if isTimeout then "*** DISCONNECTED RETRYOUT With " else "*** DISCONNECTED From Station ")
      (agwpeGetCallsign slot.remoteCall))

/-- The frame of `initiate_connection` when no slot is free. -/
def noSlotNotice (frame : AgwpeFrame) : AgwpeFrame :=
  .ofContents { agwpeFrameInit.header with
      dataKind := 0x64, port := frame.header.port
      callFrom := frame.header.callTo, callTo := frame.header.callFrom }
    (printedInfo "*** DISCONNECTED RETRYOUT With " (agwpeGetCallsign frame.header.callTo))

/-- `deliver_connected_data`. -/
def deliverConnectedData (slot : Slot) (data : List Byte) : AgwpeFrame :=
  .ofContents { agwpeFrameInit.header with
      dataKind := 0x44, port := slot.port, pid := slot.pid
      callFrom := slot.remoteCall, callTo := slot.localCall }
    (data.take agwpeMaxDataLen)

/-- `send_raw_to_client`. -/
def sendRawToClient (monitorBuf : Bool) (port : Byte) (frame : Frame) : Option AgwpeFrame :=
  if ¬ monitorBuf then none
  else
    match ax25ToAgwpeRaw frame port with
    | .error _ => none
    | .ok raw => some { raw with header := { raw.header with dataKind := 0x4B } }

/-! ### Requests -/

/-- What a handler finds in the connection slots. -/
structure Found where
  /-- Slots that are in use. -/
  active : Nat
  /-- The connection that `find_conn_slot` finds for the callsigns of the request. -/
  conn : Option Conn
  /-- The request asks for a new session, and `alloc_conn_slot` finds no slot. -/
  noSlot : Bool

/-- `ax25_agwpe_server_agwpe_in`: the server, and the frames for the client. What goes to the
router and to the connections is not a matter of this module. -/
def AgwpeServer.agwpeIn (srv : AgwpeServer) (frame : AgwpeFrame) (found : Found) :
    AgwpeServer × List AgwpeFrame :=
  match frame.header.dataKind with
  | 0x52 => (srv, [handleVersionReq])
  | 0x47 => (srv, [handlePortInfoReq srv])
  | 0x67 => (srv, [handlePortCapReq frame found.active])
  | 0x48 => (srv, handleHeardStations frame)
  | 0x58 =>
    ({ srv with registeredCall := frame.header.callFrom, callsignRegistered := true },
      [registerCallReply frame])
  | 0x78 => ({ srv with callsignRegistered := false, registeredCall := fun _ => 0 }, [])
  | 0x6B => ({ srv with rawEnabled := !srv.rawEnabled }, [])
  | 0x6D => ({ srv with monitorEnabled := !srv.monitorEnabled }, [])
  | 0x43 | 0x63 => (srv, if found.noSlot then [noSlotNotice frame] else [])
  | 0x76 =>
    match parseAgwpeDigipeaterPath frame.contents with
    | .error _ => (srv, [])
    | .ok (_, consumed) =>
      (srv,
        if consumed ≤ frame.header.dataLen.toNat ∧ found.noSlot then [noSlotNotice frame] else [])
  | 0x79 => (srv, [handleOutstandingPort srv frame])
  | 0x59 => (srv, [handleOutstandingConn frame found.conn])
  | _ => (srv, [])

/-- What `ax25_agwpe_server_ax25_in` makes of a frame for a client that monitors. -/
def AgwpeServer.ax25In (srv : AgwpeServer) (frame : Frame) (rawBuf monitorBuf : Bool)
    (stack : Fin monitorTextSize → Byte) : List AgwpeFrame :=
  (if srv.rawEnabled then (sendRawToClient rawBuf srv.port frame).toList else []) ++
    if srv.monitorEnabled then (sendMonitorToClient stack monitorBuf srv.port frame false).toList
    else []

/-- `ax25_agwpe_server_ax25_out`. -/
def AgwpeServer.ax25Out (srv : AgwpeServer) (frame : Frame) (monitorBuf : Bool)
    (stack : Fin monitorTextSize → Byte) : List AgwpeFrame :=
  if srv.monitorEnabled then (sendMonitorToClient stack monitorBuf srv.port frame true).toList
  else []

/-! ### The tasks -/

/-- The tasks that put frames into the queue: the one that handles the requests of the client,
those that run the callbacks of connections, and that of the router port. -/
inductive Poster
  | client
  | conn
  | router
  deriving DecidableEq

/-- What a connection reports. -/
inductive SessionNotice
  | connect (slot : Slot) (isLocalInitiated : Bool)
  | disconnect (slot : Slot)
  | error (slot : Slot) (isTimeout : Bool)
  | data (slot : Slot) (bytes : List Byte)

/-- `conn_on_connect`, `conn_on_disconnect`, `conn_on_error` and `conn_on_data`. -/
def SessionNotice.frame : SessionNotice → AgwpeFrame
  | .connect slot isLocalInitiated => connectNotice slot isLocalInitiated
  | .disconnect slot => disconnectNotice slot
  | .error slot isTimeout => errorNotice slot isTimeout
  | .data slot bytes => deliverConnectedData slot bytes

/-- A server, the frames that each task has still to put into the queue, and the requests so
far. -/
structure Desk where
  server : AgwpeServer
  pending : Poster → List AgwpeFrame := fun _ => []
  asked : List AgwpeFrame := []

inductive DeskEvent
  | request (frame : AgwpeFrame) (found : Found)
  | notice (n : SessionNotice)
  /-- The router has a frame for the server. -/
  | hear (frame : Frame) (rawBuf monitorBuf : Bool) (stack : Fin monitorTextSize → Byte)
  /-- The station has sent a frame. -/
  | sent (frame : Frame) (monitorBuf : Bool) (stack : Fin monitorTextSize → Byte)
  | enqueue (t : Poster)
  | txTask

namespace Desk

/-- A task has frames for the queue. -/
def put (s : Desk) (t : Poster) (frames : List AgwpeFrame) : Desk :=
  { s with pending := Function.update s.pending t (s.pending t ++ frames) }

def step (s : Desk) : DeskEvent → Option Desk
  | .request frame found =>
    if s.pending .client = [] then
      let handled := s.server.agwpeIn frame found
      some { s.put .client handled.2 with server := handled.1, asked := s.asked ++ [frame] }
    else none
  | .notice n => some (s.put .conn [n.frame])
  | .hear frame rawBuf monitorBuf stack =>
    if s.pending .router = [] then
      some (s.put .router (s.server.ax25In frame rawBuf monitorBuf stack))
    else none
  | .sent frame monitorBuf stack =>
    if s.pending .router = [] then some (s.put .router (s.server.ax25Out frame monitorBuf stack))
    else none
  | .enqueue t =>
    match s.pending t with
    | [] => none
    | frame :: rest =>
      some { s with
        server := s.server.enqueueAgwpeFrame frame, pending := Function.update s.pending t rest }
  | .txTask =>
    s.server.txQueue.take.map fun out => { s with server := { s.server with txQueue := out.2 } }

/-- A server that has just been set up. -/
def Starts (s : Desk) : Prop :=
  s.server.txQueue = {} ∧ s.pending = (fun _ => []) ∧ s.asked = []

/-- What `tx_task_func` has passed to `on_agwpe_frame`. -/
def handed (s : Desk) : List AgwpeFrame := s.server.txQueue.taken

end Desk

/-! ### Answers, request by request -/

/-- How many frames answer a request of a kind. -/
def answerCount (kind : Byte) : Nat :=
  if kind = 0x48 then 20
  else if kind = 0x52 ∨ kind = 0x47 ∨ kind = 0x67 ∨ kind = 0x58 ∨ kind = 0x79 ∨ kind = 0x59 then 1
  else 0

/-- The frame answers a request. -/
def AgwpeFrame.isAnswer (f : AgwpeFrame) : Bool := 0 < answerCount f.header.dataKind

/-- Each request, as often as it is answered. -/
def expected (asked : List AgwpeFrame) : List AgwpeFrame :=
  asked.flatMap fun q => List.replicate (answerCount q.header.dataKind) q

/-- The frame is an answer to the request: one of its kind, for its port (for port 0 if it is about
the server), and with the callsigns that are needed to tell what it is about. -/
structure Answers (q a : AgwpeFrame) : Prop where
  kind : a.header.dataKind = q.header.dataKind
  port : a.header.port =
    if q.header.dataKind = 0x52 ∨ q.header.dataKind = 0x47 then 0 else q.header.port
  registered : q.header.dataKind = 0x58 → a.header.callFrom = q.header.callFrom
  session : q.header.dataKind = 0x59 →
    a.header.callFrom = q.header.callFrom ∧ a.header.callTo = q.header.callTo

/-- Most answers carry no callsigns. -/
theorem Answers.plain {q a : AgwpeFrame} {kind : Byte} (hk : q.header.dataKind = kind)
    (hx : kind ≠ 0x58) (hy : kind ≠ 0x59) (ha : a.header.dataKind = kind)
    (hport : a.header.port = if kind = 0x52 ∨ kind = 0x47 then 0 else q.header.port) :
    Answers q a where
  kind := ha.trans hk.symm
  port := by rw [hk]; exact hport
  registered := fun h => absurd (hk.symm.trans h) hx
  session := fun h => absurd (hk.symm.trans h) hy

theorem forall₂_replicate {α β : Type} {r : α → β → Prop} {a : α} {b : β} (h : r a b) (n : Nat) :
    List.Forall₂ r (List.replicate n a) (List.replicate n b) := by
  induction n with
  | zero => exact .nil
  | succ n ih => exact .cons h ih

/-- A frame that may come instead of a session is no answer. -/
theorem filter_noSlotNotice (frame : AgwpeFrame) (p : Prop) [Decidable p] :
    (if p then [noSlotNotice frame] else []).filter AgwpeFrame.isAnswer = [] := by
  split_ifs <;> rfl

/-- A handler answers what it should. -/
theorem agwpeIn_answers (srv : AgwpeServer) (frame : AgwpeFrame) (found : Found) :
    List.Forall₂ Answers (List.replicate (answerCount frame.header.dataKind) frame)
      ((srv.agwpeIn frame found).2.filter AgwpeFrame.isAnswer) := by
  have hone : ∀ {kind : Byte} {reply : AgwpeFrame}, frame.header.dataKind = kind →
      answerCount kind = 1 → reply.isAnswer = true → Answers frame reply →
      List.Forall₂ Answers (List.replicate (answerCount frame.header.dataKind) frame)
        ([reply].filter AgwpeFrame.isAnswer) := by
    intro kind reply hk hcount hreply hans
    rw [hk, hcount, List.filter_cons_of_pos hreply]
    exact .cons hans .nil
  have hnone : ∀ {kind : Byte}, frame.header.dataKind = kind → answerCount kind = 0 →
      List.Forall₂ Answers (List.replicate (answerCount frame.header.dataKind) frame) [] := by
    intro kind hk hcount
    rw [hk, hcount]
    exact .nil
  unfold AgwpeServer.agwpeIn
  split
  case h_1 hk => exact hone hk rfl rfl (.plain hk (by decide) (by decide) rfl rfl)
  case h_2 hk => exact hone hk rfl rfl (.plain hk (by decide) (by decide) rfl rfl)
  case h_3 hk => exact hone hk rfl rfl (.plain hk (by decide) (by decide) rfl rfl)
  case h_4 hk =>
    have hans : Answers frame (replyFrame 0x48 frame.header.port []) :=
      .plain hk (by decide) (by decide) rfl rfl
    rw [hk, handleHeardStations, List.filter_replicate_of_pos rfl]
    exact forall₂_replicate hans 20
  case h_5 hk =>
    refine hone hk rfl rfl ⟨hk.symm, by rw [hk]; rfl, fun _ => rfl, fun h => ?_⟩
    cases hk.symm.trans h
  case h_6 hk => exact hnone hk rfl
  case h_7 hk => exact hnone hk rfl
  case h_8 hk => exact hnone hk rfl
  case h_9 hk => rw [filter_noSlotNotice]; exact hnone hk rfl
  case h_10 hk => rw [filter_noSlotNotice]; exact hnone hk rfl
  case h_11 hk =>
    split
    · exact hnone hk rfl
    · rw [filter_noSlotNotice]
      exact hnone hk rfl
  case h_12 hk => exact hone hk rfl rfl (.plain hk (by decide) (by decide) rfl rfl)
  case h_13 hk =>
    refine hone hk rfl rfl ⟨hk.symm, by rw [hk]; rfl, fun h => ?_, fun _ => ⟨rfl, rfl⟩⟩
    cases hk.symm.trans h
  case h_14 =>
    refine hnone rfl ?_
    unfold answerCount
    split_ifs <;> simp_all

/-- The kinds of the frames that a monitoring client gets. -/
def monitorKinds : List Byte := [0x4B, 0x49, 0x53, 0x54, 0x55]

theorem answerCount_monitor {kind : Byte} (h : kind ∈ monitorKinds) : answerCount kind = 0 := by
  simp only [monitorKinds, List.mem_cons, List.not_mem_nil, or_false] at h
  rcases h with rfl | rfl | rfl | rfl | rfl <;> rfl

theorem sendMonitorToClient_kind {stack : Fin monitorTextSize → Byte} {monitorBuf : Bool}
    {port : Byte} {frame : Frame} {own : Bool} {a : AgwpeFrame}
    (h : sendMonitorToClient stack monitorBuf port frame own = some a) :
    a.header.dataKind ∈ monitorKinds := by
  unfold sendMonitorToClient at h
  split at h
  · cases h
  · split at h
    · cases h
    · obtain rfl := Option.some.inj h
      dsimp only
      cases frame.type <;> cases own <;> simp [monitorKinds]

theorem sendRawToClient_kind {rawBuf : Bool} {port : Byte} {frame : Frame} {a : AgwpeFrame}
    (h : sendRawToClient rawBuf port frame = some a) : a.header.dataKind ∈ monitorKinds := by
  unfold sendRawToClient at h
  split_ifs at h
  split at h
  · cases h
  · obtain rfl := Option.some.inj h
    exact List.mem_cons_self

theorem AgwpeServer.ax25In_kind {srv : AgwpeServer} {frame : Frame} {rawBuf monitorBuf : Bool}
    {stack : Fin monitorTextSize → Byte} :
    ∀ a ∈ srv.ax25In frame rawBuf monitorBuf stack, a.header.dataKind ∈ monitorKinds := by
  intro a ha
  rcases List.mem_append.mp ha with ha | ha
  · split_ifs at ha
    · exact sendRawToClient_kind (Option.mem_toList.mp ha)
    · cases ha
  · split_ifs at ha
    · exact sendMonitorToClient_kind (Option.mem_toList.mp ha)
    · cases ha

theorem AgwpeServer.ax25Out_kind {srv : AgwpeServer} {frame : Frame} {monitorBuf : Bool}
    {stack : Fin monitorTextSize → Byte} :
    ∀ a ∈ srv.ax25Out frame monitorBuf stack, a.header.dataKind ∈ monitorKinds := by
  intro a ha
  unfold AgwpeServer.ax25Out at ha
  split_ifs at ha
  · exact sendMonitorToClient_kind (Option.mem_toList.mp ha)
  · cases ha

/-- What a handler sends is an answer, or the notice that there is no slot. -/
theorem AgwpeServer.agwpeIn_kind {srv : AgwpeServer} {frame : AgwpeFrame} {found : Found} :
    ∀ a ∈ (srv.agwpeIn frame found).2, a.isAnswer = true ∨ a.header.dataKind = 0x64 := by
  have hnotice : ∀ (p : Prop) [Decidable p], ∀ a ∈ (if p then [noSlotNotice frame] else []),
      a.header.dataKind = 0x64 := by
    intro p _ a ha
    split_ifs at ha
    · rw [List.mem_singleton.mp ha]
      rfl
    · cases ha
  intro a ha
  unfold AgwpeServer.agwpeIn at ha
  split at ha
  case h_4 =>
    rw [List.eq_of_mem_replicate ha]
    exact .inl rfl
  case h_6 | h_7 | h_8 | h_14 => cases ha
  case h_9 | h_10 => exact .inr (hnotice _ a ha)
  case h_11 =>
    split at ha
    · cases ha
    · exact .inr (hnotice _ a ha)
  all_goals
    rw [List.mem_singleton.mp ha]
    exact .inl rfl

theorem AgwpeServer.agwpeIn_txQueue (srv : AgwpeServer) (frame : AgwpeFrame) (found : Found) :
    (srv.agwpeIn frame found).1.txQueue = srv.txQueue ∧
      (srv.agwpeIn frame found).1.txQueueDepth = srv.txQueueDepth := by
  unfold AgwpeServer.agwpeIn
  split <;> first | exact ⟨rfl, rfl⟩ | (split <;> exact ⟨rfl, rfl⟩)

theorem SessionNotice.not_answer (n : SessionNotice) : n.frame.isAnswer = false := by
  cases n <;> rfl

namespace Desk

variable {s s' : Desk} {e : DeskEvent}

/-- A step: frames for a task, a frame of a task for the queue, or one for the client. -/
inductive DeskStep (s : Desk) : DeskEvent → Desk → Prop
  | request (frame : AgwpeFrame) (found : Found) (server : AgwpeServer)
      (replies : List AgwpeFrame) : s.pending .client = [] →
      s.server.agwpeIn frame found = (server, replies) →
      DeskStep s (.request frame found)
        { s.put .client replies with server, asked := s.asked ++ [frame] }
  | notice (n : SessionNotice) : DeskStep s (.notice n) (s.put .conn [n.frame])
  | monitored (e : DeskEvent) (frames : List AgwpeFrame) :
      (∀ frame found, e ≠ .request frame found) →
      (∀ a ∈ frames, a.header.dataKind ∈ monitorKinds) → DeskStep s e (s.put .router frames)
  | enqueue (t : Poster) (frame : AgwpeFrame) (rest : List AgwpeFrame) :
      s.pending t = frame :: rest →
      DeskStep s (.enqueue t)
        { s with
          server := s.server.enqueueAgwpeFrame frame
          pending := Function.update s.pending t rest }
  | txTask (frame : AgwpeFrame) (out : Outbox AgwpeFrame) :
      s.server.txQueue.take = some (frame, out) →
      DeskStep s .txTask { s with server := { s.server with txQueue := out } }

theorem step_cases (hs : s.step e = some s') : DeskStep s e s' := by
  cases e with
  | request frame found =>
      rw [step] at hs
      split_ifs at hs with hp
      obtain rfl := Option.some.inj hs
      exact .request frame found _ _ hp rfl
  | notice n =>
      obtain rfl := Option.some.inj hs
      exact .notice n
  | hear frame rawBuf monitorBuf stack =>
      rw [step] at hs
      split_ifs at hs
      obtain rfl := Option.some.inj hs
      exact .monitored _ _ (fun _ _ he => by cases he) AgwpeServer.ax25In_kind
  | sent frame monitorBuf stack =>
      rw [step] at hs
      split_ifs at hs
      obtain rfl := Option.some.inj hs
      exact .monitored _ _ (fun _ _ he => by cases he) AgwpeServer.ax25Out_kind
  | enqueue t =>
      rw [step] at hs
      split at hs
      · cases hs
      · rename_i frame rest hp
        obtain rfl := Option.some.inj hs
        exact .enqueue t frame rest hp
  | txTask =>
      obtain ⟨⟨frame, out⟩, htake, rfl⟩ := Option.map_eq_some_iff.mp hs
      exact .txTask frame out htake

/-- What has been posted and what a task still holds back are, as far as they are answers, the
answers to the requests so far. -/
structure Answering (s : Desk) (posted : List AgwpeFrame) : Prop where
  keeps : s.server.txQueue.Keeps posted
  answers : List.Forall₂ Answers (expected s.asked)
    ((posted ++ s.pending .client).filter AgwpeFrame.isAnswer)
  others : ∀ t, t ≠ .client → ∀ a ∈ s.pending t, a.isAnswer = false

theorem put_self (s : Desk) (t : Poster) (frames : List AgwpeFrame) :
    (s.put t frames).pending t = s.pending t ++ frames := Function.update_self ..

theorem put_of_ne (s : Desk) {t t' : Poster} (h : t' ≠ t) (frames : List AgwpeFrame) :
    (s.put t frames).pending t' = s.pending t' := Function.update_of_ne h ..

theorem answering_starts (h : s.Starts) : s.Answering [] := by
  obtain ⟨hqueue, hpending, hasked⟩ := h
  refine ⟨hqueue ▸ Outbox.keeps_nil, ?_, fun t _ a ha => ?_⟩
  · rw [hasked, hpending]
    exact .nil
  · rw [hpending] at ha
    cases ha

/-- Frames for a task that answers no requests. -/
theorem Answering.put {posted : List AgwpeFrame} (h : s.Answering posted) {t : Poster}
    (ht : t ≠ .client) {frames : List AgwpeFrame} (hframes : ∀ a ∈ frames, a.isAnswer = false) :
    (s.put t frames).Answering posted := by
  refine ⟨h.keeps, ?_, fun t' ht' a ha => ?_⟩
  · rw [put_of_ne s ht.symm]
    exact h.answers
  · by_cases heq : t' = t
    · rw [heq, put_self] at ha
      exact (List.mem_append.mp ha).elim (h.others t ht a) (hframes a)
    · rw [put_of_ne s heq] at ha
      exact h.others t' ht' a ha

theorem answering_step {posted : List AgwpeFrame} (h : s.Answering posted)
    (hs : s.step e = some s') : ∃ posted', s'.Answering posted' := by
  cases step_cases hs with
  | request frame found server replies hp hin =>
      obtain ⟨hqueue, -⟩ := s.server.agwpeIn_txQueue frame found
      have hans := agwpeIn_answers s.server frame found
      rw [hin] at hqueue hans
      refine ⟨posted, hqueue ▸ h.keeps, ?_, fun t ht => ?_⟩
      · have hold := h.answers
        rw [hp, List.append_nil] at hold
        dsimp only
        rw [put_self, hp, List.nil_append, List.filter_append, expected, List.flatMap_append,
          List.flatMap_singleton]
        exact List.rel_append hold hans
      · dsimp only
        rw [put_of_ne s ht]
        exact h.others t ht
  | notice n =>
      refine ⟨posted, h.put (by decide) fun a ha => ?_⟩
      rw [List.mem_singleton.mp ha]
      exact n.not_answer
  | monitored e frames _ hframes =>
      refine ⟨posted, h.put (by decide) fun a ha => ?_⟩
      rw [AgwpeFrame.isAnswer, answerCount_monitor (hframes a ha)]
      rfl
  | enqueue t frame rest hp =>
      refine ⟨posted ++ [frame], h.keeps.post _ frame, ?_, fun t' ht' a ha => ?_⟩
      · have hold := h.answers
        by_cases ht : t = .client
        · subst ht
          rw [hp, List.append_cons] at hold
          dsimp only
          rw [Function.update_self]
          exact hold
        · have hframe : frame.isAnswer = false :=
            h.others t ht frame (hp ▸ List.mem_cons_self)
          have hskip : [frame].filter AgwpeFrame.isAnswer = [] :=
            List.filter_cons_of_neg (by rw [hframe]; decide)
          dsimp only
          rw [Function.update_of_ne (Ne.symm ht), List.append_assoc, List.filter_append,
            List.filter_append, hskip, List.nil_append, ← List.filter_append]
          exact hold
      · by_cases heq : t' = t
        · subst heq
          dsimp only at ha
          rw [Function.update_self] at ha
          exact h.others t' ht' a (hp ▸ List.mem_cons_of_mem _ ha)
        · dsimp only at ha
          rw [Function.update_of_ne heq] at ha
          exact h.others t' ht' a ha
  | txTask frame out htake => exact ⟨posted, h.keeps.take htake, h.answers, h.others⟩

end Desk

/-- **Requests are answered.** Whatever else the tasks of a server put into its queue, the answers
that its client is handed, those that wait, and those that are still to be put into the queue are
in order among the answers to its requests; and each answer that is missing is a frame that the
queue has refused. If it has refused none, the answers that the client has been handed are the
first ones. -/
theorem requests_answered {s : Desk} (h : Reach Desk.Starts Desk.step Always s) :
    ∃ answers, List.Forall₂ Answers (expected s.asked) answers ∧
      ((s.server.txQueue.passed ++ s.pending .client).filter AgwpeFrame.isAnswer).Sublist answers ∧
      answers.length ≤ ((s.server.txQueue.passed ++ s.pending .client).filter
        AgwpeFrame.isAnswer).length + s.server.txQueue.refused ∧
      (s.server.txQueue.refused = 0 → s.handed.filter AgwpeFrame.isAnswer <+: answers) := by
  obtain ⟨posted, hok⟩ : ∃ posted, s.Answering posted :=
    h.invariant (I := fun s => ∃ posted, s.Answering posted)
      (fun s hs => ⟨[], Desk.answering_starts hs⟩)
      fun s e s' ⟨posted, hposted⟩ _ hs => Desk.answering_step hposted hs
  obtain ⟨horder, hcount⟩ := hok.keeps.filter AgwpeFrame.isAnswer
  refine ⟨_, hok.answers, ?_, ?_, fun hr => ?_⟩
  · rw [List.filter_append, List.filter_append]
    exact horder.append_right _
  · rw [List.filter_append, List.filter_append, List.length_append, List.length_append]
    omega
  · rw [← hok.keeps.whole hr, Outbox.passed, List.append_assoc, List.filter_append]
    exact List.prefix_append ..

/-- A client asks for the version and for the heard stations, of which it gets the first. -/
theorem requests_answered_version :
    ∃ s : Desk, s.asked.map (·.header.dataKind) = [0x52, 0x48] ∧
      s.handed.map (·.header.dataKind) = [0x52, 0x48] ∧
      ∃ answers, List.Forall₂ Answers (expected s.asked) answers ∧
        s.handed.filter AgwpeFrame.isAnswer <+: answers := by
  have hrun : (replay Desk.step Always { server := .init 0 none 0 }
      [.request (replyFrame 0x52 0 []) ⟨0, none, false⟩, .enqueue .client, .txTask,
        .request (replyFrame 0x48 0 []) ⟨0, none, false⟩, .enqueue .client, .txTask]).map
      (fun s => (s.asked.map (·.header.dataKind), s.handed.map (·.header.dataKind),
        s.server.txQueue.refused)) = some ([0x52, 0x48], [0x52, 0x48], 0) := by decide +kernel
  obtain ⟨s, hs, htuple⟩ := Option.map_eq_some_iff.mp hrun
  simp only [Prod.mk.injEq] at htuple
  obtain ⟨hasked, hhanded, hrefused⟩ := htuple
  obtain ⟨answers, hans, -, -, hprefix⟩ :=
    requests_answered (Reach.replay (.start ⟨rfl, rfl, rfl⟩) hs)
  exact ⟨s, hasked, hhanded, answers, hans, hprefix hrefused⟩

end EspAx25
