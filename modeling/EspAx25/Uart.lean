import EspAx25.KissDriver
import EspAx25.Transition
import Mathlib.Logic.Function.Basic

/-!
# EspAx25.Uart

The UART driver of `ax25_phy_kiss_uart.c`, from the end of `ax25_phy_kiss_uart_init` on: the tasks
that call it, `uart_phy_tx_task` and `uart_phy_rx_task`.

Frames go through a queue to the tx task; `ax25_phy_kiss_uart_write_raw` writes in the task that
calls it. Both hold `tx_mutex` for as long as they are in `uart_write_with_retry`, so the mutex is
kept here with the variables of that function. A step is one call of a driver or queue function.

A write that gives up leaves the TNC inside a frame. `tnc_receives` says what that costs: the
next frame, and no other.
-/

namespace EspAx25.Uart

open Transducer Transition

/-- `AX25_PHY_UART_TX_QUEUE_DEPTH`. -/
def txQueueDepth : Nat := 8

/-- `ax25_phy_kiss_uart_tx_item_t`: the bytes, and the frame that they encode. -/
structure TxItem where
  frame : Frame
  data : List Byte
  deriving DecidableEq

/-- A call of `uart_write_with_retry`, for an item of the queue or for raw bytes. -/
structure Write where
  frame : Option Frame
  data : List Byte
  offset : Nat := 0
  retries : Nat := 0
  deriving DecidableEq

/-- A call that has returned: it has written so many bytes. -/
structure Section where
  frame : Option Frame
  data : List Byte
  written : Nat
  deriving DecidableEq

/-- Who has `tx_mutex`. -/
inductive Holder (τ : Type)
  | txTask
  | caller (t : τ)
  deriving DecidableEq

/-- Where a task is in `ax25_phy_kiss_uart_send` or `ax25_phy_kiss_uart_write_raw`. -/
inductive Caller
  | outside
  | encoded (item : TxItem)
  | locking (data : List Byte)
  | writing
  deriving DecidableEq

/-- Where `uart_phy_tx_task` is. -/
inductive TxTask
  | loop
  | waiting
  | received (item : TxItem)
  | locking (item : TxItem)
  | writing
  | stopped (discarded : Option TxItem)
  deriving DecidableEq

/-- `ax25_phy_kiss_uart_t`, the tasks, and what they have done. -/
structure Driver (τ : Type) where
  running : Bool := true
  queue : List TxItem := []
  mutex : Option (Holder τ × Write) := none
  caller : τ → Caller := fun _ => .outside
  txTask : TxTask := .loop
  rxTap : Bool := false
  kissDecoder : KissDecoder := kissDecoderInit true
  /-- The frames for which `ax25_phy_kiss_uart_send` has returned `ESP_OK`. -/
  accepted : List Frame := []
  /-- The writes that have ended, and the bytes that the UART has been given. -/
  log : List Section := []
  wire : List Byte := []
  /-- The bytes that went to the decoder, those that went to the tap, and the frames that
  `on_rx_frame` was called with. -/
  decoded : List Byte := []
  tapped : List Byte := []
  delivered : List Frame := []

variable {τ : Type}

/-- The driver after `ax25_phy_kiss_uart_init`. -/
def Driver.init : Driver τ := {}

/-- Steps of the calling tasks, of the task that has `tx_mutex`, of the tx task and of the rx
task; `stop` is the first thing that `ax25_phy_kiss_uart_deinit` does. -/
inductive Op (τ : Type)
  | send (t : τ) (frame : Frame)
  | enqueue (t : τ)
  | writeRaw (t : τ) (data : List Byte)
  | takeRaw (t : τ)
  | txLoop
  | txReceive
  | txCheck
  | txTake
  | write (written : Nat)
  | done
  | read (bytes : List Byte)
  | setTap
  | clearTap
  | stop

variable [DecidableEq τ]

/-- A calling task goes on. -/
def Driver.goto (s : Driver τ) (t : τ) (p : Caller) : Driver τ :=
  { s with caller := Function.update s.caller t p }

/-- The mutex is given back, and its holder goes on. -/
def Driver.release (s : Driver τ) : Holder τ → Driver τ
  | .txTask => { s with mutex := none, txTask := .loop }
  | .caller t => { s with mutex := none }.goto t .outside

/-- `uart_write_with_retry` returns. -/
def Driver.finish (s : Driver τ) (h : Holder τ) (w : Write) : Driver τ :=
  { s with log := s.log ++ [(⟨w.frame, w.data, w.offset⟩ : Section)] }.release h

/-- One step; `writeRetries` is `AX25_PHY_UART_WRITE_RETRIES`. -/
def step (writeRetries : Nat) (s : Driver τ) : Op τ → Option (Driver τ)
  | .send t frame =>
    if s.caller t = .outside then
      if s.running then
        match kissFrameEncode frame with
        | none => some s
        | some data => some (s.goto t (.encoded ⟨frame, data⟩))
      else some s
    else none
  | .enqueue t =>
    match s.caller t with
    | .encoded item =>
      if s.queue.length < txQueueDepth then
        some ({ s with queue := s.queue ++ [item], accepted := s.accepted ++ [item.frame] }.goto t
          .outside)
      else some (s.goto t .outside)
    | _ => none
  | .writeRaw t data =>
    if s.caller t = .outside then
      if data ≠ [] ∧ s.running then some (s.goto t (.locking data)) else some s
    else none
  | .takeRaw t =>
    match s.caller t, s.mutex with
    | .locking data, none =>
      some ({ s with mutex := some (.caller t, ⟨none, data, 0, 0⟩) }.goto t .writing)
    | _, _ => none
  | .txLoop =>
    match s.txTask with
    | .loop => some { s with txTask := if s.running then .waiting else .stopped none }
    | _ => none
  | .txReceive =>
    match s.txTask with
    | .waiting =>
      match s.queue with
      | [] => some { s with txTask := .loop }
      | item :: rest => some { s with queue := rest, txTask := .received item }
    | _ => none
  | .txCheck =>
    match s.txTask with
    | .received item =>
      some { s with txTask := if s.running then .locking item else .stopped (some item) }
    | _ => none
  | .txTake =>
    match s.txTask, s.mutex with
    | .locking item, none =>
      some { s with
        mutex := some (.txTask, ⟨some item.frame, item.data, 0, 0⟩), txTask := .writing }
    | _, _ => none
  -- `uart_write_bytes` has taken so many bytes; 0 also stands for an error
  | .write written =>
    match s.mutex with
    | some (h, w) =>
      if w.offset < w.data.length ∧ w.offset + written ≤ w.data.length then
        if 0 < written then
          some { s with
            mutex := some (h, { w with offset := w.offset + written, retries := 0 })
            wire := s.wire ++ (w.data.drop w.offset).take written }
        else if w.retries + 1 > writeRetries then some (s.finish h w)
        else some { s with mutex := some (h, { w with retries := w.retries + 1 }) }
      else none
    | none => none
  | .done =>
    match s.mutex with
    | some (h, w) => if w.offset < w.data.length then none else some (s.finish h w)
    | none => none
  | .read bytes =>
    if s.rxTap then some { s with tapped := s.tapped ++ bytes }
    else
      let (kissDecoder, frames) := s.kissDecoder.processBytes bytes
      some { s with
        kissDecoder
        decoded := s.decoded ++ bytes
        delivered := s.delivered ++ frames.filterMap kissFrameCb }
  | .setTap => some { s with rxTap := true }
  | .clearTap => some { s with rxTap := false }
  | .stop => some { s with running := false }

/-! ### What a step can do -/

/-- The item that has not been written yet. -/
def TxTask.pending : TxTask → List TxItem
  | .received item | .locking item | .stopped (some item) => [item]
  | .loop | .waiting | .writing | .stopped none => []

/-- The item that a task has encoded. -/
def Caller.item : Caller → Option TxItem
  | .encoded item => some item
  | _ => none

/-- What a step can do. -/
inductive DriverStep (s : Driver τ) : Op τ → Driver τ → Prop
  | stay (op : Op τ) : DriverStep s op s
  | walk {t : τ} {p : Caller} (op : Op τ) :
      (∀ item, p.item = some item → kissFrameEncode item.frame = some item.data) →
      DriverStep s op (s.goto t p)
  | enqueue {t : τ} {item : TxItem} : s.caller t = .encoded item →
      DriverStep s (.enqueue t) ({ s with
        queue := s.queue ++ [item], accepted := s.accepted ++ [item.frame] }.goto t .outside)
  | takeRaw {t : τ} {data : List Byte} : s.mutex = none →
      DriverStep s (.takeRaw t)
        ({ s with mutex := some (.caller t, ⟨none, data, 0, 0⟩) }.goto t .writing)
  | txWalk {p : TxTask} (op : Op τ) : s.txTask ≠ .writing → p ≠ .writing →
      p.pending = s.txTask.pending → DriverStep s op { s with txTask := p }
  | txReceive {item : TxItem} {rest : List TxItem} : s.txTask = .waiting →
      s.queue = item :: rest →
      DriverStep s .txReceive { s with queue := rest, txTask := .received item }
  | txTake {item : TxItem} : s.txTask = .locking item → s.mutex = none →
      DriverStep s .txTake { s with
        mutex := some (.txTask, ⟨some item.frame, item.data, 0, 0⟩), txTask := .writing }
  | progress {h : Holder τ} {w : Write} {written : Nat} : s.mutex = some (h, w) →
      w.offset + written ≤ w.data.length →
      DriverStep s (.write written) { s with
        mutex := some (h, { w with offset := w.offset + written, retries := 0 })
        wire := s.wire ++ (w.data.drop w.offset).take written }
  | retry {h : Holder τ} {w : Write} {written : Nat} : s.mutex = some (h, w) →
      DriverStep s (.write written)
        { s with mutex := some (h, { w with retries := w.retries + 1 }) }
  | finish {h : Holder τ} {w : Write} (op : Op τ) : s.mutex = some (h, w) →
      DriverStep s op (s.finish h w)
  | tap (bytes : List Byte) : DriverStep s (.read bytes) { s with tapped := s.tapped ++ bytes }
  | decode (bytes : List Byte) : DriverStep s (.read bytes) { s with
      kissDecoder := (s.kissDecoder.processBytes bytes).1
      decoded := s.decoded ++ bytes
      delivered := s.delivered ++ (s.kissDecoder.processBytes bytes).2.filterMap kissFrameCb }
  | setTap (op : Op τ) (rxTap : Bool) : DriverStep s op { s with rxTap }
  | stop : DriverStep s .stop { s with running := false }

theorem step_cases {writeRetries : Nat} {s s' : Driver τ} {op : Op τ}
    (hs : step writeRetries s op = some s') : DriverStep s op s' := by
  cases op with
  | send t frame =>
      dsimp only [step] at hs
      split_ifs at hs
      · split at hs
        · cases hs
          exact .stay _
        · next data henc =>
          cases hs
          refine .walk _ fun item hitem => ?_
          cases hitem
          exact henc
      · cases hs
        exact .stay _
  | enqueue t =>
      dsimp only [step] at hs
      split at hs
      · next item ht =>
        split_ifs at hs
        · cases hs
          exact .enqueue ht
        · cases hs
          exact .walk _ fun _ h => (by cases h)
      · cases hs
  | writeRaw t data =>
      dsimp only [step] at hs
      split_ifs at hs
      · cases hs
        exact .walk _ fun _ h => (by cases h)
      · cases hs
        exact .stay _
  | takeRaw t =>
      dsimp only [step] at hs
      split at hs
      · next data ht hmutex =>
        cases hs
        exact .takeRaw hmutex
      · cases hs
  | txLoop =>
      dsimp only [step] at hs
      split at hs
      · next ht =>
        cases hs
        refine .txWalk _ (by simp [ht]) (by split_ifs <;> simp) ?_
        rw [ht]
        split_ifs <;> rfl
      · cases hs
  | txReceive =>
      dsimp only [step] at hs
      split at hs
      · next ht =>
        split at hs
        · cases hs
          exact .txWalk _ (by simp [ht]) (by simp) (by rw [ht]; rfl)
        · next item rest hqueue =>
          cases hs
          exact .txReceive ht hqueue
      · cases hs
  | txCheck =>
      dsimp only [step] at hs
      split at hs
      · next item ht =>
        cases hs
        refine .txWalk _ (by simp [ht]) (by split_ifs <;> simp) ?_
        rw [ht]
        split_ifs <;> rfl
      · cases hs
  | txTake =>
      dsimp only [step] at hs
      split at hs
      · next item ht hmutex =>
        cases hs
        exact .txTake ht hmutex
      · cases hs
  | write written =>
      dsimp only [step] at hs
      split at hs
      · next h w hmutex =>
        split_ifs at hs with hroom
        · cases hs
          exact .progress hmutex hroom.2
        · cases hs
          exact .finish _ hmutex
        · cases hs
          exact .retry hmutex
      · cases hs
  | done =>
      dsimp only [step] at hs
      split at hs
      · next h w hmutex =>
        split_ifs at hs
        · cases hs
          exact .finish _ hmutex
      · cases hs
  | read bytes =>
      dsimp only [step] at hs
      split_ifs at hs
      · cases hs
        exact .tap bytes
      · cases hs
        exact .decode bytes
  | setTap | clearTap =>
      cases hs
      exact .setTap _ _
  | stop =>
      cases hs
      exact .stop

/-! ### The wire -/

/-- The bytes that a write has put on the wire. -/
def Section.bytes (sec : Section) : List Byte := sec.data.take sec.written

/-- The bytes of the write that has not ended. -/
def Driver.current (s : Driver τ) : List Byte :=
  match s.mutex with
  | some (_, w) => w.data.take w.offset
  | none => []

/-- The frame that is being written. -/
def Driver.inHand (s : Driver τ) : List Frame :=
  match s.mutex with
  | some (_, w) => w.frame.toList
  | none => []

/-- The bytes are those of the frame. -/
def Encodes (frame : Frame) (data : List Byte) : Prop := kissFrameEncode frame = some data

/-- The wire gets one write after the other, and the frames are written in the order in which
they were accepted. -/
structure Serial (s : Driver τ) : Prop where
  callers : ∀ t item, (s.caller t).item = some item → Encodes item.frame item.data
  queued : ∀ item ∈ s.txTask.pending ++ s.queue, Encodes item.frame item.data
  held : ∀ h w, s.mutex = some (h, w) → w.offset ≤ w.data.length ∧
    ∀ f, w.frame = some f → Encodes f w.data
  ended : ∀ sec ∈ s.log, sec.written ≤ sec.data.length ∧ ∀ f, sec.frame = some f →
    Encodes f sec.data
  writing : ∀ w, s.mutex = some (.txTask, w) → s.txTask = .writing
  raw : ∀ t w, s.mutex = some (.caller t, w) → w.frame = none
  wire : s.wire = s.log.flatMap Section.bytes ++ s.current
  order : s.log.filterMap Section.frame ++ s.inHand ++
    (s.txTask.pending ++ s.queue).map TxItem.frame = s.accepted

omit [DecidableEq τ] in
theorem serial_init : Serial (Driver.init : Driver τ) :=
  ⟨fun _ _ h => (by cases h), fun _ h => (by cases h), fun _ _ h => (by cases h),
    fun _ h => (by cases h), fun _ h => (by cases h), fun _ _ h => (by cases h), rfl, rfl⟩

omit [DecidableEq τ] in
/-- A step that neither takes nor gives the mutex, and writes nothing. -/
theorem Serial.of_others {s s' : Driver τ} (h : Serial s) (hcaller : s'.caller = s.caller)
    (hpending : s'.txTask.pending ++ s'.queue = s.txTask.pending ++ s.queue)
    (hmutex : s'.mutex = s.mutex) (hlog : s'.log = s.log) (hwire : s'.wire = s.wire)
    (haccepted : s'.accepted = s.accepted)
    (hwriting : s.txTask = .writing → s'.txTask = .writing) : Serial s' := by
  refine ⟨?_, ?_, ?_, ?_, fun w hw => hwriting (h.writing w (hmutex ▸ hw)), ?_, ?_, ?_⟩
  · rw [hcaller]
    exact h.callers
  · rw [hpending]
    exact h.queued
  · rw [hmutex]
    exact h.held
  · rw [hlog]
    exact h.ended
  · rw [hmutex]
    exact h.raw
  · unfold Driver.current
    rw [hwire, hlog, hmutex]
    exact h.wire
  · unfold Driver.inHand
    rw [hlog, hmutex, hpending, haccepted]
    exact h.order

theorem callers_goto {s : Driver τ} {t : τ} {p : Caller}
    (h : ∀ t item, (s.caller t).item = some item → Encodes item.frame item.data)
    (hp : ∀ item, p.item = some item → Encodes item.frame item.data) (u : τ) (item : TxItem)
    (hu : ((s.goto t p).caller u).item = some item) : Encodes item.frame item.data := by
  unfold Driver.goto at hu
  dsimp only at hu
  by_cases hut : u = t
  · rw [hut, Function.update_self] at hu
    exact hp item hu
  · rw [Function.update_of_ne hut] at hu
    exact h u item hu

/-- The write ends. -/
theorem Serial.finish {s : Driver τ} {holder : Holder τ} {w : Write} (h : Serial s)
    (hmutex : s.mutex = some (holder, w)) : Serial (s.finish holder w) := by
  obtain ⟨hle, hframe⟩ := h.held holder w hmutex
  have hended : ∀ sec ∈ s.log ++ [(⟨w.frame, w.data, w.offset⟩ : Section)],
      sec.written ≤ sec.data.length ∧ ∀ f, sec.frame = some f → Encodes f sec.data := by
    intro sec hsec
    rcases List.mem_append.mp hsec with hold | hnew
    · exact h.ended sec hold
    · obtain rfl := List.mem_singleton.mp hnew
      exact ⟨hle, hframe⟩
  have hwire : s.wire =
      (s.log ++ [(⟨w.frame, w.data, w.offset⟩ : Section)]).flatMap Section.bytes ++ [] := by
    rw [h.wire, Driver.current, hmutex, List.flatMap_append, List.append_nil]
    simp [Section.bytes]
  have horder : (s.log ++ [(⟨w.frame, w.data, w.offset⟩ : Section)]).filterMap Section.frame ++ [] =
      s.log.filterMap Section.frame ++ s.inHand := by
    rw [Driver.inHand, hmutex, List.filterMap_append, List.append_nil]
    cases hw : w.frame <;> simp [hw]
  cases holder with
  | txTask =>
      have htask := h.writing w hmutex
      have horder' := h.order
      rw [← horder, htask] at horder'
      refine ⟨h.callers, fun item hi => h.queued item ?_, fun _ _ heq => (by cases heq), hended,
        fun _ heq => (by cases heq), fun _ _ heq => (by cases heq), hwire, horder'⟩
      rw [htask]
      exact hi
  | caller t =>
      have horder' := h.order
      rw [← horder] at horder'
      exact ⟨callers_goto h.callers fun _ hi => (by cases hi), h.queued,
        fun _ _ heq => (by cases heq), hended, fun _ heq => (by cases heq),
        fun _ _ heq => (by cases heq), hwire, horder'⟩

theorem serial_step {writeRetries : Nat} {s s' : Driver τ} {op : Op τ} (h : Serial s)
    (hs : step writeRetries s op = some s') : Serial s' := by
  cases step_cases hs with
  | stay => exact h
  | walk _ hp =>
      exact ⟨callers_goto h.callers hp, h.queued, h.held, h.ended, h.writing, h.raw, h.wire,
        h.order⟩
  | @enqueue t item ht =>
      refine ⟨callers_goto (s := { s with
        queue := s.queue ++ [item], accepted := s.accepted ++ [item.frame] }) h.callers
          fun _ hi => (by cases hi), fun item' hi => ?_, h.held, h.ended, h.writing, h.raw,
        h.wire, ?_⟩
      · rcases List.mem_append.mp (List.append_assoc _ s.queue [item] ▸ hi) with hold | hnew
        · exact h.queued item' hold
        · obtain rfl := List.mem_singleton.mp hnew
          exact h.callers t item' (by rw [ht]; rfl)
      · show s.log.filterMap Section.frame ++ s.inHand ++
          (s.txTask.pending ++ (s.queue ++ [item])).map TxItem.frame = s.accepted ++ [item.frame]
        rw [← h.order, ← List.append_assoc s.txTask.pending, List.map_append, ← List.append_assoc]
        rfl
  | @takeRaw t data hmutex =>
      have hwire := h.wire
      have horder := h.order
      rw [Driver.current, hmutex] at hwire
      rw [Driver.inHand, hmutex] at horder
      refine ⟨callers_goto (s := { s with mutex := some (.caller t, ⟨none, data, 0, 0⟩) }) h.callers
        fun _ hi => (by cases hi), h.queued, fun _ w hw => ?_, h.ended, fun w hw => (by cases hw),
        fun u w hw => ?_, hwire, horder⟩
      · cases hw
        exact ⟨Nat.zero_le _, fun _ hf => (by cases hf)⟩
      · cases hw
        rfl
  | txWalk _ hne _ hpending =>
      exact h.of_others rfl (congrArg (· ++ s.queue) hpending) rfl rfl rfl rfl
        fun heq => absurd heq hne
  | @txReceive item rest ht hqueue =>
      refine h.of_others rfl ?_ rfl rfl rfl rfl fun heq => (by rw [ht] at heq; cases heq)
      rw [ht, hqueue]
      rfl
  | @txTake item ht hmutex =>
      have hwire := h.wire
      have horder := h.order
      have hqueued := h.queued
      rw [Driver.current, hmutex] at hwire
      rw [Driver.inHand, hmutex, ht] at horder
      rw [ht] at hqueued
      refine ⟨h.callers, fun item' hi => hqueued item' (List.mem_cons_of_mem item hi),
        fun _ w hw => ?_, h.ended, fun _ _ => rfl, fun _ _ hw => (by cases hw), hwire, ?_⟩
      · cases hw
        refine ⟨Nat.zero_le _, fun f hf => ?_⟩
        cases hf
        exact hqueued item List.mem_cons_self
      · rw [List.append_nil] at horder
        show s.log.filterMap Section.frame ++ [item.frame] ++ s.queue.map TxItem.frame = s.accepted
        rw [← horder, List.append_assoc]
        rfl
  | @progress holder w written hmutex hroom =>
      have hheld := h.held holder w hmutex
      refine ⟨h.callers, h.queued, fun holder' w' hw => ?_, h.ended, fun w' hw => ?_,
        fun t w' hw => ?_, ?_, ?_⟩
      · cases hw
        exact ⟨hroom, hheld.2⟩
      · cases hw
        exact h.writing w hmutex
      · cases hw
        exact h.raw t w hmutex
      · show s.wire ++ (w.data.drop w.offset).take written =
          s.log.flatMap Section.bytes ++ w.data.take (w.offset + written)
        rw [h.wire, Driver.current, hmutex, List.append_assoc, List.take_add]
      · have horder := h.order
        rw [Driver.inHand, hmutex] at horder
        exact horder
  | @retry holder w written hmutex =>
      have hheld := h.held holder w hmutex
      have hwire := h.wire
      have horder := h.order
      rw [Driver.current, hmutex] at hwire
      rw [Driver.inHand, hmutex] at horder
      refine ⟨h.callers, h.queued, fun holder' w' hw => ?_, h.ended, fun w' hw => ?_,
        fun t w' hw => ?_, hwire, horder⟩
      · cases hw
        exact hheld
      · cases hw
        exact h.writing w hmutex
      · cases hw
        exact h.raw t w hmutex
  | finish _ hmutex => exact h.finish hmutex
  | tap | decode | setTap | stop => exact h.of_others rfl rfl rfl rfl rfl rfl id

/-! ### The bytes that are read -/

/-- What is delivered is what the decoder makes of the bytes that the tap has not taken. -/
structure Decoded (s : Driver τ) : Prop where
  decoder : s.kissDecoder = ((kissDecoderInit true).processBytes s.decoded).1
  delivered :
    s.delivered = ((kissDecoderInit true).processBytes s.decoded).2.filterMap kissFrameCb

theorem decoded_step {writeRetries : Nat} {s s' : Driver τ} {op : Op τ} (h : Decoded s)
    (hs : step writeRetries s op = some s') : Decoded s' := by
  cases step_cases hs with
  | decode bytes =>
      have hrun : (kissDecoderInit true).processBytes (s.decoded ++ bytes) =
          ((s.kissDecoder.processBytes bytes).1,
            ((kissDecoderInit true).processBytes s.decoded).2 ++
              (s.kissDecoder.processBytes bytes).2) := by
        rw [h.decoder]
        exact run_append _ _ _ _
      refine ⟨(congrArg Prod.fst hrun).symm, ?_⟩
      dsimp only
      rw [hrun, List.filterMap_append, ← h.delivered]
  | finish _ hmutex =>
      rename_i holder w
      cases holder <;> exact ⟨h.decoder, h.delivered⟩
  | _ => exact ⟨h.decoder, h.delivered⟩

/-! ### Runs -/

theorem serial_run {writeRetries : Nat} {s : Driver τ}
    (h : Reach (· = Driver.init) (step writeRetries) Always s) : Serial s ∧ Decoded s := by
  refine h.invariant (I := fun s => Serial s ∧ Decoded s) (fun s hs => ?_) fun s op s' hi _ hs => ?_
  · rw [hs]
    exact ⟨serial_init, rfl, rfl⟩
  · exact ⟨serial_step hi.1 hs, decoded_step hi.2 hs⟩

/-- **The writes of a UART driver.** Whatever tasks send frames and raw bytes: the UART is given
one write after the other, each of them without a gap, and cut only at its end; the frames are
written in the order in which they were accepted, each of them once; and what is delivered is
what a decoder makes of the bytes that the tap has not taken. -/
theorem uart_writes_in_order (writeRetries : Nat) (s : Driver τ)
    (h : Reach (· = Driver.init) (step writeRetries) Always s) :
    s.wire = s.log.flatMap Section.bytes ++ s.current ∧
      s.log.filterMap Section.frame ++ s.inHand ++
        (s.txTask.pending ++ s.queue).map TxItem.frame = s.accepted ∧
      (∀ sec ∈ s.log, sec.written ≤ sec.data.length ∧
        ∀ f, sec.frame = some f → kissFrameEncode f = some sec.data) ∧
      s.delivered = ((kissDecoderInit true).processBytes s.decoded).2.filterMap kissFrameCb := by
  obtain ⟨hserial, hdecoded⟩ := serial_run h
  exact ⟨hserial.wire, hserial.order, hserial.ended, hdecoded.delivered⟩

/-- A UI command. -/
def sampleUart : Frame :=
  { frameInit with
    destination := { callsign := [0x42] }
    source := { callsign := [0x41] }
    isCommand := true, type := .ui, control := 0x03, pid := 0xF0, payload := [0x21] }

/-- A task sends the frame, and the tx task begins to write it. -/
def sampleSend : List (Op Unit) :=
  [.send () sampleUart, .enqueue (), .txLoop, .txReceive, .txCheck, .txTake]

/-- The UART takes 5 bytes of the frame, and then none. -/
def sampleCut : List (Op Unit) := sampleSend ++ [.write 5, .write 0]

/-- The UART takes the frame in two pieces. -/
def sampleWhole : List (Op Unit) := sampleSend ++ [.write 5, .write 15, .done]

theorem uart_writes_in_order_cut :
    ∃ s : Driver Unit, s.accepted = [sampleUart] ∧ s.log.map Section.written = [5] ∧
      s.wire = s.log.flatMap Section.bytes ++ s.current := by
  have hrun : (replay (step 0) Always (Driver.init : Driver Unit) sampleCut).map
      (fun s => (s.accepted, s.log.map Section.written)) = some ([sampleUart], [5]) := by
    decide +kernel
  obtain ⟨s, hs, hpair⟩ := Option.map_eq_some_iff.mp hrun
  obtain ⟨haccepted, hlog⟩ := Prod.mk.injEq _ _ _ _ |>.mp hpair
  exact ⟨s, haccepted, hlog, (uart_writes_in_order 0 s (Reach.replay (.start rfl) hs)).1⟩

/-! ### The TNC -/

/-- A frame, and all bytes of it. -/
def Section.Whole (sec : Section) : Prop :=
  sec.frame.isSome = true ∧ sec.written = sec.data.length

/-- The write is a whole frame, and so is the one before it. -/
def Undamaged (log : List Section) (i : Nat) : Prop :=
  ∀ j sec, j = i ∨ j + 1 = i → log[j]? = some sec → sec.Whole

/-- The write of a frame. -/
theorem section_bytes {sec : Section} {f : Frame} (h : Encodes f sec.data) :
    (1 ≤ (frameBuild f).2.length ∧ (frameBuild f).2.length ≤ bufferSize) ∧
      sec.bytes <+: kissEncoded 0 0 (frameBuild f).2 ∧
      (sec.written = sec.data.length → sec.bytes = kissEncoded 0 0 (frameBuild f).2) := by
  obtain ⟨raw, hbuild, henc⟩ := kissFrameEncode_isSome (f := f) (by rw [show _ = _ from h]; rfl)
  have hdata : kissEncoded 0 0 raw = sec.data := Option.some.inj (henc.symm.trans h)
  rw [hbuild, hdata]
  refine ⟨frameBuild_length hbuild, List.take_prefix _ _, fun hwhole => ?_⟩
  rw [Section.bytes, hwhole, List.take_length]

/-- What a decoder finds while it reads one write after the other. -/
theorem heard_of_sections (log : List Section)
    (hlog : ∀ sec ∈ log, ∀ f, sec.frame = some f → Encodes f sec.data) :
    ∀ {d : KissDecoder}, d.Tidy → ∀ i sec f, log[i]? = some sec → sec.frame = some f →
      ∃ heard, (outputs KissDecoder.processByte d (log.map Section.bytes))[i]? = some heard ∧
        heard.length ≤ 1 ∧ (Undamaged log i → (i = 0 → d.state ≠ .receiving) →
          heard = [⟨0, 0, (frameBuild f).2⟩]) := by
  induction log with
  | nil => exact fun _ i _ _ hi => (by cases hi)
  | cons first log ih =>
      intro d hd i sec f hi hf
      cases i with
      | zero =>
          obtain rfl : first = sec := Option.some.inj hi
          obtain ⟨hlen, hpiece, hwhole⟩ := section_bytes (hlog first List.mem_cons_self f hf)
          refine ⟨_, rfl, KissDecoder.run_piece_length hd hlen.1 hlen.2 hpiece,
            fun hall hstate => ?_⟩
          rw [hwhole (hall 0 first (.inl rfl) rfl).2]
          exact KissDecoder.run_kissEncoded_of_outside hd (hstate rfl) hlen.1 hlen.2
      | succ i =>
          obtain ⟨heard, hget, hshort, hclean⟩ := ih
            (fun sec' hsec' => hlog sec' (List.mem_cons_of_mem first hsec'))
            (hd.run first.bytes) i sec f hi hf
          refine ⟨heard, hget, hshort,
            fun hall _ => hclean (fun j sec' hj hsec' => ?_) fun hzero => ?_⟩
          · exact hall (j + 1) sec' (by omega) hsec'
          · -- the write before was a whole frame, so the decoder is not inside of one
            obtain ⟨hsome, hwritten⟩ := hall 0 first (by omega) rfl
            obtain ⟨g, hg⟩ := Option.isSome_iff_exists.mp hsome
            obtain ⟨-, -, hwhole⟩ := section_bytes (hlog first List.mem_cons_self g hg)
            rw [hwhole hwritten]
            exact KissDecoder.run_kissEncoded_leaves d _

/-- **What the TNC receives.** Whatever tasks send frames and raw bytes, and whichever writes give
up: for every frame that has been written the decoder of the TNC has found at most one frame,
and exactly this one, if it and the write before it are whole frames; what it finds besides is in
the write that is going on. -/
theorem tnc_receives (writeRetries : Nat) (s : Driver τ)
    (h : Reach (· = Driver.init) (step writeRetries) Always s) :
    ∃ heard : List (List KissFrame), heard.length = s.log.length ∧
      heard.flatten <+: ((kissDecoderInit true).processBytes s.wire).2 ∧
      (s.mutex = none → ((kissDecoderInit true).processBytes s.wire).2 = heard.flatten) ∧
      ∀ i sec f, s.log[i]? = some sec → sec.frame = some f → ∃ found, heard[i]? = some found ∧
        found.length ≤ 1 ∧ (Undamaged s.log i → found = [⟨0, 0, (frameBuild f).2⟩]) := by
  obtain ⟨hserial, -⟩ := serial_run h
  refine ⟨outputs KissDecoder.processByte (kissDecoderInit true) (s.log.map Section.bytes),
    by rw [outputs_length, List.length_map], ?_, fun hfree => ?_, fun i sec f hi hf => ?_⟩
  · rw [outputs_flatten, hserial.wire, KissDecoder.processBytes, run_append, List.flatMap_def]
    exact List.prefix_append _ _
  · rw [outputs_flatten, hserial.wire, Driver.current, hfree, List.append_nil, List.flatMap_def]
    rfl
  · obtain ⟨found, hfound, hshort, hclean⟩ := heard_of_sections s.log
      (fun sec hsec => (hserial.ended sec hsec).2) (d := kissDecoderInit true)
      ⟨rfl, fun heq => (by cases heq)⟩ i sec f hi hf
    exact ⟨found, hfound, hshort, fun hall => hclean hall fun _ heq => (by cases heq)⟩

/-- The write of the first frame gives up. The TNC receives the third one. -/
theorem tnc_receives_third :
    ∃ (s : Driver Unit) (heard : List (List KissFrame)),
      s.log.map Section.written = [5, 20, 20] ∧
        ((kissDecoderInit true).processBytes s.wire).2 = heard.flatten ∧
        heard[2]? = some [⟨0, 0, (frameBuild sampleUart).2⟩] := by
  have hrun : (replay (step 0) Always (Driver.init : Driver Unit)
      (sampleCut ++ sampleWhole ++ sampleWhole)).map (fun s => (s.log, s.mutex)) =
        some ([5, 20, 20].map fun n =>
          ⟨some sampleUart, kissEncoded 0 0 (frameBuild sampleUart).2, n⟩, none) := by
    decide +kernel
  obtain ⟨s, hs, hpair⟩ := Option.map_eq_some_iff.mp hrun
  obtain ⟨hlog, hmutex⟩ := Prod.mk.injEq _ _ _ _ |>.mp hpair
  obtain ⟨heard, -, -, hwire, hfound⟩ := tnc_receives 0 s (Reach.replay (.start rfl) hs)
  obtain ⟨found, hget, -, hclean⟩ := hfound 2 _ sampleUart (by rw [hlog]; rfl) rfl
  refine ⟨s, heard, by rw [hlog]; rfl, hwire hmutex, ?_⟩
  rw [hget, hclean fun j sec hj hsec => ?_]
  rw [hlog] at hsec
  obtain rfl | rfl : j = 2 ∨ j = 1 := by omega
  · cases hsec
    exact ⟨rfl, by decide +kernel⟩
  · cases hsec
    exact ⟨rfl, by decide +kernel⟩

end EspAx25.Uart
