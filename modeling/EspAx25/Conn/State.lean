import Mathlib.Logic.Function.Basic
import EspAx25.Frame

/-!
# EspAx25.Conn.State

The connection context of `ax25_conn.h` and the part of `ax25_conn.c` that only
changes it: timer management, `reset_state_vars`, the digipeater path, and the
pool of deferred-action buffers.

Modelling notes:

* An `esp_timer` is a `Timer`: the timeout it is armed with, if any, and the
  number of expiries whose callback has not run yet. Stopping a timer does not
  recall such an expiry; that is what makes a *stale* callback possible.
* `tx_queue` is indexed by `Nat`; the array has the indices below 8, and
  `WindowInv` shows that the code never leaves them.
* The callback table only records which callbacks are registered. What the
  application does inside `on_connect` is an input of the machine
  (`EspAx25.Conn.Machine`).
-/

namespace EspAx25

/-! ### Configuration -/

/-- `ax25_conn_config_t`. -/
structure Config where
  t1Ms : UInt32
  t2Ms : UInt32
  t3Ms : UInt32
  n2Retries : UInt8
  windowSize : UInt8
  deriving Repr, DecidableEq

/-- `AX25_CONN_CONFIG_DEFAULT`. -/
def Config.default : Config :=
  { t1Ms := 10000, t2Ms := 1000, t3Ms := 180000, n2Retries := 10, windowSize := 4 }

/-- `ax25_conn_callbacks_t`: which of the callbacks are registered. -/
structure Callbacks where
  onConnect : Bool
  onDisconnect : Bool
  onLinkReset : Bool
  onError : Bool
  onFinal : Bool
  onData : Bool
  onTxFrame : Bool
  deriving Repr, DecidableEq

/-- `ax25_conn_state_t`. -/
inductive ConnState
  | disconnected
  | awaitingConnection
  | awaitingRelease
  | connected
  | timerRecovery
  deriving Repr, DecidableEq

/-! ### Timers -/

/-- An `esp_timer`: the timeout (µs) it is armed with, and the expiries that
have fired but whose callback has not run yet. -/
structure Timer where
  armed : Option Nat := none
  pending : Nat := 0
  deriving Repr, DecidableEq

namespace Timer

/-- `esp_timer_stop` followed by `esp_timer_start_once`. -/
def start (t : Timer) (us : Nat) : Timer := { t with armed := some us }

/-- `esp_timer_stop`. An expiry that already fired stays pending. -/
def stop (t : Timer) : Timer := { t with armed := none }

/-- The timeout elapses: the callback is now due. -/
def fire (t : Timer) : Timer :=
  if t.armed.isSome then { armed := none, pending := t.pending + 1 } else t

/-- The callback runs. -/
def expire (t : Timer) : Timer := { t with pending := t.pending - 1 }

/-- The timer is armed, or has fired and its callback is still to run. -/
def Active (t : Timer) : Prop := t.armed.isSome ∨ 0 < t.pending

instance (t : Timer) : Decidable t.Active := inferInstanceAs (Decidable (_ ∨ _))

@[simp] theorem active_start (t : Timer) (us : Nat) : (t.start us).Active := Or.inl rfl

theorem active_fire {t : Timer} (h : t.Active) : t.fire.Active := by
  unfold fire
  split
  · exact Or.inr (Nat.succ_pos _)
  · exact h

end Timer

/-! ### The connection context -/

/-- `ax25_conn_pending_frame_t`. -/
structure PendingFrame where
  data : List Byte := []
  len : Nat := 0
  ns : Nat := 0
  inUse : Bool := false
  transmitted : Bool := false
  deriving Repr, DecidableEq, Inhabited

/-- `ax25_conn_t`, without the resources that the modelled functions only pass
on (mutex, semaphore, dispatcher counters). -/
structure Conn where
  config : Config
  localAddr : Address
  remoteAddr : Address
  remoteAddrSet : Bool
  path : List Address
  callbacks : Callbacks
  state : ConnState
  isLocalInitiated : Bool
  refusePending : Bool
  vs : Nat
  vr : Nat
  va : Nat
  peerBusy : Bool
  localBusy : Bool
  rejSent : Bool
  ackPending : Bool
  retryCount : UInt8
  t1CurrentMs : UInt32
  /-- `deferred_pool_in_use_mask`, one flag for each pooled buffer. -/
  deferredPoolInUse : Fin 2 → Bool
  txQueue : Nat → PendingFrame
  timerT1 : Timer
  timerT2 : Timer
  timerT3 : Timer
  initialized : Bool
  magicCookie : UInt32

/-- The value of `magic_cookie` in a live context. -/
def liveCookie : UInt32 := 0xDEADBEEF

/-- `MOD8`. -/
def mod8 (x : Nat) : Nat := x % 8

theorem mod8_lt (x : Nat) : mod8 x < 8 := Nat.mod_lt _ (by decide)

namespace Conn

/-! ### Timer management -/

/-- `start_timer_t1`. -/
def startTimerT1 (c : Conn) : Conn :=
  let timeoutMs := if c.t1CurrentMs > 0 then c.t1CurrentMs else c.config.t1Ms
  { c with timerT1 := c.timerT1.start (timeoutMs.toNat * 1000) }

/-- `stop_timer_t1`. -/
def stopTimerT1 (c : Conn) : Conn := { c with timerT1 := c.timerT1.stop }

/-- `start_timer_t2`. -/
def startTimerT2 (c : Conn) : Conn :=
  { c with timerT2 := c.timerT2.start (c.config.t2Ms.toNat * 1000) }

/-- `stop_timer_t2`. -/
def stopTimerT2 (c : Conn) : Conn := { c with timerT2 := c.timerT2.stop }

/-- `start_timer_t3`. -/
def startTimerT3 (c : Conn) : Conn :=
  { c with timerT3 := c.timerT3.start (c.config.t3Ms.toNat * 1000) }

/-- `stop_timer_t3`. -/
def stopTimerT3 (c : Conn) : Conn := { c with timerT3 := c.timerT3.stop }

/-- `stop_all_timers`. -/
def stopAllTimers (c : Conn) : Conn := c.stopTimerT1.stopTimerT2.stopTimerT3

/-- `seed_t1_for_path`; the digipeater count is ignored. -/
def seedT1ForPath (c : Conn) : Conn := { c with t1CurrentMs := c.config.t1Ms }

/-! ### State management -/

/-- `clear_tx_queue`: payload and `ns` of a cleared slot are left as they are. -/
def clearTxQueue (c : Conn) : Conn :=
  { c with txQueue := fun i =>
      if i < 8 then { c.txQueue i with inUse := false, transmitted := false, len := 0 }
      else c.txQueue i }

/-- `reset_state_vars`. -/
def resetStateVars (c : Conn) : Conn :=
  clearTxQueue
    { c with
      vs := 0, vr := 0, va := 0,
      peerBusy := false, localBusy := false, rejSent := false, ackPending := false,
      retryCount := 0 }

/-- `set_conn_path`. -/
def setConnPath (c : Conn) (digipeaters : List Address) : Conn × EspErr :=
  if digipeaters.length > maxDigipeaters then (c, .invalidSize)
  else
    ({ c with path := digipeaters.map fun d =>
        { d with hasBeenRepeated := false, isLast := false } }, .ok)

/-- `set_conn_path_from_frame`. -/
def setConnPathFromFrame (c : Conn) (frame : Frame) : Conn :=
  (c.setConnPath frame.digipeaters).1

/-- `outstanding_frames`: `MOD8` of the (possibly negative) difference. -/
def outstandingFrames (c : Conn) : Nat := (((c.vs : Int) - c.va) % 8).toNat

/-- The sequence numbers that `for (seq = a; seq != b; seq = MOD8(seq + 1))`
visits. The bounds are below 8 in every reachable state, so eight rounds are
enough (`seqRange_mem`). -/
def seqRange (a b : Nat) : List Nat := go 8 a
where
  go : Nat → Nat → List Nat
    | 0, _ => []
    | fuel + 1, seq => if seq = b then [] else seq :: go fuel (mod8 (seq + 1))

/-- Write the `transmitted` flag of one slot. -/
def setTransmitted (c : Conn) (seq : Nat) (b : Bool) : Conn :=
  { c with txQueue := Function.update c.txQueue seq { c.txQueue seq with transmitted := b } }

/-- The loop that marks the slots from `a` up to V(S) as untransmitted. -/
def markUntransmitted (c : Conn) (a : Nat) : Conn :=
  (seqRange a c.vs).foldl (fun c seq => c.setTransmitted seq false) c

/-! ### The deferred-buffer pool -/

/-- Where the batch of a call is stored. -/
inductive Buffer
  | pool (i : Fin 2)
  | heap
  deriving Repr, DecidableEq

/-- `acquire_deferred`: the first free pooled buffer, else a heap allocation,
whose success `heap` is up to the allocator. -/
def acquireDeferred (heap : Bool) (c : Conn) : Option (Buffer × Conn) :=
  if !c.deferredPoolInUse 0 then
    some (.pool 0, { c with deferredPoolInUse := Function.update c.deferredPoolInUse 0 true })
  else if !c.deferredPoolInUse 1 then
    some (.pool 1, { c with deferredPoolInUse := Function.update c.deferredPoolInUse 1 true })
  else if heap then some (.heap, c)
  else none

/-- The context as a call sees it while it holds the first pooled buffer. -/
def taken (c : Conn) : Conn :=
  { c with deferredPoolInUse := Function.update (fun _ => false) 0 true }

/-- `release_deferred`. -/
def releaseDeferred (c : Conn) : Buffer → Conn
  | .pool i =>
    if !c.initialized || c.magicCookie != liveCookie then c
    else { c with deferredPoolInUse := Function.update c.deferredPoolInUse i false }
  | .heap => c

end Conn

end EspAx25
