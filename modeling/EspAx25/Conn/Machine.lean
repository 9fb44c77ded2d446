import EspAx25.Conn.Spec

/-!
# EspAx25.Conn.Machine

The sequential machine: one connection whose calls do not overlap. Each event is
one complete call, with its batch drained in order before the next event.

`on_connect` runs with the mutex released, but does not call back into the
connection here, except for `ax25_conn_refuse`; whether it does that is the
flag `refuses` of the event. Overlapping calls, and callbacks that re-enter the
connection, are the business of `EspAx25.Conn.Concurrent`.

An expiry is two events: the timer fires, and later its callback runs. A
callback may run at any time, so that expiries that race with a frame which
stops the timer are covered.
-/

namespace EspAx25

/-- The three protocol timers. -/
inductive TimerId
  | t1
  | t2
  | t3
  deriving Repr, DecidableEq

/-- The events of the sequential machine. `heap` is what the allocator answers
if the deferred pool is exhausted. -/
inductive Event
  | call (op : Op) (heap refuses : Bool)
  | refuse
  | fire (t : TimerId)
  deriving DecidableEq

/-- The result of one event: the context, the callbacks invoked in order (the
recorded actions, preceded by `on_connect` if it was called), and the value
returned. -/
structure Result where
  conn : Conn
  out : List Action
  ret : EspErr

namespace Conn

/-- The timeout of timer `t` elapses. -/
def fire (c : Conn) : TimerId → Conn
  | .t1 => { c with timerT1 := c.timerT1.fire }
  | .t2 => { c with timerT2 := c.timerT2.fire }
  | .t3 => { c with timerT3 := c.timerT3.fire }

/-- `release_deferred` at the end of a call, if it held a buffer. -/
def release (c : Conn) : Option Buffer → Conn
  | none => c
  | some b => c.releaseDeferred b

/-- `on_connect` returns, having called `ax25_conn_refuse` if `refuses`. Without
a registered callback nothing happens. -/
def afterOnConnect (c : Conn) (refuses : Bool) : Conn :=
  if c.callbacks.onConnect && refuses then c.refuse.1 else c

/-- The call of `on_connect`, as it shows in the output. -/
def onConnectCall (c : Conn) (isLocal : Bool) : List Action :=
  if c.callbacks.onConnect then [.connect c.remoteAddr isLocal] else []

end Conn

/-- Run a call to its end. -/
def Call.settle (r : Call) (refuses : Bool) : Result :=
  match r.outcome with
  | .returned ret => ⟨r.conn.release r.buffer, r.batch, ret⟩
  | .onConnect isLocal rest =>
    let s := Locked.resume ⟨r.conn.afterOnConnect refuses, r.batch⟩ rest
    ⟨s.conn.release r.buffer, r.conn.onConnectCall isLocal ++ s.deferred, .ok⟩

/-- One event. -/
def Conn.step (c : Conn) : Event → Result
  | .call op heap refuses => (op.call heap c).settle refuses
  | .refuse => ⟨c.refuse.1, [], c.refuse.2⟩
  | .fire t => ⟨c.fire t, [], .ok⟩

/-- The states that a connection reaches from `ax25_conn_init`. -/
inductive Reachable : Conn → Prop
  | init {res : InitResources} {a : Address} {cb : Callbacks} {cfg : Option Config} {c : Conn} :
      Conn.init res a cb cfg = .ok c → Reachable c
  | step {c : Conn} (e : Event) : Reachable c → Reachable (c.step e).conn

/-- A run: the context at its end and the callbacks invoked in order. -/
def Conn.run (c : Conn) : List Event → Conn × List Action
  | [] => (c, [])
  | e :: es =>
    let r := c.step e
    let rest := r.conn.run es
    (rest.1, r.out ++ rest.2)

@[simp] theorem Conn.run_nil (c : Conn) : c.run [] = (c, []) := rfl

@[simp] theorem Conn.run_cons (c : Conn) (e : Event) (es : List Event) :
    c.run (e :: es) = (((c.step e).conn.run es).1, (c.step e).out ++ ((c.step e).conn.run es).2) :=
  rfl

theorem Reachable.run {c : Conn} (h : Reachable c) (es : List Event) : Reachable (c.run es).1 := by
  induction es generalizing c with
  | nil => exact h
  | cons e es ih => exact ih (h.step e)

/-! ### A sample connection -/

/-- Three stations for concrete runs. -/
def sampleA : Address := { callsign := [65] }
@[inherit_doc sampleA] def sampleB : Address := { callsign := [66] }
@[inherit_doc sampleA] def sampleC : Address := { callsign := [67] }

/-- A connection of `sampleA`, just initialised, with every callback set. -/
def sampleConn : Conn :=
  Conn.fresh sampleA ⟨true, true, true, true, true, true, true⟩ Config.default

/-- A SABM with P=1 from `sampleB` to `sampleA`. -/
def sampleSabm : Frame :=
  { frameInit with
    destination := sampleA, source := sampleB, isCommand := true, type := .u
    control := ctrlSabm ||| pfBits true }

theorem reachable_sampleConn : Reachable sampleConn :=
  @Reachable.init ⟨true, true, .ok, true, .ok, .ok, .ok⟩ sampleA
    ⟨true, true, true, true, true, true, true⟩ none sampleConn rfl

/-- The sample connection after it has accepted a SABM. -/
def sampleLink : Conn := (sampleConn.step (.call (.onFrame sampleSabm) false false)).conn

theorem reachable_sampleLink : Reachable sampleLink := reachable_sampleConn.step _

/-! ### What no call changes -/

/-- The part of the context that is fixed at initialisation, with the flags of
the deferred pool. -/
structure SameStatic (c c' : Conn) : Prop where
  config : c'.config = c.config
  localAddr : c'.localAddr = c.localAddr
  callbacks : c'.callbacks = c.callbacks
  pool : c'.deferredPoolInUse = c.deferredPoolInUse
  initialized : c'.initialized = c.initialized
  cookie : c'.magicCookie = c.magicCookie

namespace SameStatic

@[refl] theorem refl (c : Conn) : SameStatic c c := ⟨rfl, rfl, rfl, rfl, rfl, rfl⟩

theorem trans {a b c : Conn} (h₁ : SameStatic a b) (h₂ : SameStatic b c) : SameStatic a c :=
  ⟨h₂.1.trans h₁.1, h₂.2.trans h₁.2, h₂.3.trans h₁.3, h₂.4.trans h₁.4, h₂.5.trans h₁.5,
    h₂.6.trans h₁.6⟩

end SameStatic

end EspAx25
