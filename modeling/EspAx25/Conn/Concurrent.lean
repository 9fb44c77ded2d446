import EspAx25.Conn.TimerInv

/-!
# EspAx25.Conn.Concurrent

The concurrent machine: any number of calls on one connection, by other tasks or
from inside a callback.

The mutex makes a locked section one step (`Move.call`, `Move.relock`). Between
its sections and while it drains its batch a call is a `Task`; its actions reach
the application one by one (`Move.invoke`), and the moves of different tasks
interleave freely. A call that waits in `on_connect` keeps its batch until it
has the mutex again.

Each recorded action carries a stamp that the code does not have: the session in
which it was recorded, and the number of its payload within that session. The
stamps come from `Ghost`, which follows the sequence variables without the
modulus.
-/

namespace EspAx25

open Cyclic Conn Locked

/-! ### Stamps -/

/-- An action with its session and, for an I frame or a payload, the number of
that payload in its session. -/
structure Entry where
  action : Action
  session : Nat
  num : Nat
  deriving DecidableEq

/-- What the machine remembers beside the context. -/
structure Ghost where
  /-- How often the sequence variables have been reset. -/
  session : Nat := 0
  /-- The payloads of this session that have been acknowledged. -/
  base : Nat := 0
  /-- The I frames of this session that have been consumed. -/
  got : Nat := 0
  /-- The payload in this slot has been recorded for `on_tx_frame`. -/
  recorded : Nat → Bool := fun _ => false
  /-- The payloads that `send_data` has accepted, session by session. -/
  accepted : Nat → List (List Byte) := fun _ => []
  /-- All actions recorded so far, in the order of the locked sections. -/
  log : List Entry := []

/-- The slot of an I frame among `acts`. -/
def recordsSlot (acts : List Action) (i : Nat) : Bool :=
  acts.any fun
    | .frame f => f.type == .i && f.ns == i
    | _ => false

namespace Ghost

/-- The ghost state after a section from `c` to `c'` that recorded `acts`. -/
def next (g : Ghost) (c c' : Conn) (acts : List Action) : Ghost :=
  if ranReset c.state c'.state acts then
    { g with session := g.session + 1, base := 0, got := 0, recorded := fun _ => false }
  else
    { g with
      base := g.base + arc 8 c.va c'.va
      got := g.got + arc 8 c.vr c'.vr
      recorded := fun i => (decide (Mem 8 c.va c.vs i) && g.recorded i) || recordsSlot acts i }

/-- The number of the payload that an action recorded in context `c` carries. -/
def number (g : Ghost) (c : Conn) : Action → Nat
  | .frame f => if f.type = .i then g.base + arc 8 c.va f.ns else 0
  | .data _ => g.got - 1
  | _ => 0

def entry (g : Ghost) (c : Conn) (a : Action) : Entry := ⟨a, g.session, g.number c a⟩

/-- `send_data` has accepted a payload. -/
def accept (g : Ghost) : Op → Outcome → Ghost
  | .sendData data, .returned .ok =>
    { g with accepted :=
        Function.update g.accepted g.session (g.accepted g.session ++ [data]) }
  | _, _ => g

@[simp] theorem next_log (g : Ghost) (c c' : Conn) (acts : List Action) :
    (g.next c c' acts).log = g.log := by
  unfold next
  split <;> rfl

@[simp] theorem accept_log (g : Ghost) (op : Op) (o : Outcome) : (g.accept op o).log = g.log := by
  unfold accept
  split <;> rfl

/-- A section has recorded `acts`. -/
def record (g : Ghost) (c : Conn) (acts : List Action) : Ghost :=
  { g with log := g.log ++ acts.map (g.entry c) }

end Ghost

/-! ### The machine -/

/-- A call in flight: `rest` is what it does once `on_connect` has returned, and
`batch` what it has recorded and not yet invoked. -/
structure Task where
  buffer : Buffer
  rest : Option Resume
  batch : List Entry

/-- What a call still has to do after its first section. -/
def Outcome.rest : Outcome → Option Resume
  | .returned _ => none
  | .onConnect _ rest => some rest

/-- The connection with all calls in flight and everything invoked so far. -/
structure Sys where
  conn : Conn
  tasks : List Task := []
  out : List Entry := []
  ghost : Ghost := {}

/-- The moves of the concurrent machine. -/
inductive Move
  /-- A call up to the end of its first locked section. -/
  | call (op : Op) (heap : Bool)
  /-- `ax25_conn_refuse`, which takes no lock. -/
  | refuse
  /-- `on_connect` has returned: the second locked section of task `i`. -/
  | relock (i : Nat)
  /-- Task `i` invokes the next action of its batch. -/
  | invoke (i : Nat)
  /-- Task `i` has drained its batch and gives its buffer back. -/
  | finish (i : Nat)
  | fire (t : TimerId)

namespace Sys

/-- The call of `on_connect` at the end of a first section, as it shows in the
output. -/
def connectCall (r : Call) (g : Ghost) : List Entry :=
  match r.outcome with
  | .returned _ => []
  | .onConnect isLocal _ => (r.conn.onConnectCall isLocal).map (g.entry r.conn)

/-- The second section of a task, and the actions it adds to the batch. -/
def resumed (y : Sys) (t : Task) (rest : Resume) : Conn × List Action :=
  let s := Locked.resume ⟨y.conn, t.batch.map Entry.action⟩ rest
  (s.conn, s.deferred.drop t.batch.length)

/-- One move. A move of a task that is not in the right place does nothing. -/
def step (y : Sys) : Move → Sys
  | .call op heap =>
    let r := op.call heap y.conn
    match r.buffer with
    | none => { y with conn := r.conn }
    | some b =>
      let g := (y.ghost.next y.conn r.conn r.batch).accept op r.outcome
      { conn := r.conn
        tasks := y.tasks ++ [⟨b, r.outcome.rest, r.batch.map (g.entry r.conn)⟩]
        out := y.out ++ connectCall r g
        ghost := g.record r.conn r.batch }
  | .refuse => { y with conn := y.conn.refuse.1 }
  | .relock i =>
    match y.tasks[i]? with
    | some ⟨b, some rest, batch⟩ =>
      let (c, acts) := y.resumed ⟨b, some rest, batch⟩ rest
      let g := y.ghost.next y.conn c acts
      { y with
        conn := c
        tasks := y.tasks.set i ⟨b, none, batch ++ acts.map (g.entry c)⟩
        ghost := g.record c acts }
    | _ => y
  | .invoke i =>
    match y.tasks[i]? with
    | some ⟨b, none, e :: batch⟩ =>
      { y with tasks := y.tasks.set i ⟨b, none, batch⟩, out := y.out ++ [e] }
    | _ => y
  | .finish i =>
    match y.tasks[i]? with
    | some ⟨b, none, []⟩ =>
      { y with conn := y.conn.releaseDeferred b, tasks := y.tasks.eraseIdx i }
    | _ => y
  | .fire t => { y with conn := y.conn.fire t }

/-- The actions that a move records. -/
def records (y : Sys) : Move → List Action
  | .call op heap => (op.call heap y.conn).batch
  | .relock i =>
    match y.tasks[i]? with
    | some ⟨b, some rest, batch⟩ => (y.resumed ⟨b, some rest, batch⟩ rest).2
    | _ => []
  | _ => []

/-- The SABM that a move decides about, `on_connect` having returned. -/
def deciding (y : Sys) : Move → Option Frame
  | .relock i =>
    match y.tasks[i]? with
    | some ⟨_, some (.decide f), _⟩ => some f
    | _ => none
  | _ => none

/-- The states reached from `ax25_conn_init` by moves that all satisfy `ok`. -/
inductive ReachableVia (ok : Sys → Move → Prop) : Sys → Prop
  | init {res : InitResources} {a : Address} {cb : Callbacks} {cfg : Option Config} {c : Conn} :
      Conn.init res a cb cfg = .ok c → ReachableVia ok { conn := c }
  | step {y : Sys} (m : Move) : ok y m → ReachableVia ok y → ReachableVia ok (y.step m)

/-- The states reached by any moves. -/
def Reachable (y : Sys) : Prop := ReachableVia (fun _ _ => True) y

/-- A run of the machine. -/
def run (y : Sys) (ms : List Move) : Sys := ms.foldl step y

/-- Every move of a run satisfies `ok`. -/
def RunOk (ok : Sys → Move → Prop) (y : Sys) : List Move → Prop
  | [] => True
  | m :: ms => ok y m ∧ RunOk ok (y.step m) ms

theorem ReachableVia.run {ok : Sys → Move → Prop} {y : Sys} (h : ReachableVia ok y)
    {ms : List Move} (hms : RunOk ok y ms) : ReachableVia ok (y.run ms) := by
  induction ms generalizing y with
  | nil => exact h
  | cons m ms ih => exact ih (.step m hms.1 h) hms.2

theorem Reachable.run {y : Sys} (h : y.Reachable) (ms : List Move) : (y.run ms).Reachable := by
  induction ms generalizing y with
  | nil => exact h
  | cons m ms ih => exact ih (.step m trivial h)

theorem ReachableVia.reachable {ok : Sys → Move → Prop} {y : Sys} (h : ReachableVia ok y) :
    y.Reachable := by
  induction h with
  | init h => exact .init h
  | step m _ _ ih => exact .step m trivial ih

end Sys

/-! ### What one move does to the context -/

/-- `c'` is `c` but for timers, buffer pool and the refusal flag. -/
def Minor (c c' : Conn) : Prop :=
  ∃ p t1 t2 t3 r, c' = { c with
    deferredPoolInUse := p, timerT1 := t1, timerT2 := t2, timerT3 := t3, refusePending := r }

theorem Minor.refl (c : Conn) : Minor c c := ⟨_, _, _, _, _, rfl⟩

theorem Minor.trans {a b c : Conn} (h₁ : Minor a b) (h₂ : Minor b c) : Minor a c := by
  obtain ⟨p, t1, t2, t3, r, rfl⟩ := h₁
  obtain ⟨p', t1', t2', t3', r', rfl⟩ := h₂
  exact ⟨p', t1', t2', t3', r', rfl⟩

theorem minor_consumeExpiry (op : Op) (c : Conn) : Minor c (op.consumeExpiry c) := by
  cases op <;> exact ⟨_, _, _, _, _, rfl⟩

theorem minor_fire (c : Conn) (t : TimerId) : Minor c (c.fire t) := by
  cases t <;> exact ⟨_, _, _, _, _, rfl⟩

theorem minor_refuse (c : Conn) : Minor c c.refuse.1 := by
  unfold refuse
  split_ifs
  · exact .refl c
  · exact ⟨_, _, _, _, _, rfl⟩

theorem minor_releaseDeferred (c : Conn) (b : Buffer) : Minor c (c.releaseDeferred b) := by
  cases b with
  | heap => exact .refl c
  | pool i =>
      simp only [releaseDeferred]
      split_ifs
      · exact .refl c
      · exact ⟨_, _, _, _, _, rfl⟩

theorem minor_acquireDeferred {c c' : Conn} {heap : Bool} {b : Buffer}
    (h : c.acquireDeferred heap = some (b, c')) : Minor c c' := by
  unfold acquireDeferred at h
  split_ifs at h <;> cases h
  · exact ⟨_, _, _, _, _, rfl⟩
  · exact ⟨_, _, _, _, _, rfl⟩
  · exact .refl c

/-- Everything that move `m` can do to the context, with the actions it records. -/
inductive MoveStep (y : Sys) : Move → Conn → List Action → Prop
  | minor {m : Move} {c' : Conn} : y.deciding m = none → Minor y.conn c' → MoveStep y m c' []
  /-- The first locked section of a call that has got buffer `b`. -/
  | locked (op : Op) (heap : Bool) {b : Buffer} {c₀ : Conn} {s : Locked} {o : Outcome} :
      op.call heap y.conn = ⟨s.conn, some b, s.deferred, o⟩ → Minor y.conn c₀ →
      op.precheck y.conn = none → op.body ⟨c₀, []⟩ = (s, o) → SectionStep c₀ op s o →
      MoveStep y (.call op heap) s.conn s.deferred
  /-- The second one, of a call that was asking `on_connect` about `f`. -/
  | decided {m : Move} (f : Frame) {c' : Conn} {acts : List Action} : y.deciding m = some f →
      DecideStep y.conn f c' acts → MoveStep y m c' acts

theorem precheck_minor {c c' : Conn} (h : Minor c c') (op : Op) :
    op.precheck c' = op.precheck c := by
  obtain ⟨p, t1, t2, t3, r, rfl⟩ := h
  cases op <;> rfl

/-- What holds in every state of the concurrent machine. -/
structure SysInv (y : Sys) : Prop where
  initialized : y.conn.initialized = true
  cookie : y.conn.magicCookie = liveCookie
  window : WindowInv y.conn
  /-- A call that waits for the decision about a SABM has recorded nothing. -/
  undecided : ∀ t ∈ y.tasks, ∀ f, t.rest = some (.decide f) → t.batch = []
  /-- A pooled buffer that is taken belongs to a call in flight. -/
  pool : ∀ j, y.conn.deferredPoolInUse j = true → ∃ t ∈ y.tasks, t.buffer = .pool j

theorem consumeExpiry_pool (op : Op) (c : Conn) :
    (op.consumeExpiry c).deferredPoolInUse = c.deferredPoolInUse := by
  cases op <;> rfl

/-- A call is refused at once, or is one locked section. -/
theorem opCall_cases (heap : Bool) (c : Conn) (op : Op) (hw : WindowInv c) :
    (∃ c' ret, op.call heap c = .early c' ret ∧ Minor c c' ∧
        c'.deferredPoolInUse = c.deferredPoolInUse) ∨
      ∃ c₀ b s o, op.call heap c = ⟨s.conn, some b, s.deferred, o⟩ ∧ Minor c c₀ ∧
        (op.consumeExpiry c).acquireDeferred heap = some (b, c₀) ∧ op.precheck c = none ∧
        op.body ⟨c₀, []⟩ = (s, o) ∧ SectionStep c₀ op s o := by
  have hm := minor_consumeExpiry op c
  cases hp : op.precheck (op.consumeExpiry c) with
  | some ret => exact Or.inl ⟨_, ret, by simp only [Op.call, hp], hm, consumeExpiry_pool op c⟩
  | none =>
      cases ha : (op.consumeExpiry c).acquireDeferred heap with
      | none =>
          exact Or.inl ⟨_, op.noMemResult, by simp only [Op.call, hp, Conn.locked, ha], hm,
            consumeExpiry_pool op c⟩
      | some r =>
          obtain ⟨b, c₀⟩ := r
          have hm₀ := hm.trans (minor_acquireDeferred ha)
          have hp₀ : op.precheck c = none := (precheck_minor hm op).symm.trans hp
          have hsec := section_cases (c := c₀) ((precheck_minor hm₀ op).trans hp₀)
            (by obtain ⟨p, t1, t2, t3, r, rfl⟩ := hm₀; exact hw.va_lt)
            (by obtain ⟨p, t1, t2, t3, r, rfl⟩ := hm₀; exact hw.vs_lt)
          have hcall : op.call heap c = ⟨(op.body ⟨c₀, []⟩).1.conn, some b,
              (op.body ⟨c₀, []⟩).1.deferred, (op.body ⟨c₀, []⟩).2⟩ := by
            simp only [Op.call, hp, Conn.locked, ha]
          exact Or.inr ⟨c₀, b, _, _, hcall, hm₀, rfl, hp₀, rfl, hsec⟩

/-- The second section of a task. -/
theorem relock_cases {y : Sys} (h : SysInv y) {i : Nat} {b : Buffer} {rest : Resume}
    {batch : List Entry} (ht : y.tasks[i]? = some ⟨b, some rest, batch⟩) :
    MoveStep y (.relock i) (y.resumed ⟨b, some rest, batch⟩ rest).1
      (y.resumed ⟨b, some rest, batch⟩ rest).2 := by
  cases rest with
  | decide f =>
      obtain rfl := h.undecided _ (List.mem_of_getElem? ht) f rfl
      exact .decided f (by simp only [Sys.deciding, ht]) (decide_cases y.conn f)
  | finish =>
      have : (y.resumed ⟨b, some .finish, batch⟩ .finish).2 = [] := by
        simp [Sys.resumed, Locked.resume]
      rw [this]
      exact .minor (by simp only [Sys.deciding, ht]) (.refl _)

/-- **Inversion of a move.** -/
theorem move_cases {y : Sys} (h : SysInv y) (m : Move) :
    MoveStep y m (y.step m).conn (y.records m) := by
  cases m with
  | call op heap =>
      simp only [Sys.step, Sys.records]
      obtain ⟨c', ret, hr, hm, -⟩ | ⟨c₀, b, s, o, hr, hm, -, hp, hbody, hsec⟩ :=
        opCall_cases heap y.conn op h.window
      · rw [hr]
        exact .minor rfl hm
      · rw [hr]
        exact .locked op heap hr hm hp hbody hsec
  | refuse => exact .minor rfl (minor_refuse _)
  | relock i =>
      simp only [Sys.step, Sys.records]
      split
      · next b rest batch heq => exact relock_cases h heq
      · next hno =>
        refine .minor ?_ (.refl _)
        simp only [Sys.deciding]
        split
        · next f batch heq => exact absurd heq (hno _ _ _)
        · rfl
  | invoke i =>
      simp only [Sys.step, Sys.records]
      split <;> exact .minor rfl (.refl _)
  | finish i =>
      simp only [Sys.step, Sys.records]
      split
      · exact .minor rfl (minor_releaseDeferred _ _)
      · exact .minor rfl (.refl _)
  | fire t => exact .minor rfl (minor_fire _ _)

namespace Minor

variable {c c' : Conn} (h : Minor c c')
include h

theorem state : c'.state = c.state := by
  obtain ⟨p, t1, t2, t3, r, rfl⟩ := h
  rfl

theorem linked (hl : c.Linked) : c'.Linked := by
  unfold Linked
  rw [h.state]
  exact hl

theorem va : c'.va = c.va := by
  obtain ⟨p, t1, t2, t3, r, rfl⟩ := h
  rfl

theorem txQueue : c'.txQueue = c.txQueue := by
  obtain ⟨p, t1, t2, t3, r, rfl⟩ := h
  rfl

theorem remoteAddr : c'.remoteAddr = c.remoteAddr := by
  obtain ⟨p, t1, t2, t3, r, rfl⟩ := h
  rfl

theorem remoteAddrSet : c'.remoteAddrSet = c.remoteAddrSet := by
  obtain ⟨p, t1, t2, t3, r, rfl⟩ := h
  rfl

theorem isValidNr : c'.isValidNr = c.isValidNr := by
  obtain ⟨p, t1, t2, t3, r, rfl⟩ := h
  rfl

end Minor

theorem Minor.window {c c' : Conn} (h : Minor c c') (hw : WindowInv c) : WindowInv c' := by
  obtain ⟨p, t1, t2, t3, r, rfl⟩ := h
  exact hw.congr rfl rfl rfl rfl rfl

theorem MoveStep.window {y : Sys} {m : Move} {c' : Conn} {acts : List Action}
    (h : MoveStep y m c' acts) (hw : WindowInv y.conn) : WindowInv c' := by
  cases h with
  | minor hd hm => exact hm.window hw
  | locked op heap hr hm hp hb hs => exact hs.window (hm.window hw)
  | decided f hf hd => exact hd.window hw

/-- No move ends the life of the context. -/
theorem MoveStep.live {y : Sys} {m : Move} {c' : Conn} {acts : List Action}
    (h : MoveStep y m c' acts) :
    c'.initialized = y.conn.initialized ∧ c'.magicCookie = y.conn.magicCookie := by
  cases h with
  | minor hd hm =>
      obtain ⟨p, t1, t2, t3, r, rfl⟩ := hm
      exact ⟨rfl, rfl⟩
  | locked op heap hr hm hp hb hs =>
      obtain ⟨p, t1, t2, t3, r, rfl⟩ := hm
      exact ⟨hs.static.initialized, hs.static.cookie⟩
  | decided f hf hd => exact ⟨hd.static.initialized, hd.static.cookie⟩

/-! ### The invariant -/

/-- Taking a buffer marks at most that buffer. -/
theorem acquireDeferred_pool {c c' : Conn} {heap : Bool} {b : Buffer}
    (h : c.acquireDeferred heap = some (b, c')) {j : Fin 2}
    (hj : c'.deferredPoolInUse j = true) : c.deferredPoolInUse j = true ∨ b = .pool j := by
  unfold acquireDeferred at h
  split_ifs at h <;> cases h
  · by_cases h0 : j = 0
    · exact Or.inr (by rw [h0])
    · exact Or.inl (by simpa [h0] using hj)
  · by_cases h1 : j = 1
    · exact Or.inr (by rw [h1])
    · exact Or.inl (by simpa [h1] using hj)
  · exact Or.inl hj

theorem acquireDeferred_ne_none {c : Conn} {heap : Bool}
    (h : (∃ j, c.deferredPoolInUse j = false) ∨ heap = true) :
    c.acquireDeferred heap ≠ none := by
  intro hnone
  unfold acquireDeferred at hnone
  split_ifs at hnone with h0 h1 hh
  rcases h with ⟨j, hj⟩ | h
  · match j, hj with
    | 0, hj => exact h0 (by rw [hj]; rfl)
    | 1, hj => exact h1 (by rw [hj]; rfl)
  · exact hh h

/-- Giving a buffer back unmarks it. -/
theorem releaseDeferred_pool {c : Conn} (hi : c.initialized = true)
    (hc : c.magicCookie = liveCookie) {b : Buffer} {j : Fin 2}
    (hj : (c.releaseDeferred b).deferredPoolInUse j = true) :
    c.deferredPoolInUse j = true ∧ b ≠ .pool j := by
  cases b with
  | heap => exact ⟨hj, by simp⟩
  | pool i =>
      simp only [releaseDeferred, hi, hc, Bool.not_true, bne_self_eq_false, Bool.or_self,
        Bool.false_eq_true, if_false] at hj
      by_cases h : j = i
      · simp [h] at hj
      · exact ⟨by simpa [h] using hj, by simpa using Ne.symm h⟩

/-- Without pooled buffers to spare there are two calls in flight. -/
theorem SysInv.free {y : Sys} (h : SysInv y) (hlen : y.tasks.length < 2) :
    ∃ j, y.conn.deferredPoolInUse j = false := by
  by_contra hall
  have hall : ∀ j, y.conn.deferredPoolInUse j = true := by
    intro j
    by_contra hj
    exact hall ⟨j, by simpa using hj⟩
  obtain ⟨t, ht, ht0⟩ := h.pool 0 (hall 0)
  obtain ⟨u, hu, hu1⟩ := h.pool 1 (hall 1)
  obtain ⟨v, hv⟩ : ∃ v, y.tasks = [v] := by
    rw [← List.length_eq_one_iff]
    have := List.length_pos_of_mem ht
    omega
  rw [hv, List.mem_singleton] at ht hu
  rw [ht, ← hu, hu1] at ht0
  cases ht0

theorem sysInv_init {res : InitResources} {a : Address} {cb : Callbacks} {cfg : Option Config}
    {c : Conn} (h : Conn.init res a cb cfg = .ok c) : SysInv { conn := c } := by
  obtain rfl := init_ok h
  exact ⟨rfl, rfl, windowInv_fresh _ _ _, by simp, by simp [Conn.fresh]⟩

theorem fire_pool (c : Conn) (t : TimerId) :
    (c.fire t).deferredPoolInUse = c.deferredPoolInUse := by
  cases t <;> rfl

theorem refuse_pool (c : Conn) : c.refuse.1.deferredPoolInUse = c.deferredPoolInUse := by
  unfold refuse
  split_ifs <;> rfl

theorem resumed_pool (y : Sys) (b : Buffer) (rest : Resume) {batch : List Entry}
    (h : ∀ f, rest = .decide f → batch = []) :
    (y.resumed ⟨b, some rest, batch⟩ rest).1.deferredPoolInUse = y.conn.deferredPoolInUse := by
  cases rest with
  | decide f =>
      obtain rfl := h f rfl
      exact (decide_cases y.conn f).static.pool
  | finish => rfl

/-- Some call in flight holds pooled buffer `j`. -/
def Sys.Holds (tasks : List Task) (j : Fin 2) : Prop := ∃ t ∈ tasks, t.buffer = .pool j

/-- A task that is rewritten in place keeps its buffer. -/
theorem holds_set {tasks : List Task} {i : Nat} {u v : Task} {j : Fin 2}
    (hu : tasks[i]? = some u) (hv : v.buffer = u.buffer) (h : Sys.Holds tasks j) :
    Sys.Holds (tasks.set i v) j := by
  obtain ⟨t, ht, hb⟩ := h
  obtain ⟨k, hk⟩ := List.getElem?_of_mem ht
  by_cases hik : i = k
  · subst hik
    obtain rfl := Option.some.inj (hk.symm.trans hu)
    exact ⟨v, List.mem_set (List.getElem?_eq_some_iff.mp hu).1 v, hv.trans hb⟩
  · refine ⟨t, List.mem_iff_getElem?.mpr ⟨k, ?_⟩, hb⟩
    rw [List.getElem?_set_ne hik, hk]

/-- A finished task takes only its own buffer away. -/
theorem holds_eraseIdx {tasks : List Task} {i : Nat} {u : Task} {j : Fin 2}
    (hu : tasks[i]? = some u) (hne : u.buffer ≠ .pool j) (h : Sys.Holds tasks j) :
    Sys.Holds (tasks.eraseIdx i) j := by
  obtain ⟨t, ht, hb⟩ := h
  obtain ⟨k, hk⟩ := List.getElem?_of_mem ht
  refine ⟨t, List.mem_eraseIdx_iff_getElem?.mpr ⟨k, ?_, hk⟩, hb⟩
  intro heq
  subst heq
  obtain rfl := Option.some.inj (hk.symm.trans hu)
  exact hne hb

theorem SysInv.undecided_step {y : Sys} (h : SysInv y) (m : Move) :
    ∀ t ∈ (y.step m).tasks, ∀ f, t.rest = some (.decide f) → t.batch = [] := by
  intro t ht f hf
  cases m with
  | call op heap =>
      simp only [Sys.step] at ht
      obtain ⟨c', ret, hr, -⟩ | ⟨c₀, b, s, o, hr, -, -, -, -, hsec⟩ :=
        opCall_cases heap y.conn op h.window
      · rw [hr] at ht
        exact h.undecided t ht f hf
      · rw [hr] at ht
        rcases List.mem_append.mp ht with ht | ht
        · exact h.undecided t ht f hf
        · -- only the request of a SABM leaves a decision open
          obtain rfl := List.mem_singleton.mp ht
          cases o with
          | returned ret => cases hf
          | onConnect isLocal rest =>
              obtain ⟨-, rfl⟩ | ⟨f', -, -, -, -, rfl, -, -⟩ := hsec.onConnect_cases
              · cases hf
              · rfl
  | refuse | fire => exact h.undecided t ht f hf
  | relock i | invoke i =>
      simp only [Sys.step] at ht
      split at ht
      · rcases List.mem_or_eq_of_mem_set ht with ht | rfl
        · exact h.undecided t ht f hf
        · cases hf
      · exact h.undecided t ht f hf
  | finish i =>
      simp only [Sys.step] at ht
      split at ht
      · exact h.undecided t (List.mem_of_mem_eraseIdx ht) f hf
      · exact h.undecided t ht f hf

theorem SysInv.pool_step {y : Sys} (h : SysInv y) (m : Move) (j : Fin 2)
    (hj : (y.step m).conn.deferredPoolInUse j = true) : Sys.Holds (y.step m).tasks j := by
  cases m with
  | call op heap =>
      simp only [Sys.step] at hj ⊢
      have hexp := congrFun (consumeExpiry_pool op y.conn) j
      obtain ⟨c', ret, hr, -, hc⟩ | ⟨c₀, b, s, o, hr, -, ha, -, -, hsec⟩ :=
        opCall_cases heap y.conn op h.window
      · rw [hr] at hj ⊢
        exact h.pool j (hc ▸ hj)
      · rw [hr] at hj ⊢
        have hj : c₀.deferredPoolInUse j = true := congrFun hsec.static.pool j ▸ hj
        rcases acquireDeferred_pool ha hj with hj | rfl
        · obtain ⟨t, ht, hb⟩ := h.pool j (hexp ▸ hj)
          exact ⟨t, List.mem_append_left _ ht, hb⟩
        · exact ⟨_, List.mem_append_right _ (List.mem_singleton.mpr rfl), rfl⟩
  | refuse => exact h.pool j (congrFun (refuse_pool y.conn) j ▸ hj)
  | fire t => exact h.pool j (congrFun (fire_pool y.conn t) j ▸ hj)
  | relock i =>
      simp only [Sys.step] at hj ⊢
      split at hj
      · next b rest batch heq =>
        have hd : ∀ f, rest = .decide f → batch = [] := fun f hf =>
          h.undecided _ (List.mem_of_getElem? heq) f (by rw [hf])
        exact holds_set heq rfl (h.pool j (congrFun (resumed_pool y b rest hd) j ▸ hj))
      · exact h.pool j hj
  | invoke i =>
      simp only [Sys.step] at hj ⊢
      split at hj
      · next b e batch heq => exact holds_set heq rfl (h.pool j hj)
      · exact h.pool j hj
  | finish i =>
      simp only [Sys.step] at hj ⊢
      split at hj
      · next b heq =>
        obtain ⟨hj, hne⟩ := releaseDeferred_pool h.initialized h.cookie hj
        exact holds_eraseIdx heq hne (h.pool j hj)
      · exact h.pool j hj

theorem SysInv.step {y : Sys} (h : SysInv y) (m : Move) : SysInv (y.step m) := by
  have hmove := move_cases h m
  obtain ⟨hi, hc⟩ := hmove.live
  exact ⟨hi.trans h.initialized, hc.trans h.cookie, hmove.window h.window, h.undecided_step m,
    h.pool_step m⟩

theorem Sys.ReachableVia.sysInv {ok : Sys → Move → Prop} {y : Sys} (h : ReachableVia ok y) :
    SysInv y := by
  induction h with
  | init h => exact sysInv_init h
  | step m _ _ ih => exact ih.step m

/-! ### Calls that do not overlap -/

/-- A task that is alone drains its batch and goes. -/
theorem Sys.Reachable.drained {b : Buffer} (batch : List Entry) : ∀ {y : Sys}, y.Reachable →
    y.tasks = [⟨b, none, batch⟩] →
      ∃ z : Sys, z.Reachable ∧ z.conn = y.conn.releaseDeferred b ∧ z.tasks = [] := by
  induction batch with
  | nil =>
      intro y h ht
      refine ⟨_, .step (.finish 0) trivial h, ?_, ?_⟩ <;> simp [Sys.step, ht]
  | cons e batch ih =>
      intro y h ht
      have hnext : (y.step (.invoke 0)).conn = y.conn ∧
          (y.step (.invoke 0)).tasks = [⟨b, none, batch⟩] := by
        simp [Sys.step, ht]
      obtain ⟨z, hz, hc, hz'⟩ := ih (.step (.invoke 0) trivial h) hnext.2
      exact ⟨z, hz, hnext.1 ▸ hc, hz'⟩

/-- The second section of a task that is alone, `on_connect` having refused or
not, and the rest of the call. -/
theorem Sys.Reachable.answered {y : Sys} {b : Buffer} {rest : Resume} {batch : List Entry}
    (h : y.Reachable) (ht : y.tasks = [⟨b, some rest, batch⟩]) (refuses : Bool) :
    ∃ z : Sys, z.Reachable ∧ z.tasks = [] ∧ z.conn =
      (Locked.resume ⟨y.conn.afterOnConnect refuses, batch.map Entry.action⟩ rest).conn.releaseDeferred
        b := by
  -- the state once the callback has returned
  obtain ⟨x, hx, hxc, hxt⟩ : ∃ x : Sys, x.Reachable ∧ x.conn = y.conn.afterOnConnect refuses ∧
      x.tasks = [⟨b, some rest, batch⟩] := by
    unfold afterOnConnect
    split
    · exact ⟨_, .step .refuse trivial h, rfl, ht⟩
    · exact ⟨y, h, rfl, ht⟩
  have hlock := ReachableVia.step (.relock 0) trivial hx
  simp only [Sys.step, hxt, List.getElem?_cons_zero] at hlock
  obtain ⟨z, hz, hc, hzt⟩ := Sys.Reachable.drained _ hlock rfl
  refine ⟨z, hz, hzt, hc.trans ?_⟩
  simp only [resumed, hxc]

/-- **The sequential machine is the concurrent one with calls that do not
overlap.** -/
theorem Reachable.concurrent {c : Conn} (h : Reachable c) :
    ∃ y : Sys, y.Reachable ∧ y.conn = c ∧ y.tasks = [] := by
  induction h with
  | init h => exact ⟨_, .init h, rfl, rfl⟩
  | step e _ ih =>
      obtain ⟨y, hy, rfl, ht⟩ := ih
      cases e with
      | refuse => exact ⟨_, .step .refuse trivial hy, rfl, ht⟩
      | fire t => exact ⟨_, .step (.fire t) trivial hy, rfl, ht⟩
      | call op heap refuses =>
          have hcall := Sys.ReachableVia.step (.call op heap) trivial hy
          simp only [Conn.step, Call.settle]
          cases hb : (op.call heap y.conn).buffer with
          | none =>
              -- without a buffer the call has done nothing and returns
              obtain ⟨c', ret, hr, -, -⟩ | ⟨c₀, b, s, o, hr, -, -, -, -, -⟩ :=
                opCall_cases heap y.conn op hy.sysInv.window
              · refine ⟨_, hcall, ?_, ?_⟩ <;> simp [Sys.step, hr, Call.early, Conn.release, ht]
              · rw [hr] at hb
                cases hb
          | some b =>
              simp only [Sys.step, hb, ht, List.nil_append] at hcall
              cases ho : (op.call heap y.conn).outcome with
              | returned ret =>
                  rw [ho] at hcall
                  obtain ⟨z, hz, hc, hzt⟩ := Sys.Reachable.drained _ hcall rfl
                  exact ⟨z, hz, hc, hzt⟩
              | onConnect isLocal rest =>
                  rw [ho] at hcall
                  obtain ⟨z, hz, hzt, hc⟩ := Sys.Reachable.answered hcall rfl refuses
                  refine ⟨z, hz, hc.trans ?_, hzt⟩
                  simp [Conn.release, Ghost.entry, Function.comp_def]

/-! ### The transmit window -/

/-- A payload is refused exactly when the window is full. -/
theorem WindowInv.sendData_noMem {c : Conn} (h : WindowInv c) (hl : c.Linked)
    (data : List Byte) : (sendData ⟨c, []⟩ data).2 = .noMem ↔
      c.outstandingFrames = c.config.windowSize.toNat := by
  have hst : ¬ (c.state ≠ .connected ∧ c.state ≠ .timerRecovery) := by
    rcases hl with hl | hl <;> simp [hl]
  have hle : c.outstandingFrames ≤ c.config.windowSize.toNat := by
    rw [outstandingFrames_eq h.va_lt h.vs_lt]
    exact h.outstanding
  by_cases hroom : c.outstandingFrames ≥ c.config.windowSize.toNat
  · have hq : c.queueIFrame data = (c, .noMem) := by
      unfold queueIFrame
      rw [if_pos hroom]
    simp only [sendData, hst, if_false, hq, true_iff]
    omega
  · have hq : c.queueIFrame data = (c.queued data, .ok) := by
      unfold queueIFrame
      rw [if_neg hroom, if_neg (by simp [h.room])]
      rfl
    have hsend := sendPendingIFrames_eq (s := ⟨c.queued data, []⟩) h.va_lt (mod8_lt _)
      (Nat.zero_le 5)
    simp only [sendData, hst, if_false, hq, hsend, reduceCtorEq, false_iff]
    omega

/-- `ax25_conn_send_data` in a data-transfer state: besides a full window only a
missing buffer makes it fail for lack of memory. -/
theorem WindowInv.sendData_call {c : Conn} (h : WindowInv c) (hi : c.initialized = true)
    (hl : c.Linked) {data : List Byte} (h₀ : 0 < data.length) (h₁ : data.length ≤ maxInfoLen)
    (heap : Bool) : ((Op.sendData data).call heap c).outcome = .returned .noMem ↔
      c.outstandingFrames = c.config.windowSize.toNat ∨ c.acquireDeferred heap = none := by
  have hne : data.isEmpty = false := by
    rw [List.isEmpty_eq_false_iff]
    exact List.length_pos_iff.mp h₀
  have hpre : (Op.sendData data).precheck c = none := by
    simp only [Op.precheck, hi, hne, Bool.not_true, Bool.or_self, Bool.false_eq_true, if_false]
    rw [if_neg (by omega)]
  simp only [Op.call, Op.consumeExpiry, hpre, Conn.locked]
  cases ha : c.acquireDeferred heap with
  | none => simp [Call.early, Op.noMemResult]
  | some r =>
      obtain ⟨b, c₀⟩ := r
      obtain ⟨p, t1, t2, t3, r, rfl⟩ := minor_acquireDeferred ha
      have hw := (Minor.window ⟨p, t1, t2, t3, r, rfl⟩ h).sendData_noMem (by exact hl) data
      simp only [Op.body, Outcome.returned.injEq, reduceCtorEq, or_false]
      exact hw

/-- **The transmit window.** In every state, whatever the calls and however they
overlap: the sequence variables are in range, the window is not exceeded, the
flags `in_use` are the interval `[V(A), V(S))`, and each slot in use is well
formed. So the slot at V(S) is always free. As long as `acquire_deferred` finds a
buffer, and it does unless two other calls are in flight and the allocator fails,
`send_data` on a link runs out of memory exactly when the window is full. -/
theorem transmit_window {y : Sys} (h : y.Reachable) :
    (y.conn.vs < 8 ∧ y.conn.va < 8 ∧ y.conn.vr < 8) ∧
      (y.conn.outstandingFrames ≤ y.conn.config.windowSize.toNat ∧
        y.conn.config.windowSize.toNat ≤ 7) ∧
      (∀ i, (y.conn.txQueue i).inUse = true ↔ Mem 8 y.conn.va y.conn.vs i) ∧
      (∀ i, (y.conn.txQueue i).inUse = true → (y.conn.txQueue i).ns = i ∧
        1 ≤ (y.conn.txQueue i).len ∧ (y.conn.txQueue i).len ≤ 256) ∧
      (y.conn.txQueue y.conn.vs).inUse = false ∧
      ∀ (data : List Byte) (heap : Bool), y.conn.Linked → 0 < data.length →
        data.length ≤ maxInfoLen →
        (((Op.sendData data).call heap y.conn).outcome = .returned .noMem ↔
          y.conn.outstandingFrames = y.conn.config.windowSize.toNat ∨
            y.conn.acquireDeferred heap = none) ∧
        (y.tasks.length < 2 ∨ heap = true →
          (((Op.sendData data).call heap y.conn).outcome = .returned .noMem ↔
            y.conn.outstandingFrames = y.conn.config.windowSize.toNat)) := by
  have hinv := h.sysInv
  have hw := hinv.window
  refine ⟨⟨hw.vs_lt, hw.va_lt, hw.vr_lt⟩, ⟨?_, hw.size_le⟩, hw.inUse, fun i hi => ?_, hw.room, ?_⟩
  · rw [outstandingFrames_eq hw.va_lt hw.vs_lt]
    exact hw.outstanding
  · exact ⟨(hw.slot i hi).1, (hw.slot i hi).2.1, (hw.slot i hi).2.2.1⟩
  · intro data heap hl h₀ h₁
    have hcall := hw.sendData_call hinv.initialized hl h₀ h₁ heap
    refine ⟨hcall, fun hbuf => ?_⟩
    have hsome : y.conn.acquireDeferred heap ≠ none := by
      rcases hbuf with hlen | rfl
      · exact acquireDeferred_ne_none (Or.inl (hinv.free hlen))
      · exact acquireDeferred_ne_none (Or.inr rfl)
    rw [hcall, or_iff_left hsome]

/-- On a link that is up and has one payload in its window of four. -/
theorem transmit_window_sample :
    let c := (sampleLink.step (.call (.sendData [1]) false false)).conn
    c.Linked ∧ c.outstandingFrames = 1 ∧ (c.txQueue 0).ns = 0 ∧
      ∃ y : Sys, y.conn = c ∧ (y.conn.txQueue y.conn.vs).inUse = false := by
  obtain ⟨y, hy, hc, -⟩ := (reachable_sampleLink.step (.call (.sendData [1]) false false)).concurrent
  exact ⟨by decide, by decide, by decide, y, hc, (transmit_window hy).2.2.2.2.1⟩

end EspAx25
