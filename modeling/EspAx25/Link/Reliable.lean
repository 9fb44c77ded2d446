import Mathlib.Data.List.InsertIdx
import EspAx25.Conn.Busy
import EspAx25.Link.Station

/-!
# EspAx25.Link.Reliable

Two endpoints joined by channels that may lose frames.

Each endpoint is a connection of the sequential machine, with the payloads that
its `send_data` has accepted and those passed to its `on_data`. Calls are
atomic: their frames enter the outgoing channel in the order of the batch. In
every run in which both endpoints stay in the data-transfer states, what is
delivered on one side is a prefix of what was accepted on the other
(`reliable_delivery`).

The proof is a simulation: `LinkInv` gives the two endpoints the counters of
`EspAx25.GoBackN` and the frames in flight their stamps, and each event is
matched by rules of `Flow`.
-/

namespace EspAx25

open Cyclic Conn Locked GoBackN

/-! ### The machine -/

/-- An endpoint, with the payloads it has accepted and delivered so far. -/
structure Endpoint where
  conn : Conn
  accepted : List (List Byte) := []
  delivered : List (List Byte) := []

/-- The frames among the actions of a call. -/
def frames (out : List Action) : List Frame :=
  out.filterMap fun
    | .frame f => some f
    | _ => none

/-- The payloads among the actions of a call. -/
def payloads (out : List Action) : List (List Byte) :=
  out.filterMap fun
    | .data p => some p
    | _ => none

theorem frames_append (l l' : List Action) : frames (l ++ l') = frames l ++ frames l' :=
  List.filterMap_append

theorem payloads_append (l l' : List Action) : payloads (l ++ l') = payloads l ++ payloads l' :=
  List.filterMap_append

/-- Two endpoints with the frames in flight, oldest first. -/
structure Link where
  near : Endpoint
  far : Endpoint
  toFar : List Frame := []
  toNear : List Frame := []

/-- What one endpoint, or the channel that it sends to, may do. -/
inductive LinkEvent
  | sendData (data : List Byte)
  | setBusy (busy : Bool)
  /-- The timeout of a timer elapses. -/
  | fire (t : TimerId)
  /-- The callback of a timer runs, possibly late. -/
  | expire (t : TimerId)
  /-- The oldest frame on its way to this endpoint arrives. -/
  | deliver
  /-- A frame sent by this endpoint is lost. -/
  | drop (k : Nat)

inductive Side
  | near
  | far

/-- The callback of a timer. -/
def TimerId.op : TimerId → Op
  | .t1 => .timerT1
  | .t2 => .timerT2
  | .t3 => .timerT3

namespace Link

/-- The link seen from the other side. -/
def swap (x : Link) : Link := ⟨x.far, x.near, x.toNear, x.toFar⟩

/-- A complete call of the near endpoint, and its actions. -/
def call (x : Link) (op : Op) : Link × List Action :=
  let r := x.near.conn.step (.call op false false)
  ({ x with
      near :=
        { conn := r.conn
          accepted := x.near.accepted ++ op.accepts r.ret
          delivered := x.near.delivered ++ payloads r.out }
      toFar := x.toFar ++ frames r.out }, r.out)

/-- An event of the near endpoint. -/
def act (x : Link) : LinkEvent → Link × List Action
  | .sendData data => x.call (.sendData data)
  | .setBusy busy => x.call (.setBusy busy)
  | .fire t => ({ x with near := { x.near with conn := x.near.conn.fire t } }, [])
  | .expire t => x.call t.op
  | .deliver =>
    match x.toNear with
    | [] => (x, [])
    | f :: rest => call { x with toNear := rest } (.onFrame f)
  | .drop k => ({ x with toFar := x.toFar.eraseIdx k }, [])

/-- An event on either side. -/
def step (x : Link) : Side → LinkEvent → Link × List Action
  | .near, e => x.act e
  | .far, e => ((x.swap.act e).1.swap, (x.swap.act e).2)

/-- Both endpoints are in a data-transfer state. -/
def Up (x : Link) : Prop := x.near.conn.Linked ∧ x.far.conn.Linked

/-- The runs from `x₀` during which both endpoints stay in the data-transfer
states. -/
inductive Runs (x₀ : Link) : Link → Prop
  | start : Runs x₀ x₀
  | step {x : Link} (side : Side) (e : LinkEvent) : Runs x₀ x → (x.step side e).1.Up →
      Runs x₀ (x.step side e).1

end Link

/-- A live endpoint, connected, with the sequence variables just reset and a
direct path. -/
structure Endpoint.Fresh (e : Endpoint) : Prop where
  live : SeqInv e.conn
  state : e.conn.state = .connected
  vs : e.conn.vs = 0
  va : e.conn.va = 0
  vr : e.conn.vr = 0
  path : e.conn.path = []
  accepted : e.accepted = []
  delivered : e.delivered = []

/-- Two endpoints that have just been connected to each other. -/
structure Link.Start (x : Link) : Prop where
  near : x.near.Fresh
  far : x.far.Fresh
  peer : addressEquals x.near.conn.remoteAddr x.far.conn.localAddr = true
  peer' : addressEquals x.far.conn.remoteAddr x.near.conn.localAddr = true
  toFar : x.toFar = []
  toNear : x.toNear = []

/-! ### The invariant -/

/-- One direction of the link, with the stamps of the frames in flight. -/
structure Half (accepted delivered : List (List Byte)) (base recv : Nat)
    (fwd bwd : List (Frame × Stamp)) : Prop where
  flow : Flow 7 accepted.length base recv (fwd.map Prod.snd) (bwd.map Prod.snd)
  carried : ∀ p ∈ fwd, Carries accepted p.1 p.2
  delivered : delivered = accepted.take recv
  sizes : ∀ d ∈ accepted, 0 < d.length ∧ d.length ≤ maxInfoLen

/-- The simulation invariant: `b` and `r` are the counters of the near endpoint,
`b'` and `r'` those of the far one. -/
structure LinkInv (x : Link) (b r b' r' : Nat) (fwd bwd : List (Frame × Stamp)) : Prop where
  near : Tracks x.near.conn x.near.accepted b r
  far : Tracks x.far.conn x.far.accepted b' r'
  out : Half x.near.accepted x.far.delivered b r' fwd bwd
  back : Half x.far.accepted x.near.delivered b' r bwd fwd
  toFar : x.toFar = fwd.map Prod.fst
  toNear : x.toNear = bwd.map Prod.fst

theorem LinkInv.swap {x : Link} {b r b' r' : Nat} {fwd bwd : List (Frame × Stamp)}
    (h : LinkInv x b r b' r' fwd bwd) : LinkInv x.swap b' r' b r bwd fwd :=
  ⟨h.far, h.near, h.back, h.out, h.toNear, h.toFar⟩

namespace Half

variable {accepted delivered : List (List Byte)} {base recv : Nat}
  {fwd bwd k : List (Frame × Stamp)} {p : Frame × Stamp}

theorem lose {fwd' bwd' : List (Frame × Stamp)} (h : Half accepted delivered base recv fwd bwd)
    (hf : fwd'.Sublist fwd) (hb : bwd'.Sublist bwd) :
    Half accepted delivered base recv fwd' bwd' :=
  ⟨h.flow.lose (hf.map _) (hb.map _), fun p hp => h.carried p (hf.subset hp), h.delivered, h.sizes⟩

/-- The sender sends frames of its present window. -/
theorem send (h : Half accepted delivered base recv fwd bwd) {recv' : Nat}
    (hk : ∀ p ∈ k, Carries accepted p.1 p.2 ∧ Current accepted base recv' p.2) :
    Half accepted delivered base recv (fwd ++ k) bwd := by
  refine ⟨?_, fun p hp => ?_, h.delivered, h.sizes⟩
  · rw [List.map_append]
    refine h.flow.send fun m hm n s hd => ?_
    obtain ⟨p, hp, rfl⟩ := List.mem_map.mp hm
    exact (hk p hp).2.2 n s hd
  · rcases List.mem_append.mp hp with hp | hp
    · exact h.carried p hp
    · exact (hk p hp).1

/-- The receiver sends frames that acknowledge what it has consumed. -/
theorem reply (h : Half accepted delivered base recv fwd bwd)
    (hk : ∀ p ∈ k, p.2.ack = recv) : Half accepted delivered base recv fwd (bwd ++ k) := by
  refine ⟨?_, h.carried, h.delivered, h.sizes⟩
  rw [List.map_append]
  refine h.flow.reply fun m hm => ?_
  obtain ⟨p, hp, rfl⟩ := List.mem_map.mp hm
  exact hk p hp

/-- The sender accepts a payload. -/
theorem accept (h : Half accepted delivered base recv fwd bwd) {data : List Byte}
    (hroom : accepted.length < base + 7) (h₀ : 0 < data.length) (h₁ : data.length ≤ maxInfoLen) :
    Half (accepted ++ [data]) delivered base recv fwd bwd := by
  refine ⟨?_, fun p hp => ⟨(h.carried p hp).ack, ?_⟩, ?_, fun d hd => ?_⟩
  · rw [List.length_append, List.length_singleton]
    exact h.flow.accept hroom
  · -- the numbers of the payloads in flight stay what they are
    refine (h.carried p hp).data.imp_right ?_
    intro hboth
    obtain ⟨hi, n, s, hd, hns, hpay⟩ := hboth
    refine ⟨hi, n, s, hd, hns, ?_⟩
    rw [List.getElem?_append_left (List.getElem?_eq_some_iff.mp hpay).1, hpay]
  · rw [List.take_append_of_le_length h.flow.recv_le]
    exact h.delivered
  · rcases List.mem_append.mp hd with hd | hd
    · exact h.sizes d hd
    · rw [List.mem_singleton.mp hd]
      exact ⟨h₀, h₁⟩

/-- The sender receives a frame. -/
theorem ack (h : Half accepted delivered base recv fwd (p :: bwd)) :
    Half accepted delivered p.2.ack recv fwd bwd :=
  ⟨Flow.ack h.flow, h.carried, h.delivered, h.sizes⟩

/-- The receiver gets the payload that is next: it passes it on. -/
theorem consume (h : Half accepted delivered base recv (p :: fwd) bwd) (hi : p.1.type = .i)
    (hns : p.1.ns = recv % 8) :
    Half accepted (delivered ++ [p.1.payload]) base (recv + 1) fwd bwd ∧
      0 < p.1.payload.length ∧ p.1.payload.length ≤ maxInfoLen := by
  rcases (h.carried p List.mem_cons_self).data with ⟨hs, -⟩ | ⟨-, n, s, hd, hns', hpay⟩
  · cases hs.symm.trans hi
  · obtain rfl : n = recv := h.flow.eq_of_mod_eq (by decide : 7 < 8) List.mem_cons_self hd
      (hns'.symm.trans hns)
    refine ⟨⟨Flow.consume h.flow hd, fun q hq => h.carried q (List.mem_cons_of_mem _ hq), ?_,
      h.sizes⟩, h.sizes _ (List.mem_of_getElem? hpay)⟩
    rw [h.delivered, List.take_add_one, hpay]
    rfl

end Half

/-! ### Matching a call -/

/-- Before the frames, at most a payload is recorded. -/
theorem Effect.records {c c₁ : Conn} {op : Op} {ret : EspErr} {pre : List Action}
    (h : Effect c op ret c₁ pre) : ∀ a ∈ pre, ∃ p, a = .data p := by
  cases h with
  | same | accepted => simp
  | received f _ _ hr =>
      rcases hr.deferred with hd | ⟨hd, -⟩ <;> rw [hd] <;> simp

theorem frames_of_data {l : List Action} (h : ∀ a ∈ l, ∃ p, a = .data p) : frames l = [] := by
  refine List.filterMap_eq_nil_iff.mpr fun a ha => ?_
  obtain ⟨p, rfl⟩ := h a ha
  rfl

/-- The frames that a context emits, with their stamps. -/
theorem emits_stamped {c : Conn} {accepted : List (List Byte)} {base recv : Nat} (hw : WindowInv c)
    (h : Tracks c accepted base recv) (hle : base ≤ accepted.length)
    (hwin : accepted.length ≤ base + 7) (l : List Action) (hem : ∀ a ∈ l, Emits c a) :
    payloads l = [] ∧ ∃ k : List (Frame × Stamp), k.map Prod.fst = frames l ∧
      ∀ p ∈ k, Carries accepted p.1 p.2 ∧ Current accepted base recv p.2 := by
  induction l with
  | nil => exact ⟨rfl, [], rfl, by simp⟩
  | cons a l ih =>
      obtain ⟨hpay, k, hk, hc⟩ := ih fun a ha => hem a (List.mem_cons_of_mem _ ha)
      obtain ⟨f, m, rfl, hcarries, hcur⟩ := (hem a List.mem_cons_self).carries hw h hle hwin
      refine ⟨hpay, (f, m) :: k, ?_, ?_⟩
      · show f :: k.map Prod.fst = f :: frames l
        rw [hk]
      · intro p hp
        rcases List.mem_cons.mp hp with rfl | hp
        · exact ⟨hcarries, hcur⟩
        · exact hc p hp

section matching

variable {x : Link} {b r b' r' : Nat} {fwd bwd : List (Frame × Stamp)} {c₁ : Conn} {op : Op}
  {ret : EspErr} {pre : List Action}

/-- The frames of a call enter the channel. -/
theorem LinkInv.emit (h : LinkInv x b r b' r' fwd bwd) (hw : WindowInv x.near.conn)
    {l : List Action} (hem : ∀ a ∈ l, Emits x.near.conn a) {c' : Conn}
    (hs : SameWindow x.near.conn c') :
    payloads l = [] ∧ ∃ k, LinkInv { x with near := { x.near with conn := c' },
                                            toFar := x.toFar ++ frames l }
      b r b' r' (fwd ++ k) bwd := by
  have hle : b ≤ x.near.accepted.length := Nat.le_trans h.out.flow.base_le h.out.flow.recv_le
  obtain ⟨hpay, k, hk, hc⟩ := emits_stamped hw h.near hle h.out.flow.window l hem
  refine ⟨hpay, k, h.near.congr hs, h.far, h.out.send hc, h.back.reply fun p hp => (hc p hp).2.1,
    ?_, h.toNear⟩
  rw [List.map_append, hk, h.toFar]

/-- A call that no frame has caused. -/
theorem LinkInv.local (h : LinkInv x b r b' r' fwd bwd) (hw : WindowInv (x.near.conn.entered op))
    (hne : ∀ f, op ≠ .onFrame f) (he : Effect (x.near.conn.entered op) op ret c₁ pre) :
    WindowInv c₁ ∧ pre = [] ∧
      LinkInv { x with near := { x.near with conn := c₁,
                                             accepted := x.near.accepted ++ op.accepts ret } }
        b r b' r' fwd bwd := by
  have ht := h.near.congr (sameWindow_entered x.near.conn op)
  cases he with
  | same hacc hw₁ hs =>
      refine ⟨hw₁, rfl, ?_⟩
      rw [hacc, List.append_nil]
      exact ⟨ht.congr hs, h.far, h.out, h.back, h.toFar, h.toNear⟩
  | accepted data ho hret hroom h₀ h₁ =>
      subst ho hret
      -- the window has room for one more
      have hlt : x.near.accepted.length < b + 7 := by
        have hle : b ≤ x.near.accepted.length := Nat.le_trans h.out.flow.base_le h.out.flow.recv_le
        have hwin := h.out.flow.window
        have hsize := hw.size_le
        have hd : arc 8 (b % 8) (x.near.accepted.length % 8) = x.near.accepted.length - b :=
          arc_mod hle (by omega)
        rw [outstandingFrames_eq hw.va_lt hw.vs_lt, ht.va, ht.vs, hd] at hroom
        omega
      exact ⟨hw.queued hroom h₀ h₁, rfl, ht.queue hlt data, h.far, h.out.accept hlt h₀ h₁, h.back,
        h.toFar, h.toNear⟩
  | received f ho => exact absurd ho (hne f)

/-- The arrival of a frame. -/
theorem LinkInv.arrival {p : Frame × Stamp} (h : LinkInv x b r b' r' fwd (p :: bwd))
    (hw : WindowInv (x.near.conn.entered (.onFrame p.1)))
    (he : Effect (x.near.conn.entered (.onFrame p.1)) (.onFrame p.1) ret c₁ pre) :
    WindowInv c₁ ∧ ∃ b₁ r₁,
      LinkInv { x with near := { x.near with conn := c₁,
                                             delivered := x.near.delivered ++ payloads pre },
                       toNear := bwd.map Prod.fst }
        b₁ r₁ b' r' fwd bwd := by
  have ht := h.near.congr (sameWindow_entered x.near.conn (.onFrame p.1))
  have hpop : bwd.Sublist (p :: bwd) := List.sublist_cons_self p bwd
  cases he with
  | same _ hw₁ hs =>
      -- the frame is ignored
      refine ⟨hw₁, b, r, ht.congr hs, h.far, h.out.lose (List.Sublist.refl _) hpop, ?_, h.toFar, rfl⟩
      show Half _ (x.near.delivered ++ []) _ _ _ _
      rw [List.append_nil]
      exact h.back.lose hpop (List.Sublist.refl _)
  | accepted data ho => cases ho
  | received f ho hv hr =>
      cases ho
      have hcar := h.back.carried p List.mem_cons_self
      have hack := (h.out.flow.acks p.2 List.mem_cons_self).1
      have hw₁ : WindowInv _ := hw.received hv hr
      refine ⟨hw₁, ?_⟩
      cases hr with
      | ack =>
          refine ⟨p.2.ack, r, ht.ack hack hcar.ack, h.far, h.out.ack, ?_, h.toFar, rfl⟩
          show Half _ (x.near.delivered ++ []) _ _ _ _
          rw [List.append_nil]
          exact h.back.lose hpop (List.Sublist.refl _)
      | data hi hns hbusy =>
          have hns : p.1.ns = r % 8 := hns.trans ht.vr
          obtain ⟨hback, hpos, hmax⟩ := h.back.consume hi hns
          rw [consume_deferred rfl hpos hmax, consume_conn]
          exact ⟨p.2.ack, r + 1, (ht.ack hack hcar.ack).consume false, h.far, h.out.ack, hback,
            h.toFar, rfl⟩

end matching

/-! ### Runs -/

/-- What holds of the link while both endpoints stay in the data-transfer
states. -/
structure Link.Inv (x : Link) : Prop where
  near : SeqInv x.near.conn
  far : SeqInv x.far.conn
  up : x.Up
  sim : ∃ b r b' r' fwd bwd, LinkInv x b r b' r' fwd bwd

theorem Link.Inv.swap {x : Link} (h : x.Inv) : x.swap.Inv := by
  obtain ⟨b, r, b', r', fwd, bwd, hx⟩ := h.sim
  exact ⟨h.far, h.near, h.up.symm, b', r', b, r, bwd, fwd, hx.swap⟩

/-- Neither side has entered `start_nr_error_recovery`, which reports
`ESP_ERR_INVALID_RESPONSE` and moves to `AWAITING_CONNECTION`. -/
structure NoRecovery (y : Link × List Action) : Prop where
  reports : ∀ msg retry, .error .invalidResponse msg retry ∉ y.2
  near : y.1.near.conn.state ≠ .awaitingConnection
  far : y.1.far.conn.state ≠ .awaitingConnection

theorem Conn.Linked.not_awaiting {c : Conn} (h : c.Linked) : c.state ≠ .awaitingConnection := by
  intro hst
  rcases h with h | h <;> cases h.symm.trans hst

/-- What an event guarantees. -/
def Link.Kept (y : Link × List Action) : Prop := NoRecovery y ∧ (y.1.Up → y.1.Inv)

/-- An event without actions. -/
theorem Link.Inv.kept {x : Link} (h : x.Inv) : Link.Kept (x, []) :=
  ⟨⟨fun _ _ => List.not_mem_nil, h.up.1.not_awaiting, h.up.2.not_awaiting⟩, fun _ => h⟩

/-- A call whose effect on the window is matched by the counters. -/
theorem Link.call_kept {x : Link} (hn : SeqInv x.near.conn) (hf : SeqInv x.far.conn) (hup : x.Up)
    {op : Op} (hop : op.OnLink) (hvalid : ∀ f, op = .onFrame f → x.near.conn.isValidNr f.nr = true)
    (hmatch : ∀ ret c₁ pre, Effect (x.near.conn.entered op) op ret c₁ pre →
      WindowInv c₁ ∧ ∃ b r b' r' fwd bwd,
        LinkInv { x with near := { conn := c₁,
                                   accepted := x.near.accepted ++ op.accepts ret,
                                   delivered := x.near.delivered ++ payloads pre } }
          b r b' r' fwd bwd) :
    Link.Kept (x.call op) := by
  have hstep := call_onLink hn hup.1 hop hvalid false false
  have hseq := hn.step (.call op false false)
  unfold Link.call
  generalize x.near.conn.step (.call op false false) = res at hstep hseq ⊢
  dsimp only
  rcases hstep with ⟨hl, c₁, pre, l, heff, hout, hem, hs⟩ | ⟨hst, pre, hgive, hout⟩
  · obtain ⟨hw, b, r, b', r', fwd, bwd, hx⟩ := hmatch _ _ _ heff
    obtain ⟨hpay, k, hk⟩ := hx.emit hw hem hs
    have hquiet : ∀ msg retry, .error .invalidResponse msg retry ∉ res.out := by
      intro msg retry hmem
      rw [hout] at hmem
      rcases List.mem_append.mp hmem with hmem | hmem
      · obtain ⟨p, hp⟩ := heff.records _ hmem
        cases hp
      · cases hem _ hmem
    refine ⟨⟨hquiet, hl.not_awaiting, hup.2.not_awaiting⟩, fun hup' => ⟨hseq, hf, hup', ?_⟩⟩
    refine ⟨b, r, b', r', fwd ++ k, bwd, ?_⟩
    have hfr : frames res.out = frames l := by
      rw [hout, frames_append, frames_of_data heff.records, List.nil_append]
    have hpl : payloads res.out = payloads pre := by
      rw [hout, payloads_append, hpay, List.append_nil]
    rw [hfr, hpl]
    exact hk
  · -- the endpoint has given up
    obtain ⟨msg, retry, l, rfl, hdm⟩ := hgive
    have hdown : ∀ st : ConnState, st ≠ .disconnected → res.conn.state ≠ st := by
      rintro st hne rfl
      exact hne hst
    refine ⟨⟨fun msg' retry' hmem => ?_, hdown _ (by decide), hup.2.not_awaiting⟩, fun hup' => ?_⟩
    · rw [hout] at hmem
      simp only [List.cons_append, List.mem_cons, List.mem_append, List.not_mem_nil, or_false,
        reduceCtorEq, or_self] at hmem
      rcases hmem with hmem | hmem
      · cases hmem
      · cases hdm _ hmem
    · rcases hup'.1 with h | h
      · exact absurd h (hdown _ (by decide))
      · exact absurd h (hdown _ (by decide))

/-- A frame in flight acknowledges a part of the window. -/
theorem LinkInv.isValidNr {x : Link} {b r b' r' : Nat} {fwd bwd : List (Frame × Stamp)}
    (h : LinkInv x b r b' r' fwd bwd) (hw : WindowInv x.near.conn) {p : Frame × Stamp}
    (hp : p ∈ bwd) : x.near.conn.isValidNr p.1.nr = true := by
  rw [isValidNr_iff hw.va_lt hw.vs_lt p.1.nr_lt, (h.back.carried p hp).ack, h.near.va, h.near.vs]
  exact h.out.flow.ack_mod (by decide) (List.mem_map_of_mem hp)

/-- A call that no frame has caused. -/
theorem Link.Inv.call {x : Link} (h : x.Inv) (op : Op) (hop : op.OnLink)
    (hne : ∀ f, op ≠ .onFrame f) : Link.Kept (x.call op) := by
  obtain ⟨b, r, b', r', fwd, bwd, hx⟩ := h.sim
  refine Link.call_kept h.near h.far h.up hop (fun f hf => absurd hf (hne f)) ?_
  intro ret c₁ pre heff
  obtain ⟨hw, rfl, hx₁⟩ := hx.local (h.near.entered op) hne heff
  refine ⟨hw, b, r, b', r', fwd, bwd, ?_⟩
  rw [show payloads [] = [] from rfl, List.append_nil]
  exact hx₁

/-- The oldest frame in flight arrives. -/
theorem Link.Inv.deliver {x : Link} (h : x.Inv) : Link.Kept (x.act .deliver) := by
  obtain ⟨b, r, b', r', fwd, bwd, hx⟩ := h.sim
  cases bwd with
  | nil =>
      have hnil : x.toNear = [] := hx.toNear
      rw [show x.act .deliver = (x, []) by unfold Link.act; simp only [hnil]]
      exact h.kept
  | cons p bwd =>
      have hcons : x.toNear = p.1 :: bwd.map Prod.fst := hx.toNear
      have hty : (Op.onFrame p.1).OnLink := by
        rcases (hx.back.carried p List.mem_cons_self).data with ⟨hs, -⟩ | ⟨hi, -⟩
        · exact Or.inl hs
        · exact Or.inr hi
      rw [show x.act .deliver = Link.call { x with toNear := bwd.map Prod.fst } (.onFrame p.1) by
        unfold Link.act; simp only [hcons]]
      refine Link.call_kept (x := { x with toNear := bwd.map Prod.fst }) h.near h.far h.up hty ?_ ?_
      · rintro f hf
        cases hf
        exact hx.isValidNr h.near.window List.mem_cons_self
      · intro ret c₁ pre heff
        obtain ⟨hw, b₁, r₁, hx₁⟩ := hx.arrival (h.near.entered _) heff
        refine ⟨hw, b₁, r₁, b', r', fwd, bwd, ?_⟩
        rw [show (Op.onFrame p.1).accepts ret = [] from rfl, List.append_nil]
        exact hx₁

/-- One event of the near endpoint. -/
theorem Link.Inv.act {x : Link} (h : x.Inv) (e : LinkEvent) : Link.Kept (x.act e) := by
  obtain ⟨b, r, b', r', fwd, bwd, hx⟩ := h.sim
  cases e with
  | sendData data => exact h.call (.sendData data) trivial fun _ ho => by cases ho
  | setBusy busy => exact h.call (.setBusy busy) trivial fun _ ho => by cases ho
  | expire t => exact h.call t.op (by cases t <;> trivial) fun _ ho => by cases t <;> cases ho
  | deliver => exact h.deliver
  | fire t =>
      have hup : Link.Up { x with near := { x.near with conn := x.near.conn.fire t } } := by
        cases t <;> exact h.up
      exact Link.Inv.kept ⟨h.near.step (.fire t), h.far, hup, b, r, b', r', fwd, bwd,
        hx.near.congr (by cases t <;> exact ⟨rfl, rfl, rfl, fun _ => rfl⟩), hx.far, hx.out, hx.back,
        hx.toFar, hx.toNear⟩
  | drop k =>
      refine Link.Inv.kept ⟨h.near, h.far, h.up, b, r, b', r', fwd.eraseIdx k, bwd, hx.near, hx.far,
        hx.out.lose (List.eraseIdx_sublist ..) (List.Sublist.refl _),
        hx.back.lose (List.Sublist.refl _) (List.eraseIdx_sublist ..), ?_, hx.toNear⟩
      show x.toFar.eraseIdx k = (fwd.eraseIdx k).map Prod.fst
      rw [hx.toFar, List.eraseIdx_map]

theorem Link.Inv.step {x : Link} (h : x.Inv) (side : Side) (e : LinkEvent) :
    Link.Kept (x.step side e) := by
  cases side with
  | near => exact h.act e
  | far =>
      obtain ⟨hno, hinv⟩ := h.swap.act e
      exact ⟨⟨hno.reports, hno.far, hno.near⟩, fun hup => (hinv hup.symm).swap⟩

theorem Endpoint.Fresh.tracks {e : Endpoint} (h : e.Fresh) : Tracks e.conn e.accepted 0 0 := by
  refine ⟨h.va, ?_, h.vr, fun n _ hn => ?_⟩
  · rw [h.accepted]
    exact h.vs
  · rw [h.accepted] at hn
    cases hn

theorem half_start {e e' : Endpoint} (h : e.Fresh) (h' : e'.Fresh) :
    Half e.accepted e'.delivered 0 0 [] [] := by
  rw [h.accepted, h'.delivered]
  exact ⟨flow_start 7, by simp, rfl, by simp⟩

theorem Link.Start.inv {x : Link} (h : x.Start) : x.Inv :=
  ⟨h.near.live, h.far.live, ⟨Or.inl h.near.state, Or.inl h.far.state⟩, 0, 0, 0, 0, [], [],
    h.near.tracks, h.far.tracks, half_start h.near h.far, half_start h.far h.near, h.toFar,
    h.toNear⟩

theorem Link.Runs.inv {x₀ x : Link} (h₀ : x₀.Start) (h : Link.Runs x₀ x) : x.Inv := by
  induction h with
  | start => exact h₀.inv
  | step side e _ hup ih => exact (ih.step side e).2 hup

/-- **Reliable ordered delivery.** While both endpoints stay in the data-transfer
states, each delivers a prefix of what the other has accepted, and no event makes
one of them enter `start_nr_error_recovery`. -/
theorem reliable_delivery {x₀ x : Link} (h₀ : x₀.Start) (h : Link.Runs x₀ x) :
    x.far.delivered <+: x.near.accepted ∧ x.near.delivered <+: x.far.accepted ∧
      ∀ side e, NoRecovery (x.step side e) := by
  have hinv := h.inv h₀
  obtain ⟨b, r, b', r', fwd, bwd, hx⟩ := hinv.sim
  refine ⟨?_, ?_, fun side e => (hinv.step side e).1⟩
  · rw [hx.out.delivered]
    exact List.take_prefix r' _
  · rw [hx.back.delivered]
    exact List.take_prefix r _

/-- The peer of `sampleLink`, connected by a SABM of `sampleA`. -/
def samplePeer : Conn :=
  let c := Conn.fresh sampleB ⟨true, true, true, true, true, true, true⟩ Config.default
  let sabm := { sampleSabm with destination := sampleB, source := sampleA }
  (c.step (.call (.onFrame sabm) false false)).conn

theorem reachable_samplePeer : Reachable samplePeer :=
  .step _ (@Reachable.init ⟨true, true, .ok, true, .ok, .ok, .ok⟩ sampleB
    ⟨true, true, true, true, true, true, true⟩ none _ rfl)

def samplePair : Link := { near := ⟨sampleLink, [], []⟩, far := ⟨samplePeer, [], []⟩ }

theorem start_samplePair : samplePair.Start where
  near := ⟨reachable_sampleLink.seqInv, by decide, by decide, by decide, by decide, by decide, rfl,
    rfl⟩
  far := ⟨reachable_samplePeer.seqInv, by decide, by decide, by decide, by decide, by decide, rfl,
    rfl⟩
  peer := by decide
  peer' := by decide
  toFar := rfl
  toNear := rfl

instance (x : Link) : Decidable x.Up :=
  inferInstanceAs (Decidable (_ ∧ _))

/-- The first of two payloads is lost; a REJ brings it back. -/
theorem reliable_delivery_rej :
    let es : List (Side × LinkEvent) :=
      [(.near, .sendData [1]), (.near, .sendData [2]), (.near, .drop 0), (.far, .deliver),
        (.near, .deliver), (.far, .deliver)]
    let x := es.foldl (fun x e => (x.step e.1 e.2).1) samplePair
    x.near.accepted = [[1], [2]] ∧ x.far.delivered = [[1]] ∧
      x.far.delivered <+: x.near.accepted := by
  intro es x
  have hrun : Link.Runs samplePair x :=
    .step .far .deliver (.step .near .deliver (.step .far .deliver (.step .near (.drop 0)
      (.step .near (.sendData [2]) (.step .near (.sendData [1]) .start (by decide)) (by decide))
      (by decide)) (by decide)) (by decide)) (by decide)
  exact ⟨by decide, by decide, (reliable_delivery start_samplePair hrun).1⟩

end EspAx25
