import Mathlib.Tactic.SplitIfs
import EspAx25.Router.Route
import EspAx25.Transition

/-!
# EspAx25.Router.Slots

Registration and slot accounting: registering, removing and sending, and the exit
of a port task, as atomic steps in any order.

A slot goes through free, active, self-removed, timed-out and reclaimed states,
which the code tells apart by four flags. What the flags are about is whether a port
task still runs on the slot, so the model keeps that as well (`Sys.live`), outside
the slots and never read by the code. The invariant says that the flags tell the
truth about it.
-/

namespace EspAx25

open Transition

/-! ### Slot tables -/

theorem getElem?_set_some {α : Type*} {l : List α} {i : Nat} {a : α} (h : l[i]? = some a) (b : α)
    (j : Nat) : (l.set i b)[j]? = if j = i then some b else l[j]? := by
  rw [List.getElem?_set]
  by_cases hij : j = i
  · subst hij
    rw [if_pos rfl, if_pos rfl, if_pos (List.getElem?_eq_some_iff.mp h).1]
  · rw [if_neg (Ne.symm hij), if_neg hij]

theorem set_of_getElem? {α : Type*} {l : List α} {i : Nat} {a : α} (h : l[i]? = some a) :
    l.set i a = l := by
  obtain ⟨hi, rfl⟩ := List.getElem?_eq_some_iff.mp h
  exact List.set_getElem_self hi

/-- A slot that `alloc_port_slot` may hand out. -/
def Slot.Available (ctx : Slot) : Prop :=
  ctx.port = none ∧ (ctx.retired = false ∨ (ctx.txTask = none ∧ ctx.running = false))

/-- What `alloc_port_slot` hands out, and what it does to the queues. -/
theorem allocPortSlot_spec {r r₁ : Router} {i : Nat} (h : allocPortSlot r = some (i, r₁)) :
    ∃ ctx, r.slots[i]? = some ctx ∧ ctx.Available ∧
      (ctx.retired = false → freeSlot r.slots = some i) ∧
      (∃ ctx₁, r₁.slots = r.slots.set i ctx₁) ∧ r₁.ports = r.ports ∧ r₁.queueDepth = r.queueDepth ∧
      r₁.nextId = r.nextId ∧ ∀ q, ctx.txQueue ≠ some q → r₁.queues q = r.queues q := by
  unfold allocPortSlot at h
  cases hf : freeSlot r.slots with
  | some j =>
      rw [hf] at h
      cases h
      obtain ⟨hi, hc, -⟩ := List.findIdx?_eq_some_iff_getElem.mp hf
      simp only [Bool.and_eq_true, Option.isNone_iff_eq_none, Bool.not_eq_true'] at hc
      exact ⟨_, List.getElem?_eq_getElem hi, ⟨hc.1, .inl hc.2⟩, fun _ => rfl,
        ⟨_, (List.set_getElem_self hi).symm⟩, rfl, rfl, rfl, fun _ _ => rfl⟩
  | none =>
      rw [hf] at h
      dsimp only at h
      cases hr : reclaimableSlot r.slots with
      | none =>
          rw [hr] at h
          cases h
      | some j =>
          rw [hr] at h
          cases h
          obtain ⟨hi, hc, -⟩ := List.findIdx?_eq_some_iff_getElem.mp hr
          simp only [Bool.and_eq_true, Option.isNone_iff_eq_none, Bool.not_eq_true'] at hc
          obtain ⟨⟨⟨hp, hret⟩, ht⟩, hrun⟩ := hc
          refine ⟨_, List.getElem?_eq_getElem hi, ⟨hp, .inr ⟨ht, hrun⟩⟩, fun hc => ?_, ?_⟩
          · rw [hret] at hc
            cases hc
          · have hget : r.slots.getD i {} = r.slots[i] := by
              simp [List.getD, List.getElem?_eq_getElem hi]
            rw [hget]
            cases hq : r.slots[i].txQueue with
            | none => exact ⟨⟨_, rfl⟩, rfl, rfl, rfl, fun _ _ => rfl⟩
            | some q₀ =>
                refine ⟨⟨_, rfl⟩, rfl, rfl, rfl, fun q hne => ?_⟩
                have hne : q ≠ q₀ := fun h => hne (h ▸ rfl)
                simp [Router.deleteQueue, Router.setSlot, hne]

/-- It fails only if no slot may be handed out. -/
theorem allocPortSlot_eq_none {r : Router} :
    allocPortSlot r = none ↔ ∀ ctx ∈ r.slots, ¬ ctx.Available := by
  unfold allocPortSlot
  constructor
  · intro h ctx hctx ⟨hp, hor⟩
    cases hf : freeSlot r.slots with
    | some i => simp [hf] at h
    | none =>
        rw [hf] at h
        dsimp only at h
        cases hr : reclaimableSlot r.slots with
        | some i => simp [hr] at h
        | none =>
            have h₁ := List.findIdx?_eq_none_iff.mp hf ctx hctx
            have h₂ := List.findIdx?_eq_none_iff.mp hr ctx hctx
            cases hret : ctx.retired with
            | false => simp [hp, hret] at h₁
            | true =>
                rw [hret] at hor
                obtain ⟨ht, hrun⟩ := hor.resolve_left Bool.noConfusion
                simp [hp, hret, ht, hrun] at h₂
  · intro h
    have hf : freeSlot r.slots = none := by
      refine List.findIdx?_eq_none_iff.mpr fun ctx hctx => ?_
      by_contra hc
      simp only [Bool.not_eq_false, Bool.and_eq_true, Option.isNone_iff_eq_none,
        Bool.not_eq_true'] at hc
      exact h ctx hctx ⟨hc.1, .inl hc.2⟩
    have hr : reclaimableSlot r.slots = none := by
      refine List.findIdx?_eq_none_iff.mpr fun ctx hctx => ?_
      by_contra hc
      simp only [Bool.not_eq_false, Bool.and_eq_true, Option.isNone_iff_eq_none,
        Bool.not_eq_true'] at hc
      exact h ctx hctx ⟨hc.1.1.1, .inr ⟨hc.1.2, hc.2⟩⟩
    rw [hf]
    dsimp only
    rw [hr]

/-- The registration gets past its checks. -/
def passes (r : Router) (p : PortId) : Bool :=
  (r.ports p).hasCallback && !(r.slots.filterMap Slot.port).any (conflicts r.ports p)

theorem passes_iff {r : Router} {p : PortId} :
    passes r p = true ↔ (r.ports p).hasCallback = true ∧
      (r.slots.filterMap Slot.port).any (conflicts r.ports p) = false := by
  rw [passes, Bool.and_eq_true, Bool.not_eq_true']

/-- The slot of a new registration. -/
def Slot.fresh (port : PortId) (id : Nat) : Slot :=
  { port := some port, txQueue := some id, txTask := some id, running := true }

/-- A port after its counters were zeroed. -/
def Port.zeroed (port : Port) : Port :=
  { port with framesSent := 0, bytesSent := 0, framesDropped := 0 }

/-- Slot `i`, which held `ctx`, was replaced by `new`; its old queue may be gone. -/
structure SlotReplaced (r r' : Router) (i : Nat) (ctx new : Slot) : Prop where
  handed : ∃ r₁, allocPortSlot r = some (i, r₁)
  old : r.slots[i]? = some ctx
  available : ctx.Available
  free : ctx.retired = false → freeSlot r.slots = some i
  slots : r'.slots = r.slots.set i new
  queueDepth : r'.queueDepth = r.queueDepth
  queues : ∀ q ≠ r.nextId, ctx.txQueue ≠ some q → r'.queues q = r.queues q

/-- What a successful registration does. -/
theorem registerPort_ok {r r' : Router} {p : PortId} {alloc : Alloc}
    (h : registerPort r p alloc = (.ok, r')) :
    passes r p = true ∧
      ∃ i ctx, SlotReplaced r r' i ctx (.fresh p r.nextId) ∧ r'.nextId = r.nextId + 1 ∧
        r'.queues r.nextId = some [] ∧
        r'.ports = Function.update r.ports p (r.ports p).zeroed := by
  unfold registerPort at h
  by_cases hcb : (!(r.ports p).hasCallback) = true
  · rw [if_pos hcb] at h
    cases h
  by_cases hconf : (r.slots.filterMap Slot.port).any (conflicts r.ports p) = true
  · rw [if_neg hcb, if_pos hconf] at h
    cases h
  rw [if_neg hcb, if_neg hconf] at h
  refine ⟨passes_iff.mpr ⟨by simpa using hcb, Bool.eq_false_iff.mpr hconf⟩, ?_⟩
  cases ha : allocPortSlot r with
  | none =>
      rw [ha] at h
      cases h
  | some pair =>
      obtain ⟨i, r₁⟩ := pair
      obtain ⟨ctx, hctx, hav, hfree, ⟨ctx₁, hslots⟩, hports, hdepth, hid, hqueues⟩ :=
        allocPortSlot_spec ha
      rw [ha] at h
      dsimp only at h
      split_ifs at h
      · cases h
      · cases h
      cases h
      refine ⟨i, ctx, ⟨⟨r₁, ha⟩, hctx, hav, hfree, ?_, hdepth, fun q hne hq => ?_⟩, ?_, ?_, ?_⟩
      · simp [Router.modifyPort, Router.setSlot, hslots, Slot.fresh, hid]
      · simp [Router.modifyPort, Router.setSlot, hid, hne, hqueues q hq]
      · simp [Router.modifyPort, Router.setSlot, hid]
      · simp [Router.modifyPort, Router.setSlot, hid]
      · simp [Router.modifyPort, Router.setSlot, hports, Port.zeroed]

/-- A refused registration changes nothing, unless the heap refused it. -/
theorem registerPort_error {r r' : Router} {p : PortId} {alloc : Alloc} {err : EspErr}
    (h : registerPort r p alloc = (err, r')) (herr : err ≠ .ok) :
    r' = r ∨ ((alloc.queue && alloc.task) = false ∧ passes r p = true ∧
      ∃ i ctx running, SlotReplaced r r' i ctx { running } ∧ r'.nextId = r.nextId ∧
        r'.ports = r.ports) := by
  unfold registerPort at h
  by_cases hcb : (!(r.ports p).hasCallback) = true
  · rw [if_pos hcb] at h
    cases h
    exact .inl rfl
  by_cases hconf : (r.slots.filterMap Slot.port).any (conflicts r.ports p) = true
  · rw [if_neg hcb, if_pos hconf] at h
    cases h
    exact .inl rfl
  rw [if_neg hcb, if_neg hconf] at h
  have hpass : passes r p = true := passes_iff.mpr ⟨by simpa using hcb, Bool.eq_false_iff.mpr hconf⟩
  cases ha : allocPortSlot r with
  | none =>
      rw [ha] at h
      cases h
      exact .inl rfl
  | some pair =>
      obtain ⟨i, r₁⟩ := pair
      obtain ⟨ctx, hctx, hav, hfree, ⟨ctx₁, hslots⟩, hports, hdepth, hid, hqueues⟩ :=
        allocPortSlot_spec ha
      have hrep : ∀ running, SlotReplaced r (r₁.setSlot i { running }) i ctx { running } :=
        fun running =>
          ⟨⟨r₁, ha⟩, hctx, hav, hfree, by simp [Router.setSlot, hslots], hdepth,
            fun q _ hq => hqueues q hq⟩
      rw [ha] at h
      dsimp only at h
      right
      split_ifs at h with hq ht
      · cases h
        exact ⟨by simp_all, hpass, i, ctx, false, hrep false, hid, hports⟩
      · cases h
        exact ⟨by simp_all, hpass, i, ctx, true, hrep true, hid, hports⟩
      · cases h
        exact absurd rfl herr

/-- When a registration succeeds. -/
theorem registerPort_ok_iff {r : Router} {p : PortId} :
    (registerPort r p {}).1 = .ok ↔ passes r p = true ∧ ∃ ctx ∈ r.slots, ctx.Available := by
  rw [passes_iff, and_assoc]
  have hnone := @allocPortSlot_eq_none r
  unfold registerPort
  by_cases hcb : (!(r.ports p).hasCallback) = true
  · have hcb' : (r.ports p).hasCallback = false := by simpa using hcb
    rw [if_pos hcb]
    simp [hcb']
  by_cases hconf : (r.slots.filterMap Slot.port).any (conflicts r.ports p) = true
  · rw [if_neg hcb, if_pos hconf]
    simp [hconf]
  · have hcb' : (r.ports p).hasCallback = true := by simpa using hcb
    have hconf' := Bool.eq_false_iff.mpr hconf
    rw [if_neg hcb, if_neg hconf]
    cases ha : allocPortSlot r with
    | none =>
        refine iff_of_false (by simp) ?_
        intro hboth
        obtain ⟨-, -, ctx, hctx, hav⟩ := hboth
        exact hnone.mp ha ctx hctx hav
    | some pair =>
        obtain ⟨i, r₁⟩ := pair
        obtain ⟨ctx, hctx, hav, -⟩ := allocPortSlot_spec ha
        exact iff_of_true (by simp) ⟨hcb', hconf', ctx, List.mem_of_getElem? hctx, hav⟩

/-- No two slots have a key in common, such as their port or their queue. -/
def KeysApart {κ : Type*} (key : Slot → Option κ) (slots : List Slot) : Prop :=
  ∀ ⦃i j : Nat⦄ ⦃a b : Slot⦄ ⦃k : κ⦄, slots[i]? = some a → slots[j]? = some b → i ≠ j →
    key a = some k → key b ≠ some k

/-- A slot is replaced by one with the same key, or with one that no slot has. -/
theorem KeysApart.set {κ : Type*} {key : Slot → Option κ} {slots : List Slot}
    (h : KeysApart key slots) {i : Nat} {ctx new : Slot} (hctx : slots[i]? = some ctx)
    (hk : ∀ k, key new = some k → key ctx = some k ∨ ∀ b ∈ slots, key b ≠ some k) :
    KeysApart key (slots.set i new) := by
  intro j l a b k ha hb hjl hka hkb
  rw [getElem?_set_some hctx] at ha hb
  have hother : ∀ {m c}, m ≠ i → slots[m]? = some c → key c = some k → key new ≠ some k := by
    intro m c hm hc hkc hkn
    rcases hk k hkn with heq | hnone
    · exact h hctx hc (Ne.symm hm) heq hkc
    · exact hnone c (List.mem_of_getElem? hc) hkc
  split_ifs at ha hb with hji hli hli
  · exact hjl (hji.trans hli.symm)
  · cases ha
    exact hother hli hb hkb hka
  · cases hb
    exact hother hji ha hka hkb
  · exact h ha hb hjl hka hkb

/-! ### The machine -/

/-- The router and, for every port task that has not exited, its slot. -/
structure PortTable where
  router : Router
  live : TaskId → Option Nat

/-- The steps. `remove` says which task removes the port and whether the port task
exits while it waits; `taskFail` is a port task that gets no frame buffer; `write` is
the application filling in a port. -/
inductive PortEvent
  | register (p : PortId)
  | remove (p : PortId) (self : Option TaskId) (exits : Bool)
  | send (f : Frame) (source : PortId)
  | taskRound (t : TaskId)
  | taskExit (t : TaskId)
  | taskFail (t : TaskId)
  | write (p : PortId) (port : Port)

/-- The tasks without those of slot `i`. -/
def dropTasks (live : TaskId → Option Nat) (i : Nat) : TaskId → Option Nat :=
  fun t => if live t = some i then none else live t

/-- One step; `none` if it is not possible. A port task leaves its loop only when
`running` is false, and the application does not write to a registered port. -/
def PortTable.step (s : PortTable) : PortEvent → Option PortTable
  | .register p =>
    match registerPort s.router p {} with
    | (.ok, r) =>
      some ⟨r, Function.update s.live s.router.nextId ((allocPortSlot s.router).map Prod.fst)⟩
    | (_, r) => some ⟨r, s.live⟩
  | .remove p self exits =>
    match findPortSlot s.router p with
    | none => some s
    | some i =>
      let waits : Bool := !(self.isSome && (s.router.slots.getD i {}).txTask = self)
      some ⟨(removePort s.router p self exits).2, if waits && exits then dropTasks s.live i else s.live⟩
  | .send f source => some { s with router := (routerSend s.router f source).1 }
  | .taskRound t =>
    match s.live t with
    | none => none
    | some i => (portTaskRound s.router i).map fun r => { s with router := r }
  | .taskExit t =>
    match s.live t with
    | none => none
    | some i =>
      let ctx := s.router.slots.getD i {}
      if ctx.running then none
      else some ⟨s.router.setSlot i ctx.taskExit, Function.update s.live t none⟩
  | .taskFail t =>
    match s.live t with
    | none => none
    | some i =>
      let ctx := s.router.slots.getD i {}
      some ⟨s.router.setSlot i { ctx with running := false }.taskExit, Function.update s.live t none⟩
  | .write p port =>
    if (s.router.slots.filterMap Slot.port).contains p then none
    else some { s with router := s.router.modifyPort p fun _ => port }

/-- A router after `ax25_router_init`, with any memory. -/
def PortTable.IsInit (s : PortTable) : Prop :=
  ∃ maxPorts queueDepth ports,
    s = ⟨routerInit maxPorts queueDepth ports, fun _ => none⟩

/-! ### The invariant -/

/-- The flags of slot `i` tell the truth. -/
structure SlotOk (s : PortTable) (i : Nat) (ctx : Slot) : Prop where
  /-- The handle is that of the task that runs on the slot. -/
  task : ∀ t, ctx.txTask = some t ↔ s.live t = some i
  /-- A free slot is not running, and has no task unless it is retired. -/
  idle : ctx.port = none → ctx.running = false ∧ (ctx.retired = false → ctx.txTask = none)
  /-- An active slot is not retired and has a queue. -/
  active : ctx.port ≠ none →
    ctx.retired = false ∧ ∃ q, ctx.txQueue = some q ∧ (s.router.queues q).isSome
  /-- Handles are not used again. -/
  old : ∀ q, ctx.txQueue = some q → q < s.router.nextId

structure TableOk (s : PortTable) : Prop where
  slot : ∀ {i ctx}, s.router.slots[i]? = some ctx → SlotOk s i ctx
  queues : KeysApart Slot.txQueue s.router.slots
  ports : ∀ {i j : Nat} {a b : Slot} {p p' : PortId}, s.router.slots[i]? = some a →
    s.router.slots[j]? = some b → i ≠ j → a.port = some p → b.port = some p' →
      conflicts s.router.ports p p' = false
  live : ∀ {t i}, s.live t = some i → t < s.router.nextId ∧ i < s.router.slots.length

/-- A slot may be handed out exactly if it is not active and no task runs on it. -/
theorem SlotOk.available_iff {s : PortTable} {i : Nat} {ctx : Slot} (h : SlotOk s i ctx) :
    ctx.Available ↔ ctx.port = none ∧ ∀ t, s.live t ≠ some i := by
  constructor
  · intro hboth
    obtain ⟨hp, hor⟩ := hboth
    have ht : ctx.txTask = none := by
      rcases hor with hret | ⟨ht, -⟩
      · exact (h.idle hp).2 hret
      · exact ht
    refine ⟨hp, fun t hl => ?_⟩
    rw [(h.task t).mpr hl] at ht
    cases ht
  · intro hboth
    obtain ⟨hp, hl⟩ := hboth
    have ht : ctx.txTask = none := by
      cases ht : ctx.txTask with
      | none => rfl
      | some t => exact absurd ((h.task t).mp ht) (hl t)
    exact ⟨hp, .inr ⟨ht, (h.idle hp).1⟩⟩

/-- A table at rest is what routing assumes of it. -/
theorem TableOk.wf {s : PortTable} (h : TableOk s) : s.router.Wf where
  apart := by
    rw [List.pairwise_iff_getElem]
    intro i j hi hj hij p p' hp hp'
    have hgi := List.getElem?_eq_getElem hi
    have hgj := List.getElem?_eq_getElem hj
    have hconf := h.ports hgi hgj (Nat.ne_of_lt hij) hp hp'
    obtain ⟨-, q, hq, -⟩ := (h.slot hgi).active (by rw [hp]; exact Option.some_ne_none p)
    refine ⟨fun heq => ?_, fun heq => h.queues hgi hgj (Nat.ne_of_lt hij) hq (heq ▸ hq)⟩
    simp [conflicts, heq] at hconf
  live := by
    intro ctx hctx p hp
    obtain ⟨i, hi⟩ := List.getElem?_of_mem hctx
    obtain ⟨-, q, hq, hs⟩ := (h.slot hi).active (by rw [hp]; exact Option.some_ne_none p)
    obtain ⟨frames, hf⟩ := Option.isSome_iff_exists.mp hs
    exact ⟨q, frames, hq, hf⟩

/-! ### Conflicts -/

theorem conflicts_symm (ports : PortId → Port) (p p' : PortId) :
    conflicts ports p p' = conflicts ports p' p := by
  have hcomm : addressEquals (ports p).destination (ports p').destination =
      addressEquals (ports p').destination (ports p).destination := by
    rw [Bool.eq_iff_iff]
    exact ⟨addressEquals_symm, addressEquals_symm⟩
  unfold conflicts
  rw [hcomm, Bool.and_comm (decide ((ports p).mode = _)), Bool.and_comm (ports p).mode.addressed]
  simp only [eq_comm]

/-- What the constraints look at: the mode and, for static and digipeater ports, the
destination. -/
def SameRule (port port' : Port) : Prop :=
  port'.mode = port.mode ∧ (port.mode.addressed = true → port'.destination = port.destination)

theorem SameRule.refl (port : Port) : SameRule port port := ⟨rfl, fun _ => rfl⟩

theorem conflicts_congr {ports ports' : PortId → Port} {p p' : PortId}
    (h : SameRule (ports p) (ports' p)) (h' : SameRule (ports p') (ports' p')) :
    conflicts ports' p p' = conflicts ports p p' := by
  unfold conflicts
  rw [h.1, h'.1]
  cases ha : (ports p).mode.addressed with
  | false => simp
  | true =>
      cases hb : (ports p').mode.addressed with
      | false => simp
      | true => rw [h.2 ha, h'.2 hb]

/-! ### One step keeps the table in order -/

section Keep

variable {s s' : PortTable}

/-- Steps that leave the slots and the tasks alone. -/
theorem TableOk.of_slots_eq (h : TableOk s) (hslots : s'.router.slots = s.router.slots)
    (hlive : s'.live = s.live) (hid : s'.router.nextId = s.router.nextId)
    (hqueues : ∀ q, (s.router.queues q).isSome → (s'.router.queues q).isSome)
    (hports : ∀ p, s.router.Registered p → SameRule (s.router.ports p) (s'.router.ports p)) :
    TableOk s' where
  slot := by
    intro i ctx hctx
    rw [hslots] at hctx
    have hok := h.slot hctx
    refine ⟨by rw [hlive]; exact hok.task, hok.idle, fun hp => ?_, by rw [hid]; exact hok.old⟩
    obtain ⟨hret, q, hq, hsome⟩ := hok.active hp
    exact ⟨hret, q, hq, hqueues q hsome⟩
  queues := by
    rw [hslots]
    exact h.queues
  ports := by
    intro i j a b p p' ha hb hij hp hp'
    rw [hslots] at ha hb
    rw [conflicts_congr (hports p ⟨a, List.mem_of_getElem? ha, hp⟩)
      (hports p' ⟨b, List.mem_of_getElem? hb, hp'⟩)]
    exact h.ports ha hb hij hp hp'
  live := by
    rw [hlive, hid, hslots]
    exact h.live

/-- Steps that replace slot `i`. -/
theorem TableOk.of_slot_set (h : TableOk s) {i : Nat} {ctx new : Slot}
    (hctx : s.router.slots[i]? = some ctx) (hslots : s'.router.slots = s.router.slots.set i new)
    (hnew : SlotOk s' i new) (hid : s.router.nextId ≤ s'.router.nextId)
    (hlive : ∀ t j, j ≠ i → (s'.live t = some j ↔ s.live t = some j))
    (hfresh : ∀ t, s'.live t = some i → t < s'.router.nextId)
    (hqueues : ∀ q < s.router.nextId, ctx.txQueue ≠ some q →
      s'.router.queues q = s.router.queues q)
    (hq : ∀ q, new.txQueue = some q → ctx.txQueue = some q ∨ s.router.nextId ≤ q)
    (hrule : ∀ p, SameRule (s.router.ports p) (s'.router.ports p))
    (hport : ∀ p j b p', new.port = some p → s.router.slots[j]? = some b → j ≠ i →
      b.port = some p' → conflicts s.router.ports p p' = false) :
    TableOk s' where
  slot := by
    intro j b hb
    rw [hslots, getElem?_set_some hctx] at hb
    split_ifs at hb with hji
    · subst hji
      cases hb
      exact hnew
    · have hok := h.slot hb
      refine ⟨fun t => by rw [hok.task, hlive t j hji], hok.idle, fun hp => ?_,
        fun q hq => Nat.lt_of_lt_of_le (hok.old q hq) hid⟩
      obtain ⟨hret, q, hbq, hsome⟩ := hok.active hp
      refine ⟨hret, q, hbq, ?_⟩
      rwa [hqueues q (hok.old q hbq) fun hc => h.queues hctx hb (Ne.symm hji) hc hbq]
  queues := by
    rw [hslots]
    exact h.queues.set hctx fun q hnq => (hq q hnq).imp_right fun hge b hb hbq => by
      obtain ⟨j, hj⟩ := List.getElem?_of_mem hb
      exact absurd ((h.slot hj).old q hbq) (Nat.not_lt.mpr hge)
  ports := by
    intro j k a b p p' ha hb hjk hp hp'
    rw [conflicts_congr (hrule p) (hrule p')]
    rw [hslots, getElem?_set_some hctx] at ha hb
    split_ifs at ha hb with hji hki hki
    · exact absurd (hji.trans hki.symm) hjk
    · cases ha
      exact hport p k b p' hp hb hki hp'
    · cases hb
      rw [conflicts_symm]
      exact hport p' j a p hp' ha hji hp
    · exact h.ports ha hb hjk hp hp'
  live := by
    intro t j hl
    rw [hslots, List.length_set]
    by_cases hji : j = i
    · subst hji
      exact ⟨hfresh t hl, (List.getElem?_eq_some_iff.mp hctx).1⟩
    · obtain ⟨ht, hj⟩ := h.live ((hlive t j hji).mp hl)
      exact ⟨Nat.lt_of_lt_of_le ht hid, hj⟩

theorem mem_registered {r : Router} {i : Nat} {ctx : Slot} {p : PortId} (hctx : r.slots[i]? = some ctx)
    (hp : ctx.port = some p) : p ∈ r.slots.filterMap Slot.port :=
  List.mem_filterMap.mpr ⟨ctx, List.mem_of_getElem? hctx, hp⟩

theorem sameRule_update {ports : PortId → Port} {q : PortId} {port : Port}
    (h : SameRule (ports q) port) (p : PortId) :
    SameRule (ports p) (Function.update ports q port p) := by
  by_cases hp : p = q
  · subst hp
    rwa [Function.update_self]
  · rw [Function.update_of_ne hp]
    exact .refl _

theorem tableOk_register (h : TableOk s) {p : PortId} {r' : Router} {i : Nat} {ctx : Slot}
    (hpass : passes s.router p = true)
    (hrep : SlotReplaced s.router r' i ctx (.fresh p s.router.nextId))
    (hid : r'.nextId = s.router.nextId + 1) (hnew : r'.queues s.router.nextId = some [])
    (hports : r'.ports = Function.update s.router.ports p (s.router.ports p).zeroed) :
    TableOk ⟨r', Function.update s.live s.router.nextId (some i)⟩ := by
  obtain ⟨hp, hfree⟩ := (h.slot hrep.old).available_iff.mp hrep.available
  refine h.of_slot_set hrep.old hrep.slots ?_ (by simp [hid]) ?_ ?_
    (fun q hlt => hrep.queues q (Nat.ne_of_lt hlt)) ?_ ?_ ?_
  · refine ⟨fun t => ?_, fun hc => (by cases hc), fun _ => ⟨rfl, _, rfl, by simp [hnew]⟩, ?_⟩
    · by_cases ht : t = s.router.nextId
      · subst ht
        simp [Slot.fresh]
      · simpa [Slot.fresh, ht, Ne.symm ht] using hfree t
    · intro q hq
      cases hq
      simp [hid]
  · intro t j hj
    by_cases ht : t = s.router.nextId
    · subst ht
      have hnone : s.live s.router.nextId ≠ some j := fun hl => Nat.lt_irrefl _ (h.live hl).1
      simp [hnone, Ne.symm hj]
    · simp [ht]
  · intro t hl
    by_cases ht : t = s.router.nextId
    · subst ht
      simp [hid]
    · exact absurd (by simpa [ht] using hl) (hfree t)
  · intro q hq
    cases hq
    exact .inr (Nat.le_refl _)
  · intro q
    have hz : SameRule (s.router.ports p) (s.router.ports p).zeroed := ⟨rfl, fun _ => rfl⟩
    dsimp only
    rw [hports]
    exact sameRule_update hz q
  · intro q j b p' hq hb _ hp'
    cases hq
    rw [Bool.eq_false_iff]
    intro hc
    have hconf := List.any_eq_false.mp (passes_iff.mp hpass).2
    exact hconf p' (mem_registered hb hp') hc

theorem getD_of_getElem? {r : Router} {i : Nat} {ctx : Slot} (hctx : r.slots[i]? = some ctx) :
    r.slots.getD i {} = ctx := by
  simp [List.getD, hctx]

theorem afterWait_fields (ctx : Slot) (exits : Bool) :
    (ctx.afterWait exits).txTask = (if exits = true then none else ctx.txTask) ∧
      (ctx.afterWait exits).txQueue = ctx.txQueue ∧ (ctx.afterWait exits).running = ctx.running := by
  unfold Slot.afterWait
  cases ht : ctx.txTask <;> cases exits <;> simp [ht, Slot.taskExit]

/-- What `port_ctx_teardown` leaves behind. -/
theorem portCtxTeardown_spec {r : Router} {i : Nat} {ctx : Slot} (hctx : r.slots[i]? = some ctx)
    (self : Option TaskId) (exits : Bool) :
    ∃ new : Slot, (portCtxTeardown r i self exits).slots = r.slots.set i new ∧ new.port = none ∧
      new.running = false ∧ new.retired = true ∧
      new.txTask = (if (!(self.isSome && ctx.txTask = self) && exits) = true then none
        else ctx.txTask) ∧
      (new.txQueue = ctx.txQueue ∨ new.txQueue = none) ∧
      (portCtxTeardown r i self exits).ports = r.ports ∧
      (portCtxTeardown r i self exits).nextId = r.nextId ∧
      ∀ q, ctx.txQueue ≠ some q → (portCtxTeardown r i self exits).queues q = r.queues q := by
  unfold portCtxTeardown
  rw [getD_of_getElem? hctx]
  dsimp only
  by_cases hself : self.isSome = true ∧ ctx.txTask = self
  · rw [if_pos hself]
    refine ⟨_, rfl, rfl, rfl, rfl, ?_, .inl rfl, rfl, rfl, fun _ _ => rfl⟩
    simp [hself.1, hself.2]
  · have hwaits : (self.isSome && decide (ctx.txTask = self)) = false := by
      rw [Bool.eq_false_iff]
      simpa using hself
    obtain ⟨htask, hqueue, hrun⟩ := afterWait_fields { ctx with running := false } exits
    rw [if_neg hself, hwaits, Bool.not_false, Bool.true_and]
    generalize Slot.afterWait { ctx with running := false } exits = mid at *
    by_cases hsome : mid.txTask.isSome = true
    · rw [if_pos hsome]
      exact ⟨_, rfl, rfl, hrun, rfl, htask, .inl hqueue, rfl, rfl, fun _ _ => rfl⟩
    · have hnone : mid.txTask = none := by simpa using hsome
      rw [if_neg hsome, hqueue]
      refine ⟨{ mid with
          txQueue := none, txTask := none, stopped := false, port := none, retired := true },
        ?_, rfl, hrun, rfl, hnone.symm.trans htask, .inr rfl, ?_⟩
      · cases ctx.txQueue <;> rfl
      · cases hq : ctx.txQueue with
        | none => exact ⟨rfl, rfl, fun _ _ => rfl⟩
        | some q₀ =>
            refine ⟨rfl, rfl, fun q hne => ?_⟩
            have hne : q ≠ q₀ := fun hc => hne (hc ▸ rfl)
            simp [Router.deleteQueue, Router.setSlot, hne]

theorem findPortSlot_spec {r : Router} {p : PortId} {i : Nat} (h : findPortSlot r p = some i) :
    ∃ ctx, r.slots[i]? = some ctx ∧ ctx.port = some p := by
  obtain ⟨hi, hp, -⟩ := List.findIdx?_eq_some_iff_getElem.mp h
  exact ⟨_, List.getElem?_eq_getElem hi, by simpa using hp⟩

theorem tableOk_remove (h : TableOk s) {p : PortId} {i : Nat} (hi : findPortSlot s.router p = some i)
    (self : Option TaskId) (exits : Bool) :
    TableOk ⟨portCtxTeardown s.router i self exits,
      if (!(self.isSome && (s.router.slots.getD i {}).txTask = self) && exits) = true then
        dropTasks s.live i else s.live⟩ := by
  obtain ⟨ctx, hctx, hp⟩ := findPortSlot_spec hi
  obtain ⟨new, hslots, hport, hrun, hret, htask, hqueue, hports, hid, hqueues⟩ :=
    portCtxTeardown_spec hctx self exits
  have hok := h.slot hctx
  rw [getD_of_getElem? hctx]
  generalize (!(self.isSome && decide (ctx.txTask = self)) && exits) = gone at *
  have hold : ∀ q, new.txQueue = some q → ctx.txQueue = some q := by
    intro q hq
    rcases hqueue with heq | hnone
    · exact heq ▸ hq
    · rw [hnone] at hq
      cases hq
  refine h.of_slot_set hctx hslots ?_ (Nat.le_of_eq hid.symm) ?_ ?_ (fun q _ => hqueues q)
    (fun q hq => .inl (hold q hq)) (fun q => by rw [hports]; exact .refl _) ?_
  · refine ⟨fun t => ?_, fun _ => ⟨hrun, fun hc => ?_⟩, fun hc => absurd hport hc, fun q hq => ?_⟩
    · rw [htask]
      cases gone with
      | false => exact hok.task t
      | true =>
          refine iff_of_false (by simp) ?_
          simp only [if_true, dropTasks]
          split_ifs with hc
          · simp
          · exact hc
    · rw [hret] at hc
      cases hc
    · dsimp only
      rw [hid]
      exact hok.old q (hold q hq)
  · intro t j hj
    dsimp only
    split_ifs
    · unfold dropTasks
      split_ifs with hc
      · simp [hc, Ne.symm hj]
      · rfl
    · rfl
  · intro t hl
    dsimp only at hl ⊢
    rw [hid]
    split_ifs at hl with hg
    · unfold dropTasks at hl
      split_ifs at hl with hc
      exact absurd hl hc
    · exact (h.live hl).1
  · intro q j b p' hq
    rw [hport] at hq
    cases hq

/-- A port task that has left its loop clears its handle. -/
theorem tableOk_exit (h : TableOk s) {t : TaskId} {i : Nat} (hl : s.live t = some i) {ctx : Slot}
    (hctx : s.router.slots[i]? = some ctx) {running : Bool} (hrun : ctx.port = none → running = false) :
    TableOk ⟨s.router.setSlot i (Slot.taskExit { ctx with running }), Function.update s.live t none⟩ := by
  have hok := h.slot hctx
  have hother : ∀ t' j, Function.update s.live t none t' = some j ↔ t' ≠ t ∧ s.live t' = some j := by
    intro t' j
    by_cases ht : t' = t
    · subst ht
      simp
    · simp [ht]
  refine h.of_slot_set hctx rfl ?_ (Nat.le_refl _) ?_ ?_ (fun _ _ _ => rfl) (fun q hq => .inl hq)
    (fun _ => .refl _) ?_
  · refine ⟨fun t' => ?_, fun hp => ⟨hrun hp, fun _ => rfl⟩, hok.active, hok.old⟩
    rw [hother]
    refine iff_of_false (by simp [Slot.taskExit]) ?_
    intro hboth
    obtain ⟨hne, hl'⟩ := hboth
    have heq := ((hok.task t').mpr hl').symm.trans ((hok.task t).mpr hl)
    exact hne (Option.some.inj heq)
  · intro t' j hj
    rw [hother]
    refine ⟨And.right, fun hl' => ⟨?_, hl'⟩⟩
    intro heq
    subst heq
    exact hj (Option.some.inj (hl'.symm.trans hl))
  · intro t' hl'
    exact (h.live ((hother t' i).mp hl').2).1
  · intro p j b p' hp hb hj hp'
    exact h.ports hctx hb (Ne.symm hj) hp hp'

/-- Sending changes no mode, and no destination but that of an unbound dynamic port. -/
theorem routerSend_port (r : Router) (f : Frame) (source p : PortId) :
    ((routerSend r f source).1.ports p).mode = (r.ports p).mode ∧
      ((r.ports p).mode ≠ .dynamic ∨ (r.ports p).destination.callsign ≠ [] →
        ((routerSend r f source).1.ports p).destination = (r.ports p).destination) := by
  obtain ⟨n, hn⟩ := (routerSend_frame r f source).2.2.2 p
  rw [hn, bindSource_ports]
  split_ifs with hb
  · obtain ⟨rfl, hm, hd⟩ := hb
    refine ⟨rfl, fun hor => ?_⟩
    rcases hor with hne | hne
    · exact absurd hm hne
    · exact absurd hd hne
  · exact ⟨rfl, fun _ => rfl⟩

theorem tableOk_send (h : TableOk s) (f : Frame) (source : PortId) :
    TableOk { s with router := (routerSend s.router f source).1 } := by
  obtain ⟨hslots, hid, hqueues, -⟩ := routerSend_frame s.router f source
  refine h.of_slots_eq hslots rfl hid (fun q hq => by rwa [hqueues]) fun p _ => ?_
  obtain ⟨hm, hd⟩ := routerSend_port s.router f source p
  refine ⟨hm, fun ha => hd (.inl fun hdyn => ?_)⟩
  rw [hdyn] at ha
  cases ha

theorem portTaskRound_frame {r r' : Router} {i : Nat} (h : portTaskRound r i = some r') :
    r'.slots = r.slots ∧ r'.nextId = r.nextId ∧
      (∀ q, (r.queues q).isSome → (r'.queues q).isSome) ∧
      ∀ p, (r'.ports p).mode = (r.ports p).mode ∧ (r'.ports p).destination = (r.ports p).destination := by
  unfold portTaskRound at h
  dsimp only at h
  split at h
  · cases h
  · rename_i q _
    split at h
    · rename_i frame rest _
      have hqueue : ∀ q', (r.queues q').isSome →
          (Function.update r.queues q (some rest) q').isSome := by
        intro q' hs
        by_cases hq : q' = q
        · subst hq
          simp
        · simpa [hq] using hs
      split at h
      · cases h
        exact ⟨rfl, rfl, hqueue, fun _ => ⟨rfl, rfl⟩⟩
      · rename_i p _
        cases h
        refine ⟨rfl, rfl, hqueue, fun p' => ?_⟩
        by_cases hp : p' = p
        · subst hp
          simp [Router.modifyPort]
        · simp [Router.modifyPort, hp]
    · cases h

/-- A registration takes a slot for the port and its task, or does nothing. -/
theorem register_cases {p : PortId} (hs : s.step (.register p) = some s') :
    s' = s ∨ passes s.router p = true ∧
      ∃ r i ctx, SlotReplaced s.router r i ctx (.fresh p s.router.nextId) ∧
        r.nextId = s.router.nextId + 1 ∧ r.queues s.router.nextId = some [] ∧
        r.ports = Function.update s.router.ports p (s.router.ports p).zeroed ∧
        s' = ⟨r, Function.update s.live s.router.nextId (some i)⟩ := by
  unfold PortTable.step at hs
  dsimp only at hs
  split at hs
  · rename_i r' hr
    cases hs
    obtain ⟨hpass, i, ctx, hrep, hid, hnew, hports⟩ := registerPort_ok hr
    obtain ⟨r₁, halloc⟩ := hrep.handed
    rw [halloc]
    exact .inr ⟨hpass, r', i, ctx, hrep, hid, hnew, hports, rfl⟩
  · rename_i err r' hne hr
    cases hs
    rcases registerPort_error hr hne with rfl | ⟨hc, -⟩
    · exact .inl rfl
    · cases hc

theorem tableOk_step (h : TableOk s) {e : PortEvent} (hs : s.step e = some s') : TableOk s' := by
  cases e with
  | register p =>
      rcases register_cases hs with rfl | ⟨hpass, r, i, ctx, hrep, hid, hnew, hports, rfl⟩
      · exact h
      · exact tableOk_register h hpass hrep hid hnew hports
  | remove p self exits =>
      unfold PortTable.step removePort at hs
      dsimp only at hs
      cases hi : findPortSlot s.router p with
      | none =>
          rw [hi] at hs
          cases hs
          exact h
      | some i =>
          rw [hi] at hs
          cases hs
          exact tableOk_remove h hi self exits
  | send f source =>
      cases hs
      exact tableOk_send h f source
  | taskRound t =>
      unfold PortTable.step at hs
      dsimp only at hs
      split at hs
      · cases hs
      · obtain ⟨r', hr, rfl⟩ := Option.map_eq_some_iff.mp hs
        obtain ⟨hslots, hid, hqueues, hports⟩ := portTaskRound_frame hr
        exact h.of_slots_eq hslots rfl hid hqueues fun p _ => ⟨(hports p).1, fun _ => (hports p).2⟩
  | taskExit t =>
      unfold PortTable.step at hs
      dsimp only at hs
      split at hs
      · cases hs
      · rename_i i hl
        obtain ⟨ctx, hctx⟩ : ∃ ctx, s.router.slots[i]? = some ctx :=
          ⟨_, List.getElem?_eq_getElem (h.live hl).2⟩
        rw [getD_of_getElem? hctx] at hs
        split_ifs at hs with hrun
        cases hs
        exact tableOk_exit h hl hctx fun _ => Bool.eq_false_iff.mpr hrun
  | taskFail t =>
      unfold PortTable.step at hs
      dsimp only at hs
      split at hs
      · cases hs
      · rename_i i hl
        obtain ⟨ctx, hctx⟩ : ∃ ctx, s.router.slots[i]? = some ctx :=
          ⟨_, List.getElem?_eq_getElem (h.live hl).2⟩
        rw [getD_of_getElem? hctx] at hs
        cases hs
        exact tableOk_exit h hl hctx fun _ => rfl
  | write p port =>
      unfold PortTable.step at hs
      dsimp only at hs
      split_ifs at hs with hreg
      cases hs
      refine h.of_slots_eq rfl rfl rfl (fun _ => id) fun p' hp' => ?_
      obtain ⟨ctx, hctx, hp'⟩ := hp'
      have hne : p' ≠ p := by
        intro heq
        subst heq
        exact hreg (List.contains_iff_mem.mpr (List.mem_filterMap.mpr ⟨ctx, hctx, hp'⟩))
      simp only [Router.modifyPort, Function.update_of_ne hne]
      exact .refl _

theorem tableOk_init (h : s.IsInit) : TableOk s := by
  obtain ⟨maxPorts, queueDepth, ports, rfl⟩ := h
  have hslot : ∀ {i : Nat} {ctx : Slot},
      (routerInit maxPorts queueDepth ports).slots[i]? = some ctx → ctx = {} := by
    intro i ctx hctx
    exact List.eq_of_mem_replicate (List.mem_of_getElem? hctx)
  refine ⟨fun hctx => ?_, fun _ _ _ _ _ ha _ _ hq => ?_, fun ha _ _ hp => ?_, fun hl => by cases hl⟩
  · cases hslot hctx
    exact ⟨fun t => by simp, fun _ => ⟨rfl, fun _ => rfl⟩, fun hc => absurd rfl hc,
      fun q hq => by cases hq⟩
  · cases hslot ha
    cases hq
  · cases hslot ha
    cases hp

/-- Only the application changes a destination that is not empty. -/
theorem step_destination {e : PortEvent} (hs : s.step e = some s') {p : PortId}
    (hwrite : ∀ port, e ≠ .write p port)
    (hd : (s.router.ports p).destination.callsign ≠ []) :
    (s'.router.ports p).destination = (s.router.ports p).destination := by
  cases e with
  | register p' =>
      rcases register_cases hs with rfl | ⟨-, r, i, ctx, -, -, -, hports, rfl⟩
      · rfl
      · dsimp only
        rw [hports]
        by_cases hp : p = p'
        · subst hp
          simp [Port.zeroed]
        · simp [hp]
  | remove p' self exits =>
      unfold PortTable.step removePort at hs
      dsimp only at hs
      cases hi : findPortSlot s.router p' with
      | none =>
          rw [hi] at hs
          cases hs
          rfl
      | some i =>
          rw [hi] at hs
          cases hs
          obtain ⟨ctx, hctx, -⟩ := findPortSlot_spec hi
          obtain ⟨new, -, -, -, -, -, -, hports, -⟩ := portCtxTeardown_spec hctx self exits
          dsimp only
          rw [hports]
  | send f source =>
      cases hs
      exact (routerSend_port s.router f source p).2 (.inr hd)
  | taskRound t =>
      unfold PortTable.step at hs
      dsimp only at hs
      split at hs
      · cases hs
      · obtain ⟨r', hr, rfl⟩ := Option.map_eq_some_iff.mp hs
        exact ((portTaskRound_frame hr).2.2.2 p).2
  | taskExit t =>
      unfold PortTable.step at hs
      dsimp only at hs
      split at hs
      · cases hs
      · split_ifs at hs
        cases hs
        rfl
  | taskFail t =>
      unfold PortTable.step at hs
      dsimp only at hs
      split at hs
      · cases hs
      · cases hs
        rfl
  | write p' port =>
      unfold PortTable.step at hs
      dsimp only at hs
      split_ifs at hs with hreg
      cases hs
      have hne : p ≠ p' := by
        intro heq
        subst heq
        exact hwrite port rfl
      simp [Router.modifyPort, hne]

/-- The slot that a registration takes had no task. -/
theorem register_slot (h : TableOk s) {p : PortId} (hs : s.step (.register p) = some s')
    (hp : ¬ s.router.Registered p) {i : Nat} {ctx : Slot} (hctx : s'.router.slots[i]? = some ctx)
    (hport : ctx.port = some p) (t : TaskId) : s.live t ≠ some i := by
  rcases register_cases hs with rfl | ⟨-, r, j, old, hrep, -, -, -, rfl⟩
  · exact absurd ⟨ctx, List.mem_of_getElem? hctx, hport⟩ hp
  · dsimp only at hctx
    rw [hrep.slots, getElem?_set_some hrep.old] at hctx
    split_ifs at hctx with hij
    · subst hij
      exact ((h.slot hrep.old).available_iff.mp hrep.available).2 t
    · exact absurd ⟨ctx, List.mem_of_getElem? hctx, hport⟩ hp

end Keep

/-! ### Registration -/

/-- A registration that violates none of the constraints. -/
structure Admissible (r : Router) (p : PortId) : Prop where
  callback : (r.ports p).hasCallback = true
  notRegistered : ¬ r.Registered p
  default : ∀ q, r.Registered q → ¬ ((r.ports p).mode = .default ∧ (r.ports q).mode = .default)
  destination : ∀ q, r.Registered q → (r.ports p).mode.addressed = true →
    (r.ports q).mode.addressed = true →
      addressEquals (r.ports p).destination (r.ports q).destination = false

theorem conflicts_eq_false {ports : PortId → Port} {p q : PortId} :
    conflicts ports p q = false ↔
      q ≠ p ∧ ¬ ((ports p).mode = .default ∧ (ports q).mode = .default) ∧
        ((ports p).mode.addressed = true → (ports q).mode.addressed = true →
          addressEquals (ports p).destination (ports q).destination = false) := by
  unfold conflicts
  cases (ports p).mode.addressed <;> cases (ports q).mode.addressed <;> simp [and_assoc]

theorem Admissible.passes {r : Router} {p : PortId} (h : Admissible r p) : passes r p = true := by
  rw [passes_iff, List.any_eq_false]
  refine ⟨h.callback, ?_⟩
  intro q hq
  obtain ⟨ctx, hctx, hcq⟩ := List.mem_filterMap.mp hq
  have hreg : r.Registered q := ⟨ctx, hctx, hcq⟩
  rw [Bool.not_eq_true, conflicts_eq_false]
  refine ⟨?_, h.default q hreg, h.destination q hreg⟩
  intro heq
  subst heq
  exact h.notRegistered hreg

/-- The constraints on the registered ports. -/
def Constrained (r : Router) : Prop :=
  ∀ (i j : Nat) (a b : Slot) (p q : PortId), r.slots[i]? = some a → r.slots[j]? = some b → i ≠ j →
    a.port = some p → b.port = some q →
      p ≠ q ∧ ¬ ((r.ports p).mode = .default ∧ (r.ports q).mode = .default) ∧
        ((r.ports p).mode.addressed = true → (r.ports q).mode.addressed = true →
          addressEquals (r.ports p).destination (r.ports q).destination = false)

/-- **Registration invariants and slot accounting**, in every state of every run. -/
theorem registration_invariants {s : PortTable}
    (h : Reach PortTable.IsInit PortTable.step Always s) :
    Constrained s.router ∧
      -- a bound dynamic port keeps its destination
      (∀ e s' p, s.step e = some s' → (∀ port, e ≠ .write p port) →
        (s.router.ports p).mode = .dynamic → (s.router.ports p).destination.callsign ≠ [] →
          (s'.router.ports p).destination = (s.router.ports p).destination) ∧
      -- no task runs on a slot that is handed out
      (∀ p s' i (ctx : Slot), ¬ s.router.Registered p → s.step (.register p) = some s' →
        s'.router.slots[i]? = some ctx → ctx.port = some p → ∀ t, s.live t ≠ some i) ∧
      -- no slot is lost
      ∀ p, Admissible s.router p →
        ((registerPort s.router p {}).1 = .ok ↔
          ∃ i ctx, s.router.slots[i]? = some ctx ∧ ctx.port = none ∧ ∀ t, s.live t ≠ some i) := by
  have hok : TableOk s := h.invariant (fun _ => tableOk_init) fun _ _ _ hi _ hs => tableOk_step hi hs
  refine ⟨fun i j a b p q ha hb hij hp hq => ?_, fun e s' p hs hw _ hd => step_destination hs hw hd,
    fun p s' i ctx hp hs hctx hport => register_slot hok hs hp hctx hport, fun p hp => ?_⟩
  · obtain ⟨hne, hrest⟩ := conflicts_eq_false.mp (hok.ports ha hb hij hp hq)
    exact ⟨Ne.symm hne, hrest⟩
  · rw [registerPort_ok_iff]
    constructor
    · intro hboth
      obtain ⟨-, ctx, hctx, hav⟩ := hboth
      obtain ⟨i, hi⟩ := List.getElem?_of_mem hctx
      exact ⟨i, ctx, hi, (hok.slot hi).available_iff.mp hav⟩
    · intro hsome
      obtain ⟨i, ctx, hi, hfree⟩ := hsome
      exact ⟨hp.passes, ctx, List.mem_of_getElem? hi,
        (hok.slot hi).available_iff.mpr hfree⟩

/-- The only slot of a router is registered and removed from its own callback. Once
the task has exited it is there for another port. -/
theorem registration_invariants_reuse :
    ∃ s, Reach PortTable.IsInit PortTable.step Always s ∧ (registerPort s.router 1 {}).1 = .ok := by
  have hinit : PortTable.IsInit ⟨routerInit 1 8 fun _ => {}, fun _ => none⟩ := ⟨1, 8, _, rfl⟩
  have hrun : replay PortTable.step Always ⟨routerInit 1 8 fun _ => {}, fun _ => none⟩
      [.register 0, .remove 0 (some 0) false, .taskExit 0] = some _ := rfl
  have hreach := Reach.replay (.start hinit) hrun
  refine ⟨_, hreach, ?_⟩
  refine ((registration_invariants hreach).2.2.2 1 ⟨rfl, ?_, ?_, ?_⟩).mpr ⟨0, _, rfl, rfl, ?_⟩
  · intro hsome
    obtain ⟨ctx, hctx, hp⟩ := hsome
    rw [List.mem_singleton.mp hctx] at hp
    cases hp
  · rintro q ⟨ctx, hctx, hp⟩
    rw [List.mem_singleton.mp hctx] at hp
    cases hp
  · rintro q ⟨ctx, hctx, hp⟩
    rw [List.mem_singleton.mp hctx] at hp
    cases hp
  · intro t ht
    have hnone : (none : Option Nat) = some 0 := by
      cases t with
      | zero => exact ht
      | succ t => exact ht
    cases hnone

end EspAx25
