import EspAx25.Agwpe.Callsign
import EspAx25.Router.Chain
import EspAx25.Router.Slots

/-!
# EspAx25.Router.Digipeater

A station that repeats frames: its router, and the digipeater module (`ax25_digipeater.c`),
which has one port in that router, `s_ctx.port`.

What a port task gets from its queue is followed slot by slot: a slot is active while it has a
port, and a step appends the copy of a frame to its queue, takes the first frame off, or leaves
the queue alone (`active_step`).
-/

namespace EspAx25

open Transition

/-! ### Active slots -/

/-- The port of slot `i`, and the frames in its queue. -/
def PortTable.active (s : PortTable) (i : Nat) : Option (PortId × List Frame) :=
  (s.router.slots[i]?).bind fun ctx =>
    ctx.port.map fun p => (p, (ctx.txQueue.bind s.router.queues).getD [])

/-- What a round of a port task hands to the callback of the port. -/
def PortTable.handsOver (s : PortTable) (t : TaskId) : Option (PortId × Frame) :=
  (s.live t).bind fun i => (s.active i).bind fun a => a.2.head?.map fun f => (a.1, f)

section Active

variable {s s' : PortTable}

theorem active_eq_some {i : Nat} {p : PortId} {l : List Frame} (h : TableOk s) :
    s.active i = some (p, l) ↔ ∃ ctx q, s.router.slots[i]? = some ctx ∧ ctx.port = some p ∧
      ctx.txQueue = some q ∧ s.router.queues q = some l := by
  unfold PortTable.active
  constructor
  · intro hs
    obtain ⟨ctx, hctx, hs⟩ := Option.bind_eq_some_iff.mp hs
    obtain ⟨p', hp, heq⟩ := Option.map_eq_some_iff.mp hs
    obtain ⟨-, q, hq, hsome⟩ := (h.slot hctx).active (by rw [hp]; exact Option.some_ne_none p')
    obtain ⟨frames, hf⟩ := Option.isSome_iff_exists.mp hsome
    rw [hq, Option.bind_some, hf] at heq
    cases heq
    exact ⟨ctx, q, hctx, hp, hq, hf⟩
  · rintro ⟨ctx, q, hctx, hp, hq, hl⟩
    rw [hctx, Option.bind_some, hp, Option.map_some, hq, Option.bind_some, hl, Option.getD_some]

/-- A port has one slot. -/
theorem active_unique (h : TableOk s) {i j : Nat} {p : PortId} {l l' : List Frame}
    (hi : s.active i = some (p, l)) (hj : s.active j = some (p, l')) : i = j := by
  obtain ⟨a, -, ha, hap, -⟩ := (active_eq_some h).mp hi
  obtain ⟨b, -, hb, hbp, -⟩ := (active_eq_some h).mp hj
  by_contra hij
  have hconf := h.ports ha hb hij hap hbp
  simp [conflicts] at hconf

theorem active_registered (h : TableOk s) {i : Nat} {p : PortId} {l : List Frame}
    (hi : s.active i = some (p, l)) : s.router.Registered p := by
  obtain ⟨ctx, -, hctx, hp, -⟩ := (active_eq_some h).mp hi
  exact ⟨ctx, List.mem_of_getElem? hctx, hp⟩

/-- What a step does to the queue of an active slot. -/
inductive QueueStep (s : PortTable) (e : PortEvent) (i : Nat) (p : PortId) (l : List Frame) :
    List Frame → Prop
  | kept : (∀ t, e = .taskRound t → s.live t ≠ some i) → QueueStep s e i p l l
  | queued (f copy : Frame) (source : PortId) : e = .send f source →
      Receives (bindSource s.router f source) f source p →
      IsCopy f ((bindSource s.router f source).ports p) copy → QueueStep s e i p l (l ++ [copy])
  | taken (t : TaskId) (f : Frame) (l' : List Frame) : e = .taskRound t → s.live t = some i →
      l = f :: l' → QueueStep s e i p l l'

/-- A round takes the first frame of one queue. -/
theorem round_active (h : TableOk s) {t : TaskId} (hs : s.step (.taskRound t) = some s') {i : Nat}
    {p : PortId} {l' : List Frame} (hi : s'.active i = some (p, l')) :
    ∃ l, s.active i = some (p, l) ∧ QueueStep s (.taskRound t) i p l l' := by
  have hok := tableOk_step h hs
  unfold PortTable.step at hs
  dsimp only at hs
  split at hs
  · cases hs
  rename_i j hlive
  obtain ⟨r', hr, rfl⟩ := Option.map_eq_some_iff.mp hs
  obtain ⟨ctx, q, hctx, hp, hq, hl⟩ := (active_eq_some hok).mp hi
  obtain ⟨hslots, -⟩ := portTaskRound_frame hr
  rw [hslots] at hctx
  obtain ⟨ctx₀, hctx₀⟩ : ∃ ctx₀, s.router.slots[j]? = some ctx₀ :=
    ⟨_, List.getElem?_eq_getElem (h.live hlive).2⟩
  -- the queues of the router that is left
  obtain ⟨q₀, f, rest, hq₀, hf, hqueues⟩ : ∃ q₀ f rest, ctx₀.txQueue = some q₀ ∧
      s.router.queues q₀ = some (f :: rest) ∧
      r'.queues = Function.update s.router.queues q₀ (some rest) := by
    unfold portTaskRound at hr
    rw [getD_of_getElem? hctx₀] at hr
    dsimp only at hr
    split at hr
    · cases hr
    rename_i q₀ hq₀
    split at hr
    · rename_i f rest hf
      refine ⟨q₀, f, rest, hq₀, hf, ?_⟩
      split at hr <;> cases hr <;> rfl
    · cases hr
  dsimp only at hl
  rw [hqueues] at hl
  by_cases hij : i = j
  · subst hij
    cases hctx₀.symm.trans hctx
    cases hq₀.symm.trans hq
    rw [Function.update_self] at hl
    cases hl
    exact ⟨f :: l', (active_eq_some h).mpr ⟨ctx, q, hctx, hp, hq, hf⟩,
      .taken t f l' rfl hlive rfl⟩
  · have hne : q ≠ q₀ := by
      rintro rfl
      exact h.queues hctx hctx₀ hij hq hq₀
    rw [Function.update_of_ne hne] at hl
    refine ⟨l', (active_eq_some h).mpr ⟨ctx, q, hctx, hp, hq, hl⟩, .kept fun t' heq hlive' => ?_⟩
    cases heq
    exact hij (Option.some.inj (hlive'.symm.trans hlive))

/-- A frame that is sent is appended to the queues of ports that are to receive it. -/
theorem send_active (h : TableOk s) {f : Frame} {source : PortId} {i : Nat} {p : PortId}
    {l' : List Frame}
    (hi : PortTable.active { s with router := (routerSend s.router f source).1 } i = some (p, l')) :
    ∃ l, s.active i = some (p, l) ∧ QueueStep s (.send f source) i p l l' := by
  have hok := tableOk_send h f source
  obtain ⟨ctx, q, hctx, hp, hq, hl⟩ := (active_eq_some hok).mp hi
  obtain ⟨hslots, -⟩ := routerSend_frame s.router f source
  dsimp only at hctx hl
  rw [hslots] at hctx
  have hmem := List.mem_of_getElem? hctx
  obtain ⟨q', hq', hoffer, hnot⟩ := routerSend_effect h.wf f source hmem hp
  cases hq'.symm.trans hq
  by_cases hrec : Receives (bindSource s.router f source) f source p
  · obtain ⟨o, ho, rfl⟩ := List.mem_map.mp ((mem_ports_routerSend h.wf).mpr hrec)
    have hcopy := routerSend_copies h.wf ho
    obtain ⟨frames, hframes, hcase⟩ := hoffer o ho rfl
    rw [bindSource_queues] at hframes
    have hactive := (active_eq_some h).mpr ⟨ctx, q, hctx, hp, hq, hframes⟩
    obtain ⟨-, hqueue, -⟩ | ⟨-, hqueue, -⟩ := hcase
    · cases hqueue.symm.trans hl
      exact ⟨frames, hactive, .queued f o.frame source rfl hrec hcopy⟩
    · cases hqueue.symm.trans hl
      exact ⟨l', hactive, .kept fun _ he => by cases he⟩
  · rw [(hnot hrec).1] at hl
    exact ⟨l', (active_eq_some h).mpr ⟨ctx, q, hctx, hp, hq, hl⟩,
      .kept fun _ he => by cases he⟩

/-- A step that keeps the queue of every active slot. -/
theorem active_of_slots (h : TableOk s) (hok : TableOk s') {i : Nat} {p : PortId} {l' : List Frame}
    (hi : s'.active i = some (p, l'))
    (hslot : ∀ ctx', s'.router.slots[i]? = some ctx' → ctx'.port = some p →
      ∃ ctx, s.router.slots[i]? = some ctx ∧ ctx.port = some p ∧ ctx'.txQueue = ctx.txQueue ∧
        ∀ q, ctx.txQueue = some q → s'.router.queues q = s.router.queues q) :
    s.active i = some (p, l') := by
  obtain ⟨ctx', q, hctx', hp', hq', hl⟩ := (active_eq_some hok).mp hi
  obtain ⟨ctx, hctx, hp, hq, hqueue⟩ := hslot ctx' hctx' hp'
  rw [hq] at hq'
  rw [hqueue q hq'] at hl
  exact (active_eq_some h).mpr ⟨ctx, q, hctx, hp, hq', hl⟩

/-- A task that exits leaves its slot the port and the queue. -/
theorem exit_active (h : TableOk s) {t : TaskId} {j : Nat} (hlive : s.live t = some j)
    {running : Bool} (hok : TableOk ⟨s.router.setSlot j
      (Slot.taskExit { s.router.slots.getD j {} with running }), Function.update s.live t none⟩)
    {i : Nat} {p : PortId} {l' : List Frame} (hi : PortTable.active ⟨s.router.setSlot j
      (Slot.taskExit { s.router.slots.getD j {} with running }), Function.update s.live t none⟩ i =
        some (p, l')) : s.active i = some (p, l') := by
  refine active_of_slots h hok hi fun ctx' hctx' hp' => ?_
  obtain ⟨ctx, hctx⟩ : ∃ ctx, s.router.slots[j]? = some ctx :=
    ⟨_, List.getElem?_eq_getElem (h.live hlive).2⟩
  dsimp only [Router.setSlot] at hctx'
  rw [getD_of_getElem? hctx, getElem?_set_some hctx] at hctx'
  split_ifs at hctx' with hij
  · cases hctx'
    subst hij
    exact ⟨ctx, hctx, hp', rfl, fun _ _ => rfl⟩
  · exact ⟨ctx', hctx', hp', rfl, fun _ _ => rfl⟩

/-- **What a step does to an active slot.** -/
theorem active_step (h : TableOk s) {e : PortEvent} (hs : s.step e = some s') {i : Nat} {p : PortId}
    {l' : List Frame} (hi : s'.active i = some (p, l')) :
    (e = .register p ∧ l' = []) ∨ ∃ l, s.active i = some (p, l) ∧ QueueStep s e i p l l' := by
  have hok := tableOk_step h hs
  have hkept : (∀ t, e ≠ .taskRound t) → s.active i = some (p, l') →
      (e = .register p ∧ l' = []) ∨ ∃ l, s.active i = some (p, l) ∧ QueueStep s e i p l l' :=
    fun hround hactive => .inr ⟨l', hactive, .kept fun t heq => absurd heq (hround t)⟩
  cases e with
  | register p₀ =>
      rcases register_cases hs with rfl | ⟨-, r, j, old, hrep, hid, hnew, hports, rfl⟩
      · exact hkept (fun _ he => by cases he) hi
      by_cases hij : i = j
      · subst hij
        obtain ⟨ctx, q, hctx, hp, hq, hl⟩ := (active_eq_some hok).mp hi
        dsimp only at hctx hl
        rw [hrep.slots, getElem?_set_some hrep.old, if_pos rfl] at hctx
        cases hctx
        cases hp
        cases hq
        cases hnew.symm.trans hl
        exact .inl ⟨rfl, rfl⟩
      · refine hkept (fun _ he => by cases he) (active_of_slots h hok hi fun ctx hctx hp => ?_)
        dsimp only at hctx
        rw [hrep.slots, getElem?_set_some hrep.old, if_neg hij] at hctx
        refine ⟨ctx, hctx, hp, rfl, fun q hq => hrep.queues q ?_ fun hold => ?_⟩
        · exact Nat.ne_of_lt ((h.slot hctx).old q hq)
        · exact h.queues hctx hrep.old hij hq hold
  | remove p₀ self exits =>
      unfold PortTable.step removePort at hs
      dsimp only at hs
      cases hj : findPortSlot s.router p₀ with
      | none =>
          rw [hj] at hs
          cases hs
          exact hkept (fun _ he => by cases he) hi
      | some j =>
          rw [hj] at hs
          cases hs
          obtain ⟨ctx₀, hctx₀, -⟩ := findPortSlot_spec hj
          obtain ⟨new, hslots, hnone, -, -, -, -, -, -, hqueues⟩ :=
            portCtxTeardown_spec hctx₀ self exits
          refine hkept (fun _ he => by cases he) (active_of_slots h hok hi fun ctx hctx hp => ?_)
          dsimp only at hctx
          rw [hslots, getElem?_set_some hctx₀] at hctx
          split_ifs at hctx with hij
          · cases hctx
            rw [hnone] at hp
            cases hp
          · exact ⟨ctx, hctx, hp, rfl,
              fun q hq => hqueues q fun hold => h.queues hctx hctx₀ hij hq hold⟩
  | send f source =>
      cases hs
      exact .inr (send_active h hi)
  | taskRound t => exact .inr (round_active h hs hi)
  | taskExit t =>
      unfold PortTable.step at hs
      dsimp only at hs
      split at hs
      · cases hs
      rename_i j hlive
      split_ifs at hs
      cases hs
      exact hkept (fun _ he => by cases he) (exit_active h hlive hok hi)
  | taskFail t =>
      unfold PortTable.step at hs
      dsimp only at hs
      split at hs
      · cases hs
      rename_i j hlive
      cases hs
      exact hkept (fun _ he => by cases he) (exit_active h hlive hok hi)
  | write p₀ port =>
      unfold PortTable.step at hs
      dsimp only at hs
      split_ifs at hs
      cases hs
      exact hkept (fun _ he => by cases he)
        (active_of_slots h hok hi fun ctx hctx hp => ⟨ctx, hctx, hp, rfl, fun _ _ => rfl⟩)

/-- What the constraints on a registered port look at changes only by a write. -/
theorem step_sameRule {e : PortEvent} (hs : s.step e = some s') {p : PortId}
    (hwrite : ∀ port, e ≠ .write p port) : SameRule (s.router.ports p) (s'.router.ports p) := by
  cases e with
  | register p₀ =>
      rcases register_cases hs with rfl | ⟨-, r, i, ctx, -, -, -, hports, rfl⟩
      · exact .refl _
      · dsimp only
        rw [hports]
        by_cases hp : p = p₀
        · subst hp
          rw [Function.update_self]
          exact ⟨rfl, fun _ => rfl⟩
        · rw [Function.update_of_ne hp]
          exact .refl _
  | remove p₀ self exits =>
      unfold PortTable.step removePort at hs
      dsimp only at hs
      cases hi : findPortSlot s.router p₀ with
      | none =>
          rw [hi] at hs
          cases hs
          exact .refl _
      | some i =>
          rw [hi] at hs
          cases hs
          obtain ⟨ctx, hctx, -⟩ := findPortSlot_spec hi
          obtain ⟨new, -, -, -, -, -, -, hports, -⟩ := portCtxTeardown_spec hctx self exits
          dsimp only
          rw [hports]
          exact .refl _
  | send f source =>
      cases hs
      obtain ⟨hm, hd⟩ := routerSend_port s.router f source p
      refine ⟨hm, fun ha => hd (.inl fun hdyn => ?_)⟩
      rw [hdyn] at ha
      cases ha
  | taskRound t =>
      unfold PortTable.step at hs
      dsimp only at hs
      split at hs
      · cases hs
      · obtain ⟨r', hr, rfl⟩ := Option.map_eq_some_iff.mp hs
        obtain ⟨hm, hd⟩ := (portTaskRound_frame hr).2.2.2 p
        exact ⟨hm, fun _ => hd⟩
  | taskExit t =>
      unfold PortTable.step at hs
      dsimp only at hs
      split at hs
      · cases hs
      · split_ifs at hs
        cases hs
        exact .refl _
  | taskFail t =>
      unfold PortTable.step at hs
      dsimp only at hs
      split at hs
      · cases hs
      · cases hs
        exact .refl _
  | write p₀ port =>
      unfold PortTable.step at hs
      dsimp only at hs
      split_ifs at hs with hreg
      cases hs
      have hne : p ≠ p₀ := by
        rintro rfl
        exact hwrite port rfl
      simp only [Router.modifyPort, Function.update_of_ne hne]
      exact .refl _

/-- Only a registration registers a port. -/
theorem step_registered {e : PortEvent} (h : TableOk s) (hs : s.step e = some s') {p : PortId}
    (hreg : s'.router.Registered p) : e = .register p ∨ s.router.Registered p := by
  have hok := tableOk_step h hs
  obtain ⟨ctx, hctx, hp⟩ := hreg
  obtain ⟨i, hi⟩ := List.getElem?_of_mem hctx
  obtain ⟨-, q, hq, hsome⟩ := (hok.slot hi).active (by rw [hp]; exact Option.some_ne_none p)
  obtain ⟨l', hl'⟩ := Option.isSome_iff_exists.mp hsome
  have hactive := (active_eq_some hok).mpr ⟨ctx, q, hi, hp, hq, hl'⟩
  rcases active_step h hs hactive with ⟨he, -⟩ | ⟨l, hl, -⟩
  · exact .inl he
  · exact .inr (active_registered h hl)

/-- A port that has been removed is not registered. -/
theorem remove_gone (h : TableOk s) {p : PortId} {self : Option TaskId} {exits : Bool}
    (hs : s.step (.remove p self exits) = some s') : ¬ s'.router.Registered p := by
  rintro ⟨ctx, hctx, hp⟩
  obtain ⟨i, hi⟩ := List.getElem?_of_mem hctx
  unfold PortTable.step removePort at hs
  dsimp only at hs
  cases hj : findPortSlot s.router p with
  | none =>
      rw [hj] at hs
      cases hs
      have hnone := List.findIdx?_eq_none_iff.mp hj ctx hctx
      rw [hp] at hnone
      simp at hnone
  | some j =>
      rw [hj] at hs
      cases hs
      obtain ⟨ctx₀, hctx₀, hp₀⟩ := findPortSlot_spec hj
      obtain ⟨new, hslots, hnone, -⟩ := portCtxTeardown_spec hctx₀ self exits
      dsimp only at hi
      rw [hslots, getElem?_set_some hctx₀] at hi
      split_ifs at hi with hij
      · cases hi
        rw [hnone] at hp
        cases hp
      · have hconf := h.ports hi hctx₀ hij hp hp₀
        simp [conflicts] at hconf

end Active

/-! ### The digipeater module -/

/-- `ax25_digipeater_ctx_t`, but for the port structure and the callback. -/
structure Digipeater where
  initialized : Bool := false
  enabled : Bool := false
  portRegistered : Bool := false
  deriving Repr, DecidableEq

/-- Where a station has the port of its radio and `s_ctx.port`, and its `digi.callsign`. -/
structure StationConfig where
  radio : PortId
  digiPort : PortId
  callsign : List Byte
  apart : radio ≠ digiPort

/-- A router and a digipeater module. -/
structure Station where
  table : PortTable
  digipeater : Digipeater

/-- `s_ctx.port`, once it is filled in. -/
def digipeaterPort (digiAddr : Address) : Port := { destination := digiAddr, mode := .digipeater }

/-- `ax25_digipeater_init`, with a callback and after `ax25_cfg_init`. -/
def digipeaterInit (cfg : StationConfig) (s : Station) : EspErr × Station :=
  if s.digipeater.initialized then (.invalidState, s)
  else if cfg.callsign = [] then (.ok, { s with digipeater := { initialized := true } })
  else
    match addressFromString cfg.callsign with
    | (.ok, digiAddr) =>
      let r := s.table.router.modifyPort cfg.digiPort fun _ => digipeaterPort digiAddr
      match registerPort r cfg.digiPort {} with
      | (.ok, r') =>
        let live := Function.update s.table.live r.nextId ((allocPortSlot r).map Prod.fst)
        (.ok, ⟨⟨r', live⟩, { initialized := true, enabled := true, portRegistered := true }⟩)
      | (err, r') => (err, ⟨⟨r', s.table.live⟩, {}⟩)
    | _ => (.invalidArg, { s with digipeater := {} })

/-- `ax25_digipeater_deinit`. -/
def digipeaterDeinit (cfg : StationConfig) (self : Option TaskId) (exits : Bool) (s : Station) :
    Station :=
  if !s.digipeater.initialized then s
  else if s.digipeater.portRegistered then
    ⟨(s.table.step (.remove cfg.digiPort self exits)).getD s.table, {}⟩
  else { s with digipeater := {} }

/-- What happens in a station. -/
inductive StationEvent
  | router (e : PortEvent)
  | digipeaterInit
  | digipeaterDeinit (self : Option TaskId) (exits : Bool)

def Station.step (cfg : StationConfig) (s : Station) : StationEvent → Option Station
  | .router e => (s.table.step e).map fun table => { s with table }
  | .digipeaterInit => some (EspAx25.digipeaterInit cfg s).2
  | .digipeaterDeinit self exits => some (EspAx25.digipeaterDeinit cfg self exits s)

theorem step_router {cfg : StationConfig} {s s' : Station} {e : PortEvent}
    (hs : s.step cfg (.router e) = some s') :
    ∃ table, s.table.step e = some table ∧ { s with table } = s' :=
  Option.map_eq_some_iff.mp hs

/-- The port of the module is its own, no other port is a digipeater port, and the radio has
the default port. -/
def StationEvent.Allowed (cfg : StationConfig) : StationEvent → Prop
  | .router (.register p) | .router (.remove p _ _) | .router (.send _ p) => p ≠ cfg.digiPort
  | .router (.write p port) =>
    p ≠ cfg.digiPort ∧ port.mode ≠ .digipeater ∧ (p = cfg.radio → port.mode = .default)
  | _ => True

instance (cfg : StationConfig) (e : StationEvent) : Decidable (e.Allowed cfg) := by
  unfold StationEvent.Allowed
  split <;> infer_instance

/-- `digi.callsign` is set, and reads as `addr`. -/
def StationConfig.Serves (cfg : StationConfig) (addr : Address) : Prop :=
  cfg.callsign ≠ [] ∧ (addressFromString cfg.callsign).1 = .ok ∧
    addressEquals (addressFromString cfg.callsign).2 addr = true

instance (cfg : StationConfig) (addr : Address) : Decidable (cfg.Serves addr) :=
  inferInstanceAs (Decidable (_ ∧ _))

/-- What holds of a station. -/
structure StationOk (cfg : StationConfig) (s : Station) : Prop where
  table : TableOk s.table
  radio : (s.table.router.ports cfg.radio).mode = .default
  others : ∀ p ≠ cfg.digiPort, (s.table.router.ports p).mode ≠ .digipeater
  /-- The module knows whether its port is registered. -/
  digiPort : s.table.router.Registered cfg.digiPort → s.digipeater.portRegistered = true ∧
    (s.table.router.ports cfg.digiPort).mode = .digipeater ∧
      cfg.Serves (s.table.router.ports cfg.digiPort).destination
  initialized : s.digipeater.portRegistered = true → s.digipeater.initialized = true

/-- `ax25_digipeater_init` registers the port, or leaves the router alone. -/
theorem digipeaterInit_cases {cfg : StationConfig} {s : Station}
    (hfree : s.digipeater.initialized = false → ¬ s.table.router.Registered cfg.digiPort) :
    ((digipeaterInit cfg s).2.table = s.table ∧ ((digipeaterInit cfg s).2 = s ∨
        s.digipeater.initialized = false ∧
          (digipeaterInit cfg s).2.digipeater.portRegistered = false)) ∨
      s.digipeater.initialized = false ∧ cfg.callsign ≠ [] ∧
        (addressFromString cfg.callsign).1 = .ok ∧ ∃ table : PortTable,
          s.table.step (.write cfg.digiPort (digipeaterPort (addressFromString cfg.callsign).2)) =
            some table ∧
          table.step (.register cfg.digiPort) = some (digipeaterInit cfg s).2.table ∧
          ((digipeaterInit cfg s).2.digipeater = ⟨true, true, true⟩ ∨
            (digipeaterInit cfg s).2.digipeater = {} ∧
              (digipeaterInit cfg s).2.table = table) := by
  unfold digipeaterInit
  cases hinit : s.digipeater.initialized with
  | true => exact .inl ⟨rfl, .inl rfl⟩
  | false =>
      rw [if_neg Bool.false_ne_true]
      by_cases hcall : cfg.callsign = []
      · rw [if_pos hcall]
        exact .inl ⟨rfl, .inr ⟨rfl, rfl⟩⟩
      rw [if_neg hcall]
      rcases addressFromString cfg.callsign with ⟨err, addr⟩
      by_cases herr : err = .ok
      · subst herr
        generalize hr : (s.table.router.modifyPort cfg.digiPort fun _ => digipeaterPort addr) = r
        have hwrite : s.table.step (.write cfg.digiPort (digipeaterPort addr)) =
            some { s.table with router := r } := by
          rw [← hr]
          refine if_neg fun hreg => hfree hinit ?_
          obtain ⟨ctx, hctx, hp⟩ := List.mem_filterMap.mp (List.contains_iff_mem.mp hreg)
          exact ⟨ctx, hctx, hp⟩
        refine .inr ⟨rfl, hcall, rfl, _, hwrite, ?_⟩
        dsimp only [PortTable.step]
        rw [hr]
        rcases hreg : registerPort r cfg.digiPort {} with ⟨err, r'⟩
        by_cases hok : err = .ok
        · subst hok
          exact ⟨rfl, .inl rfl⟩
        · obtain rfl : r' = r := by
            rcases registerPort_error hreg hok with heq | ⟨hc, -⟩
            · exact heq
            · cases hc
          cases err
          case ok => exact absurd rfl hok
          all_goals exact ⟨rfl, .inr ⟨rfl, rfl⟩⟩
      · cases err
        case ok => exact absurd rfl herr
        all_goals exact .inl ⟨rfl, .inr ⟨rfl, rfl⟩⟩

/-- `ax25_digipeater_deinit` removes the port, or leaves the router alone. -/
theorem digipeaterDeinit_cases (cfg : StationConfig) (self : Option TaskId) (exits : Bool)
    (s : Station) :
    ((digipeaterDeinit cfg self exits s).table = s.table ∧
        (digipeaterDeinit cfg self exits s = s ∨ s.digipeater.portRegistered = false ∧
          (digipeaterDeinit cfg self exits s).digipeater = {})) ∨
      s.table.step (.remove cfg.digiPort self exits) =
          some (digipeaterDeinit cfg self exits s).table ∧
        (digipeaterDeinit cfg self exits s).digipeater = {} := by
  unfold digipeaterDeinit
  cases s.digipeater.initialized with
  | false => exact .inl ⟨rfl, .inl rfl⟩
  | true =>
      cases hreg : s.digipeater.portRegistered with
      | false => exact .inl ⟨rfl, .inr ⟨rfl, rfl⟩⟩
      | true =>
          refine .inr ⟨?_, rfl⟩
          dsimp only [PortTable.step]
          cases findPortSlot s.table.router cfg.digiPort <;> rfl

/-- A station before it is set up. -/
def Station.IsInit (cfg : StationConfig) (s : Station) : Prop :=
  s.table.IsInit ∧ s.digipeater = {} ∧ (s.table.router.ports cfg.radio).mode = .default ∧
    ∀ p ≠ cfg.digiPort, (s.table.router.ports p).mode ≠ .digipeater

section Stations

variable {cfg : StationConfig} {s s' : Station}

/-- Until the module is initialised its port is not registered. -/
theorem StationOk.free (h : StationOk cfg s) (hinit : s.digipeater.initialized = false) :
    ¬ s.table.router.Registered cfg.digiPort := by
  intro hreg
  rw [h.initialized (h.digiPort hreg).1] at hinit
  cases hinit

theorem stationOk_init (h : s.IsInit cfg) : StationOk cfg s := by
  obtain ⟨htable, hctx, hradio, hothers⟩ := h
  refine ⟨tableOk_init htable, hradio, hothers, fun hreg => ?_, fun hreg => ?_⟩
  · obtain ⟨maxPorts, queueDepth, ports, heq⟩ := htable
    obtain ⟨ctx, hmem, hp⟩ := hreg
    rw [heq] at hmem
    cases List.eq_of_mem_replicate hmem
    cases hp
  · rw [hctx] at hreg
    cases hreg

/-- A step of the router that is none of the module. -/
theorem stationOk_router (h : StationOk cfg s) {e : PortEvent}
    (hok : StationEvent.Allowed cfg (.router e)) {table : PortTable}
    (hs : s.table.step e = some table) : StationOk cfg { s with table } := by
  have hrule : ∀ p, (∀ port, e ≠ .write p port) →
      SameRule (s.table.router.ports p) (table.router.ports p) :=
    fun p hwrite => step_sameRule hs hwrite
  -- a write says what the mode is from now on
  have hwritten : ∀ p port, e = .write p port → table.router.ports p = port := by
    rintro p port rfl
    dsimp only [PortTable.step] at hs
    split_ifs at hs
    cases hs
    exact Function.update_self _ _ _
  have hdigi : ∀ port, e ≠ .write cfg.digiPort port := by
    rintro port rfl
    exact hok.1 rfl
  refine ⟨tableOk_step h.table hs, ?_, fun p hp => ?_, fun hreg => ?_, h.initialized⟩
  · by_cases hw : ∃ port, e = .write cfg.radio port
    · obtain ⟨port, rfl⟩ := hw
      rw [hwritten cfg.radio port rfl]
      exact hok.2.2 rfl
    · exact (hrule cfg.radio fun port he => hw ⟨port, he⟩).1.trans h.radio
  · by_cases hw : ∃ port, e = .write p port
    · obtain ⟨port, rfl⟩ := hw
      rw [hwritten p port rfl]
      exact hok.2.1
    · rw [(hrule p fun port he => hw ⟨port, he⟩).1]
      exact h.others p hp
  · rcases step_registered h.table hs hreg with rfl | hold
    · exact absurd rfl hok
    · obtain ⟨hflag, hmode, hserves⟩ := h.digiPort hold
      obtain ⟨hm, hd⟩ := hrule cfg.digiPort hdigi
      have hdest := hd (by rw [hmode]; rfl)
      exact ⟨hflag, hm.trans hmode, hdest ▸ hserves⟩

theorem stationOk_step (h : StationOk cfg s) {e : StationEvent} (hok : e.Allowed cfg)
    (hs : s.step cfg e = some s') : StationOk cfg s' := by
  cases e with
  | router e =>
      obtain ⟨table, htable, rfl⟩ := step_router hs
      exact stationOk_router h hok htable
  | digipeaterInit =>
      cases hs
      have hfree := fun hinit => h.free hinit
      obtain ⟨htable, hsame | ⟨hinit, hflag⟩⟩ | ⟨hinit, hcall, haddr, table, hwrite, hregister,
        hctx⟩ := digipeaterInit_cases hfree
      · rw [hsame]
        exact h
      · refine ⟨htable ▸ h.table, htable ▸ h.radio, htable ▸ h.others, fun hreg => ?_, fun hreg => ?_⟩
        · rw [htable] at hreg
          exact absurd hreg (hfree hinit)
        · rw [hflag] at hreg
          cases hreg
      · have hok₁ := tableOk_step h.table hwrite
        have hwritten : table.router.ports =
            Function.update s.table.router.ports cfg.digiPort
              (digipeaterPort (addressFromString cfg.callsign).2) := by
          dsimp only [PortTable.step] at hwrite
          split_ifs at hwrite
          cases hwrite
          rfl
        have hrule : ∀ p, SameRule (table.router.ports p)
            ((digipeaterInit cfg s).2.table.router.ports p) :=
          fun p => step_sameRule hregister fun _ he => by cases he
        have hother : ∀ p ≠ cfg.digiPort, ((digipeaterInit cfg s).2.table.router.ports p).mode =
            (s.table.router.ports p).mode := by
          intro p hp
          rw [(hrule p).1, hwritten, Function.update_of_ne hp]
        obtain ⟨hm, hd⟩ := hrule cfg.digiPort
        rw [hwritten, Function.update_self] at hm hd
        refine ⟨tableOk_step hok₁ hregister, (hother _ cfg.apart).trans h.radio,
          fun p hp => (hother p hp) ▸ h.others p hp, fun hreg => ⟨?_, hm, hcall, haddr, ?_⟩,
          fun hreg => ?_⟩
        · rcases hctx with hctx | ⟨-, htable⟩
          · rw [hctx]
          · rw [htable] at hreg
            rcases step_registered h.table hwrite hreg with heq | hold
            · cases heq
            · exact absurd hold (hfree hinit)
        · rw [hd rfl]
          exact addressEquals_refl _
        · rcases hctx with hctx | ⟨hctx, -⟩
          · rw [hctx]
          · rw [hctx] at hreg
            cases hreg
  | digipeaterDeinit self exits =>
      cases hs
      obtain ⟨htable, hsame | ⟨hflag, hctx⟩⟩ | ⟨hremove, hctx⟩ :=
        digipeaterDeinit_cases cfg self exits s
      · rw [hsame]
        exact h
      · refine ⟨htable ▸ h.table, htable ▸ h.radio, htable ▸ h.others, fun hreg => ?_, fun hreg => ?_⟩
        · rw [htable] at hreg
          rw [(h.digiPort hreg).1] at hflag
          cases hflag
        · rw [hctx] at hreg
          cases hreg
      · have hrule : ∀ p, SameRule (s.table.router.ports p)
            ((digipeaterDeinit cfg self exits s).table.router.ports p) :=
          fun p => step_sameRule hremove fun _ he => by cases he
        refine ⟨tableOk_step h.table hremove, (hrule _).1.trans h.radio,
          fun p hp => (hrule p).1 ▸ h.others p hp, fun hreg => ?_, fun hreg => ?_⟩
        · exact absurd hreg (remove_gone h.table hremove)
        · rw [hctx] at hreg
          cases hreg

/-- No frame is sent, and none is taken from a queue. -/
def PortEvent.Quiet : PortEvent → Prop
  | .send _ _ | .taskRound _ => False
  | _ => True

/-- A step of a station is a step of its router, or the module registers or removes its port. -/
theorem station_steps (h : StationOk cfg s) {e : StationEvent} (hs : s.step cfg e = some s') :
    (∃ e', e = .router e' ∧ s.table.step e' = some s'.table) ∨
      (∀ e', e ≠ .router e') ∧
        Reach (· = s.table) PortTable.step (fun _ e' => e'.Quiet) s'.table := by
  have hstart : Reach (· = s.table) PortTable.step (fun _ e' => e'.Quiet) s.table := .start rfl
  cases e with
  | router e =>
      obtain ⟨table, htable, rfl⟩ := step_router hs
      exact .inl ⟨e, rfl, htable⟩
  | digipeaterInit =>
      cases hs
      refine .inr ⟨(fun _ he => by cases he), ?_⟩
      obtain ⟨htable, -⟩ | ⟨-, -, -, table, hwrite, hregister, -⟩ := digipeaterInit_cases h.free
      · rw [htable]
        exact hstart
      · exact (hstart.next _ (by trivial) hwrite).next _ (by trivial) hregister
  | digipeaterDeinit self exits =>
      cases hs
      refine .inr ⟨(fun _ he => by cases he), ?_⟩
      obtain ⟨htable, -⟩ | ⟨hremove, -⟩ := digipeaterDeinit_cases cfg self exits s
      · rw [htable]
        exact hstart
      · exact hstart.next _ (by trivial) hremove

end Stations

end EspAx25
