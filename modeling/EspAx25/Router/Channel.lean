import EspAx25.Router.Digipeater
import EspAx25.Totals

/-!
# EspAx25.Router.Channel

Stations that share a radio channel, and repeat what they hear of each other.

Each station has a router of its own, whose default port is the radio, and the digipeater
module. A station hears a transmission at most once, late, or not at all. What its router
does with the frame is `ax25_router_send`; what a port task takes from the queue of the radio
or of the digipeater port is transmitted.

A digipeater that several stations stand for is repeated by each of them, so the number of
copies is a power of the number of these stations (`relayBound`). A transmission weighs what
can still become of it, a frame in a queue what its transmission will weigh, and no step
raises the sum but that an application sends a frame.

Main results:

* `relays_bounded`: how often the stations repeat, in any run, and what they transmit.
-/

namespace EspAx25

open Totals Transition

/-! ### The channel -/

/-- A transmission, and which stations have heard it. -/
structure Transmission (κ : Type) where
  frame : Frame
  heard : κ → Bool

/-- The stations, what has been transmitted, what applications have sent (or has come in from
outside of the channel), and how often a digipeater has transmitted. -/
structure Channel (κ : Type) where
  station : κ → Station
  air : List (Transmission κ)
  sent : List Frame
  relays : Nat

/-- A station hears a transmission, or something happens in a station. -/
inductive ChannelEvent (κ : Type)
  | hear (st : κ) (k : Nat)
  | station (st : κ) (e : StationEvent)

section Machine

variable {κ : Type} [DecidableEq κ]

/-- A station transmits, and does not hear itself. -/
def Channel.transmit (s : Channel κ) (st : κ) (frame : Frame) : Channel κ :=
  { s with air := s.air ++ [⟨frame, fun k => k = st⟩] }

/-- The callback of a port. The radio transmits, and so does the digipeater module. -/
def Channel.callback (cfg : StationConfig) (s : Channel κ) (st : κ) :
    Option (PortId × Frame) → Channel κ
  | none => s
  | some (p, frame) =>
    if p = cfg.digiPort then
      { s.transmit st (digipeaterPortOnFrame frame) with relays := s.relays + 1 }
    else if p = cfg.radio then s.transmit st frame
    else s

variable (cfg : κ → StationConfig)

def Channel.step (s : Channel κ) : ChannelEvent κ → Option (Channel κ)
  | .hear st k =>
    match s.air[k]? with
    | none => none
    | some tx =>
      if tx.heard st then none
      else
        ((s.station st).step (cfg st) (.router (.send tx.frame (cfg st).radio))).map fun station =>
          { s with
            station := Function.update s.station st station
            air := s.air.set k { tx with heard := Function.update tx.heard st true } }
  | .station st e =>
    ((s.station st).step (cfg st) e).map fun station =>
      let s' : Channel κ := { s with station := Function.update s.station st station }
      match e with
      | .router (.send frame _) => { s' with sent := s.sent ++ [frame] }
      | .router (.taskRound t) => s'.callback (cfg st) st ((s.station st).table.handsOver t)
      | _ => s'

/-- What is allowed in every station. -/
def ChannelEvent.Allowed : ChannelEvent κ → Prop
  | .hear _ _ => True
  | .station st e => e.Allowed (cfg st)

instance (e : ChannelEvent κ) : Decidable (e.Allowed cfg) := by
  cases e with
  | hear st k => exact inferInstanceAs (Decidable True)
  | station st e => exact inferInstanceAs (Decidable (e.Allowed (cfg st)))

def Channel.IsInit (s : Channel κ) : Prop :=
  (∀ st, (s.station st).IsInit (cfg st)) ∧ s.air = [] ∧ s.sent = [] ∧ s.relays = 0

end Machine

/-! ### What can become of a frame -/

/-- How often a frame is repeated at most, by `u` digipeaters with `m` stations each. -/
def relayBound (m : Nat) : Nat → Nat
  | 0 => 0
  | u + 1 => m * (1 + relayBound m u)

theorem relayBound_one (u : Nat) : relayBound 1 u = u := by
  induction u with
  | zero => rfl
  | succ u ih =>
      rw [relayBound, ih]
      omega

/-- What a frame may become that is about to be transmitted. -/
def Frame.relayWeight (m : Nat) (f : Frame) : Nat := relayBound m (unrepeated f)

theorem relayWeight_mark (m : Nat) {f : Frame} {i : Nat} {d : Address}
    (h : FirstUnrepeated f i d) :
    f.relayWeight m = m * (1 + (markNext f).relayWeight m) := by
  rw [Frame.relayWeight, ← unrepeated_mark h, relayBound, Frame.relayWeight]

/-- What the frames in the queue of a slot weigh. -/
def slotLoad (cfg : StationConfig) (m : Nat) : Option (PortId × List Frame) → Nat
  | none => 0
  | some (p, l) =>
    if p = cfg.digiPort then load (fun f => 1 + f.relayWeight m) l
    else if p = cfg.radio then load (Frame.relayWeight m) l
    else 0

/-- What the queues of a router weigh. -/
def PortTable.weight (cfg : StationConfig) (m : Nat) (s : PortTable) : Nat :=
  ∑ i ∈ Finset.range s.router.slots.length, slotLoad cfg m (s.active i)

/-! ### What a router does with the weight -/

section Tables

variable {s s' : PortTable} {cfg : StationConfig} {m : Nat}

/-- The slots are as many as before. -/
theorem step_length {e : PortEvent} (hs : s.step e = some s') :
    s'.router.slots.length = s.router.slots.length := by
  cases e with
  | register p =>
      rcases register_cases hs with rfl | ⟨-, r, i, ctx, hrep, -, -, -, rfl⟩
      · rfl
      · dsimp only
        rw [hrep.slots, List.length_set]
  | remove p self exits =>
      unfold PortTable.step removePort at hs
      dsimp only at hs
      cases hi : findPortSlot s.router p with
      | none =>
          rw [hi] at hs
          cases hs
          rfl
      | some i =>
          rw [hi] at hs
          cases hs
          obtain ⟨ctx, hctx, -⟩ := findPortSlot_spec hi
          obtain ⟨new, hslots, -⟩ := portCtxTeardown_spec hctx self exits
          dsimp only
          rw [hslots, List.length_set]
  | send f source =>
      cases hs
      dsimp only
      rw [(routerSend_frame s.router f source).1]
  | taskRound t =>
      unfold PortTable.step at hs
      dsimp only at hs
      split at hs
      · cases hs
      · obtain ⟨r', hr, rfl⟩ := Option.map_eq_some_iff.mp hs
        dsimp only
        rw [(portTaskRound_frame hr).1]
  | taskExit t =>
      unfold PortTable.step at hs
      dsimp only at hs
      split at hs
      · cases hs
      · split_ifs at hs
        cases hs
        exact List.length_set ..
  | taskFail t =>
      unfold PortTable.step at hs
      dsimp only at hs
      split at hs
      · cases hs
      · cases hs
        exact List.length_set ..
  | write p port =>
      unfold PortTable.step at hs
      dsimp only at hs
      split_ifs at hs
      cases hs
      rfl

theorem slotLoad_nil (p : PortId) : slotLoad cfg m (some (p, [])) = 0 := by
  unfold slotLoad
  dsimp only
  split_ifs <;> rfl

theorem slotLoad_cons (p : PortId) (f : Frame) (l : List Frame) :
    slotLoad cfg m (some (p, f :: l)) =
      slotLoad cfg m (some (p, [f])) + slotLoad cfg m (some (p, l)) := by
  unfold slotLoad
  dsimp only
  split_ifs <;> simp

theorem slotLoad_append (p : PortId) (f : Frame) (l : List Frame) :
    slotLoad cfg m (some (p, l ++ [f])) =
      slotLoad cfg m (some (p, l)) + slotLoad cfg m (some (p, [f])) := by
  unfold slotLoad
  dsimp only
  split_ifs <;> simp

/-- A step that sends nothing raises the weight of no slot. -/
theorem slotLoad_le (h : TableOk s) {e : PortEvent} (hs : s.step e = some s')
    (hsend : ∀ f source, e ≠ .send f source) (i : Nat) :
    slotLoad cfg m (s'.active i) ≤ slotLoad cfg m (s.active i) := by
  cases hi : s'.active i with
  | none => exact Nat.zero_le _
  | some a =>
      obtain ⟨p, l'⟩ := a
      rcases active_step h hs hi with ⟨-, rfl⟩ | ⟨l, hl, hqueue⟩
      · rw [slotLoad_nil]
        exact Nat.zero_le _
      · rw [hl]
        cases hqueue with
        | kept => exact Nat.le_refl _
        | queued f copy source he => exact absurd he (hsend f source)
        | taken t f l' he hlive heq =>
            rw [heq, slotLoad_cons]
            exact Nat.le_add_left _ _

theorem weight_le (h : TableOk s) {e : PortEvent} (hs : s.step e = some s')
    (hsend : ∀ f source, e ≠ .send f source) : s'.weight cfg m ≤ s.weight cfg m := by
  rw [PortTable.weight, PortTable.weight, step_length hs]
  exact Finset.sum_le_sum fun i _ => slotLoad_le h hs hsend i

/-- A round takes the weight of the frame that it hands over. -/
theorem weight_round (h : TableOk s) {t : TaskId} (hs : s.step (.taskRound t) = some s')
    {p : PortId} {f : Frame} (hf : s.handsOver t = some (p, f)) :
    s'.weight cfg m + slotLoad cfg m (some (p, [f])) ≤ s.weight cfg m := by
  obtain ⟨i, hlive, hf⟩ := Option.bind_eq_some_iff.mp hf
  obtain ⟨⟨p', l⟩, hactive, hf⟩ := Option.bind_eq_some_iff.mp hf
  obtain ⟨f', hhead, heq⟩ := Option.map_eq_some_iff.mp hf
  obtain rfl : p = p' := (congrArg Prod.fst heq).symm
  obtain rfl : f = f' := (congrArg Prod.snd heq).symm
  obtain ⟨rest, rfl⟩ : ∃ rest, l = f :: rest := by
    cases l with
    | nil => cases hhead
    | cons f' rest =>
        cases hhead
        exact ⟨rest, rfl⟩
  have hi : i ∈ Finset.range s.router.slots.length := Finset.mem_range.mpr (h.live hlive).2
  -- the slot of the task
  have hslot : slotLoad cfg m (s'.active i) + slotLoad cfg m (some (p, [f])) ≤
      slotLoad cfg m (s.active i) := by
    rw [hactive, slotLoad_cons p f rest]
    cases hi' : s'.active i with
    | none =>
        rw [slotLoad]
        omega
    | some a =>
        obtain ⟨p', l'⟩ := a
        rcases active_step h hs hi' with ⟨he, -⟩ | ⟨l, hl, hqueue⟩
        · cases he
        · cases hactive.symm.trans hl
          cases hqueue with
          | kept hkept => exact absurd hlive (hkept t rfl)
          | queued f copy source he => cases he
          | taken t' f' l' he hlive' heq =>
              cases heq
              omega
  have hrest : ∑ j ∈ (Finset.range s.router.slots.length).erase i, slotLoad cfg m (s'.active j) ≤
      ∑ j ∈ (Finset.range s.router.slots.length).erase i, slotLoad cfg m (s.active j) :=
    Finset.sum_le_sum fun j _ => slotLoad_le h hs (fun _ _ he => by cases he) j
  rw [PortTable.weight, PortTable.weight, step_length hs, ← Finset.add_sum_erase _ _ hi,
    ← Finset.add_sum_erase _ (fun j => slotLoad cfg m (s.active j)) hi]
  omega

/-- What a frame that is sent adds to a slot. -/
theorem slotLoad_send (h : TableOk s) {f : Frame} {source : PortId}
    (hs : s.step (.send f source) = some s') {i : Nat}
    (hlt : slotLoad cfg m (s.active i) < slotLoad cfg m (s'.active i)) :
    ∃ p l copy, s'.active i = some (p, l) ∧ (p = cfg.digiPort ∨ p = cfg.radio) ∧
      Receives (bindSource s.router f source) f source p ∧
      IsCopy f ((bindSource s.router f source).ports p) copy ∧
      slotLoad cfg m (s'.active i) = slotLoad cfg m (s.active i) + slotLoad cfg m (some (p, [copy])) := by
  cases hi : s'.active i with
  | none =>
      rw [hi] at hlt
      exact absurd hlt (Nat.not_lt_zero _)
  | some a =>
      obtain ⟨p, l'⟩ := a
      rw [hi] at hlt
      rcases active_step h hs hi with ⟨he, -⟩ | ⟨l, hl, hqueue⟩
      · cases he
      · rw [hl] at hlt ⊢
        cases hqueue with
        | kept => exact absurd hlt (Nat.lt_irrefl _)
        | queued f' copy source' he hrec hcopy =>
            cases he
            refine ⟨_, _, copy, rfl, ?_, hrec, hcopy, slotLoad_append _ copy l⟩
            by_contra hne
            obtain ⟨hdigi, hradio⟩ := not_or.mp hne
            simp only [slotLoad, if_neg hdigi, if_neg hradio] at hlt
            exact absurd hlt (Nat.lt_irrefl _)
        | taken t f' l' he => cases he

/-- A frame that is sent adds no more than the copy of one port weighs. -/
theorem weight_send (h : TableOk s) {f : Frame} {source : PortId}
    (hs : s.step (.send f source) = some s') {bound : Nat}
    (hle : ∀ p copy, (p = cfg.digiPort ∨ p = cfg.radio) →
      Receives (bindSource s.router f source) f source p →
      IsCopy f ((bindSource s.router f source).ports p) copy →
        slotLoad cfg m (some (p, [copy])) ≤ bound)
    (hone : ¬ (Receives (bindSource s.router f source) f source cfg.digiPort ∧
      Receives (bindSource s.router f source) f source cfg.radio)) :
    s'.weight cfg m ≤ s.weight cfg m + bound := by
  have hok := tableOk_step h hs
  let gain := fun i => slotLoad cfg m (s'.active i) - slotLoad cfg m (s.active i)
  have hgain : ∑ i ∈ Finset.range s.router.slots.length, gain i ≤ bound := by
    refine sum_le_of_once (fun i _ => ?_) fun i _ j _ hi hj => ?_
    · by_cases hlt : slotLoad cfg m (s.active i) < slotLoad cfg m (s'.active i)
      · obtain ⟨p, l, copy, -, hp, hrec, hcopy, heq⟩ := slotLoad_send h hs hlt
        have hbound := hle p copy hp hrec hcopy
        dsimp only [gain]
        omega
      · dsimp only [gain]
        omega
    · obtain ⟨p, l, -, hl, hp, hrec, -⟩ := slotLoad_send h hs (Nat.lt_of_sub_ne_zero hi)
      obtain ⟨p', l', -, hl', hp', hrec', -⟩ := slotLoad_send h hs (Nat.lt_of_sub_ne_zero hj)
      have hsame : p = p' := by
        rcases hp with rfl | rfl <;> rcases hp' with rfl | rfl
        · rfl
        · exact absurd ⟨hrec, hrec'⟩ hone
        · exact absurd ⟨hrec', hrec⟩ hone
        · rfl
      subst hsame
      exact active_unique hok hl hl'
  have hsum : s'.weight cfg m ≤
      ∑ i ∈ Finset.range s.router.slots.length, (slotLoad cfg m (s.active i) + gain i) := by
    rw [PortTable.weight, step_length hs]
    exact Finset.sum_le_sum fun i _ => by
      dsimp only [gain]
      omega
  rw [Finset.sum_add_distrib] at hsum
  exact Nat.le_trans hsum (Nat.add_le_add_left hgain _)

end Tables

/-! ### What a station does with it -/

section Stations

variable {cfg : StationConfig} {m : Nat} {s : Station} {table : PortTable} {f : Frame}

/-- A digipeater port that is to receive a frame stands for the next digipeater. -/
theorem StationOk.serves (h : StationOk cfg s) {source : PortId}
    (hrec : Receives (bindSource s.table.router f source) f source cfg.digiPort) {copy : Frame}
    (hcopy : IsCopy f ((bindSource s.table.router f source).ports cfg.digiPort) copy) :
    ∃ i d, FirstUnrepeated f i d ∧ cfg.Serves d ∧ copy = markNext f ∧
      AddressedTo f ((bindSource s.table.router f source).ports cfg.digiPort) := by
  obtain ⟨⟨ctx, hctx, hp⟩, hne, hrule⟩ := hrec
  rw [bindSource_slots] at hctx
  obtain ⟨-, hmode, hcall, hread, hdest⟩ := h.digiPort ⟨ctx, hctx, hp⟩
  have hports : (bindSource s.table.router f source).ports cfg.digiPort =
      s.table.router.ports cfg.digiPort := by
    rw [bindSource_ports, if_neg fun h => hne h.1]
  rw [hports] at hrule hcopy ⊢
  rw [IsCopy, if_pos hmode] at hcopy
  obtain ⟨i, d, hd, hcopy⟩ := hcopy
  have haddr : AddressedTo f (s.table.router.ports cfg.digiPort) := by
    rcases hrule with hprom | haddr | ⟨hdef, -⟩
    · rw [hmode] at hprom
      cases hprom
    · exact haddr
    · rw [hmode] at hdef
      cases hdef
  refine ⟨i, d, hd, ⟨hcall, hread, ?_⟩, by rw [hcopy, markNext_of_first hd], haddr⟩
  have hnext := haddr
  rw [AddressedTo, hmode] at hnext
  obtain ⟨i', d', hd', heq⟩ := hnext
  obtain rfl : i' = i := Option.some.inj
    ((nextDigipeaterIndex_eq_some.mpr ⟨d', hd'⟩).symm.trans (nextDigipeaterIndex_eq_some.mpr ⟨d, hd⟩))
  obtain rfl : d' = d := Option.some.inj (hd'.1.symm.trans hd.1)
  rw [addressEquals_iff] at hdest heq ⊢
  exact ⟨hdest.1.trans heq.1, hdest.2.trans heq.2⟩

/-- What a station that hears a frame may make of it. -/
def heardWeight (cfg : StationConfig) (m : Nat) (f : Frame) : Nat :=
  match nextDigipeater f with
  | none => 0
  | some d => if cfg.Serves d then 1 + (markNext f).relayWeight m else 0

theorem heardWeight_of_first {i : Nat} {d : Address} (h : FirstUnrepeated f i d) :
    heardWeight cfg m f = if cfg.Serves d then 1 + (markNext f).relayWeight m else 0 := by
  rw [heardWeight, nextDigipeater_eq_some.mpr ⟨i, h⟩]

/-- A station hears a frame. -/
theorem weight_hear (h : StationOk cfg s) (hs : s.table.step (.send f cfg.radio) = some table) :
    table.weight cfg m ≤ s.table.weight cfg m + heardWeight cfg m f := by
  refine weight_send h.table hs (fun p copy hp hrec hcopy => ?_) fun hboth => ?_
  · rcases hp with rfl | rfl
    · obtain ⟨i, d, hd, hserves, rfl, -⟩ := h.serves hrec hcopy
      rw [heardWeight_of_first hd, if_pos hserves, slotLoad, if_pos rfl]
      simp
    · exact absurd rfl hrec.2.1
  · exact hboth.2.2.1 rfl

/-- An application sends a frame. -/
theorem weight_sent (h : StationOk cfg s) (hpos : ∀ d, cfg.Serves d → 0 < m) {source : PortId}
    (hs : s.table.step (.send f source) = some table) :
    table.weight cfg m ≤ s.table.weight cfg m + f.relayWeight m := by
  have hradio : ∀ {q}, Receives (bindSource s.table.router f source) f source cfg.radio →
      s.table.router.Registered q → q ≠ source →
        ¬ AddressedTo f ((bindSource s.table.router f source).ports q) := by
    rintro q ⟨-, hne, hrule⟩ ⟨ctx, hctx, hp⟩ hq
    have hports : (bindSource s.table.router f source).ports cfg.radio =
        s.table.router.ports cfg.radio := by
      rw [bindSource_ports, if_neg fun h => hne h.1]
    rw [hports, AddressedTo, h.radio] at hrule
    rcases hrule with hprom | haddr | ⟨-, hrest⟩
    · cases hprom
    · exact haddr.elim
    · exact hrest q ⟨ctx, bindSource_slots s.table.router f source ▸ hctx, hp⟩ hq
  refine weight_send h.table hs (fun p copy hp hrec hcopy => ?_) fun hboth => ?_
  · rcases hp with rfl | rfl
    · obtain ⟨i, d, hd, hserves, rfl, -⟩ := h.serves hrec hcopy
      rw [relayWeight_mark m hd, slotLoad, if_pos rfl, load_cons, load_nil, Nat.add_zero]
      exact Nat.le_mul_of_pos_left _ (hpos d hserves)
    · have hmode : ((bindSource s.table.router f source).ports cfg.radio).mode = .default := by
        rw [bindSource_ports, if_neg fun h => hrec.2.1 h.1]
        exact h.radio
      rw [IsCopy, hmode, if_neg (by decide)] at hcopy
      rw [hcopy, slotLoad, if_neg cfg.apart, if_pos rfl]
      simp
  · obtain ⟨⟨⟨ctx, hctx, hp⟩, hne, hrule⟩, hdefault⟩ := hboth
    rw [bindSource_slots] at hctx
    have hmode := (h.digiPort ⟨ctx, hctx, hp⟩).2.1
    refine hradio hdefault ⟨ctx, hctx, hp⟩ hne ?_
    have hports : (bindSource s.table.router f source).ports cfg.digiPort =
        s.table.router.ports cfg.digiPort := by
      rw [bindSource_ports, if_neg fun h => hne h.1]
    rcases hrule with hprom | haddr | ⟨hdef, -⟩
    · rw [hports, hmode] at hprom
      cases hprom
    · exact haddr
    · rw [hports, hmode] at hdef
      cases hdef

/-- The module registers or removes its port. -/
theorem weight_quiet (h : TableOk s.table)
    (hs : Reach (· = s.table) PortTable.step (fun _ e => e.Quiet) table) :
    TableOk table ∧ table.weight cfg m ≤ s.table.weight cfg m := by
  refine hs.invariant (I := fun t => TableOk t ∧ t.weight cfg m ≤ s.table.weight cfg m)
    (fun t ht => ?_) fun t e t' ht hquiet hstep => ⟨tableOk_step ht.1 hstep, ?_⟩
  · rw [ht]
    exact ⟨h, Nat.le_refl _⟩
  · refine Nat.le_trans (weight_le ht.1 hstep ?_) ht.2
    rintro f source rfl
    exact hquiet

end Stations

/-! ### Where frames come from -/

/-- The frame is one of those that were sent, with some of its digipeaters marked. -/
def Descends (sent : List Frame) (g : Frame) : Prop := ∃ f ∈ sent, ∃ n, g = markNext^[n] f

theorem Descends.mark {sent : List Frame} {g : Frame} (h : Descends sent g) :
    Descends sent (markNext g) := by
  obtain ⟨f, hf, n, rfl⟩ := h
  exact ⟨f, hf, n + 1, (Function.iterate_succ_apply' markNext n f).symm⟩

theorem Descends.append {sent : List Frame} {g : Frame} (h : Descends sent g) (f : Frame) :
    Descends (sent ++ [f]) g := by
  obtain ⟨f', hf', hn⟩ := h
  exact ⟨f', List.mem_append_left _ hf', hn⟩

/-- The frames in the queues of a router. -/
def PortTable.Queued (s : PortTable) (g : Frame) : Prop :=
  ∃ i p l, s.active i = some (p, l) ∧ g ∈ l

/-- A frame in a queue was there before, or is what has been sent. -/
theorem queued_step {s s' : PortTable} (h : TableOk s) {e : PortEvent} (hs : s.step e = some s')
    {g : Frame} (hg : s'.Queued g) :
    s.Queued g ∨ ∃ f source, e = .send f source ∧ (g = f ∨ g = markNext f) := by
  obtain ⟨i, p, l', hi, hmem⟩ := hg
  rcases active_step h hs hi with ⟨-, rfl⟩ | ⟨l, hl, hqueue⟩
  · cases hmem
  cases hqueue with
  | kept => exact .inl ⟨i, p, l', hl, hmem⟩
  | queued f copy source he hrec hcopy =>
      rcases List.mem_append.mp hmem with hmem | hmem
      · exact .inl ⟨i, p, l, hl, hmem⟩
      · rw [List.mem_singleton.mp hmem]
        refine .inr ⟨f, source, he, ?_⟩
        rw [IsCopy] at hcopy
        split_ifs at hcopy
        · obtain ⟨j, d, hd, rfl⟩ := hcopy
          exact .inr (markNext_of_first hd).symm
        · exact .inl hcopy
  | taken t f l' he hlive heq =>
      rw [heq] at hl
      exact .inl ⟨i, p, _, hl, List.mem_cons_of_mem f hmem⟩

theorem queued_quiet {s s' : PortTable} (h : TableOk s)
    (hs : Reach (· = s) PortTable.step (fun _ e => e.Quiet) s') {g : Frame} (hg : s'.Queued g) :
    s.Queued g := by
  have hboth := hs.invariant (I := fun t => TableOk t ∧ ∀ g, t.Queued g → s.Queued g)
    (fun t ht => by
      rw [ht]
      exact ⟨h, fun _ => id⟩) fun t e t' ht hquiet hstep => ⟨tableOk_step ht.1 hstep, fun g hg => ?_⟩
  · exact hboth.2 g hg
  · rcases queued_step ht.1 hstep hg with hold | ⟨f, source, rfl, -⟩
    · exact ht.2 g hold
    · exact hquiet.elim

theorem handsOver_queued {s : PortTable} {t : TaskId} {p : PortId} {f : Frame}
    (hf : s.handsOver t = some (p, f)) : s.Queued f := by
  obtain ⟨i, -, hf⟩ := Option.bind_eq_some_iff.mp hf
  obtain ⟨⟨p', l⟩, hactive, hf⟩ := Option.bind_eq_some_iff.mp hf
  obtain ⟨f', hhead, heq⟩ := Option.map_eq_some_iff.mp hf
  obtain rfl : f = f' := (congrArg Prod.snd heq).symm
  exact ⟨i, p', l, hactive, List.mem_of_mem_head? hhead⟩

/-! ### The whole channel -/

section Channels

variable {κ : Type} [Fintype κ] {cfg : κ → StationConfig} {m : Nat} {s s' : Channel κ}

/-- What the stations that have not heard a transmission may make of it. -/
def Transmission.weight (cfg : κ → StationConfig) (m : Nat) (tx : Transmission κ) : Nat :=
  total (fun st (heard : Bool) => if heard then 0 else heardWeight (cfg st) m tx.frame) tx.heard

def Channel.weight (cfg : κ → StationConfig) (m : Nat) (s : Channel κ) : Nat :=
  load (Transmission.weight cfg m) s.air +
    total (fun st (station : Station) => station.table.weight (cfg st) m) s.station

/-- No more than `m` stations stand for one digipeater. -/
def AtMost (cfg : κ → StationConfig) (m : Nat) : Prop :=
  ∀ d, (Finset.univ.filter fun st => (cfg st).Serves d).card ≤ m

theorem transmission_weight_le (hm : AtMost cfg m) (tx : Transmission κ) :
    tx.weight cfg m ≤ tx.frame.relayWeight m := by
  cases hnext : nextDigipeater tx.frame with
  | none =>
      have hzero : tx.weight cfg m = 0 := by
        refine Finset.sum_eq_zero fun st _ => ?_
        dsimp only
        rw [heardWeight, hnext]
        exact ite_self _
      rw [hzero]
      exact Nat.zero_le _
  | some d =>
      obtain ⟨i, hd⟩ := nextDigipeater_eq_some.mp hnext
      rw [relayWeight_mark m hd]
      calc tx.weight cfg m
          ≤ ∑ st, if (cfg st).Serves d then 1 + (markNext tx.frame).relayWeight m else 0 := by
            refine Finset.sum_le_sum fun st _ => ?_
            dsimp only
            rw [heardWeight_of_first hd]
            split_ifs
            · exact Nat.zero_le _
            · exact Nat.zero_le _
            · exact Nat.le_refl _
            · exact Nat.le_refl _
        _ = (Finset.univ.filter fun st => (cfg st).Serves d).card *
              (1 + (markNext tx.frame).relayWeight m) := by
            rw [← Finset.sum_filter]
            exact Finset.sum_const_nat fun _ _ => rfl
        _ ≤ m * (1 + (markNext tx.frame).relayWeight m) := Nat.mul_le_mul_right _ (hm d)

/-- What holds of the channel in every state of every run. -/
structure ChannelOk (cfg : κ → StationConfig) (m : Nat) (s : Channel κ) : Prop where
  station : ∀ st, StationOk (cfg st) (s.station st)
  balance : s.relays + s.weight cfg m ≤ load (Frame.relayWeight m) s.sent
  air : ∀ tx ∈ s.air, Descends s.sent tx.frame
  queued : ∀ st g, (s.station st).table.Queued g → Descends s.sent g

theorem channelOk_init (h : s.IsInit cfg) : ChannelOk cfg m s := by
  obtain ⟨hstation, hair, hsent, hrelays⟩ := h
  have hactive : ∀ st i, (s.station st).table.active i = none := by
    intro st i
    obtain ⟨maxPorts, queueDepth, ports, heq⟩ := (hstation st).1
    rw [heq, PortTable.active]
    cases hctx : (routerInit maxPorts queueDepth ports).slots[i]? with
    | none => rfl
    | some ctx =>
        cases List.eq_of_mem_replicate (List.mem_of_getElem? hctx)
        rfl
  refine ⟨fun st => stationOk_init (hstation st), ?_, fun tx htx => ?_, fun st g hg => ?_⟩
  · have hzero : s.weight cfg m = 0 := by
      rw [Channel.weight, hair, load_nil, Nat.zero_add]
      refine Finset.sum_eq_zero fun st _ => Finset.sum_eq_zero fun i _ => ?_
      rw [hactive]
      rfl
    rw [hzero, hrelays]
    exact Nat.zero_le _
  · rw [hair] at htx
    cases htx
  · obtain ⟨i, p, l, hi, -⟩ := hg
    rw [hactive] at hi
    cases hi

/-- A station whose weight has changed. -/
theorem weight_station [DecidableEq κ] (cfg : κ → StationConfig) (m : Nat) (s : Channel κ) (st : κ)
    (station : Station) (air : List (Transmission κ)) (sent : List Frame) (relays : Nat) :
    Channel.weight cfg m ⟨Function.update s.station st station, air, sent, relays⟩ +
        (load (Transmission.weight cfg m) s.air + (s.station st).table.weight (cfg st) m) =
      s.weight cfg m + (load (Transmission.weight cfg m) air + station.table.weight (cfg st) m) := by
  have htotal := total_update (fun st (station : Station) => station.table.weight (cfg st) m)
    s.station st station
  rw [Channel.weight, Channel.weight]
  dsimp only
  omega

/-- Every station but one is as it was. -/
theorem station_update [DecidableEq κ] (h : ChannelOk cfg m s) {st : κ} {station : Station}
    (hok : StationOk (cfg st) station) (k : κ) :
    StationOk (cfg k) (Function.update s.station st station k) := by
  by_cases hk : k = st
  · subst hk
    rw [Function.update_self]
    exact hok
  · rw [Function.update_of_ne hk]
    exact h.station k

/-- The frames in the queues of all stations but one are as they were. -/
theorem queued_update [DecidableEq κ] (h : ChannelOk cfg m s) {st : κ} {station : Station}
    {sent : List Frame} (hsent : ∀ g, Descends s.sent g → Descends sent g)
    (hst : ∀ g, station.table.Queued g → Descends sent g) (k : κ) (g : Frame)
    (hg : (Function.update s.station st station k).table.Queued g) : Descends sent g := by
  by_cases hk : k = st
  · subst hk
    rw [Function.update_self] at hg
    exact hst g hg
  · rw [Function.update_of_ne hk] at hg
    exact hsent g (h.queued k g hg)

/-- A station hears a transmission. -/
theorem channelOk_hear [DecidableEq κ] (h : ChannelOk cfg m s) {st : κ} {k : Nat}
    (hs : s.step cfg (.hear st k) = some s') : ChannelOk cfg m s' := by
  dsimp only [Channel.step] at hs
  cases htx : s.air[k]? with
  | none =>
      rw [htx] at hs
      cases hs
  | some tx =>
      rw [htx] at hs
      dsimp only at hs
      split_ifs at hs with hheard
      obtain ⟨station, hstation, rfl⟩ := Option.map_eq_some_iff.mp hs
      obtain ⟨table, htable, rfl⟩ := step_router hstation
      have hmem := List.mem_of_getElem? htx
      have hdesc := h.air tx hmem
      have hallowed : StationEvent.Allowed (cfg st) (.router (.send tx.frame (cfg st).radio)) :=
        (cfg st).apart
      refine ⟨station_update h (stationOk_router (h.station st) hallowed htable), ?_,
        fun tx' htx' => ?_, queued_update h (fun _ => id) fun g hg => ?_⟩
      · have hair := load_set (Transmission.weight cfg m) htx
          { tx with heard := Function.update tx.heard st true }
        have hown : Transmission.weight cfg m { tx with heard := Function.update tx.heard st true } +
            heardWeight (cfg st) m tx.frame = tx.weight cfg m := by
          have htotal := total_update
            (fun st (heard : Bool) => if heard then 0 else heardWeight (cfg st) m tx.frame)
            tx.heard st true
          rw [if_neg hheard, if_pos rfl] at htotal
          exact htotal
        have hstationWeight := weight_hear (m := m) (h.station st) htable
        have hall := weight_station cfg m s st { s.station st with table }
          (s.air.set k { tx with heard := Function.update tx.heard st true }) s.sent s.relays
        have hbalance := h.balance
        dsimp only at hall ⊢
        omega
      · rcases List.mem_or_eq_of_mem_set htx' with hold | rfl
        · exact h.air tx' hold
        · exact hdesc
      · rcases queued_step (h.station st).table htable hg with hold | ⟨f, source, he, hcopy⟩
        · exact h.queued st g hold
        · cases he
          rcases hcopy with rfl | rfl
          · exact hdesc
          · exact hdesc.mark

/-- A station sends nothing. -/
theorem channelOk_kept [DecidableEq κ] (h : ChannelOk cfg m s) {st : κ} {station : Station}
    (hst : StationOk (cfg st) station)
    (hweight : station.table.weight (cfg st) m ≤ (s.station st).table.weight (cfg st) m)
    (hqueued : ∀ g, station.table.Queued g → (s.station st).table.Queued g) :
    ChannelOk cfg m { s with station := Function.update s.station st station } := by
  refine ⟨station_update h hst, ?_, h.air,
    queued_update h (fun _ => id) fun g hg => h.queued st g (hqueued g hg)⟩
  have hall := weight_station cfg m s st station s.air s.sent s.relays
  have hbalance := h.balance
  dsimp only at hall ⊢
  omega

/-- A task takes a frame from a queue, and the callback of the port may transmit it. -/
theorem channelOk_round [DecidableEq κ] (hm : AtMost cfg m) (h : ChannelOk cfg m s) {st : κ}
    {t : TaskId} {table : PortTable}
    (hst : StationOk (cfg st) { s.station st with table })
    (htable : (s.station st).table.step (.taskRound t) = some table) :
    ChannelOk cfg m (Channel.callback (cfg st)
      { s with station := Function.update s.station st { s.station st with table } } st
      ((s.station st).table.handsOver t)) := by
  have hqueued : ∀ g, table.Queued g → (s.station st).table.Queued g := by
    intro g hg
    rcases queued_step (h.station st).table htable hg with hold | ⟨f, source, he, -⟩
    · exact hold
    · cases he
  have hle : table.weight (cfg st) m ≤ (s.station st).table.weight (cfg st) m :=
    weight_le (h.station st).table htable fun _ _ he => by cases he
  have hkept := channelOk_kept h hst hle hqueued
  cases hf : (s.station st).table.handsOver t with
  | none => exact hkept
  | some a =>
      obtain ⟨p, f⟩ := a
      have hdesc := h.queued st f (handsOver_queued hf)
      have hround : _ ≤ (s.station st).table.weight (cfg st) m :=
        weight_round (h.station st).table htable hf
      have hfresh := transmission_weight_le hm (⟨f, fun k => k = st⟩ : Transmission κ)
      have hall := weight_station cfg m s st { s.station st with table }
        (s.air ++ [⟨f, fun k => k = st⟩]) s.sent
      have hbalance := h.balance
      have hair : ∀ tx ∈ s.air ++ [⟨f, fun k => k = st⟩], Descends s.sent tx.frame := by
        intro tx htx
        rcases List.mem_append.mp htx with htx | htx
        · exact h.air tx htx
        · rw [List.mem_singleton.mp htx]
          exact hdesc
      rw [load_append, load_cons, load_nil, Nat.add_zero] at hall
      rw [Channel.callback]
      split_ifs with hdigi hradio
      · refine ⟨hkept.station, ?_, hair, hkept.queued⟩
        have hall := hall (s.relays + 1)
        rw [slotLoad, if_pos hdigi, load_cons, load_nil] at hround
        dsimp only [Channel.transmit, digipeaterPortOnFrame] at hall hfresh ⊢
        omega
      · refine ⟨hkept.station, ?_, hair, hkept.queued⟩
        have hall := hall s.relays
        rw [slotLoad, if_neg hdigi, if_pos hradio, load_cons, load_nil] at hround
        dsimp only [Channel.transmit] at hall hfresh ⊢
        omega
      · exact hkept

/-- Something happens in a station. -/
theorem channelOk_station [DecidableEq κ] (hm : AtMost cfg m) (h : ChannelOk cfg m s) {st : κ}
    {e : StationEvent} (hok : ChannelEvent.Allowed cfg (.station st e))
    (hs : s.step cfg (.station st e) = some s') : ChannelOk cfg m s' := by
  obtain ⟨station, hstation, rfl⟩ := Option.map_eq_some_iff.mp hs
  have hst := stationOk_step (h.station st) hok hstation
  rcases station_steps (h.station st) hstation with ⟨e, rfl, htable⟩ | ⟨hnot, hquiet⟩
  · obtain ⟨table, -, rfl⟩ := step_router hstation
    have hkept : (∀ f source, e ≠ .send f source) → ChannelOk cfg m
        { s with station := Function.update s.station st { s.station st with table } } := by
      refine fun hsend => channelOk_kept h hst (weight_le (h.station st).table htable hsend)
        fun g hg => ?_
      rcases queued_step (h.station st).table htable hg with hold | ⟨f, source, he, -⟩
      · exact hold
      · exact absurd he (hsend f source)
    cases e with
    | send f source =>
        have hpos : ∀ d, (cfg st).Serves d → 0 < m := by
          intro d hd
          exact Nat.lt_of_lt_of_le (Finset.card_pos.mpr ⟨st, by simpa using hd⟩) (hm d)
        have hweight := weight_sent (h.station st) hpos htable
        have hall := weight_station cfg m s st { s.station st with table } s.air
          (s.sent ++ [f]) s.relays
        have hbalance := h.balance
        have hown : Descends (s.sent ++ [f]) f :=
          ⟨f, List.mem_append_right _ List.mem_cons_self, 0, rfl⟩
        refine ⟨station_update h hst, ?_, fun tx htx => (h.air tx htx).append f,
          queued_update h (fun g hg => hg.append f) fun g hg => ?_⟩
        · dsimp only at hall hweight ⊢
          rw [load_append, load_cons, load_nil]
          omega
        · rcases queued_step (h.station st).table htable hg with hold | ⟨f', source', he, hcopy⟩
          · exact (h.queued st g hold).append f
          · cases he
            rcases hcopy with rfl | rfl
            · exact hown
            · exact hown.mark
    | taskRound t => exact channelOk_round hm h hst htable
    | register | remove | taskExit | taskFail | write => exact hkept fun _ _ he => by cases he
  · have hweight : station.table.weight (cfg st) m ≤ (s.station st).table.weight (cfg st) m :=
      (weight_quiet (h.station st).table hquiet).2
    have hkept := channelOk_kept h hst hweight fun g hg =>
      queued_quiet (h.station st).table hquiet hg
    cases e with
    | router e => exact absurd rfl (hnot e)
    | digipeaterInit | digipeaterDeinit => exact hkept

/-- **Frames do not multiply on the channel.** However stations hear each other, register,
remove and reconfigure ports, and lose frames: if no more than `m` stations stand for one
digipeater, a frame with `u` digipeaters to go is repeated at most `relayBound m u` times, and
`u` times if every digipeater is one station; and what is transmitted is a frame that an
application has sent, with as many of its digipeaters marked as have repeated it. -/
theorem relays_bounded [DecidableEq κ] (hm : AtMost cfg m)
    (h : Reach (Channel.IsInit cfg) (Channel.step cfg) (fun _ => ChannelEvent.Allowed cfg) s) :
    s.relays ≤ (s.sent.map fun f => relayBound m (unrepeated f)).sum ∧
      (m = 1 → s.relays ≤ (s.sent.map unrepeated).sum) ∧
      ∀ tx ∈ s.air, ∃ f ∈ s.sent, ∃ n, tx.frame = markNext^[n] f := by
  have hok : ChannelOk cfg m s := by
    refine h.invariant (fun _ => channelOk_init) fun s e s' hi hok hs => ?_
    cases e with
    | hear st k => exact channelOk_hear hi hs
    | station st e => exact channelOk_station hm hi hok hs
  have hle : s.relays ≤ (s.sent.map fun f => relayBound m (unrepeated f)).sum :=
    Nat.le_trans (Nat.le_add_right _ _) hok.balance
  refine ⟨hle, fun hone => ?_, hok.air⟩
  subst hone
  simpa only [relayBound_one] using hle

end Channels

/-- Two stations, and the second one has a digipeater. -/
def sampleStations (st : Fin 2) : StationConfig where
  radio := 0
  digiPort := 1
  callsign := if st.val = 1 then [0x42] else []
  apart := by decide

/-- Before they are set up. -/
def sampleChannel : Channel (Fin 2) where
  station := fun _ =>
    ⟨⟨routerInit 4 8 fun p => if p = 0 then { mode := .default } else {}, fun _ => none⟩, {}⟩
  air := []
  sent := []
  relays := 0

/-- The first station sends a frame by way of the second one, which repeats it. -/
theorem relays_bounded_pair : ∃ s : Channel (Fin 2), s.relays = 1 ∧ s.air.length = 2 ∧
    s.relays ≤ (s.sent.map unrepeated).sum := by
  have hm : AtMost sampleStations 1 := by
    intro d
    refine Finset.card_le_one.mpr fun i hi j hj => ?_
    have hserves : ∀ st : Fin 2, (sampleStations st).Serves d → st = 1 := by
      intro st hst
      by_contra hne
      exact hst.1 (if_neg fun hv => hne (Fin.ext hv))
    rw [hserves i (Finset.mem_filter.mp hi).2, hserves j (Finset.mem_filter.mp hj).2]
  have hinit : Channel.IsInit sampleStations sampleChannel := by
    refine ⟨fun st => ⟨⟨4, 8, _, rfl⟩, rfl, rfl, fun p hp => ?_⟩, rfl, rfl, rfl⟩
    dsimp only [sampleChannel, routerInit]
    split_ifs <;> simp
  have hrun : (replay (Channel.step sampleStations) (fun _ => ChannelEvent.Allowed sampleStations)
      sampleChannel [.station 0 (.router (.register 0)), .station 1 (.router (.register 0)),
        .station 1 .digipeaterInit,
        .station 0 (.router (.send { frameInit with digipeaters := [{ callsign := [0x42] }] } 2)),
        .station 0 (.router (.taskRound 0)), .hear 1 0, .station 1 (.router (.taskRound 1))]).map
        (fun s => (s.relays, s.air.length)) = some (1, 2) := by decide +kernel
  obtain ⟨s, hs, hpair⟩ := Option.map_eq_some_iff.mp hrun
  obtain ⟨hrelays, hair⟩ := Prod.mk.injEq _ _ _ _ |>.mp hpair
  exact ⟨s, hrelays, hair, (relays_bounded hm (Reach.replay (.start hinit) hs)).2.1 rfl⟩

end EspAx25
