import Mathlib.Data.List.Nodup
import Mathlib.Data.List.Pairwise
import Mathlib.Data.List.Perm.Lattice
import EspAx25.Router.State

/-!
# EspAx25.Router.Route

Routing is exactly the documented rule of `ax25_router.h`.

The two passes of `ax25_router_send` are two instances of one pass, which offers
the frame to every slot whose port is selected (`offerPass`). What a pass changes
is determined by the offers it made (`applyOffers`), and the offers by the state
before the pass (`run_offerPass`): an offer touches one queue, and no two slots
share a queue. So all offers of a call are known in closed form
(`routerSend_offers`), and everything else is read off them.
-/

namespace EspAx25

open Transducer

/-! ### The documented rule -/

/-- `d` is the first un-repeated digipeater of the frame, at place `i`. -/
def FirstUnrepeated (f : Frame) (i : Nat) (d : Address) : Prop :=
  f.digipeaters[i]? = some d ∧ d.hasBeenRepeated = false ∧
    ∀ j < i, ∀ e, f.digipeaters[j]? = some e → e.hasBeenRepeated = true

/-- A static, bound dynamic or digipeater port whose condition the frame satisfies. -/
def AddressedTo (f : Frame) (port : Port) : Prop :=
  match port.mode with
  | .static =>
    (∀ d ∈ f.digipeaters, d.hasBeenRepeated = true) ∧ addressEquals port.destination f.destination
  | .dynamic =>
    port.destination.callsign ≠ [] ∧ (∀ d ∈ f.digipeaters, d.hasBeenRepeated = true) ∧
      addressEquals port.destination f.destination
  | .digipeater => ∃ i d, FirstUnrepeated f i d ∧ addressEquals port.destination d
  | .promiscuous | .default => False

/-- The port is registered. -/
def Router.Registered (r : Router) (p : PortId) : Prop := ∃ ctx ∈ r.slots, ctx.port = some p

/-- The port is to receive a frame that `s` sends. -/
def Receives (r : Router) (f : Frame) (s p : PortId) : Prop :=
  r.Registered p ∧ p ≠ s ∧
    ((r.ports p).mode = .promiscuous ∨ AddressedTo f (r.ports p) ∨
      ((r.ports p).mode = .default ∧ ∀ q, r.Registered q → q ≠ s → ¬ AddressedTo f (r.ports q)))

/-- The copy for a port: a digipeater port finds its own address marked as repeated. -/
def IsCopy (f : Frame) (port : Port) (copy : Frame) : Prop :=
  if port.mode = .digipeater then
    ∃ i d, FirstUnrepeated f i d ∧
      copy = { f with digipeaters := f.digipeaters.set i { d with hasBeenRepeated := true } }
  else copy = f

/-- The copy is in the port's queue or, if the queue was full, counted as dropped. -/
def Offered (r r' : Router) (p : PortId) (q : QueueId) (copy : Frame) : Prop :=
  ∃ frames, r.queues q = some frames ∧
    (frames.length < r.queueDepth ∧ r'.queues q = some (frames ++ [copy]) ∧
        r'.ports p = r.ports p ∨
      r.queueDepth ≤ frames.length ∧ r'.queues q = some frames ∧
        r'.ports p = { r.ports p with framesDropped := (r.ports p).framesDropped + 1 })

/-! ### The port table of a router at rest -/

/-- Two active slots have neither a port nor a queue in common. -/
def Slot.Apart (a b : Slot) : Prop :=
  ∀ p p', a.port = some p → b.port = some p' → p ≠ p' ∧ a.txQueue ≠ b.txQueue

/-- Active slots are apart, and each has a queue. -/
structure Router.Wf (r : Router) : Prop where
  apart : r.slots.Pairwise Slot.Apart
  live : ∀ ctx ∈ r.slots, ∀ p, ctx.port = some p →
    ∃ q frames, ctx.txQueue = some q ∧ r.queues q = some frames

theorem Slot.Apart.symm {a b : Slot} (h : a.Apart b) : b.Apart a := by
  intro p p' hp hp'
  obtain ⟨h₁, h₂⟩ := h p' p hp' hp
  exact ⟨h₁.symm, h₂.symm⟩

instance : Std.Symm Slot.Apart := ⟨fun _ _ => Slot.Apart.symm⟩

/-- The order of the slots does not matter. -/
theorem Router.Wf.perm {r : Router} (h : r.Wf) {slots : List Slot} (hp : slots.Perm r.slots) :
    Router.Wf { r with slots } where
  apart := (hp.pairwise_iff fun hab => Slot.Apart.symm hab).mpr h.apart
  live := fun ctx hctx => h.live ctx (hp.mem_iff.mp hctx)

/-! ### The first un-repeated digipeater -/

theorem nextDigipeaterIndex_eq_some {f : Frame} {i : Nat} :
    nextDigipeaterIndex f = some i ↔ ∃ d, FirstUnrepeated f i d := by
  unfold nextDigipeaterIndex FirstUnrepeated
  rw [List.findIdx?_eq_some_iff_getElem]
  constructor
  · intro hboth
    obtain ⟨hi, hd, hlt⟩ := hboth
    refine ⟨f.digipeaters[i], List.getElem?_eq_getElem hi, by simpa using hd, fun j hj e he => ?_⟩
    have hj' := hlt j hj
    rw [List.getElem?_eq_getElem (by omega), Option.some.injEq] at he
    rw [he] at hj'
    simpa using hj'
  · intro hsome
    obtain ⟨d, hd, hrep, hlt⟩ := hsome
    obtain ⟨hi, rfl⟩ := List.getElem?_eq_some_iff.mp hd
    refine ⟨hi, by simpa using hrep, fun j hj => ?_⟩
    simpa using hlt j hj _ (List.getElem?_eq_getElem (by omega))

theorem nextDigipeater_eq (f : Frame) :
    nextDigipeater f = (nextDigipeaterIndex f).bind (f.digipeaters[·]?) := by
  unfold nextDigipeater nextDigipeaterIndex
  induction f.digipeaters with
  | nil => rfl
  | cons d ds ih =>
      rw [List.find?_cons, List.findIdx?_cons]
      cases hd : d.hasBeenRepeated with
      | false => rfl
      | true =>
          rw [Bool.not_true, if_neg Bool.false_ne_true, ih, Option.bind_map]
          rfl

theorem nextDigipeater_eq_some {f : Frame} {d : Address} :
    nextDigipeater f = some d ↔ ∃ i, FirstUnrepeated f i d := by
  rw [nextDigipeater_eq, Option.bind_eq_some_iff]
  constructor
  · intro hsome
    obtain ⟨i, hi, hd⟩ := hsome
    obtain ⟨d', hd'⟩ := nextDigipeaterIndex_eq_some.mp hi
    obtain rfl : d' = d := Option.some.inj (hd'.1.symm.trans hd)
    exact ⟨i, hd'⟩
  · intro hsome
    obtain ⟨i, hi⟩ := hsome
    exact ⟨i, nextDigipeaterIndex_eq_some.mpr ⟨d, hi⟩, hi.1⟩

theorem nextDigipeater_isNone {f : Frame} :
    (nextDigipeater f).isNone = true ↔ ∀ d ∈ f.digipeaters, d.hasBeenRepeated = true := by
  unfold nextDigipeater
  simp

/-- The eligible ports are the promiscuous ones and those the frame is addressed to. -/
theorem portIsEligible_iff {f : Frame} {port : Port} :
    portIsEligible port f (nextDigipeater f) = true ↔
      port.mode = .promiscuous ∨ AddressedTo f port := by
  unfold portIsEligible AddressedTo
  cases hm : port.mode with
  | promiscuous | default => simp
  | static => simp only [reduceCtorEq, false_or, Bool.and_eq_true, nextDigipeater_isNone]
  | dynamic =>
      simp only [portDynamicIsBound, reduceCtorEq, false_or, ne_eq, Bool.not_eq_eq_eq_not, Bool.not_true,
        Bool.ite_eq_true_distrib, Bool.and_eq_true, nextDigipeater_isNone]
      by_cases hb : port.destination.callsign = [] <;> simp [hb]
  | digipeater =>
      simp only [reduceCtorEq, false_or]
      cases hn : nextDigipeater f with
      | none =>
          refine iff_of_false Bool.false_ne_true ?_
          intro hsome
          obtain ⟨i, d, hd, -⟩ := hsome
          rw [nextDigipeater_eq_some.mpr ⟨i, hd⟩] at hn
          cases hn
      | some d =>
          obtain ⟨i, hi⟩ := nextDigipeater_eq_some.mp hn
          refine ⟨fun he => ⟨i, d, hi, he⟩, ?_⟩
          intro hsome
          obtain ⟨j, e, hj, he⟩ := hsome
          rw [nextDigipeater_eq_some.mpr ⟨j, hj⟩, Option.some.injEq] at hn
          exact hn ▸ he

/-- An eligible port is a normal one exactly if the frame is addressed to it. -/
theorem normalPort_iff {f : Frame} {port : Port}
    (he : portIsEligible port f (nextDigipeater f) = true) :
    normalPort port = true ↔ AddressedTo f port := by
  rcases portIsEligible_iff.mp he with hp | ha
  · simp [normalPort, AddressedTo, hp]
  · refine iff_of_true ?_ ha
    unfold AddressedTo at ha
    cases hm : port.mode with
    | static | digipeater => simp [normalPort, hm]
    | dynamic =>
        rw [hm] at ha
        simp [normalPort, portDynamicIsBound, hm, ha.1]
    | promiscuous | default =>
        rw [hm] at ha
        exact ha.elim

theorem forwarded_isCopy {f : Frame} {port : Port}
    (he : port.mode = .digipeater → AddressedTo f port) :
    IsCopy f port (forwarded port.mode f (nextDigipeaterIndex f)) := by
  unfold IsCopy forwarded
  by_cases hm : port.mode = .digipeater
  · have ha := he hm
    unfold AddressedTo at ha
    rw [hm] at ha
    obtain ⟨i, d, hd, -⟩ := ha
    rw [if_pos hm, nextDigipeaterIndex_eq_some.mpr ⟨d, hd⟩, hm]
    refine ⟨i, d, hd, ?_⟩
    dsimp only
    rw [List.modify_eq_set, hd.1]
    rfl
  · rw [if_neg hm]
    cases hp : port.mode <;> first | rfl | exact absurd hp hm

/-! ### What offers change -/

/-- The copies that went into queue `q`. -/
def sentTo (q : QueueId) (offers : List Offer) : List Frame :=
  (offers.filter fun o => o.outcome = .queued && o.queue = some q).map Offer.frame

/-- How many offers to port `p` were dropped. -/
def droppedAt (p : PortId) (offers : List Offer) : Nat :=
  offers.countP fun o => o.outcome = .dropped && o.port = p

/-- A port that has dropped `n` more frames. -/
def Port.addDropped (port : Port) (n : Nat) : Port :=
  { port with framesDropped := port.framesDropped + UInt32.ofNat n }

/-- The router after some offers. -/
def applyOffers (r : Router) (offers : List Offer) : Router :=
  { r with
    ports := fun p => (r.ports p).addDropped (droppedAt p offers)
    queues := fun q => (r.queues q).map (· ++ sentTo q offers) }

@[simp] theorem Port.addDropped_zero (port : Port) : port.addDropped 0 = port := by
  simp [Port.addDropped]

theorem Port.addDropped_add (port : Port) (m n : Nat) :
    port.addDropped (m + n) = (port.addDropped m).addDropped n := by
  simp [Port.addDropped, UInt32.add_assoc]

@[simp] theorem applyOffers_nil (r : Router) : applyOffers r [] = r := by
  simp [applyOffers, sentTo, droppedAt]

theorem applyOffers_append (r : Router) (a b : List Offer) :
    applyOffers r (a ++ b) = applyOffers (applyOffers r a) b := by
  simp [applyOffers, sentTo, droppedAt, List.countP_append, Port.addDropped_add, Function.comp_def]

theorem sentTo_eq_nil {q : QueueId} {offers : List Offer} (h : ∀ o ∈ offers, o.queue ≠ some q) :
    sentTo q offers = [] := by
  unfold sentTo
  rw [List.map_eq_nil_iff, List.filter_eq_nil_iff]
  intro o ho
  simp [h o ho]

theorem droppedAt_eq_zero {p : PortId} {offers : List Offer} (h : ∀ o ∈ offers, o.port ≠ p) :
    droppedAt p offers = 0 := by
  unfold droppedAt
  rw [List.countP_eq_zero]
  intro o ho
  simp [h o ho]

/-- One offer of `enqueue_tx_frame`. -/
theorem enqueueTxFrame_eq (r : Router) (ctx : Slot) (p : PortId) (frame : Frame) :
    let offer : Offer :=
      { port := p, queue := ctx.txQueue, frame, outcome := r.sendOutcome ctx.txQueue }
    enqueueTxFrame r ctx p frame = (applyOffers r [offer], offer) := by
  unfold enqueueTxFrame applyOffers
  dsimp only
  cases ho : r.sendOutcome ctx.txQueue with
  | queued =>
      have hp : ∀ p', droppedAt p' [⟨p, ctx.txQueue, frame, .queued⟩] = 0 := by
        simp [droppedAt]
      simp only [hp, Port.addDropped_zero, Prod.mk.injEq, Router.mk.injEq, and_true, true_and]
      funext q
      by_cases hq : ctx.txQueue = some q <;> simp [sentTo, hq]
  | dropped =>
      have hq : ∀ q, sentTo q [⟨p, ctx.txQueue, frame, .dropped⟩] = [] := by
        simp [sentTo]
      simp only [Router.modifyPort, hq, List.append_nil, Option.map_id', Prod.mk.injEq,
        Router.mk.injEq, and_true, true_and]
      funext p'
      by_cases hp : p' = p
      · subst hp
        simp [droppedAt, Port.addDropped]
      · simp [droppedAt, hp, Ne.symm hp]
  | fault => simp [sentTo, droppedAt]

/-! ### One pass -/

/-- The offer that a slot gets in a pass over the ports that `sel` selects. -/
def offerAt (sel : Port → Bool) (frame : Frame) (source : PortId) (r : Router) (ctx : Slot) :
    Option Offer :=
  match ctx.port with
  | none => none
  | some p =>
    if p ≠ source ∧ sel (r.ports p) = true then
      some
        { port := p
          queue := ctx.txQueue
          frame := forwarded (r.ports p).mode frame (nextDigipeaterIndex frame)
          outcome := r.sendOutcome ctx.txQueue }
    else none

/-- A pass over the slots. -/
def offerPass (sel : Port → Bool) (frame : Frame) (source : PortId) (r : Router) (ctx : Slot) :
    Router × List Offer :=
  let offers := (offerAt sel frame source r ctx).toList
  (applyOffers r offers, offers)

section Pass

variable {sel : Port → Bool} {frame : Frame} {source : PortId}

theorem offerAt_eq_some {r : Router} {ctx : Slot} {o : Offer} :
    offerAt sel frame source r ctx = some o ↔
      ∃ p, ctx.port = some p ∧ p ≠ source ∧ sel (r.ports p) = true ∧
        o = { port := p, queue := ctx.txQueue
              frame := forwarded (r.ports p).mode frame (nextDigipeaterIndex frame)
              outcome := r.sendOutcome ctx.txQueue } := by
  unfold offerAt
  cases hp : ctx.port with
  | none => simp
  | some p =>
      simp only [Option.some.injEq, exists_eq_left']
      split_ifs with hs
      · simp [hs, eq_comm]
      · refine iff_of_false (by simp) ?_
        intro hboth
        obtain ⟨h₁, h₂, -⟩ := hboth
        exact hs ⟨h₁, h₂⟩

theorem run_offerPass_fst (r : Router) (l : List Slot) :
    (run (offerPass sel frame source) r l).1 =
      applyOffers r (run (offerPass sel frame source) r l).2 := by
  induction l generalizing r with
  | nil => simp
  | cons ctx l ih =>
      rw [run_cons, applyOffers_append]
      exact ih _

theorem sendOutcome_applyOffers {r : Router} {offers : List Offer} {queue : Option QueueId}
    (h : ∀ o ∈ offers, o.queue ≠ queue) :
    (applyOffers r offers).sendOutcome queue = r.sendOutcome queue := by
  cases queue with
  | none => rfl
  | some q =>
      have hnil : sentTo q offers = [] := sentTo_eq_nil h
      have hq : (applyOffers r offers).queues q = r.queues q := by simp [applyOffers, hnil]
      simp only [Router.sendOutcome, Option.bind_some, hq]
      rfl

/-- Offers to other queues do not change what a slot will be offered. -/
theorem offerAt_applyOffers (hsel : ∀ port n, sel (Port.addDropped port n) = sel port) {r : Router}
    {offers : List Offer} {ctx : Slot}
    (h : ∀ p, ctx.port = some p → sel (r.ports p) = true → ∀ o ∈ offers, o.queue ≠ ctx.txQueue) :
    offerAt sel frame source (applyOffers r offers) ctx = offerAt sel frame source r ctx := by
  unfold offerAt
  cases hp : ctx.port with
  | none => rfl
  | some p =>
      have hs : sel ((applyOffers r offers).ports p) = sel (r.ports p) := hsel _ _
      simp only [hs]
      split_ifs with hc
      · rw [sendOutcome_applyOffers (h p hp hc.2)]
        rfl
      · rfl

/-- **The offers of a pass** are determined by the state before it. -/
theorem run_offerPass (hsel : ∀ port n, sel (Port.addDropped port n) = sel port) {l : List Slot}
    (hl : l.Pairwise Slot.Apart) (r : Router) :
    (run (offerPass sel frame source) r l).2 = l.filterMap (offerAt sel frame source r) := by
  induction l generalizing r with
  | nil => rfl
  | cons ctx l ih =>
      rw [List.pairwise_cons] at hl
      rw [run_cons, ih hl.2]
      have hrest : l.filterMap (offerAt sel frame source
            (applyOffers r (offerAt sel frame source r ctx).toList)) =
          l.filterMap (offerAt sel frame source r) := by
        refine List.filterMap_congr fun ctx' hctx' => offerAt_applyOffers hsel fun p' hp' _ o ho => ?_
        obtain ⟨p, hp, -, -, rfl⟩ := offerAt_eq_some.mp (Option.mem_toList.mp ho)
        exact (hl.1 ctx' hctx' p p' hp hp').2
      simp only [offerPass, hrest]
      cases ho : offerAt sel frame source r ctx with
      | none => rw [List.filterMap_cons_none ho, Option.toList_none, List.nil_append]
      | some o => rw [List.filterMap_cons_some ho, Option.toList_some, List.singleton_append]

end Pass

/-! ### The two passes -/

/-- `port_is_eligible` in the first pass. -/
def eligible (frame : Frame) (port : Port) : Bool :=
  portIsEligible port frame (nextDigipeater frame)

/-- The test of the second pass. -/
def isDefault (port : Port) : Bool := port.mode = .default

/-- The slot makes the default port stand back. -/
def matchesNormal (frame : Frame) (source : PortId) (r : Router) (ctx : Slot) : Bool :=
  match ctx.port with
  | none => false
  | some p => p ≠ source && eligible frame (r.ports p) && normalPort (r.ports p)

theorem eligible_addDropped (frame : Frame) (port : Port) (n : Nat) :
    eligible frame (port.addDropped n) = eligible frame port := rfl

theorem isDefault_addDropped (port : Port) (n : Nat) :
    isDefault (port.addDropped n) = isDefault port := rfl

theorem firstPass_eq (frame : Frame) (source : PortId) (r : Router) (matched : Bool) (ctx : Slot) :
    firstPass frame source (r, matched) ctx =
      (((offerPass (eligible frame) frame source r ctx).1,
        matched || matchesNormal frame source r ctx),
        (offerPass (eligible frame) frame source r ctx).2) := by
  unfold firstPass offerPass offerAt matchesNormal eligible
  cases hp : ctx.port with
  | none => simp [hp]
  | some p =>
      by_cases hs : p = source
      · simp [hp, hs]
      · cases he : portIsEligible (r.ports p) frame (nextDigipeater frame) with
        | false => simp [hp, hs, he]
        | true => simp [hp, hs, he, enqueueTxFrameForPort, enqueueTxFrame_eq]

theorem secondPass_eq (frame : Frame) (source : PortId) :
    secondPass frame source = offerPass isDefault frame source := by
  funext r ctx
  unfold secondPass offerPass offerAt isDefault
  cases hp : ctx.port with
  | none => simp
  | some p =>
      by_cases hs : p = source
      · simp [hs]
      · by_cases hm : (r.ports p).mode = .default
        · simp [hs, hm, enqueueTxFrameForPort, enqueueTxFrame_eq]
        · simp [hs, hm]

/-- The first pass, with its flag taken apart. -/
theorem run_firstPass (frame : Frame) (source : PortId) (l : List Slot) (r : Router) (matched : Bool) :
    run (firstPass frame source) (r, matched) l =
      (((run (offerPass (eligible frame) frame source) r l).1,
        matched || l.any (matchesNormal frame source r)),
        (run (offerPass (eligible frame) frame source) r l).2) := by
  induction l generalizing r matched with
  | nil => simp
  | cons ctx l ih =>
      have hany : l.any (matchesNormal frame source
            (offerPass (eligible frame) frame source r ctx).1) =
          l.any (matchesNormal frame source r) := rfl
      rw [run_cons, run_cons, firstPass_eq, ih, hany, List.any_cons, Bool.or_assoc]

theorem routerSend_fst (r : Router) (f : Frame) (s : PortId) :
    (routerSend r f s).1 = applyOffers (bindSource r f s) (routerSend r f s).2 := by
  unfold routerSend
  dsimp only
  rw [run_firstPass]
  dsimp only
  split_ifs
  · exact run_offerPass_fst _ _
  · rw [secondPass_eq, applyOffers_append, ← run_offerPass_fst]
    exact run_offerPass_fst _ _

theorem bindSource_slots (r : Router) (f : Frame) (s : PortId) :
    (bindSource r f s).slots = r.slots := by
  unfold bindSource
  split_ifs <;> rfl

theorem bindSource_queues (r : Router) (f : Frame) (s : PortId) :
    (bindSource r f s).queues = r.queues := by
  unfold bindSource
  split_ifs <;> rfl

theorem bindSource_ports (r : Router) (f : Frame) (s p : PortId) :
    (bindSource r f s).ports p =
      if p = s ∧ (r.ports s).mode = .dynamic ∧ (r.ports s).destination.callsign = [] then
        { r.ports p with destination := f.source }
      else r.ports p := by
  unfold bindSource portDynamicIsBound
  by_cases hb : (r.ports s).mode = .dynamic ∧ (r.ports s).destination.callsign = []
  · by_cases hp : p = s
    · subst hp
      simp [hb, Router.modifyPort]
    · simp [hb, hp, Router.modifyPort]
  · have hb' : ¬ ((r.ports s).mode = .dynamic ∧ (!((r.ports s).destination.callsign != [])) = true) := by
      simpa using hb
    rw [if_neg hb', if_neg fun hc => hb hc.2]

/-- What a call leaves alone: the slots, the handles and, up to the binding and the
count of dropped frames, the ports. -/
theorem routerSend_frame (r : Router) (f : Frame) (s : PortId) :
    (routerSend r f s).1.slots = r.slots ∧ (routerSend r f s).1.nextId = r.nextId ∧
      (∀ q, ((routerSend r f s).1.queues q).isSome = (r.queues q).isSome) ∧
      ∀ p, ∃ n, (routerSend r f s).1.ports p = ((bindSource r f s).ports p).addDropped n := by
  rw [routerSend_fst]
  refine ⟨bindSource_slots r f s, ?_, fun q => ?_, fun p => ⟨_, rfl⟩⟩
  · unfold bindSource
    split_ifs <;> rfl
  · simp [applyOffers, bindSource_queues]

/-- The ports that one call offers the frame to, given `normal_port_matched`. -/
def chosen (frame : Frame) (matched : Bool) (port : Port) : Bool :=
  eligible frame port || (!matched && isDefault port)

/-- Two filters that never both choose are one. -/
theorem filterMap_append_perm {α β : Type*} {f g h : α → Option β} (l : List α)
    (hh : ∀ a, (f a = none ∧ h a = g a) ∨ (g a = none ∧ h a = f a)) :
    (l.filterMap f ++ l.filterMap g).Perm (l.filterMap h) := by
  induction l with
  | nil => exact .refl _
  | cons a l ih =>
      rcases hh a with ⟨hf, hg⟩ | ⟨hg, hf⟩
      · rw [List.filterMap_cons_none hf, List.filterMap_cons, List.filterMap_cons, hg]
        cases g a with
        | none => exact ih
        | some b => exact List.perm_middle.trans (ih.cons b)
      · rw [List.filterMap_cons_none hg, List.filterMap_cons, List.filterMap_cons, hf]
        cases f a with
        | none => exact ih
        | some b => exact ih.cons b

theorem not_eligible_of_isDefault {frame : Frame} {port : Port} (h : isDefault port = true) :
    eligible frame port = false := by
  have hm : port.mode = .default := by simpa [isDefault] using h
  simp [eligible, portIsEligible, hm]

theorem offerAt_chosen (f : Frame) (s : PortId) (r : Router) (ctx : Slot) :
    (offerAt (eligible f) f s r ctx = none ∧
        offerAt (chosen f false) f s r ctx = offerAt isDefault f s r ctx) ∨
      (offerAt isDefault f s r ctx = none ∧
        offerAt (chosen f false) f s r ctx = offerAt (eligible f) f s r ctx) := by
  unfold offerAt chosen
  cases hp : ctx.port with
  | none => exact .inl ⟨rfl, rfl⟩
  | some p =>
      cases hd : isDefault (r.ports p) with
      | true => simp [hd, not_eligible_of_isDefault hd]
      | false => simp [hd]

theorem Router.Wf.bindSource {r : Router} (h : r.Wf) (f : Frame) (s : PortId) :
    (bindSource r f s).Wf := by
  refine ⟨by rw [bindSource_slots]; exact h.apart, fun ctx hctx p hp => ?_⟩
  rw [bindSource_slots] at hctx
  rw [bindSource_queues]
  exact h.live ctx hctx p hp

/-- **All offers of a call**, up to the order of the two passes. -/
theorem routerSend_offers {r : Router} (h : r.Wf) (f : Frame) (s : PortId) :
    let r₁ := bindSource r f s
    (routerSend r f s).2.Perm
      (r₁.slots.filterMap
        (offerAt (chosen f (r₁.slots.any (matchesNormal f s r₁))) f s r₁)) := by
  have hwf := h.bindSource f s
  unfold routerSend
  dsimp only
  generalize bindSource r f s = r₁ at *
  rw [run_firstPass, run_offerPass (eligible_addDropped f) hwf.apart]
  simp only [Bool.false_or]
  cases hm : r₁.slots.any (matchesNormal f s r₁) with
  | true =>
      simp only [if_true]
      refine .of_eq (List.filterMap_congr fun ctx _ => ?_)
      unfold offerAt chosen
      simp
  | false =>
      simp only [Bool.false_eq_true, if_false]
      rw [run_offerPass_fst, run_offerPass (eligible_addDropped f) hwf.apart, secondPass_eq]
      have hsecond : ∀ ctx ∈ r₁.slots, offerAt isDefault f s
            (applyOffers r₁ (r₁.slots.filterMap (offerAt (eligible f) f s r₁))) ctx =
          offerAt isDefault f s r₁ ctx := by
        intro ctx hctx
        refine offerAt_applyOffers isDefault_addDropped fun p hp hd o ho hq => ?_
        obtain ⟨ctx', hctx', hoff⟩ := List.mem_filterMap.mp ho
        obtain ⟨p', hp', -, he, rfl⟩ := offerAt_eq_some.mp hoff
        -- a slot with the same queue is the same slot, and its port was not eligible
        obtain rfl : ctx' = ctx := by
          by_contra hne
          exact (hwf.apart.forall hctx' hctx hne p' p hp' hp).2 hq
        rw [Option.some.inj (hp.symm.trans hp')] at hd
        rw [not_eligible_of_isDefault hd] at he
        cases he
      have hslots : (applyOffers r₁ (r₁.slots.filterMap (offerAt (eligible f) f s r₁))).slots =
          r₁.slots := rfl
      rw [hslots, run_offerPass isDefault_addDropped hwf.apart, List.filterMap_congr hsecond]
      exact filterMap_append_perm r₁.slots (offerAt_chosen f s r₁)

/-! ### The rule -/

theorem any_matchesNormal {r : Router} {f : Frame} {s : PortId} :
    r.slots.any (matchesNormal f s r) = true ↔
      ∃ p, r.Registered p ∧ p ≠ s ∧ AddressedTo f (r.ports p) := by
  rw [List.any_eq_true]
  constructor
  · intro hsome
    obtain ⟨ctx, hctx, hm⟩ := hsome
    unfold matchesNormal at hm
    cases hp : ctx.port with
    | none => simp [hp] at hm
    | some p =>
        simp only [hp, Bool.and_eq_true, decide_eq_true_eq] at hm
        exact ⟨p, ⟨ctx, hctx, hp⟩, hm.1.1, (normalPort_iff hm.1.2).mp hm.2⟩
  · intro hsome
    obtain ⟨p, ⟨ctx, hctx, hp⟩, hs, ha⟩ := hsome
    have he : eligible f (r.ports p) = true := portIsEligible_iff.mpr (.inr ha)
    refine ⟨ctx, hctx, ?_⟩
    simp only [matchesNormal, hp, Bool.and_eq_true, decide_eq_true_eq]
    exact ⟨⟨hs, he⟩, (normalPort_iff he).mpr ha⟩

/-- The ports that are offered the frame are those that are to receive it. -/
theorem receives_iff {r : Router} {f : Frame} {s p : PortId} :
    Receives r f s p ↔
      r.Registered p ∧ p ≠ s ∧
        chosen f (r.slots.any (matchesNormal f s r)) (r.ports p) = true := by
  unfold Receives chosen
  have hnone : (!r.slots.any (matchesNormal f s r)) = true ↔
      ∀ q, r.Registered q → q ≠ s → ¬ AddressedTo f (r.ports q) := by
    rw [Bool.not_eq_true', ← Bool.not_eq_true, any_matchesNormal]
    push Not
    rfl
  rw [Bool.or_eq_true, Bool.and_eq_true, hnone, eligible, portIsEligible_iff, isDefault,
    decide_eq_true_eq, or_assoc, and_comm (a := (r.ports p).mode = .default)]

theorem offerAt_ne {sel : Port → Bool} {f : Frame} {s : PortId} {r : Router} {a b : Slot} {o o' : Offer}
    (h : a.Apart b) (ho : offerAt sel f s r a = some o) (ho' : offerAt sel f s r b = some o') :
    o.port ≠ o'.port ∧ o.queue ≠ o'.queue := by
  obtain ⟨p, hp, -, -, rfl⟩ := offerAt_eq_some.mp ho
  obtain ⟨p', hp', -, -, rfl⟩ := offerAt_eq_some.mp ho'
  exact h p p' hp hp'

/-- The only element with its key. -/
theorem filter_eq_singleton {α κ : Type*} [DecidableEq κ] {key : α → κ} {l : List α}
    (hl : (l.map key).Nodup) {a : α} (ha : a ∈ l) : l.filter (fun b => key b = key a) = [a] := by
  induction l with
  | nil => cases ha
  | cons b l ih =>
      rw [List.map_cons, List.nodup_cons] at hl
      rcases List.mem_cons.mp ha with rfl | ha
      · rw [List.filter_cons_of_pos (by simp), List.filter_eq_nil_iff.mpr]
        intro c hc hk
        exact hl.1 (List.mem_map.mpr ⟨c, hc, by simpa using hk⟩)
      · rw [List.filter_cons_of_neg, ih hl.2 ha]
        intro hk
        exact hl.1 (List.mem_map.mpr ⟨a, ha, (by simpa using hk : key b = key a).symm⟩)

/-- What one call of `ax25_router_send` does, offer by offer. -/
structure RouteSpec (r r₁ r' : Router) (f : Frame) (s : PortId) (offers : List Offer) : Prop where
  /-- An unbound dynamic source port is bound first. -/
  bound : ∀ p, r₁.ports p =
    if p = s ∧ (r.ports s).mode = .dynamic ∧ (r.ports s).destination.callsign = [] then
      { r.ports p with destination := f.source }
    else r.ports p
  /-- No port is offered the frame twice. -/
  once : (offers.map Offer.port).Nodup
  /-- The ports that are offered the frame are those that are to receive it. -/
  ports : ∀ p, p ∈ offers.map Offer.port ↔ Receives r₁ f s p
  /-- What is offered is the copy for that port. -/
  copies : ∀ o ∈ offers, IsCopy f (r₁.ports o.port) o.frame
  /-- The copy is queued or counted; a port that receives nothing keeps its queue and counters. -/
  effect : ∀ ctx ∈ r.slots, ∀ p, ctx.port = some p → ∃ q, ctx.txQueue = some q ∧
    (∀ o ∈ offers, o.port = p → Offered r₁ r' p q o.frame) ∧
    (¬ Receives r₁ f s p → r'.queues q = r.queues q ∧ r'.ports p = r₁.ports p)
  /-- A port that is not registered is not touched. -/
  others : ∀ p, ¬ r.Registered p → r'.ports p = r₁.ports p

theorem offered_of_mem {r : Router} {offers : List Offer} {o : Offer} (ho : o ∈ offers)
    (hports : (offers.map Offer.port).Nodup) (hqueues : (offers.map Offer.queue).Nodup)
    (hout : o.outcome = r.sendOutcome o.queue) {q : QueueId} (hq : o.queue = some q)
    {frames : List Frame} (hf : r.queues q = some frames) :
    Offered r (applyOffers r offers) o.port q o.frame := by
  have hqueue : offers.filter (fun b => b.queue = o.queue) = [o] := filter_eq_singleton hqueues ho
  have hport : offers.filter (fun b => b.port = o.port) = [o] := filter_eq_singleton hports ho
  have hsent : sentTo q offers = if o.outcome = .queued then [o.frame] else [] := by
    unfold sentTo
    rw [← hq, ← List.filter_filter, hqueue]
    split_ifs with h <;> simp [h]
  have hdrop : droppedAt o.port offers = if o.outcome = .dropped then 1 else 0 := by
    unfold droppedAt
    rw [List.countP_eq_length_filter, ← List.filter_filter, hport]
    split_ifs with h <;> simp [h]
  have hs : r.sendOutcome o.queue = if frames.length < r.queueDepth then .queued else .dropped := by
    simp [Router.sendOutcome, hq, hf]
  rw [hs] at hout
  refine ⟨frames, hf, ?_⟩
  split_ifs at hout with hlt
  · left
    rw [hout] at hsent hdrop
    simp [applyOffers, hf, hsent, hdrop, hlt]
  · right
    rw [hout] at hsent hdrop
    simp [applyOffers, hf, hsent, hdrop, Nat.le_of_not_lt hlt, Port.addDropped]

section Send

variable {r : Router}

theorem mem_routerSend (h : r.Wf) {f : Frame} {s : PortId} {o : Offer} :
    let r₁ := bindSource r f s
    o ∈ (routerSend r f s).2 ↔
      ∃ ctx ∈ r.slots,
        offerAt (chosen f (r₁.slots.any (matchesNormal f s r₁))) f s r₁ ctx = some o := by
  rw [← bindSource_slots r f s]
  exact (routerSend_offers h f s).mem_iff.trans List.mem_filterMap

/-- No two offers go to one port or into one queue. -/
theorem routerSend_nodup (h : r.Wf) (f : Frame) (s : PortId) :
    ((routerSend r f s).2.map Offer.port).Nodup ∧ ((routerSend r f s).2.map Offer.queue).Nodup := by
  have hwf := h.bindSource f s
  have hperm := routerSend_offers h f s
  have hpw := hwf.apart.filterMap
    (offerAt (chosen f ((bindSource r f s).slots.any (matchesNormal f s (bindSource r f s)))) f s
      (bindSource r f s))
    fun a b hab o ho o' ho' => offerAt_ne hab ho ho'
  constructor
  · rw [(hperm.map Offer.port).nodup_iff]
    exact List.pairwise_map.mpr (hpw.imp fun hne => hne.1)
  · rw [(hperm.map Offer.queue).nodup_iff]
    exact List.pairwise_map.mpr (hpw.imp fun hne => hne.2)

theorem mem_ports_routerSend (h : r.Wf) {f : Frame} {s p : PortId} :
    p ∈ (routerSend r f s).2.map Offer.port ↔ Receives (bindSource r f s) f s p := by
  rw [List.mem_map, receives_iff]
  constructor
  · intro hsome
    obtain ⟨o, ho, rfl⟩ := hsome
    obtain ⟨ctx, hctx, hoff⟩ := (mem_routerSend h).mp ho
    obtain ⟨p, hp, hs, hc, rfl⟩ := offerAt_eq_some.mp hoff
    exact ⟨⟨ctx, bindSource_slots r f s ▸ hctx, hp⟩, hs, hc⟩
  · intro hsome
    obtain ⟨⟨ctx, hctx, hp⟩, hs, hc⟩ := hsome
    rw [bindSource_slots] at hctx
    exact ⟨_, (mem_routerSend h).mpr ⟨ctx, hctx, offerAt_eq_some.mpr ⟨p, hp, hs, hc, rfl⟩⟩, rfl⟩

/-- Active slots with the same port or the same queue are one slot. -/
theorem Router.Wf.slot_eq (h : r.Wf) {a b : Slot} (ha : a ∈ r.slots) (hb : b ∈ r.slots) {p p' : PortId}
    (hp : a.port = some p) (hp' : b.port = some p') (heq : p = p' ∨ a.txQueue = b.txQueue) :
    a = b := by
  by_contra hne
  have hapart := h.apart.forall ha hb hne p p' hp hp'
  rcases heq with heq | heq
  · exact hapart.1 heq
  · exact hapart.2 heq

theorem routerSend_effect (h : r.Wf) (f : Frame) (s : PortId) {ctx : Slot} (hctx : ctx ∈ r.slots)
    {p : PortId} (hp : ctx.port = some p) :
    ∃ q, ctx.txQueue = some q ∧
      (∀ o ∈ (routerSend r f s).2, o.port = p →
        Offered (bindSource r f s) (routerSend r f s).1 p q o.frame) ∧
      (¬ Receives (bindSource r f s) f s p →
        (routerSend r f s).1.queues q = r.queues q ∧
          (routerSend r f s).1.ports p = (bindSource r f s).ports p) := by
  obtain ⟨q, frames, hq, hf⟩ := h.live ctx hctx p hp
  obtain ⟨hports, hqueues⟩ := routerSend_nodup h f s
  have hf₁ : (bindSource r f s).queues q = some frames := by rw [bindSource_queues, hf]
  refine ⟨q, hq, ?_, ?_⟩
  · rintro o ho rfl
    obtain ⟨ctx', hctx', hoff⟩ := (mem_routerSend h).mp ho
    obtain ⟨p', hp', -, -, rfl⟩ := offerAt_eq_some.mp hoff
    obtain rfl := h.slot_eq hctx' hctx hp' hp (.inl rfl)
    rw [routerSend_fst]
    exact offered_of_mem ho hports hqueues rfl hq hf₁
  · intro hnot
    have hport : ∀ o ∈ (routerSend r f s).2, o.port ≠ p := by
      rintro o ho rfl
      exact hnot ((mem_ports_routerSend h).mp (List.mem_map_of_mem ho))
    have hqueue : ∀ o ∈ (routerSend r f s).2, o.queue ≠ some q := by
      intro o ho heq
      obtain ⟨ctx', hctx', hoff⟩ := (mem_routerSend h).mp ho
      obtain ⟨p', hp', -, -, rfl⟩ := offerAt_eq_some.mp hoff
      obtain rfl := h.slot_eq hctx' hctx hp' hp (.inr (heq.trans hq.symm))
      exact hport _ ho (Option.some.inj (hp'.symm.trans hp))
    rw [routerSend_fst, ← bindSource_queues r f s]
    simp [applyOffers, sentTo_eq_nil hqueue, droppedAt_eq_zero hport]

theorem routerSend_copies (h : r.Wf) {f : Frame} {s : PortId} {o : Offer}
    (ho : o ∈ (routerSend r f s).2) : IsCopy f ((bindSource r f s).ports o.port) o.frame := by
  obtain ⟨ctx, -, hoff⟩ := (mem_routerSend h).mp ho
  obtain ⟨p, -, -, hc, rfl⟩ := offerAt_eq_some.mp hoff
  refine forwarded_isCopy fun hm => ?_
  -- a digipeater port is chosen in the first pass
  rw [chosen, Bool.or_eq_true, Bool.and_eq_true, isDefault, hm] at hc
  rcases hc with hc | ⟨-, hc⟩
  · rcases portIsEligible_iff.mp hc with hc | hc
    · rw [hm] at hc
      cases hc
    · exact hc
  · cases hc

/-- The order of the slots does not matter. -/
theorem routerSend_perm (h : r.Wf) (f : Frame) (s : PortId) {slots : List Slot}
    (hp : slots.Perm r.slots) :
    (routerSend { r with slots } f s).2.Perm (routerSend r f s).2 := by
  have hbind : bindSource { r with slots } f s = { bindSource r f s with slots } := by
    unfold bindSource
    split_ifs <;> rfl
  have hslots : slots.Perm (bindSource r f s).slots := by rwa [bindSource_slots]
  have hoffers := routerSend_offers (h.perm hp) f s
  rw [hbind] at hoffers
  refine hoffers.trans (.trans ?_ (routerSend_offers h f s).symm)
  dsimp only
  rw [show slots.any (matchesNormal f s { bindSource r f s with slots }) =
    (bindSource r f s).slots.any (matchesNormal f s (bindSource r f s)) from hslots.any_eq]
  exact hslots.filterMap _

/-- **Routing is exactly the documented rule**, and the order of the slots does not
matter. -/
theorem routerSend_exact (h : r.Wf) (f : Frame) (s : PortId) :
    RouteSpec r (bindSource r f s) (routerSend r f s).1 f s (routerSend r f s).2 ∧
      ∀ slots, slots.Perm r.slots →
        (routerSend { r with slots } f s).2.Perm (routerSend r f s).2 := by
  refine ⟨⟨bindSource_ports r f s, (routerSend_nodup h f s).1, fun p => mem_ports_routerSend h,
    fun o ho => routerSend_copies h ho, fun ctx hctx p hp => routerSend_effect h f s hctx hp, ?_⟩,
    fun slots hp => routerSend_perm h f s hp⟩
  intro p hp
  have hport : ∀ o ∈ (routerSend r f s).2, o.port ≠ p := by
    rintro o ho rfl
    obtain ⟨ctx, hctx, hc⟩ := ((mem_ports_routerSend h).mp (List.mem_map_of_mem ho)).1
    exact hp ⟨ctx, bindSource_slots r f s ▸ hctx, hc⟩
  rw [routerSend_fst]
  simp [applyOffers, droppedAt_eq_zero hport]

end Send

/-- A router with a promiscuous port 0 and a digipeater port 1. -/
def sampleRouter : Router :=
  { slots := [{ port := some 0, txQueue := some 0, txTask := some 0, running := true },
      { port := some 1, txQueue := some 1, txTask := some 1, running := true }]
    queueDepth := 8
    ports := fun p =>
      if p = 1 then { mode := .digipeater, destination := { callsign := [0x42] } }
      else { mode := .promiscuous }
    queues := fun _ => some []
    nextId := 2 }

theorem sampleRouter_wf : sampleRouter.Wf := by
  refine ⟨?_, fun ctx hctx p hp => ?_⟩
  · refine List.pairwise_pair.mpr fun p p' hp hp' => ?_
    cases hp
    cases hp'
    decide
  · rcases List.mem_cons.mp hctx with rfl | hctx
    · exact ⟨0, [], rfl, rfl⟩
    · rw [List.mem_singleton.mp hctx]
      exact ⟨1, [], rfl, rfl⟩

/-- Port 1 is the digipeater that a frame from port 0 asks for next. -/
theorem routerSend_exact_digipeater :
    let f := { frameInit with digipeaters := [{ callsign := [0x42] }] }
    sampleRouter.Wf ∧ ((routerSend sampleRouter f 0).2.map Offer.port).Nodup ∧
      1 ∈ (routerSend sampleRouter f 0).2.map Offer.port ∧
      0 ∉ (routerSend sampleRouter f 0).2.map Offer.port := by
  have hspec := (routerSend_exact sampleRouter_wf
    { frameInit with digipeaters := [{ callsign := [0x42] }] } 0).1
  refine ⟨sampleRouter_wf, hspec.once, (hspec.ports 1).mpr ?_, fun h => ((hspec.ports 0).mp h).2.1 rfl⟩
  refine ⟨⟨_, List.mem_cons_of_mem _ List.mem_cons_self, rfl⟩, by decide, .inr (.inl ?_)⟩
  exact ⟨0, _, ⟨rfl, rfl, fun j hj => absurd hj (Nat.not_lt_zero j)⟩, rfl⟩

end EspAx25
