import EspAx25.Router.Route
import Mathlib.Data.List.Induction
import Mathlib.Logic.Function.Iterate

/-!
# EspAx25.Router.Chain

A frame on its way through digipeaters.

A relay step is one call of `ax25_router_send`: the copy that a digipeater port is given
is transmitted, and is what the next station routes. Each step may be in another router.
The number of un-repeated digipeaters is the number of steps that are left, whatever the
pattern of the H bits and however often an address occurs: a step marks the first
un-repeated entry of the list, and no other.

Main results:

* `relay_chain_visits_path`: the steps mark the un-repeated digipeaters one after the
  other, there are as many as there are un-repeated digipeaters, and the frame that is
  left is routed like a direct one.
-/

namespace EspAx25

/-- How many digipeaters have still to repeat the frame. -/
def unrepeated (f : Frame) : Nat := f.digipeaters.countP fun d => !d.hasBeenRepeated

/-- The frame with the H bit of its first un-repeated digipeater set, if there is one. -/
def markNext (f : Frame) : Frame := forwarded .digipeater f (nextDigipeaterIndex f)

/-- `digipeater_port_on_frame`: what is handed to `on_transmit`. -/
def digipeaterPortOnFrame (frame : Frame) : Frame := frame

/-! ### Stages -/

/-- A router, and a port that sends into it and is no digipeater port. -/
structure Stage where
  router : Router
  source : PortId
  wf : router.Wf
  notDigipeater : (router.ports source).mode ≠ .digipeater

namespace Stage

variable (st : Stage)

/-- A digipeater port is offered the copy. -/
def Offers (f copy : Frame) : Prop :=
  ∃ o ∈ (routerSend st.router f st.source).2,
    (st.router.ports o.port).mode = .digipeater ∧ o.frame = copy

/-- A digipeater port is given the copy: there was room in its queue. -/
def Delivers (f copy : Frame) : Prop :=
  ∃ o ∈ (routerSend st.router f st.source).2,
    (st.router.ports o.port).mode = .digipeater ∧ o.outcome = .queued ∧ o.frame = copy

/-- The next digipeater has its port. -/
def Serves (f : Frame) : Prop :=
  ∀ i d, FirstUnrepeated f i d → ∃ p, st.router.Registered p ∧
    (st.router.ports p).mode = .digipeater ∧ addressEquals (st.router.ports p).destination d = true

/-- Every un-repeated digipeater has its port, with room in the queue. -/
def Ready (f : Frame) : Prop :=
  ∀ d ∈ f.digipeaters, d.hasBeenRepeated = false → ∃ ctx ∈ st.router.slots, ∃ p,
    ctx.port = some p ∧ (st.router.ports p).mode = .digipeater ∧
      addressEquals (st.router.ports p).destination d = true ∧
      st.router.sendOutcome ctx.txQueue = .queued

end Stage

/-- The frame `f` is `g` after it has been relayed by these stages. -/
inductive RelayChain (f : Frame) : List Stage → Frame → Prop
  | start : RelayChain f [] f
  | relay {sts : List Stage} {g copy : Frame} (st : Stage) : RelayChain f sts g →
      st.Delivers g copy → RelayChain f (sts ++ [st]) (digipeaterPortOnFrame copy)

/-! ### One step -/

section Step

variable {f g : Frame} {i : Nat} {d : Address}

theorem markNext_of_first (h : FirstUnrepeated f i d) :
    markNext f =
      { f with digipeaters := f.digipeaters.set i { d with hasBeenRepeated := true } } := by
  rw [markNext, nextDigipeaterIndex_eq_some.mpr ⟨d, h⟩, forwarded, List.modify_eq_set, h.1]
  rfl

/-- There is a next digipeater as long as not all have repeated the frame. -/
theorem exists_first (h : unrepeated f ≠ 0) : ∃ i d, FirstUnrepeated f i d := by
  obtain ⟨d, hd, hrep⟩ := List.countP_pos_iff.mp (Nat.pos_of_ne_zero h)
  cases hn : nextDigipeaterIndex f with
  | none =>
      have hall := List.findIdx?_eq_none_iff.mp hn d hd
      rw [hrep] at hall
      cases hall
  | some i =>
      obtain ⟨d', hd'⟩ := nextDigipeaterIndex_eq_some.mp hn
      exact ⟨i, d', hd'⟩

/-- A step takes one off. -/
theorem unrepeated_mark (h : FirstUnrepeated f i d) :
    unrepeated (markNext f) + 1 = unrepeated f := by
  rw [markNext_of_first h]
  obtain ⟨hget, hrep, -⟩ := h
  obtain ⟨hlt, hgetElem⟩ := List.getElem?_eq_some_iff.mp hget
  have hpos : 0 < unrepeated f := by
    apply List.countP_pos_iff.mpr
    exact ⟨d, List.mem_of_getElem? hget, by rw [hrep]; rfl⟩
  rw [unrepeated] at hpos
  rw [unrepeated, unrepeated, List.countP_set hlt, hgetElem, hrep]
  simp only [Bool.not_false, if_true, Bool.not_true, Bool.false_eq_true, if_false]
  omega

/-- What has not been repeated afterwards was not before. -/
theorem unrepeated_of_mark {e : Address} (he : e ∈ (markNext f).digipeaters)
    (hrep : e.hasBeenRepeated = false) : e ∈ f.digipeaters := by
  cases hn : nextDigipeaterIndex f with
  | none =>
      rw [markNext, hn] at he
      exact he
  | some i =>
      obtain ⟨d, hd⟩ := nextDigipeaterIndex_eq_some.mp hn
      rw [markNext_of_first hd] at he
      rcases List.mem_or_eq_of_mem_set he with he | rfl
      · exact he
      · cases hrep

end Step

/-- A frame that all digipeaters have repeated is not offered to a digipeater port. -/
theorem not_digipeater_of_unrepeated {r : Router} (hwf : r.Wf) {f : Frame} (h : unrepeated f = 0)
    {s : PortId} {o : Offer} (ho : o ∈ (routerSend r f s).2) :
    ((bindSource r f s).ports o.port).mode ≠ .digipeater := by
  intro hm
  have hcopy := routerSend_copies hwf ho
  rw [IsCopy, if_pos hm] at hcopy
  obtain ⟨i, d, hd, -⟩ := hcopy
  have hmark := unrepeated_mark hd
  omega

/-- It is matched like a direct frame. -/
theorem portIsEligible_of_unrepeated {f : Frame} (h : unrepeated f = 0) (port : Port) :
    portIsEligible port f (nextDigipeater f) =
      portIsEligible port { f with digipeaters := [] }
        (nextDigipeater { f with digipeaters := [] }) := by
  have hnone : nextDigipeater f = none := by
    rw [nextDigipeater, List.find?_eq_none]
    exact List.countP_eq_zero.mp h
  rw [hnone]
  rfl

namespace Stage

variable {st : Stage} {f copy : Frame}

theorem ports_bindSource {p : PortId} (hne : p ≠ st.source) :
    (bindSource st.router f st.source).ports p = st.router.ports p := by
  rw [bindSource_ports, if_neg fun h => hne h.1]

/-- **What a step does**: it sets the H bit of the first un-repeated digipeater. -/
theorem Offers.marks (h : st.Offers f copy) :
    (∃ i d, FirstUnrepeated f i d) ∧ copy = markNext f := by
  obtain ⟨o, ho, hm, rfl⟩ := h
  have hne := ((mem_ports_routerSend st.wf).mp (List.mem_map_of_mem ho)).2.1
  have hcopy := routerSend_copies st.wf ho
  rw [ports_bindSource hne, IsCopy, if_pos hm] at hcopy
  obtain ⟨i, d, hd, hframe⟩ := hcopy
  exact ⟨⟨i, d, hd⟩, by rw [hframe, markNext_of_first hd]⟩

theorem Delivers.offers (h : st.Delivers f copy) : st.Offers f copy := by
  obtain ⟨o, ho, hm, -, hframe⟩ := h
  exact ⟨o, ho, hm, hframe⟩

/-- The digipeater port of the next digipeater is to receive the frame. -/
theorem receives {p : PortId} {i : Nat} {d : Address} (hreg : st.router.Registered p)
    (hm : (st.router.ports p).mode = .digipeater) (hd : FirstUnrepeated f i d)
    (haddr : addressEquals (st.router.ports p).destination d = true) :
    Receives (bindSource st.router f st.source) f st.source p := by
  have hne : p ≠ st.source := by
    rintro rfl
    exact st.notDigipeater hm
  refine ⟨?_, hne, .inr (.inl ?_)⟩
  · obtain ⟨ctx, hctx, hp⟩ := hreg
    exact ⟨ctx, bindSource_slots st.router f st.source ▸ hctx, hp⟩
  · rw [ports_bindSource hne, AddressedTo, hm]
    exact ⟨i, d, hd, haddr⟩

/-- A stage that has the port of the next digipeater offers it the frame. -/
theorem Serves.offers (h : st.Serves f) (hu : unrepeated f ≠ 0) : ∃ copy, st.Offers f copy := by
  obtain ⟨i, d, hd⟩ := exists_first hu
  obtain ⟨p, hreg, hm, haddr⟩ := h i d hd
  obtain ⟨o, ho, rfl⟩ := List.mem_map.mp
    ((mem_ports_routerSend st.wf).mpr (st.receives hreg hm hd haddr))
  exact ⟨o.frame, o, ho, hm, rfl⟩

/-- With room in the queue the copy is delivered. -/
theorem Ready.delivers (h : st.Ready f) (hu : unrepeated f ≠ 0) : ∃ copy, st.Delivers f copy := by
  obtain ⟨i, d, hd⟩ := exists_first hu
  obtain ⟨ctx, hctx, p, hp, hm, haddr, hroom⟩ := h d (List.mem_of_getElem? hd.1) hd.2.1
  have hrec := st.receives ⟨ctx, hctx, hp⟩ hm hd haddr
  have hqueue : ∀ queue, (bindSource st.router f st.source).sendOutcome queue =
      st.router.sendOutcome queue := by
    intro queue
    unfold bindSource
    split <;> rfl
  obtain ⟨-, hne, hchosen⟩ := receives_iff.mp hrec
  have hmem := (mem_routerSend st.wf).mpr
    ⟨ctx, hctx, offerAt_eq_some.mpr ⟨p, hp, hne, hchosen, rfl⟩⟩
  exact ⟨_, _, hmem, hm, (hqueue _).trans hroom, rfl⟩

end Stage

/-! ### The chain -/

section Chain

variable {f g : Frame} {sts : List Stage}

/-- Each stage marks the next digipeater. -/
theorem RelayChain.marks (h : RelayChain f sts g) : g = markNext^[sts.length] f := by
  induction h with
  | start => rfl
  | relay st _ hd ih =>
      rw [digipeaterPortOnFrame, hd.offers.marks.2, ih, List.length_append, List.length_singleton,
        Function.iterate_succ_apply']

/-- **The measure of the chain.** -/
theorem RelayChain.count (h : RelayChain f sts g) : sts.length + unrepeated g = unrepeated f := by
  induction h with
  | start => exact Nat.zero_add _
  | relay st _ hd ih =>
      obtain ⟨⟨i, d, hfirst⟩, rfl⟩ := hd.offers.marks
      have hmark := unrepeated_mark hfirst
      rw [digipeaterPortOnFrame, List.length_append, List.length_singleton]
      omega

theorem RelayChain.unrepeated_mem (h : RelayChain f sts g) {d : Address} (hd : d ∈ g.digipeaters)
    (hrep : d.hasBeenRepeated = false) : d ∈ f.digipeaters := by
  induction h with
  | start => exact hd
  | relay st _ hdel ih =>
      rw [digipeaterPortOnFrame, hdel.offers.marks.2] at hd
      exact ih (unrepeated_of_mark hd hrep)

/-- The chain goes on as long as there are digipeaters and stages. -/
theorem exists_relayChain (hready : ∀ st ∈ sts, st.Ready f) (hlen : sts.length ≤ unrepeated f) :
    ∃ g, RelayChain f sts g := by
  induction sts using List.reverseRecOn with
  | nil => exact ⟨f, .start⟩
  | append_singleton sts st ih =>
      rw [List.length_append, List.length_singleton] at hlen
      obtain ⟨g, hg⟩ := ih (fun st' hst' => hready st' (List.mem_append_left _ hst'))
        (Nat.le_of_succ_le hlen)
      have hcount := hg.count
      have hnext : st.Ready g := by
        intro d hd hrep
        exact hready st (List.mem_append_right _ List.mem_cons_self) d (hg.unrepeated_mem hd hrep) hrep
      obtain ⟨copy, hcopy⟩ := hnext.delivers (by omega)
      exact ⟨_, hg.relay st hcopy⟩

/-- **A relay chain visits the path in order.** Each step sets the H bit of the first
un-repeated digipeater. A chain that a stage with the next port does not go on has as many
steps as there are un-repeated digipeaters, and with ready stages there is one. Then no
digipeater port of any router is offered the frame again, and every port matches it like a
direct frame. -/
theorem relay_chain_visits_path (f : Frame) :
    (∀ (st : Stage) (g copy : Frame), st.Offers g copy → ∃ i d, FirstUnrepeated g i d ∧
      copy = { g with digipeaters := g.digipeaters.set i { d with hasBeenRepeated := true } }) ∧
    (∀ sts g, RelayChain f sts g →
      g = markNext^[sts.length] f ∧ sts.length + unrepeated g = unrepeated f ∧
      ((∃ st : Stage, st.Serves g ∧ ¬ ∃ copy, st.Offers g copy) → sts.length = unrepeated f)) ∧
    (∀ sts : List Stage, (∀ st ∈ sts, st.Ready f) → sts.length = unrepeated f →
      ∃ g, RelayChain f sts g) ∧
    ∀ sts g, RelayChain f sts g → sts.length = unrepeated f →
      (∀ d ∈ g.digipeaters, d.hasBeenRepeated = true) ∧
      (∀ port, portIsEligible port g (nextDigipeater g) =
        portIsEligible port { g with digipeaters := [] }
          (nextDigipeater { g with digipeaters := [] })) ∧
      ∀ r : Router, r.Wf → ∀ s, ∀ o ∈ (routerSend r g s).2,
        ((bindSource r g s).ports o.port).mode ≠ .digipeater := by
  refine ⟨?_, ?_, ?_, ?_⟩
  · intro st g copy h
    obtain ⟨⟨i, d, hd⟩, hcopy⟩ := h.marks
    exact ⟨i, d, hd, hcopy.trans (markNext_of_first hd)⟩
  · intro sts g h
    refine ⟨h.marks, h.count, ?_⟩
    rintro ⟨st, hserves, hend⟩
    by_contra hne
    have hcount := h.count
    exact hend (hserves.offers (by omega))
  · intro sts hready hlen
    exact exists_relayChain hready (Nat.le_of_eq hlen)
  · intro sts g h hlen
    have hcount := h.count
    have hzero : unrepeated g = 0 := by omega
    refine ⟨?_, portIsEligible_of_unrepeated hzero, ?_⟩
    · intro d hd
      simpa using List.countP_eq_zero.mp hzero d hd
    · intro r hwf s o ho
      exact not_digipeater_of_unrepeated hwf hzero ho

end Chain

/-- Port 0 of the sample router sends. -/
def sampleStage : Stage :=
  { router := sampleRouter, source := 0, wf := sampleRouter_wf, notDigipeater := by decide }

/-- A path with a gap, in which the sample digipeater occurs twice. -/
def samplePath : Frame :=
  { frameInit with
    digipeaters := [{ callsign := [0x42] }, { callsign := [0x43], hasBeenRepeated := true },
      { callsign := [0x42] }] }

theorem relay_chain_visits_path_sample :
    ∃ g, RelayChain samplePath [sampleStage, sampleStage] g ∧
      ∀ d ∈ g.digipeaters, d.hasBeenRepeated = true := by
  obtain ⟨-, -, hexists, harrived⟩ := relay_chain_visits_path samplePath
  have hready : sampleStage.Ready samplePath := by
    intro d hd hrep
    have hsame : addressEquals { callsign := [0x42] } d = true := by
      revert d
      decide
    exact ⟨_, List.mem_cons_of_mem _ List.mem_cons_self, 1, rfl, rfl, hsame, rfl⟩
  obtain ⟨g, hg⟩ := hexists [sampleStage, sampleStage]
    (fun st hst => by rcases List.mem_pair.mp hst with rfl | rfl <;> exact hready) rfl
  exact ⟨g, hg, (harrived _ g hg rfl).1⟩

end EspAx25
