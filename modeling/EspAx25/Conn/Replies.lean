import EspAx25.Conn.Session

/-!
# EspAx25.Conn.Replies

Where frames go. Every transmit helper takes its addresses from the context, so
a section sends to the station that is in `remote_addr` when it ends
(`SectionStep.frames`). For a frame that belongs to a session that is its
sender. Without a session it need not be: a DISC is answered with a DM to
whatever `remote_addr` holds (`replies_iff`).
-/

namespace EspAx25

open Cyclic Conn Locked

/-- `g` is a frame from us to the station in `remote_addr`. -/
def Outbound (c : Conn) (g : Frame) : Prop := g.source = c.localAddr ∧ g.destination = c.remoteAddr

theorem outbound_outFrame (c : Conn) (cmd : Bool) (type : FrameType) (ctrl : Byte) :
    Outbound c (outFrame c cmd type ctrl) := ⟨rfl, rfl⟩

theorem outbound_uFrame {c : Conn} {cmd pf : Bool} {ctrl : Byte} {g : Frame}
    (h : Action.frame g = c.uFrame cmd ctrl pf) : Outbound c g := by
  cases h
  exact outbound_outFrame ..

theorem Emits.outbound {c : Conn} {g : Frame} (h : Emits c (.frame g)) : Outbound c g := by
  generalize ha : Action.frame g = a at h
  cases h <;> cases ha <;> exact ⟨rfl, rfl⟩

theorem Received.remoteAddr {s s₁ : Locked} {f : Frame} (h : Received s f s₁) :
    s₁.conn.remoteAddr = s.conn.remoteAddr := by
  cases h with
  | ack => rfl
  | data => rw [consume_conn]; rfl

/-- Accounting for a frame records at most its payload. -/
theorem Received.mem {s s₁ : Locked} {f : Frame} (h : Received s f s₁) {a : Action}
    (ha : a ∈ s₁.deferred) : a ∈ s.deferred ∨ a = .data f.payload := by
  cases h with
  | ack => exact Or.inl ha
  | data =>
      simp only [Locked.consume, deferOnData] at ha
      split_ifs at ha
      · exact Or.inl ha
      · rw [deferAction_deferred] at ha
        split_ifs at ha
        · exact Or.inl ha
        · rcases List.mem_append.mp ha with h | h
          · exact Or.inl h
          · exact Or.inr (List.mem_singleton.mp h)
      · exact Or.inl ha

/-- The frames recorded while a frame is accounted for: none. -/
theorem Received.no_frame {s s₁ : Locked} {f g : Frame} (h : Received s f s₁)
    (hg : .frame g ∈ s₁.deferred) : .frame g ∈ s.deferred := by
  rcases h.mem hg with h | h
  · exact h
  · cases h

/-- Every frame that a section records goes from us to the station that is in
`remote_addr` at its end. -/
theorem SectionStep.frames {c : Conn} {op : Op} {s : Locked} {o : Outcome}
    (h : SectionStep c op s o) {g : Frame} (hg : .frame g ∈ s.deferred) : Outbound s.conn g := by
  cases h with
  | reject f => exact outbound_uFrame (List.mem_singleton.mp hg)
  | collision f =>
      have h : Outbound (c.adopt f) g := outbound_uFrame (List.mem_singleton.mp hg)
      exact ⟨h.1, h.2⟩
  | relink f =>
      rcases List.mem_append.mp hg with hg | hg
      · split_ifs at hg <;> simp at hg
      · have h : Outbound (c.adopt f) g := outbound_uFrame (List.mem_singleton.mp hg)
        exact ⟨h.1, h.2⟩
  | teardown pre hne hlen hf =>
      have hg : Action.frame g ∈ pre := by simpa using hg
      generalize ha : Action.frame g = a at hg
      cases hf a hg with
      | error => cases ha
      | ua pf | dm pf =>
          have h := outbound_uFrame ha
          exact ⟨h.1, h.2⟩
  | reestablish f c₀ msg ret hl hc =>
      have h : Action.frame g = c.uFrame true ctrlSabm true := by simpa using hg
      have h := outbound_uFrame h
      rcases hc with ⟨-, -, rfl, -⟩ | ⟨-, -, rfl, -⟩ <;> exact ⟨h.1, h.2⟩
  | data f hl hty hv hr ht hd =>
      obtain ⟨l, hl, hem⟩ := ht.emits
      rw [hl] at hg
      rcases List.mem_append.mp hg with hg | hg
      · exact absurd (hr.no_frame hg) (by simp)
      · have := (hem _ hg).outbound
        exact ⟨this.1.trans ht.link.static.localAddr.symm, this.2.trans ht.link.remoteAddr.symm⟩
  | dial => exact outbound_uFrame (List.mem_singleton.mp hg)
  | send data hl h₀ h₁ hq ht hs =>
      obtain ⟨l, hl, hem⟩ := ht.emits
      rw [hl] at hg
      have := (hem _ hg).outbound
      exact ⟨this.1.trans ht.link.static.localAddr.symm, this.2.trans ht.link.remoteAddr.symm⟩
  | busyOn | busyOff | poll | t3Poll => cases List.mem_singleton.mp hg; exact ⟨rfl, rfl⟩
  | release | retry =>
      have h : Outbound c g := outbound_uFrame (List.mem_singleton.mp hg)
      exact ⟨h.1, h.2⟩
  | t2Ack a hl hp he => rw [← List.mem_singleton.mp hg] at he; exact he.outbound
  | _ => cases hg

/-- The peer's address is only ever changed by a SABM without a session and by
`connect_via`. -/
theorem SectionStep.remoteAddr {c : Conn} {f : Frame} {s : Locked} {o : Outcome}
    (h : SectionStep c (.onFrame f) s o) (hst : c.state ≠ .disconnected) :
    s.conn.remoteAddr = c.remoteAddr := by
  cases h with
  | request f h => exact absurd h hst
  | collision f | relink f =>
      obtain ⟨p, hp⟩ := adopt_eq c f
      rw [hp]
      rfl
  | reestablish f c₀ msg ret hl hc =>
      rcases hc with ⟨-, -, rfl, -⟩ | ⟨-, -, rfl, -⟩ <;> rfl
  | data f hl hty hv hr ht hd => exact ht.link.remoteAddr.trans hr.remoteAddr
  | _ => rfl

theorem DecideStep.frames {c c' : Conn} {f : Frame} {acts : List Action}
    (h : DecideStep c f c' acts) {g : Frame} (hg : .frame g ∈ acts) : Outbound c g := by
  cases h with
  | refused =>
      rcases List.mem_cons.mp hg with hg | hg
      · exact outbound_uFrame hg
      · split_ifs at hg <;> simp at hg
  | accepted => exact outbound_uFrame (List.mem_singleton.mp hg)

/-! ### Replies go to the sender -/

/-- Every frame that the call emits goes from us to the sender of `f`. -/
def RepliesToSender (c : Conn) (f : Frame) (r : Result) : Prop :=
  ∀ g, .frame g ∈ r.out → g.source = c.localAddr ∧ addressEquals g.destination f.source = true

/-- A DISC that is handled without a session, from a station that is not the one
left in `remote_addr`. -/
def StrayDisc (c : Conn) (f : Frame) : Prop :=
  c.state = .disconnected ∧ (Op.onFrame f).precheck c = none ∧ f.type = .u ∧
    f.uType = ctrlDisc ∧ addressEquals f.source c.remoteAddr = false

instance (c : Conn) (f : Frame) : Decidable (StrayDisc c f) :=
  inferInstanceAs (Decidable (_ ∧ _))

theorem onConnectCall_no_frame (c : Conn) (b : Bool) (g : Frame) :
    .frame g ∉ c.onConnectCall b := by
  unfold onConnectCall
  split_ifs <;> simp

theorem requested_remoteAddr (c : Conn) (f : Frame) : (c.requested f).remoteAddr = f.source := by
  obtain ⟨p, hp⟩ := adopt_eq { c with remoteAddr := f.source, remoteAddrSet := true } f
  simp only [requested, hp]

theorem afterOnConnect_remoteAddr (c : Conn) (refuses : Bool) :
    (c.afterOnConnect refuses).remoteAddr = c.remoteAddr := by
  unfold afterOnConnect refuse
  split_ifs <;> rfl

/-- The answer to a DISC without a session. -/
theorem step_disc {c : Conn} (h : SeqInv c) {f : Frame} (hst : c.state = .disconnected)
    (hp : (Op.onFrame f).precheck c = none) (hu : f.type = .u) (hd : f.uType = ctrlDisc)
    (heap refuses : Bool) :
    (c.step (.call (.onFrame f) heap refuses)).out = [c.uFrame false ctrlDm f.pf] := by
  have hne : ctrlDisc ≠ ctrlSabm := by decide
  simp only [Conn.step, Op.call, Op.consumeExpiry, hp, Conn.locked,
    acquireDeferred_of_free h.pool, Op.body, Locked.onFrame, handleFrameDisconnected, hu, hd, hne,
    if_true, if_false, show c.taken.state = .disconnected from hst, ne_eq, not_true_eq_false,
    false_and, and_false, Call.settle, sendDm, sendUFrame, sendFrameInternal_nil]
  rfl

/-- With a session, or for anything but a DISC, a call answers its sender. -/
theorem replies_of_not_stray {c : Conn} (h : SeqInv c) {f : Frame} (hs : ¬ StrayDisc c f)
    (heap refuses : Bool) : RepliesToSender c f (c.step (.call (.onFrame f) heap refuses)) := by
  intro g hg
  by_cases hsrc : c.state ≠ .disconnected ∧ addressEquals f.source c.remoteAddr = false
  · rw [step_foreign h hsrc.1 (Or.inr (Or.inr (Or.inr hsrc.2)))] at hg
    cases hg
  -- a section that keeps `remote_addr` answers the peer, who sent the frame
  have hpeer : ∀ {s : Locked} {o : Outcome}, SectionStep c.taken (.onFrame f) s o →
      c.state ≠ .disconnected → .frame g ∈ s.deferred →
      g.source = c.localAddr ∧ addressEquals g.destination f.source = true := by
    intro s o hsec hst hg
    obtain ⟨h₁, h₂⟩ := hsec.frames hg
    rw [hsec.static.localAddr] at h₁
    rw [hsec.remoteAddr hst] at h₂
    rw [h₂]
    have hsrc : addressEquals f.source c.remoteAddr = true := by simpa [hst] using hsrc
    exact ⟨h₁, addressEquals_symm hsrc⟩
  have hcall : CallStep c (.onFrame f) refuses _ := call_cases h (.onFrame f) heap refuses
  generalize c.step (.call (.onFrame f) heap refuses) = r at hcall hg
  cases hcall with
  | early => cases hg
  | returned ret hp hsec =>
      by_cases hst : c.state = .disconnected
      · cases hsec with
        | reject f hu hcase =>
            obtain ⟨-, hd⟩ : c.state = .disconnected ∧ f.uType = ctrlDisc := by
              rcases hcase with h | ⟨h, -⟩ | ⟨h, -⟩
              · exact h
              · cases hst.symm.trans h
              · cases hst.symm.trans h
            have hout : Outbound c g := outbound_uFrame (List.mem_singleton.mp hg)
            refine ⟨hout.1, ?_⟩
            rw [hout.2]
            refine addressEquals_symm ?_
            by_contra hne
            exact hs ⟨hst, hp, hu, hd, by simpa using hne⟩
        | ignored => cases hg
        | relink f hl | reestablish f c₀ msg ret hl | data f hl =>
            rcases hl with hl | hl <;> cases hst.symm.trans hl
        | teardown pre hne => exact absurd hst hne
      · exact hpeer hsec hst hg
  | told hp hsec =>
      have hst : c.state ≠ .disconnected := by
        intro hd
        cases hsec with
        | opened f hac | collision f hac => cases hd.symm.trans hac
      rcases List.mem_append.mp hg with hg | hg
      · exact absurd hg (onConnectCall_no_frame _ _ _)
      · exact hpeer hsec hst hg
  | asked f' hop hp hst hu hsabm hdec =>
      cases hop
      rcases List.mem_append.mp hg with hg | hg
      · exact absurd hg (onConnectCall_no_frame _ _ _)
      · obtain ⟨h₁, h₂⟩ := hdec.frames hg
        have hreq := (SectionStep.request (c := c.taken) f hst hu hsabm).static
        rw [(afterOnConnect_static _ refuses).localAddr, hreq.localAddr] at h₁
        rw [afterOnConnect_remoteAddr, requested_remoteAddr] at h₂
        rw [h₂]
        exact ⟨h₁, addressEquals_refl _⟩

/-- **Replies go to the sender**, except for a DISC that finds no session and
another station in `remote_addr`. -/
theorem replies_iff {c : Conn} (h : Reachable c) (f : Frame) (heap refuses : Bool) :
    RepliesToSender c f (c.step (.call (.onFrame f) heap refuses)) ↔ ¬ StrayDisc c f := by
  refine ⟨fun hr ⟨hst, hp, hu, hd, hne⟩ => ?_, 
    fun hs => replies_of_not_stray h.seqInv hs heap refuses⟩
  obtain ⟨-, heq⟩ := hr (outFrame c false .u (ctrlDm ||| pfBits f.pf))
    (by rw [step_disc h.seqInv hst hp hu hd]; exact List.mem_singleton.mpr rfl)
  exact absurd (addressEquals_symm heq) (by simpa [outFrame] using hne)

/-- A DISC from `sampleB` to the connection of `sampleA`. -/
def sampleDisc : Frame := { sampleSabm with control := ctrlDisc ||| pfBits true }

theorem replies_iff_disc :
    ¬ RepliesToSender sampleConn sampleDisc
      (sampleConn.step (.call (.onFrame sampleDisc) false false)) :=
  fun h => (replies_iff reachable_sampleConn sampleDisc false false).mp h (by decide)

/-- A connection that has never had a peer answers a DISC with a DM to the
all-zero address. -/
theorem disc_answered_to_nobody :
    Reachable sampleConn ∧
      ¬ RepliesToSender sampleConn sampleDisc
        (sampleConn.step (.call (.onFrame sampleDisc) false false)) := by
  refine ⟨reachable_sampleConn, fun h => ?_⟩
  have hg : Action.frame (outFrame sampleConn false .u (ctrlDm ||| pfBits true)) ∈
      (sampleConn.step (.call (.onFrame sampleDisc) false false)).out := by decide
  exact absurd (h _ hg).2 (by decide)

end EspAx25
