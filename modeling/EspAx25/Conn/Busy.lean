import EspAx25.Conn.Poll

/-!
# EspAx25.Conn.Busy

Local flow control. From `set_busy(true)` on a link that is up until `set_busy(false)` or the end
of the session the flag should stay set, no payload should be passed on, and every supervisory
frame should be an RNR.

Four kinds of steps break this: T1 and T3 poll with an RR command, an I frame out of sequence is
answered with a REJ, and `reset_state_vars` clears the flag. `Breaks` says when a step is one of
them, in terms of the context that it finds.
-/

namespace EspAx25

open Cyclic Conn Locked

/-- A frame of the peer that makes `reset_state_vars` run while the link is up:
a SABM or a FRMR, or an I or S frame whose N(R) is outside the window. -/
def ResetsLink (c : Conn) (f : Frame) : Prop :=
  c.Linked ∧ ¬ Foreign c f ∧
    (f.type = .u ∧ (f.uType = ctrlSabm ∨ f.uType = ctrlFrmr) ∨
      (f.type = .s ∨ f.type = .i) ∧ c.isValidNr f.nr = false)

/-- An I frame of the peer that is out of sequence while no REJ is outstanding. -/
def DrawsRej (c : Conn) (f : Frame) : Prop :=
  c.Linked ∧ ¬ Foreign c f ∧ f.type = .i ∧ c.isValidNr f.nr = true ∧ f.ns ≠ c.vr ∧
    c.rejSent = false

/-- The expiry of T1 polls the peer: the link is up, and a retry is left. -/
def T1Polls (c : Conn) : Prop :=
  c.Linked ∧ (if c.state = .connected then 0 else c.retryCount) < c.config.n2Retries

/-- **The condition**, negated: the step polls with T1 or T3, resets the link or answers with a
REJ. -/
def Breaks (c : Conn) : Event → Prop
  | .call .timerT1 _ _ => T1Polls c
  | .call .timerT3 _ _ => c.state = .connected
  | .call (.onFrame f) _ _ => ResetsLink c f ∨ DrawsRej c f
  | _ => False

/-- No payload, and of the supervisory frames only RNR. -/
def RnrOnly : Action → Prop
  | .data _ => False
  | .frame g => g.type = .s → g.sType = ctrlRnr
  | _ => True

/-- The step honours local busy. -/
structure Honours (c : Conn) (e : Event) : Prop where
  stays : (c.step e).conn.localBusy = true ∨ (c.step e).conn.state = .disconnected
  quiet : ∀ a ∈ (c.step e).out, RnrOnly a

/-- The step is `set_busy(false)`. -/
def SetsReady : Event → Prop
  | .call (.setBusy false) _ _ => True
  | _ => False

/-- A session with `local_busy` set. -/
structure Busy (c : Conn) : Prop where
  localBusy : c.localBusy = true
  session : c.Linked ∨ c.state = .awaitingRelease

theorem Busy.session_ne {c : Conn} (hb : Busy c) : c.state ≠ .disconnected := by
  rcases hb.session with (h | h) | h <;> rw [h] <;> decide

/-- A busy receiver accounts for the acknowledgement of a frame only. -/
theorem Received.of_busy {s s₁ : Locked} {f : Frame} (h : Received s f s₁)
    (hb : s.conn.localBusy = true) : s₁ = s.modify (·.ackConn f.nr) := by
  cases h with
  | ack => rfl
  | data _ _ h => rw [hb] at h; cases h

/-! ### What a busy receiver records -/

@[simp] theorem rnrOnly_uFrame (c : Conn) (cmd pf : Bool) (ctrl : Byte) :
    RnrOnly (c.uFrame cmd ctrl pf) := fun h => by cases h

theorem rnrOnly_slotFrame (c : Conn) (q : Nat) : RnrOnly (c.slotFrame q) := fun h => by cases h

theorem rnrOnly_rnr {c : Conn} (hvr : c.vr < 8) (pf cmd : Bool) :
    RnrOnly (.frame (outFrame c cmd .s (frameBuildRnrControl c.vr pf))) :=
  fun _ => sType_buildS (Or.inr (Or.inl rfl)) hvr pf

theorem not_rnrOnly_rej {c : Conn} (hvr : c.vr < 8) (pf cmd : Bool) :
    ¬ RnrOnly (.frame (outFrame c cmd .s (frameBuildRejControl c.vr pf))) := by
  intro h
  have hrej : Frame.sType (outFrame c cmd .s (frameBuildRejControl c.vr pf)) = ctrlRej :=
    sType_buildS (Or.inr (Or.inr rfl)) hvr pf
  exact absurd ((h rfl).symm.trans hrej) (by decide)

theorem not_rnrOnly_rrPoll {c : Conn} (hvr : c.vr < 8) : ¬ RnrOnly c.rrPoll := by
  intro h
  have hrr : Frame.sType (outFrame c true .s (frameBuildRrControl c.vr true)) = ctrlRr :=
    sType_buildS (Or.inl rfl) hvr true
  have hrnr : Frame.sType (outFrame c true .s (frameBuildRrControl c.vr true)) = ctrlRnr := h rfl
  exact absurd (hrnr.symm.trans hrr) (by decide)

/-- From `s` to `t` a busy section recorded a REJ if `rej`, and at most an RNR otherwise. -/
structure Restrained (rej : Bool) (s t : Locked) : Prop where
  link : SameLink s.conn t.conn
  reply : s.conn.localBusy = true → s.deferred.length < maxDeferredActions →
    ∃ l, t.deferred = s.deferred ++ l ∧ l.length ≤ 1 ∧
      if rej then ∃ pf, l = [.frame (outFrame s.conn false .s (frameBuildRejControl s.conn.vr pf))]
      else ∀ a ∈ l, ∃ pf, a = .frame (outFrame s.conn false .s (frameBuildRnrControl s.conn.vr pf))

namespace Restrained

variable {rej : Bool} {s t u : Locked}

theorem silent (h : Quiet 0 s t) : Restrained false s t :=
  ⟨h.link, fun _ _ => ⟨[], by rw [h.deferred_eq, List.append_nil], by simp, by simp⟩⟩

theorem after (h₁ : Quiet 0 s t) (h₂ : Restrained rej t u) : Restrained rej s u where
  link := h₁.link.trans h₂.link
  reply := by
    intro hb hroom
    obtain ⟨l, hl, hlen, hrej⟩ :=
      h₂.reply (h₁.link.localBusy.trans hb) (h₁.deferred_eq ▸ hroom)
    simp only [h₁.link.outFrame, h₁.link.vr] at hrej
    exact ⟨l, by rw [hl, h₁.deferred_eq], hlen, hrej⟩

theorem andThen (h₁ : Restrained rej s t) (h₂ : Quiet 0 t u) : Restrained rej s u where
  link := h₁.link.trans h₂.link
  reply := by
    intro hb hroom
    obtain ⟨l, hl, hlen, hrej⟩ := h₁.reply hb hroom
    exact ⟨l, by rw [h₂.deferred_eq, hl], hlen, hrej⟩

end Restrained

theorem restrained_sendAck (s : Locked) (pf : Bool) :
    Restrained false s (s.sendAck pf false).1 where
  link := (quiet_sendAck s pf).link
  reply := by
    intro hb hroom
    simp only [sendAck, hb, if_true, sendRnr, sendSFrame]
    rw [sendFrameInternal_of_lt hroom]
    refine ⟨_, rfl, by simp, ?_⟩
    rw [if_neg Bool.false_ne_true]
    exact fun a ha => ⟨pf, List.mem_singleton.mp ha⟩

theorem restrained_sendRej (s : Locked) (pf : Bool) : Restrained true s (s.sendRej pf false).1 where
  link := (quiet_sendRej s pf).link
  reply := by
    intro _ hroom
    simp only [sendRej, sendSFrame]
    rw [sendFrameInternal_of_lt (by exact hroom)]
    refine ⟨_, rfl, by simp, ?_⟩
    rw [if_pos trivial]
    exact ⟨pf, rfl⟩

theorem restrained_answerPoll (s : Locked) (f : Frame) : Restrained false s (s.answerPoll f) := by
  unfold answerPoll
  split
  · exact restrained_sendAck s true
  · exact .silent (.refl s)

theorem restrained_acknowledge (s : Locked) (f : Frame) : Restrained false s (s.acknowledge f) := by
  unfold acknowledge
  split
  · exact restrained_sendAck s true
  · exact .silent (.modify s _ (.flags ..) fun _ => id)

theorem restrained_rejectSequence (s : Locked) (f : Frame) {b : Bool} (hb : s.conn.rejSent = b) :
    Restrained (!b) s (s.rejectSequence f) := by
  unfold rejectSequence
  rw [hb]
  split
  · next h =>
    rw [h]
    exact restrained_sendRej s f.pf
  · next h =>
    rw [eq_false_of_ne_true h]
    split
    · exact restrained_sendAck s true
    · exact .silent (.refl s)

/-! ### Received I and S frames -/

/-- An I frame out of sequence is answered with a REJ unless one is outstanding. -/
def rejects (c : Conn) (f : Frame) : Bool := f.type == .i && f.ns != c.vr && !c.rejSent

/-- A busy section that receives `f`: acknowledge, answer, flush. -/
def RestrainedTo (s : Locked) (f : Frame) (s' : Locked) : Prop :=
  ∃ t, Restrained (rejects s.conn f) (s.modify (·.ackConn f.nr)) t ∧ Flush t s'

section dataPhase

variable {s : Locked} {f : Frame} (ha : s.conn.va < 8) (hv : s.conn.isValidNr f.nr = true)

theorem rejects_of_s {c : Conn} (hs : f.type = .s) : rejects c f = false := by
  simp [rejects, hs]

theorem rejects_in_sequence {c : Conn} (hns : f.ns = c.vr) : rejects c f = false := by
  simp [rejects, hns]

theorem rejects_out_of_sequence {c : Conn} (hi : f.type = .i) (hns : f.ns ≠ c.vr) :
    rejects c f = !c.rejSent := by
  simp [rejects, hi, hns]

include ha hv

theorem handleReceivedNr_rejSent : (s.conn.handleReceivedNr f.nr).rejSent = s.conn.rejSent := by
  rw [handleReceivedNr_eq ha f.nr_lt hv, ackTimers_rejSent]
  rfl

theorem connectedS_restrainedTo (hs : f.type = .s) : RestrainedTo s f (s.connectedS f).1 := by
  have h₀ := quiet_handleReceivedNr ha hv
  have poll := fun b => Restrained.after (h₀.trans (quiet_peerBusy _ b)) (restrained_answerPoll _ f)
  unfold RestrainedTo connectedS
  simp only [hv, Bool.not_true, Bool.false_eq_true, if_false, rejects_of_s hs]
  split_ifs
  · exact ⟨_, poll false, .sent⟩
  · exact ⟨_, poll true, .none⟩
  · exact ⟨_, (poll false).andThen (quiet_markUntransmitted _ _), .sent⟩
  · exact ⟨_, .silent h₀, .none⟩

theorem connectedI_restrainedTo (hb : s.conn.localBusy = true) (hi : f.type = .i) :
    RestrainedTo s f (s.connectedI f).1 := by
  have h₀ := quiet_handleReceivedNr_i ha hv
  have hbusy : (s.conn.handleReceivedNr f.nr).localBusy = true := h₀.link.localBusy.trans hb
  have hvr : (s.conn.handleReceivedNr f.nr).vr = s.conn.vr := h₀.link.vr
  unfold RestrainedTo connectedI
  simp only [hv, Bool.not_true, Bool.false_eq_true, if_false, modify_conn, hbusy, hvr, if_true]
  split_ifs with hns
  · rw [rejects_in_sequence hns]
    exact ⟨_, (Restrained.after h₀ (restrained_acknowledge _ f)).andThen (quiet_startTimerT3 _),
      .sent⟩
  · rw [rejects_out_of_sequence hi hns]
    exact ⟨_, Restrained.after h₀
      (restrained_rejectSequence _ f (handleReceivedNr_rejSent ha hv)), .sent⟩

theorem timerRecoveryI_restrainedTo (hb : s.conn.localBusy = true) (hi : f.type = .i) :
    RestrainedTo s f (s.timerRecoveryI f).1 := by
  have h₀ := quiet_handleReceivedNr_i ha hv
  have hbusy : (s.conn.handleReceivedNr f.nr).localBusy = true := h₀.link.localBusy.trans hb
  have hvr : (s.conn.handleReceivedNr f.nr).vr = s.conn.vr := h₀.link.vr
  unfold RestrainedTo timerRecoveryI
  simp only [hv, Bool.not_true, Bool.false_eq_true, if_false, modify_conn, hbusy, hvr, if_true]
  split_ifs with hns
  · rw [rejects_in_sequence hns]
    exact ⟨_, Restrained.after h₀ (restrained_acknowledge _ f), .none⟩
  · rw [rejects_out_of_sequence hi hns]
    exact ⟨_, Restrained.after h₀
      (restrained_rejectSequence _ f (handleReceivedNr_rejSent ha hv)), .none⟩

theorem timerRecoveryS_restrainedTo (hst : s.conn.state = .timerRecovery) (hs : f.type = .s) :
    RestrainedTo s f (s.timerRecoveryS f).1 := by
  have h₀ := quiet_concludeIfFinal ha hv hst
  have poll := fun b => Restrained.after (h₀.trans (quiet_peerBusy _ b)) (restrained_answerPoll _ f)
  have settle : ∀ {t : Locked} (b : Bool), Restrained false (s.modify (·.ackConn f.nr)) t →
      ∃ u, Restrained false (s.modify (·.ackConn f.nr)) u ∧ Flush u (t.settleRecovery b) := by
    intro t b ht
    obtain ⟨u, hu, hf⟩ := flush_settleRecovery t b
    exact ⟨u, ht.andThen hu, hf⟩
  unfold RestrainedTo timerRecoveryS
  simp only [hv, Bool.not_true, Bool.false_eq_true, if_false, rejects_of_s hs]
  split
  · exact settle _ (poll false)
  · split
    · exact settle _ (poll true)
    · split
      · exact settle _ ((poll false).andThen (quiet_markUntransmitted _ _))
      · exact settle _ (.silent h₀)

theorem dataHandler_restrainedTo (hl : s.conn.Linked) (hb : s.conn.localBusy = true)
    (hty : f.type = .s ∨ f.type = .i) : RestrainedTo s f (dataHandler s f).1 := by
  unfold dataHandler
  rcases hl with hst | hst <;> rcases hty with hty | hty <;>
    simp only [hst, reduceCtorEq, if_true, if_false, handleFrameConnected,
      handleFrameTimerRecovery, hty]
  · exact connectedS_restrainedTo ha hv hty
  · exact connectedI_restrainedTo ha hv hb hty
  · exact timerRecoveryS_restrainedTo ha hv hst hty
  · exact timerRecoveryI_restrainedTo ha hv hb hty

end dataPhase

/-- **An I or S frame at a busy receiver**: only RNR, unless the frame is rejected. -/
theorem dataHandler_rnrOnly {c : Conn} (hw : WindowInv c) (hl : c.Linked) (hb : c.localBusy = true)
    {f : Frame} (hty : f.type = .s ∨ f.type = .i) (hv : c.isValidNr f.nr = true) :
    (∀ a ∈ (dataHandler ⟨c, []⟩ f).1.deferred, RnrOnly a) ↔ rejects c f = false := by
  obtain ⟨t, hres, hf⟩ := dataHandler_restrainedTo (s := ⟨c, []⟩) hw.va_lt hv hl hb hty
  have hw₁ : WindowInv (c.ackConn f.nr) := WindowInv.received (s := ⟨c, []⟩) hw hv .ack
  have hwt := hw₁.sameLink hres.link
  obtain ⟨l, hl, hlen, hrej⟩ := hres.reply hb (show (0 : Nat) < maxDeferredActions by decide)
  rw [modify_deferred, List.nil_append] at hl
  obtain ⟨qs, -, hdef, -⟩ := hf.recorded hwt (by rw [hl]; omega)
  rw [hdef, hl]
  constructor
  · intro hall
    by_contra hr
    rw [if_pos (eq_true_of_ne_false hr)] at hrej
    obtain ⟨pf, rfl⟩ := hrej
    exact not_rnrOnly_rej hw₁.vr_lt pf false
      (hall _ (List.mem_append_left _ List.mem_cons_self))
  · intro hr a ha
    rw [if_neg (by rw [hr]; decide)] at hrej
    rcases List.mem_append.mp ha with ha | ha
    · obtain ⟨pf, rfl⟩ := hrej a ha
      exact rnrOnly_rnr hw₁.vr_lt pf false
    · obtain ⟨q, -, rfl⟩ := List.mem_map.mp ha
      exact rnrOnly_slotFrame _ q

/-! ### A step that does not break it -/

/-- One section of a busy session. What is known of the body fills in what the
branches leave open: the answers to frames and the expiry of T2. -/
theorem SectionStep.busy {c : Conn} {op : Op} {s : Locked} {ret : EspErr}
    (h : SectionStep c op s (.returned ret)) (hbody : op.body ⟨c, []⟩ = (s, .returned ret))
    (hw : WindowInv c) (hb : Busy c) (hok : ¬ Breaks c (.call op false false))
    (hready : ¬ SetsReady (.call op false false)) (hpeer : ∀ f, op = .onFrame f → ¬ Foreign c f) :
    (s.conn.state = .disconnected ∨ Busy s.conn) ∧ ∀ a ∈ s.deferred, RnrOnly a := by
  cases h with
  | reject f => exact ⟨Or.inr hb, by simp⟩
  | relink f hl hu hsabm => exact absurd (Or.inl ⟨hl, hpeer f rfl, Or.inl ⟨hu, Or.inl hsabm⟩⟩) hok
  | teardown pre hne hlen hf =>
      refine ⟨Or.inl rfl, fun a ha => ?_⟩
      rcases List.mem_append.mp ha with ha | ha
      · cases hf a ha with
        | error => trivial
        | ua pf | dm pf => exact rnrOnly_uFrame _ _ _ _
      · rcases List.mem_pair.mp ha with rfl | rfl <;> trivial
  | reestablish f c₀ msg ret hl hc =>
      rcases hc with ⟨hu, hf, -⟩ | ⟨hty, hv, -⟩
      · exact absurd (Or.inl ⟨hl, hpeer f rfl, Or.inl ⟨hu, Or.inr hf⟩⟩) hok
      · exact absurd (Or.inl ⟨hl, hpeer f rfl, Or.inr ⟨hty, hv⟩⟩) hok
  | data f hl hty hv hr ht hd =>
      rw [hr.of_busy hb.localBusy] at ht
      refine ⟨Or.inr ⟨ht.link.localBusy.trans hb.localBusy, Or.inl (ht.link.linked hl)⟩, ?_⟩
      subst hd
      refine (dataHandler_rnrOnly hw hl hb.localBusy hty hv).2 (Bool.eq_false_iff.2 fun hrej => ?_)
      simp only [rejects, Bool.and_eq_true, beq_iff_eq, bne_iff_ne, Bool.not_eq_true'] at hrej
      exact hok (Or.inr ⟨hl, hpeer f rfl, hrej.1.1, hv, hrej.1.2, hrej.2⟩)
  | dial a ds hst => rcases hb.session with (h | h) | h <;> cases h.symm.trans hst
  | send data hl h₀ h₁ hq ht hs =>
      obtain ⟨hroom, -, rfl⟩ := queueIFrame_ok hq
      have hflush := @Flush.sent ⟨c.queued data, []⟩
      rw [hs] at hflush
      obtain ⟨qs, -, hdef, -⟩ := hflush.recorded (hw.queued hroom h₀ h₁) (Nat.zero_le _)
      refine ⟨Or.inr ⟨ht.link.localBusy.trans hb.localBusy, Or.inl (ht.link.linked hl)⟩,
        fun a ha => ?_⟩
      rw [hdef] at ha
      obtain ⟨q, -, rfl⟩ := List.mem_map.mp ha
      exact rnrOnly_slotFrame _ q
  | release => exact ⟨Or.inr ⟨hb.localBusy, Or.inr rfl⟩, by simp⟩
  | busyQuiet b hl hne =>
      cases b with
      | true => exact absurd hb.localBusy hne
      | false => exact absurd trivial hready
  | busyOn hl h => rw [hb.localBusy] at h; cases h
  | busyOff => exact absurd trivial hready
  | retry => exact ⟨Or.inr ⟨hb.localBusy, hb.session⟩, by simp⟩
  | poll r hl hr hlt => exact absurd ⟨hl, hr ▸ hlt⟩ hok
  | t2Ack a hl hp =>
      refine ⟨Or.inr ⟨hb.localBusy, hb.session⟩, ?_⟩
      simp only [Op.body, timerT2Callback, show c.state = .connected ∨ c.state = .timerRecovery
        from hl, if_true, hp, sendAck, hb.localBusy, sendRnr, sendSFrame, sendFrameInternal_nil,
        Locked.modify, Prod.mk.injEq, Locked.mk.injEq] at hbody
      rw [← hbody.1.2]
      simpa using rnrOnly_rnr hw.vr_lt false false
  | t3Poll hst => exact absurd hst hok
  | _ => exact ⟨Or.inr hb, by simp⟩

/-- A run of which no step is `set_busy(false)` and that ends with the session. -/
inductive Period : Conn → List Event → Prop
  | nil (c : Conn) : Period c []
  | cons {c : Conn} (e : Event) {es : List Event} : c.state ≠ .disconnected → ¬ SetsReady e →
      Period (c.step e).conn es → Period c (e :: es)

/-- `P` holds of each step of the run, and of the context that it finds. -/
def EachStep (P : Conn → Event → Prop) : Conn → List Event → Prop
  | _, [] => True
  | c, e :: es => P c e ∧ EachStep P (c.step e).conn es

/-- A call does not see the pool, nor, apart from its timer, the expiry. -/
theorem breaks_taken {c : Conn} {op : Op} {heap refuses : Bool}
    (h : Breaks (op.consumeExpiry c).taken (.call op false false)) :
    Breaks c (.call op heap refuses) := by
  cases op <;> exact h

theorem setsReady_call {op : Op} {heap refuses : Bool}
    (h : SetsReady (.call op false false)) : SetsReady (.call op heap refuses) := by
  cases op with
  | setBusy b => cases b <;> exact h
  | _ => exact h

theorem Busy.step {c : Conn} (h : SeqInv c) (hb : Busy c) {e : Event} (hready : ¬ SetsReady e)
    (hok : ¬ Breaks c e) :
    ((c.step e).conn.state = .disconnected ∨ Busy (c.step e).conn) ∧
      ∀ a ∈ (c.step e).out, RnrOnly a := by
  cases e with
  | call op heap refuses =>
      by_cases hfor : ∃ f, op = .onFrame f ∧ Foreign c f
      · obtain ⟨f, rfl, hf⟩ := hfor
        rw [step_foreign h hb.session_ne hf]
        exact ⟨Or.inr hb, by simp⟩
      have hc := call_cases h op heap refuses
      have hok : ¬ Breaks (op.consumeExpiry c).taken (.call op false false) :=
        fun hbr => hok (breaks_taken hbr)
      have hready : ¬ SetsReady (.call op false false) := fun hr => hready (setsReady_call hr)
      have hpeer : ∀ f, op = .onFrame f → ¬ Foreign (op.consumeExpiry c).taken f := by
        rintro f rfl hf
        exact hfor ⟨f, rfl, hf⟩
      obtain ⟨t1, t2, t3, ht⟩ := consumeExpiry_cases op c
      have hb : Busy (op.consumeExpiry c) := by rw [ht]; exact ⟨hb.localBusy, hb.session⟩
      have h := h.consumeExpiry op
      generalize op.consumeExpiry c = c₀ at hc hok hpeer hb h
      generalize c.step (.call op heap refuses) = r at hc
      cases hc with
      | early => exact ⟨Or.inr hb, by simp⟩
      | returned ret hp hsec hbody =>
          obtain ⟨h₁, h₂⟩ := hsec.busy hbody (h.window.congr rfl rfl rfl rfl rfl)
            ⟨hb.localBusy, hb.session⟩ hok hready hpeer
          exact ⟨h₁.imp_right fun h₁ => ⟨h₁.localBusy, h₁.session⟩, h₂⟩
      | told hp hsec =>
          -- a session that is up does not wait for a UA
          have hac : c₀.state ≠ .awaitingConnection := by
            rcases hb.session with (h | h) | h <;> rw [h] <;> decide
          cases hsec with
          | opened f hac' | collision f hac' => exact absurd hac' hac
      | asked f hop hp hd => exact absurd hd hb.session_ne
  | refuse =>
      simp only [Conn.step, Conn.refuse, h.initialized, Bool.not_true, Bool.false_eq_true, if_false]
      exact ⟨Or.inr ⟨hb.localBusy, hb.session⟩, by simp⟩
  | fire t => cases t <;> exact ⟨Or.inr ⟨hb.localBusy, hb.session⟩, by simp [Conn.step]⟩

/-! ### A step that does -/

/-- What a timer callback sends. -/
theorem step_timer_out {c : Conn} (h : SeqInv c) {op : Op} (ht : op.isTimer = true)
    (heap refuses : Bool) : (c.step (.call op heap refuses)).out =
      (op.body ⟨(op.consumeExpiry c).taken, []⟩).1.deferred := by
  cases op with
  | timerT1 | timerT2 | timerT3 =>
      simp only [Conn.step, Op.call, Op.consumeExpiry, Op.precheck, h.cookie, h.initialized,
        bne_self_eq_false, Bool.not_true, Bool.or_self, Bool.false_eq_true, if_false, Conn.locked,
        Op.body, Call.settle]
      rw [acquireDeferred_of_free (by exact h.pool)]
  | _ => cases ht

/-- The poll of T1. -/
theorem timerT1_polls {c : Conn} (h : T1Polls c) :
    (timerT1Callback ⟨c, []⟩).deferred = [c.rrPoll] := by
  obtain ⟨hst | hst, hlt⟩ := h
  · rw [hst, if_pos rfl] at hlt
    simp only [timerT1Callback, hst, pollOrFail, Locked.modify, ge_iff_le, UInt8.not_le.mpr hlt,
      if_false, sendRr, sendSFrame, sendFrameInternal_nil]
    rfl
  · rw [hst, if_neg (by decide)] at hlt
    simp only [timerT1Callback, hst, pollOrFail, Locked.modify, ge_iff_le, UInt8.not_le.mpr hlt,
      if_false, sendRr, sendSFrame, sendFrameInternal_nil]
    rfl

/-- A link reset clears the flag and does not end the session. -/
theorem ResetsLink.cleared {c : Conn} {f : Frame} (h : ResetsLink c f) :
    (dataHandler ⟨c, []⟩ f).1.conn.localBusy = false ∧
      (dataHandler ⟨c, []⟩ f).1.conn.state ≠ .disconnected := by
  obtain ⟨hl, -, ⟨hu, hsabm | hfrmr⟩ | ⟨hty, hv⟩⟩ := h
  · rcases hl with hst | hst
    · obtain ⟨path, hpath⟩ := adopt_eq c f
      simp only [dataHandler, hst, if_true, handleFrameConnected, hu, connectedU, hsabm,
        deferOnLinkReset, deferAction_nil, Locked.modify, sendUa, sendUFrame, sendFrameInternal_one]
      rw [show (c.setConnPathFromFrame f).seedT1ForPath = _ from hpath]
      exact ⟨rfl, fun hd => by cases hst.symm.trans hd⟩
    · rw [dataHandler_relink hst hu hsabm]
      exact ⟨rfl, fun hd => by cases hd⟩
  · rcases hl with hst | hst
    · simp only [dataHandler, hst, if_true, handleFrameConnected, hu, connectedU, hfrmr,
        modify_conn, sendSabm, sendUFrame]
      exact ⟨rfl, fun hd => by cases hd⟩
    · simp only [dataHandler, hst, reduceCtorEq, if_true, handleFrameTimerRecovery, hu,
        timerRecoveryU, hfrmr, if_false, modify_conn, sendSabm, sendUFrame]
      exact ⟨rfl, fun hd => by cases hd⟩
  · have hend : ∀ msg, (startNrErrorRecovery ⟨c, []⟩ msg).1.conn.localBusy = false ∧
        (startNrErrorRecovery ⟨c, []⟩ msg).1.conn.state ≠ .disconnected := by
      intro msg
      simp only [startNrErrorRecovery, modify_conn, sendSabm, sendUFrame, sendFrameInternal_conn]
      exact ⟨rfl, fun hd => by cases hd⟩
    rcases hl with hst | hst <;> rcases hty with hty | hty <;>
      simp only [dataHandler, hst, reduceCtorEq, if_true, if_false, handleFrameConnected,
        handleFrameTimerRecovery, hty, connectedS, connectedI, timerRecoveryS, timerRecoveryI, hv,
        Bool.not_false] <;> exact hend _

theorem Breaks.not_honours {c : Conn} (h : SeqInv c) (hb : Busy c) {e : Event} (hbr : Breaks c e) :
    ¬ Honours c e := by
  rintro ⟨hstays, hquiet⟩
  cases e with
  | call op heap refuses =>
      cases op with
      | timerT1 =>
          rw [step_timer_out h rfl] at hquiet
          simp only [Op.body] at hquiet
          rw [timerT1_polls (c := ((Op.timerT1).consumeExpiry c).taken) hbr] at hquiet
          exact not_rnrOnly_rrPoll h.window.vr_lt (hquiet _ List.mem_cons_self)
      | timerT3 =>
          rw [step_timer_out h rfl] at hquiet
          simp only [Op.body, timerT3Callback, show ((Op.timerT3).consumeExpiry c).taken.state =
            .connected from hbr, if_true, sendRr, sendSFrame, sendFrameInternal_nil,
            modify_deferred] at hquiet
          exact not_rnrOnly_rrPoll h.window.vr_lt (hquiet _ List.mem_cons_self)
      | onFrame f =>
          rcases hbr with hreset | ⟨hl, hfor, hi, hv, hns, hrej⟩
          · rw [step_linked h hreset.1 hreset.2.1] at hstays
            obtain ⟨hbusy, hst⟩ := ResetsLink.cleared (c := c.taken) hreset
            rcases hstays with hstays | hstays
            · exact absurd (hbusy.symm.trans hstays) (by decide)
            · exact hst hstays
          · rw [step_linked h hl hfor] at hquiet
            have hnone := (dataHandler_rnrOnly (c := c.taken)
              (h.window.congr rfl rfl rfl rfl rfl) hl hb.localBusy (Or.inr hi) hv).1 hquiet
            rw [rejects_out_of_sequence (c := c.taken) hi hns,
              show c.taken.rejSent = false from hrej] at hnone
            cases hnone
      | _ => exact hbr
  | refuse | fire => exact hbr

/-! ### Runs -/

/-- **A step of a busy session honours local busy unless it is one that breaks it.** -/
theorem honours_iff {c : Conn} (h : SeqInv c) (hb : Busy c) {e : Event} (hready : ¬ SetsReady e) :
    Honours c e ↔ ¬ Breaks c e := by
  refine ⟨fun hh hbr => hbr.not_honours h hb hh, fun hok => ?_⟩
  obtain ⟨hend, hout⟩ := hb.step h hready hok
  exact ⟨hend.symm.imp_left fun hb => hb.localBusy, hout⟩

theorem Period.iff {es : List Event} : ∀ {c : Conn}, SeqInv c →
    (c.state = .disconnected ∨ Busy c) → Period c es →
    (EachStep Honours c es ↔ EachStep (fun c e => ¬ Breaks c e) c es) := by
  induction es with
  | nil => exact fun _ _ _ => Iff.rfl
  | cons e es ih =>
      intro c h hb hp
      cases hp with
      | cons e hst hready hp =>
          have hb := hb.resolve_left hst
          have hone := honours_iff h hb hready
          constructor
          · rintro ⟨hh, hrest⟩
            have hok := hone.1 hh
            exact ⟨hok, (ih (h.step e) (hb.step h hready hok).1 hp).1 hrest⟩
          · rintro ⟨hok, hrest⟩
            exact ⟨hone.2 hok, (ih (h.step e) (hb.step h hready hok).1 hp).2 hrest⟩

/-- `set_busy(true)` on a link that is up, under the mutex. -/
theorem setBusy_linked {c : Conn} (hl : c.Linked) (hvr : c.vr < 8) :
    Busy (setBusy ⟨c, []⟩ true).conn ∧ ∀ a ∈ (setBusy ⟨c, []⟩ true).deferred, RnrOnly a := by
  cases hb : c.localBusy with
  | true =>
      simp only [setBusy, hb, ne_eq, not_true_eq_false, if_false]
      exact ⟨⟨hb, Or.inl hl⟩, by simp⟩
  | false =>
      have hst : c.state = .connected ∨ c.state = .timerRecovery := hl
      simp only [setBusy, hb, ne_eq, Bool.false_eq_true, not_false_eq_true, if_true, Locked.modify,
        hst, sendRnr, sendSFrame, sendFrameInternal_nil]
      refine ⟨⟨rfl, Or.inl hl⟩, ?_⟩
      simp only [List.mem_singleton, forall_eq]
      exact rnrOnly_rnr (c := c) hvr false false

/-- `set_busy(true)` on a link that is up. -/
theorem step_setBusy {c : Conn} (h : SeqInv c) (hl : c.Linked) (heap refuses : Bool) :
    Busy (c.step (.call (.setBusy true) heap refuses)).conn ∧
      Honours c (.call (.setBusy true) heap refuses) := by
  have hs := setBusy_linked (c := c.taken) hl h.window.vr_lt
  have hstep : Busy (c.step (.call (.setBusy true) heap refuses)).conn ∧
      ∀ a ∈ (c.step (.call (.setBusy true) heap refuses)).out, RnrOnly a := by
    simp only [Conn.step, Op.call, Op.consumeExpiry, Op.precheck, h.initialized, Bool.not_true,
      Bool.false_eq_true, if_false, Conn.locked, acquireDeferred_of_free h.pool, Op.body,
      Call.settle, release, releaseDeferred]
    split_ifs
    · exact hs
    · exact ⟨⟨hs.1.localBusy, hs.1.session⟩, hs.2⟩
  exact ⟨hstep.1, Or.inl hstep.1.localBusy, hstep.2⟩

/-- **When local busy is honoured.** From `set_busy(true)` on a link that is up until
`set_busy(false)` or the end of the session, the flag stays set, no payload is passed on and every
supervisory frame is an RNR exactly if no step polls with T1 or T3, resets the link, or answers an
I frame out of sequence with a REJ. -/
theorem busy_honoured_exact {c : Conn} (h : Reachable c) (hl : c.Linked) (heap refuses : Bool)
    {es : List Event} (hp : Period (c.step (.call (.setBusy true) heap refuses)).conn es) :
    EachStep Honours c (.call (.setBusy true) heap refuses :: es) ↔
      EachStep (fun c e => ¬ Breaks c e) c (.call (.setBusy true) heap refuses :: es) := by
  obtain ⟨hb, hh⟩ := step_setBusy h.seqInv hl heap refuses
  have hrest := hp.iff (h.seqInv.step _) (Or.inr hb)
  exact ⟨fun hall => ⟨fun hbr => hbr, hrest.1 hall.2⟩, fun hall => ⟨hh, hrest.2 hall.2⟩⟩

/-- An I frame in sequence, received while busy. -/
def sampleInfo : Frame :=
  { sampleSabm with type := .i, control := frameBuildIControl 0 0 true, payload := [1] }

/-- An I frame while busy, and then an expiry of T2. -/
theorem busy_honoured_exact_i :
    EachStep Honours sampleLink [.call (.setBusy true) false false,
      .call (.onFrame sampleInfo) false false, .call .timerT2 false false] := by
  refine (busy_honoured_exact reachable_sampleLink (by decide) false false
    (.cons _ (by decide) (by exact id) (.cons _ (by decide) (by exact id) (.nil _)))).2
    ⟨fun h => h, fun h => ?_, fun h => h, trivial⟩
  rcases h with ⟨-, -, ⟨h, -⟩ | ⟨-, h⟩⟩ | ⟨-, -, -, -, h, -⟩
  · cases h
  · exact absurd h (by decide)
  · exact h (by decide)

/-- A busy connection polls with an RR when T1 expires, and when T3 does, answers an I frame out of
sequence with a REJ, and forgets that it is busy after a SABM, a FRMR and an N(R) outside the
window. -/
theorem busy_poll_and_reset :
    let busy := (sampleLink.step (.call (.setBusy true) false false)).conn
    let received := fun f => busy.step (.call (.onFrame f) false false)
    sampleLink.state = .connected ∧ busy.localBusy = true ∧
      (∃ g, (busy.step (.call .timerT1 false false)).out = [.frame g] ∧ g.type = .s ∧
        g.sType = ctrlRr) ∧
      (∃ g, (busy.step (.call .timerT3 false false)).out = [.frame g] ∧ g.type = .s ∧
        g.sType = ctrlRr) ∧
      (∃ g, (received { sampleInfo with control := frameBuildIControl 1 0 true }).out = [.frame g] ∧
        g.type = .s ∧ g.sType = ctrlRej) ∧
      (received sampleSabm).conn.state = .connected ∧
      (received sampleSabm).conn.localBusy = false ∧
      (received { sampleSabm with control := ctrlFrmr }).conn.state = .awaitingConnection ∧
      (received { sampleSabm with control := ctrlFrmr }).conn.localBusy = false ∧
      (received { sampleInfo with control := frameBuildIControl 0 5 true }).conn.state =
        .awaitingConnection ∧
      (received { sampleInfo with control := frameBuildIControl 0 5 true }).conn.localBusy =
        false :=
  ⟨by decide, by decide, ⟨_, rfl, by decide, by decide⟩, ⟨_, rfl, by decide, by decide⟩,
    ⟨_, rfl, by decide, by decide⟩, by decide, by decide, by decide, by decide, by decide,
    by decide⟩

end EspAx25
