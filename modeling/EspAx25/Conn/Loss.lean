import EspAx25.Conn.Reentry

/-!
# EspAx25.Conn.Loss

What becomes of a payload that `send_data` has accepted.

A slot of the transmit queue is given up by an acknowledgement or by a reset.
Every reset that can find a payload in the queue comes with a notification, with
two exceptions: a SABM that is answered in timer recovery (the connected state
records a link reset there), and the second section of a SABM that was overtaken
by another session. And an acknowledgement is only checked against V(S), so it
may release a payload that has not been sent yet. These are the `Silent` moves;
all others lose nothing silently (`no_silent_loss`).
-/

namespace EspAx25

open Cyclic Conn Locked

namespace Sys

/-- Slot `i` is released by the valid N(R) of a frame. -/
def Acknowledged (y : Sys) (m : Move) (i : Nat) : Prop :=
  ∃ f heap, m = .call (.onFrame f) heap ∧ (f.type = .s ∨ f.type = .i) ∧
    y.conn.isValidNr f.nr = true ∧ Mem 8 y.conn.va f.nr i

/-- A slot that stops being in use was acknowledged, its payload having been
recorded for `on_tx_frame` before; or the application is notified. -/
def NoSilentLoss (y : Sys) (m : Move) : Prop :=
  ∀ i, (y.conn.txQueue i).inUse = true → ((y.step m).conn.txQueue i).inUse = false →
    (y.Acknowledged m i ∧ y.ghost.recorded i = true) ∨ ∃ a ∈ y.records m, a.isNotice = true

/-- `on_frame` gets to the state handler with `f`. -/
def Handles (y : Sys) (f : Frame) (heap : Bool) : Prop :=
  (Op.onFrame f).precheck y.conn = none ∧ (y.conn.acquireDeferred heap).isSome = true ∧
    (y.conn.remoteAddrSet = true → addressEquals f.source y.conn.remoteAddr = true)

/-- The moves that discard a payload silently. -/
def Silent (y : Sys) : Move → Prop
  | .call (.onFrame f) heap => y.Handles f heap ∧
      (y.conn.state = .timerRecovery ∧ f.type = .u ∧ f.uType = ctrlSabm ∧ y.conn.va ≠ y.conn.vs ∨
        y.conn.Linked ∧ (f.type = .s ∨ f.type = .i) ∧ y.conn.isValidNr f.nr = true ∧
          ∃ i, Mem 8 y.conn.va f.nr i ∧ y.ghost.recorded i = false)
  | m => ∃ f, y.deciding m = some f ∧ y.conn.refusePending = false ∧ y.conn.va ≠ y.conn.vs

end Sys

/-! ### A queue without a link is empty -/

/-- While there is no link and none is being released, the sequence variables
are reset. -/
def IdleReset (c : Conn) : Prop :=
  c.state = .disconnected ∨ c.state = .awaitingConnection → c.vs = 0 ∧ c.va = 0 ∧ c.vr = 0

theorem IdleReset.empty {c : Conn} (h : IdleReset c)
    (hst : c.state = .disconnected ∨ c.state = .awaitingConnection) : c.va = c.vs :=
  (h hst).2.1.trans (h hst).1.symm

theorem idleReset_of_linked {c : Conn} (h : c.Linked) : IdleReset c := by
  rcases h with h | h <;> rintro (h' | h') <;> cases h.symm.trans h'

theorem SectionStep.idleReset {c : Conn} {op : Op} {s : Locked} {o : Outcome}
    (h : SectionStep c op s o) (hi : IdleReset c) : IdleReset s.conn := by
  cases h with
  | request f =>
      obtain ⟨p, hp⟩ := adopt_eq { c with remoteAddr := f.source, remoteAddrSet := true } f
      simp only [requested, hp]
      exact hi
  | opened f => exact fun _ => ⟨rfl, rfl, rfl⟩
  | collision f | relink f => exact fun _ => ⟨rfl, rfl, rfl⟩
  | teardown pre => exact fun _ => ⟨rfl, rfl, rfl⟩
  | reestablish f c₀ msg ret hl hc => exact fun _ => ⟨rfl, rfl, rfl⟩
  | data f hl hty hv hr ht hd =>
      refine idleReset_of_linked (ht.link.linked ?_)
      unfold Linked
      rw [hr.state]
      exact hl
  | dial a ds => exact fun _ => ⟨rfl, rfl, rfl⟩
  | send data hl h₀ h₁ hq ht hs =>
      obtain ⟨-, -, rfl⟩ := queueIFrame_ok hq
      exact idleReset_of_linked (ht.link.linked hl)
  | release | poll | t3Poll => rintro (h | h) <;> cases h
  | _ => exact hi

theorem DecideStep.idleReset {c c' : Conn} {f : Frame} {acts : List Action}
    (h : DecideStep c f c' acts) : IdleReset c' := by
  cases h <;> exact fun _ => ⟨rfl, rfl, rfl⟩

theorem Minor.idleReset {c c' : Conn} (h : Minor c c') (hi : IdleReset c) : IdleReset c' := by
  obtain ⟨p, t1, t2, t3, r, rfl⟩ := h
  exact hi

theorem Sys.ReachableVia.idleReset {ok : Sys → Move → Prop} {y : Sys} (h : ReachableVia ok y) :
    IdleReset y.conn := by
  induction h with
  | init h =>
      obtain rfl := init_ok h
      exact fun _ => ⟨rfl, rfl, rfl⟩
  | @step y m hok h ih =>
      have hmove := move_cases h.sysInv m
      generalize (y.step m).conn = c', y.records m = acts at hmove
      cases hmove with
      | minor hd hm => exact hm.idleReset ih
      | locked op heap hr hm hp hb hs => exact hs.idleReset (hm.idleReset ih)
      | decided f hf hd => exact hd.idleReset

/-- An empty window has no slot in use. -/
theorem WindowInv.inUse_of_eq {c : Conn} (h : WindowInv c) (he : c.va = c.vs) (i : Nat) :
    (c.txQueue i).inUse = false := by
  cases hu : (c.txQueue i).inUse with
  | false => rfl
  | true =>
      have hm := (h.inUse i).mp hu
      rw [he] at hm
      exact absurd hm not_mem_self

/-- A window that is not empty has its first slot in use. -/
theorem WindowInv.inUse_va {c : Conn} (h : WindowInv c) (hne : c.va ≠ c.vs) :
    (c.txQueue c.va).inUse = true :=
  (h.inUse _).mpr (mem_left h.va_lt hne)

/-! ### What a section releases -/

theorem ackConn_inUse {c : Conn} {nr i : Nat} :
    ((c.ackConn nr).txQueue i).inUse = true ↔
      (c.txQueue i).inUse = true ∧ ¬ Mem 8 c.va nr i := by
  simp only [ackConn, mapSlots]
  split
  · next h => simp [h]
  · next h => simp [h]

theorem Received.inUse {s s₁ : Locked} {f : Frame} (h : Received s f s₁) (i : Nat) :
    (s₁.conn.txQueue i).inUse = true ↔
      (s.conn.txQueue i).inUse = true ∧ ¬ Mem 8 s.conn.va f.nr i := by
  cases h with
  | ack => exact ackConn_inUse
  | data => rw [consume_conn]; exact ackConn_inUse

/-- A section that gives up a slot tells the application, or resets the link
from timer recovery, or acknowledges the slot. -/
theorem SectionStep.released {c : Conn} {op : Op} {s : Locked} {o : Outcome}
    (h : SectionStep c op s o) (hw : WindowInv c) (hidle : IdleReset c) {i : Nat}
    (hi : (c.txQueue i).inUse = true) (hi' : (s.conn.txQueue i).inUse = false) :
    (∃ a ∈ s.deferred, a.isNotice = true) ∨
      ∃ f, op = .onFrame f ∧
        (c.state = .timerRecovery ∧ f.type = .u ∧ f.uType = ctrlSabm ∨
          c.Linked ∧ (f.type = .s ∨ f.type = .i) ∧ c.isValidNr f.nr = true ∧
            Mem 8 c.va f.nr i) := by
  -- without a link there is nothing to give up
  have hnone : ¬ (c.state = .disconnected ∨ c.state = .awaitingConnection) := by
    intro hst
    rw [hw.inUse_of_eq (hidle.empty hst)] at hi
    cases hi
  have hsame : ∀ {c' : Conn}, c'.txQueue = c.txQueue → (c'.txQueue i).inUse = false → False := by
    intro c' hq hf
    rw [hq, hi] at hf
    cases hf
  cases h with
  | request f hst => exact absurd (Or.inl hst) hnone
  | opened f hst | collision f hst => exact absurd (Or.inr hst) hnone
  | dial a ds hst => exact absurd (Or.inl hst) hnone
  | relink f hl hu hsabm =>
      rcases hl with hst | hst
      · exact Or.inl ⟨.linkReset, by simp [hst], rfl⟩
      · exact Or.inr ⟨f, rfl, Or.inl ⟨hst, hu, hsabm⟩⟩
  | teardown pre => exact Or.inl ⟨.disconnect, by simp, rfl⟩
  | reestablish f c₀ msg ret hl hc => exact Or.inl ⟨_, List.mem_cons_self, rfl⟩
  | data f hl hty hv hr ht hd =>
      refine Or.inr ⟨f, rfl, Or.inr ⟨hl, hty, hv, ?_⟩⟩
      rw [ht.link.inUse] at hi'
      by_contra hm
      rw [(hr.inUse i).mpr ⟨hi, hm⟩] at hi'
      cases hi'
  | send data hl h₀ h₁ hq ht hs =>
      obtain ⟨-, hfree, rfl⟩ := queueIFrame_ok hq
      have hne : i ≠ c.vs := by
        intro heq
        subst heq
        rw [hfree] at hi
        cases hi
      rw [ht.link.inUse] at hi'
      simp only [queued, Function.update_of_ne hne, hi] at hi'
      cases hi'
  | _ => exact absurd hi' (hsame rfl)

/-! ### The silent moves -/

/-- The state handler of a link that is up. -/
theorem onFrame_linked {c : Conn} (hl : c.Linked) {f : Frame}
    (hsrc : c.remoteAddrSet = true → addressEquals f.source c.remoteAddr = true) :
    onFrame ⟨c, []⟩ f = ((dataHandler ⟨c, []⟩ f).1, .returned (dataHandler ⟨c, []⟩ f).2) := by
  unfold onFrame dataHandler
  rw [if_neg (fun h => by simp [hsrc h.1] at h)]
  rcases hl with hst | hst <;> simp [hst]

/-- The SABM in timer recovery: every slot is given up, and only a UA is
recorded. -/
theorem dataHandler_relink {c : Conn} (hst : c.state = .timerRecovery) {f : Frame}
    (hu : f.type = .u) (hsabm : f.uType = ctrlSabm) :
    (dataHandler ⟨c, []⟩ f).1 = ⟨(c.adopt f).linkUp, [(c.adopt f).uFrame false ctrlUa f.pf]⟩ := by
  simp only [dataHandler, hst, reduceCtorEq, if_false, handleFrameTimerRecovery, hu,
    timerRecoveryU, hsabm, if_true, linkUp, cleared, adopt, uFrame, outFrame, Locked.modify,
    resetStateVars, clearTxQueue, stopTimerT1, startTimerT3, sendUa, sendUFrame,
    sendFrameInternal_nil]

/-- An I or S frame never makes the data-transfer states notify. -/
theorem Received.no_notice {s s₁ : Locked} {f : Frame} (h : Received s f s₁)
    (hs : ∀ a ∈ s.deferred, a.isNotice = false) : ∀ a ∈ s₁.deferred, a.isNotice = false := by
  intro a ha
  cases h with
  | ack => exact hs a ha
  | data =>
      simp only [Locked.consume, deferOnData] at ha
      split_ifs at ha
      · exact hs a ha
      · rw [deferAction_deferred] at ha
        split_ifs at ha
        · exact hs a ha
        · rcases List.mem_append.mp ha with ha | ha
          · exact hs a ha
          · rw [List.mem_singleton.mp ha]; rfl
      · exact hs a ha

theorem Emits.no_notice {c : Conn} {a : Action} (h : Emits c a) : a.isNotice = false := by
  cases h <;> rfl

/-- An I or S frame with a valid N(R): the slots it acknowledges are given up,
without notice. -/
theorem dataHandler_acknowledged {c : Conn} (hw : WindowInv c) (hl : c.Linked) {f : Frame}
    (hty : f.type = .s ∨ f.type = .i) (hv : c.isValidNr f.nr = true) :
    (∀ i, Mem 8 c.va f.nr i → ((dataHandler ⟨c, []⟩ f).1.conn.txQueue i).inUse = false) ∧
      ∀ a ∈ (dataHandler ⟨c, []⟩ f).1.deferred, a.isNotice = false := by
  obtain ⟨⟨s₁, t, hr, hq, hf⟩, -⟩ := @dataPhase ⟨c, []⟩ f hw.va_lt hl hty hv
  have hw₁ := WindowInv.received (s := ⟨c, []⟩) hw hv hr
  have ht := hq.transfer.trans
    (hf.transfer (hq.link.va ▸ hw₁.va_lt) (hq.link.vs ▸ hw₁.vs_lt))
  obtain ⟨l, hl', hem⟩ := ht.emits
  refine ⟨fun i hi => ?_, fun a ha => ?_⟩
  · rw [ht.link.inUse]
    cases hu : (s₁.conn.txQueue i).inUse with
    | false => rfl
    | true => exact absurd hi ((hr.inUse i).mp hu).2
  · rw [hl'] at ha
    rcases List.mem_append.mp ha with ha | ha
    · exact hr.no_notice (by simp) a ha
    · exact (hem a ha).no_notice

/-- A frame that is handled on a link: the move is the data handler, run on the
context with a buffer taken. -/
theorem step_handled {y : Sys} {f : Frame} {heap : Bool} (hh : y.Handles f heap)
    (hl : y.conn.Linked) : ∃ c₀, Minor y.conn c₀ ∧
      (y.step (.call (.onFrame f) heap)).conn = (dataHandler ⟨c₀, []⟩ f).1.conn ∧
      y.records (.call (.onFrame f) heap) = (dataHandler ⟨c₀, []⟩ f).1.deferred := by
  obtain ⟨hp, hbuf, hsrc⟩ := hh
  obtain ⟨⟨b, c₀⟩, ha⟩ := Option.isSome_iff_exists.mp hbuf
  have hm := minor_acquireDeferred ha
  have hsrc₀ : c₀.remoteAddrSet = true → addressEquals f.source c₀.remoteAddr = true := by
    obtain ⟨p, t1, t2, t3, r, rfl⟩ := hm
    exact hsrc
  have hbody := onFrame_linked (hm.linked hl) hsrc₀
  refine ⟨c₀, hm, ?_, ?_⟩
  · simp only [Sys.step, Op.call, Op.consumeExpiry, hp, Conn.locked, ha, Op.body, hbody]
  · simp only [Sys.records, Op.call, Op.consumeExpiry, hp, Conn.locked, ha, Op.body, hbody]

/-- A call that has got past its checks and holds a buffer has acquired one. -/
theorem acquired_of_call {c c' : Conn} {f : Frame} {heap : Bool} {b : Buffer} {acts : List Action}
    {o : Outcome} (hp : (Op.onFrame f).precheck c = none)
    (hc : (Op.onFrame f).call heap c = ⟨c', some b, acts, o⟩) :
    (c.acquireDeferred heap).isSome = true := by
  simp only [Op.call, Op.consumeExpiry, hp, Conn.locked] at hc
  cases ha : c.acquireDeferred heap with
  | some r => rfl
  | none =>
      rw [ha] at hc
      cases hc

theorem linkUp_inUse (c : Conn) {i : Nat} (hi : i < 8) : (c.linkUp.txQueue i).inUse = false := by
  simp [linkUp, cleared, hi]

/-- A silent move does lose a payload silently. -/
theorem Sys.Silent.loses {y : Sys} (h : SysInv y) {m : Move} (hs : y.Silent m) :
    ¬ y.NoSilentLoss m := by
  have hw := h.window
  intro hno
  -- the second section of an overtaken SABM
  have hdecide : (∃ f, y.deciding m = some f ∧ y.conn.refusePending = false ∧
      y.conn.va ≠ y.conn.vs) → False := by
    intro hsome
    obtain ⟨f, hf, hrefuse, hne⟩ := hsome
    have hnot : ∀ i, ¬ y.Acknowledged m i := by
      rintro i ⟨f', heap, rfl, -⟩
      cases hf
    have hdec := move_decides h hf
    have hloss := hno y.conn.va (hw.inUse_va hne)
    generalize (y.step m).conn = c', y.records m = acts at hdec hloss
    cases hdec with
    | refused hr => rw [hrefuse] at hr; cases hr
    | accepted =>
        rcases hloss (by simp [startTimerT3, cleared, hw.va_lt]) with ⟨ha, -⟩ | ⟨a, ha, hn⟩
        · exact hnot _ ha
        · rw [List.mem_singleton.mp ha] at hn
          cases hn
  cases m with
  | call op heap =>
      cases op with
      | onFrame f =>
          obtain ⟨hh, ⟨hst, hu, hsabm, hne⟩ | ⟨hl, hty, hv, i, hi, hrec⟩⟩ := hs
          · -- a SABM in timer recovery
            obtain ⟨c₀, hm, hconn, hacts⟩ := step_handled hh (Or.inr hst)
            have hres := dataHandler_relink (hm.state.trans hst) hu hsabm
            have hloss := hno y.conn.va (hw.inUse_va hne)
            rw [hconn, hacts, hres] at hloss
            rcases hloss (linkUp_inUse _ hw.va_lt) with ⟨⟨f', heap', heq, hty, -⟩, -⟩ | ⟨a, ha, hn⟩
            · cases heq
              rcases hty with hty | hty <;> cases hu.symm.trans hty
            · rw [List.mem_singleton.mp ha] at hn
              cases hn
          · -- an acknowledgement of something that was never sent
            obtain ⟨c₀, hm, hconn, hacts⟩ := step_handled hh hl
            obtain ⟨hgone, hquiet⟩ := dataHandler_acknowledged (hm.window hw) (hm.linked hl) hty
              (hm.isValidNr ▸ hv)
            have hd := (isValidNr_iff hw.va_lt hw.vs_lt f.nr_lt).mp hv
            have huse : (y.conn.txQueue i).inUse = true :=
              (hw.inUse i).mpr ⟨hi.1, Nat.lt_of_lt_of_le hi.2 hd⟩
            have hloss := hno i huse
            rw [hconn, hacts] at hloss
            rcases hloss (hgone i (hm.va ▸ hi)) with ⟨-, hrec'⟩ | ⟨a, ha, hn⟩
            · cases hrec.symm.trans hrec'
            · cases (hquiet a ha).symm.trans hn
      | _ => exact hdecide hs
  | _ => exact hdecide hs

/-- A move that is not silent loses nothing silently. -/
theorem noSilentLoss_of_not_silent {y : Sys} (h : SysInv y) (hidle : IdleReset y.conn) {m : Move}
    (hs : ¬ y.Silent m) : y.NoSilentLoss m := by
  have hw := h.window
  intro i hi hi'
  have hne : y.conn.va ≠ y.conn.vs := fun he => by
    rw [hw.inUse_of_eq he] at hi
    cases hi
  have hmove := move_cases h m
  generalize (y.step m).conn = c', y.records m = acts at hmove hi' ⊢
  cases hmove with
  | minor hd hm =>
      rw [hm.txQueue, hi] at hi'
      cases hi'
  | decided f hf hd =>
      cases hd with
      | refused hr =>
          have hst : y.conn.state ≠ .disconnected := fun hst => hne (hidle.empty (Or.inl hst))
          exact Or.inr ⟨.disconnect, by simp [hst], rfl⟩
      | accepted hr =>
          refine absurd ?_ hs
          cases m with
          | call op heap => cases hf
          | _ => exact ⟨f, hf, hr, hne⟩
  | locked op heap hc hm hp hb hsec =>
      obtain hnote | ⟨f, rfl, hcase⟩ := hsec.released (hm.window hw) (hm.idleReset hidle)
        (by rw [hm.txQueue]; exact hi) hi'
      · exact Or.inr hnote
      · have hst : y.conn.state ≠ .disconnected := fun hst => hne (hidle.empty (Or.inl hst))
        have hh : y.Handles f heap := by
          refine ⟨hp, acquired_of_call hp hc, fun hset => ?_⟩
          -- a frame that the source filter drops releases nothing
          by_contra hsrc
          have hdrop := onFrame_of_other (s := ⟨_, []⟩) (hm.remoteAddrSet.trans hset)
            (hm.state.symm ▸ hst) (hm.remoteAddr ▸ eq_false_of_ne_true hsrc)
          rw [Op.body, hdrop] at hb
          cases hb
          rw [hm.txQueue, hi] at hi'
          cases hi'
        rw [Linked, hm.state, hm.isValidNr, hm.va] at hcase
        rcases hcase with ⟨htr, hu, hsabm⟩ | ⟨hl, hty, hv, hmem⟩
        · exact absurd ⟨hh, Or.inl ⟨htr, hu, hsabm, hne⟩⟩ hs
        · refine Or.inl ⟨⟨f, heap, rfl, hty, hv, hmem⟩, ?_⟩
          by_contra hrec
          exact hs ⟨hh, Or.inr ⟨hl, hty, hv, i, hmem, eq_false_of_ne_true hrec⟩⟩

/-- **No accepted payload is discarded silently**, except by a silent move. -/
theorem no_silent_loss {y : Sys} (h : y.Reachable) (m : Move) :
    y.NoSilentLoss m ↔ ¬ y.Silent m :=
  ⟨fun hno hs => hs.loses h.sysInv hno, noSilentLoss_of_not_silent h.sysInv h.idleReset⟩

/-- The link of `sampleA` with `sampleB`, after T1 has made it enter timer
recovery with one payload outstanding. -/
def sampleRecovery : Sys :=
  ({ conn := sampleConn } : Sys).run
    [.call (.onFrame sampleSabm) true, .relock 0, .call (.sendData [1]) true, .fire .t1,
      .call .timerT1 true]

theorem no_silent_loss_sample :
    sampleRecovery.Reachable ∧ ¬ sampleRecovery.NoSilentLoss (.call (.onFrame sampleSabm) true) := by
  have h : sampleRecovery.Reachable := Sys.Reachable.run sys_init_sample _
  refine ⟨h, fun hno => (no_silent_loss h _).mp hno ?_⟩
  exact ⟨⟨by decide, by decide, by decide⟩, Or.inl (by decide)⟩

/-- There a SABM of the peer discards the payload: its slot is free afterwards,
and all that the call records is a UA. -/
theorem relink_in_recovery_discards :
    let m : Move := .call (.onFrame sampleSabm) true
    sampleRecovery.Reachable ∧ (sampleRecovery.conn.txQueue 0).inUse = true ∧
      ((sampleRecovery.step m).conn.txQueue 0).inUse = false ∧
      (∀ a ∈ sampleRecovery.records m, a.isNotice = false) ∧ ¬ sampleRecovery.NoSilentLoss m := by
  have hbefore : (sampleRecovery.conn.txQueue 0).inUse = true := by decide
  have hafter : ((sampleRecovery.step (.call (.onFrame sampleSabm) true)).conn.txQueue 0).inUse =
      false := by decide
  have hquiet : ∀ a ∈ sampleRecovery.records (.call (.onFrame sampleSabm) true),
      a.isNotice = false := by decide
  refine ⟨Sys.Reachable.run sys_init_sample _, hbefore, hafter, hquiet, fun hno => ?_⟩
  rcases hno 0 hbefore hafter with ⟨⟨f, heap, heq, hty, -⟩, -⟩ | ⟨a, ha, hn⟩
  · cases heq
    exact absurd hty (by decide)
  · cases (hquiet a ha).symm.trans hn

end EspAx25
