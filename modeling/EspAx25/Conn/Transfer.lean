import EspAx25.Conn.Machine

/-!
# EspAx25.Conn.Transfer

What the information-transfer phase can do, said once.

`Transfer s s'` relates two points of one locked section between which the code
only plays the sliding-window protocol: it records supervisory and I frames that
are *sound* for the context (`Emits`), and otherwise touches flow-control flags,
`transmitted` flags and timers (`SameLink`).

A `Transfer` has a fixed shape. Everything up to the call of
`send_pending_i_frames` is `Quiet`: no I frame, and slots are at most marked for
retransmission. The I frames come last, all at once (`Flush`). Both compose from
one lemma for each helper.

`dataPhase` is the summary for a received frame: an I or S frame with a valid
N(R) is first accounted for (`Received`), then the section is quiet, then it
flushes. The window invariant, the addressing laws, the busy law and the
reliability of the link all start from it.
-/

namespace EspAx25

open Cyclic Conn Locked

/-! ### The frame condition -/

/-- `c'` differs from `c` only in flow-control flags, `transmitted` flags and
timers; it may have concluded a timer recovery. -/
structure SameLink (c c' : Conn) : Prop where
  static : SameStatic c c'
  remoteAddr : c'.remoteAddr = c.remoteAddr
  remoteAddrSet : c'.remoteAddrSet = c.remoteAddrSet
  path : c'.path = c.path
  vs : c'.vs = c.vs
  vr : c'.vr = c.vr
  va : c'.va = c.va
  localBusy : c'.localBusy = c.localBusy
  state : c'.state = c.state ∨ (c.state = .timerRecovery ∧ c'.state = .connected)
  retry : c'.retryCount = c.retryCount ∨ c'.retryCount = 0
  slot : ∀ i, ∃ b, c'.txQueue i = { c.txQueue i with transmitted := b }

namespace SameLink

@[refl] theorem refl (c : Conn) : SameLink c c :=
  ⟨.refl c, rfl, rfl, rfl, rfl, rfl, rfl, rfl, Or.inl rfl, Or.inl rfl, fun _ => ⟨_, rfl⟩⟩

/-- Any change of the flags and timers that `SameLink` leaves free. -/
theorem flags (c : Conn) (peerBusy rejSent ackPending : Bool) (t1 t2 t3 : Timer) :
    SameLink c
      { c with
        peerBusy := peerBusy, rejSent := rejSent, ackPending := ackPending,
        timerT1 := t1, timerT2 := t2, timerT3 := t3 } :=
  ⟨⟨rfl, rfl, rfl, rfl, rfl, rfl⟩, rfl, rfl, rfl, rfl, rfl, rfl, rfl, Or.inl rfl, Or.inl rfl,
    fun _ => ⟨_, rfl⟩⟩

theorem trans {a b c : Conn} (h₁ : SameLink a b) (h₂ : SameLink b c) : SameLink a c where
  static := h₁.static.trans h₂.static
  remoteAddr := h₂.remoteAddr.trans h₁.remoteAddr
  remoteAddrSet := h₂.remoteAddrSet.trans h₁.remoteAddrSet
  path := h₂.path.trans h₁.path
  vs := h₂.vs.trans h₁.vs
  vr := h₂.vr.trans h₁.vr
  va := h₂.va.trans h₁.va
  localBusy := h₂.localBusy.trans h₁.localBusy
  state := by
    rcases h₁.state with h | ⟨h, h'⟩ <;> rcases h₂.state with k | ⟨k, k'⟩
    · exact Or.inl (k.trans h)
    · exact Or.inr ⟨h ▸ k, k'⟩
    · exact Or.inr ⟨h, k.trans h'⟩
    · exact Or.inr ⟨h, k'⟩
  retry := by
    rcases h₂.retry with k | k
    · rcases h₁.retry with h | h
      · exact Or.inl (k.trans h)
      · exact Or.inr (k.trans h)
    · exact Or.inr k
  slot := by
    intro i
    obtain ⟨b₁, h₁⟩ := h₁.slot i
    obtain ⟨b₂, h₂⟩ := h₂.slot i
    exact ⟨b₂, by rw [h₂, h₁]⟩

variable {c c' : Conn} (h : SameLink c c')
include h

theorem inUse (i : Nat) : (c'.txQueue i).inUse = (c.txQueue i).inUse := by
  obtain ⟨b, hb⟩ := h.slot i; rw [hb]

theorem data (i : Nat) : (c'.txQueue i).data = (c.txQueue i).data := by
  obtain ⟨b, hb⟩ := h.slot i; rw [hb]

theorem len (i : Nat) : (c'.txQueue i).len = (c.txQueue i).len := by
  obtain ⟨b, hb⟩ := h.slot i; rw [hb]

theorem ns (i : Nat) : (c'.txQueue i).ns = (c.txQueue i).ns := by
  obtain ⟨b, hb⟩ := h.slot i; rw [hb]

theorem outFrame (cmd : Bool) (type : FrameType) (ctrl : Byte) :
    Locked.outFrame c' cmd type ctrl = Locked.outFrame c cmd type ctrl := by
  unfold Locked.outFrame
  rw [h.remoteAddr, h.static.localAddr, h.path]

theorem slotFrame (q : Nat) : c'.slotFrame q = c.slotFrame q := by
  unfold Conn.slotFrame Locked.iFrame
  rw [h.outFrame, h.vr, h.data, h.len]

end SameLink

theorem sameLink_setTransmitted (c : Conn) (q : Nat) (b : Bool) :
    SameLink c (c.setTransmitted q b) := by
  refine ⟨⟨rfl, rfl, rfl, rfl, rfl, rfl⟩, rfl, rfl, rfl, rfl, rfl, rfl, rfl, Or.inl rfl,
    Or.inl rfl, fun i => ?_⟩
  by_cases hi : i = q
  · exact ⟨b, by simp [setTransmitted, hi]⟩
  · exact ⟨(c.txQueue i).transmitted, by simp [setTransmitted, hi]⟩

theorem sameLink_markUntransmitted (c : Conn) (a : Nat) : SameLink c (c.markUntransmitted a) := by
  unfold markUntransmitted
  induction seqRange a c.vs generalizing c with
  | nil => exact .refl c
  | cons q l ih => exact (sameLink_setTransmitted c q false).trans (ih _)

/-! ### Sound frames -/

/-- The frames that the information-transfer phase records in context `c`: all
carry N(R) = V(R); an RR response needs a receiver that is not busy; an I frame
carries the payload of a slot of the window. -/
inductive Emits (c : Conn) : Action → Prop
  | rr (pf cmd : Bool) : (cmd = false → c.localBusy = false) →
      Emits c (.frame (outFrame c cmd .s (frameBuildRrControl c.vr pf)))
  | rnr (pf cmd : Bool) : Emits c (.frame (outFrame c cmd .s (frameBuildRnrControl c.vr pf)))
  | rej (pf cmd : Bool) : Emits c (.frame (outFrame c cmd .s (frameBuildRejControl c.vr pf)))
  | info (q : Nat) : Mem 8 c.va c.vs q → (c.txQueue q).inUse = true → Emits c (c.slotFrame q)

theorem Emits.exists_frame {c : Conn} {a : Action} (h : Emits c a) : ∃ g, a = .frame g := by
  cases h <;> exact ⟨_, rfl⟩

theorem Emits.of_sameLink {c c' : Conn} {a : Action} (h : SameLink c c') (he : Emits c' a) :
    Emits c a := by
  cases he with
  | rr pf cmd hb =>
      rw [h.outFrame, h.vr]
      exact .rr pf cmd fun hc => h.localBusy ▸ hb hc
  | rnr pf cmd => rw [h.outFrame, h.vr]; exact .rnr pf cmd
  | rej pf cmd => rw [h.outFrame, h.vr]; exact .rej pf cmd
  | info q hq hu =>
      rw [h.slotFrame]
      rw [h.va, h.vs] at hq
      rw [h.inUse] at hu
      exact .info q hq hu

/-- The action is an I frame. -/
def Action.isInfo : Action → Bool
  | .frame g => g.type == .i
  | _ => false

/-- From `s` to `s'` the section only played the sliding-window protocol. -/
structure Transfer (s s' : Locked) : Prop where
  link : SameLink s.conn s'.conn
  emits : ∃ l, s'.deferred = s.deferred ++ l ∧ ∀ a ∈ l, Emits s.conn a

theorem Transfer.trans {s t u : Locked} (h₁ : Transfer s t) (h₂ : Transfer t u) :
    Transfer s u := by
  obtain ⟨k₁, l₁, e₁, m₁⟩ := h₁
  obtain ⟨k₂, l₂, e₂, m₂⟩ := h₂
  refine ⟨k₁.trans k₂, l₁ ++ l₂, by rw [e₂, e₁, List.append_assoc], fun a ha => ?_⟩
  rcases List.mem_append.mp ha with ha | ha
  · exact m₁ a ha
  · exact (m₂ a ha).of_sameLink k₁

/-! ### Up to the I frames -/

/-- From `s` to `s'` at most `k` supervisory frames were recorded, and no slot
was marked as transmitted. -/
structure Quiet (k : Nat) (s s' : Locked) : Prop where
  link : SameLink s.conn s'.conn
  marks : ∀ i, (s'.conn.txQueue i).transmitted = true → (s.conn.txQueue i).transmitted = true
  emits : ∃ l, s'.deferred = s.deferred ++ l ∧ l.length ≤ k ∧
    ∀ a ∈ l, Emits s.conn a ∧ a.isInfo = false

namespace Quiet

theorem refl (s : Locked) : Quiet 0 s s := ⟨.refl _, fun _ => id, [], by simp, by simp, by simp⟩

theorem trans {j k : Nat} {s t u : Locked} (h₁ : Quiet j s t) (h₂ : Quiet k t u) :
    Quiet (j + k) s u := by
  obtain ⟨k₁, n₁, l₁, e₁, b₁, m₁⟩ := h₁
  obtain ⟨k₂, n₂, l₂, e₂, b₂, m₂⟩ := h₂
  refine ⟨k₁.trans k₂, fun i hi => n₁ i (n₂ i hi), l₁ ++ l₂,
    by rw [e₂, e₁, List.append_assoc], by rw [List.length_append]; omega, fun a ha => ?_⟩
  rcases List.mem_append.mp ha with ha | ha
  · exact m₁ a ha
  · exact ⟨(m₂ a ha).1.of_sameLink k₁, (m₂ a ha).2⟩

theorem weaken {j k : Nat} {s t : Locked} (h : Quiet j s t) (hk : j ≤ k) : Quiet k s t := by
  obtain ⟨h₁, h₂, l, e, b, m⟩ := h
  exact ⟨h₁, h₂, l, e, Nat.le_trans b hk, m⟩

theorem transfer {k : Nat} {s t : Locked} (h : Quiet k s t) : Transfer s t := by
  obtain ⟨h₁, -, l, e, -, m⟩ := h
  exact ⟨h₁, l, e, fun a ha => (m a ha).1⟩

/-- A change of the context alone. -/
theorem modify (s : Locked) (f : Conn → Conn) (h : SameLink s.conn (f s.conn))
    (hm : ∀ i, ((f s.conn).txQueue i).transmitted = true → (s.conn.txQueue i).transmitted = true) :
    Quiet 0 s (s.modify f) := ⟨h, hm, [], by simp, by simp, by simp⟩

/-- Recording a sound supervisory frame, whether or not the batch has room. -/
theorem sendFrame (s : Locked) (f : Frame) (h : Emits s.conn (.frame f)) (hf : f.type = .s) :
    Quiet 1 s (s.sendFrameInternal f).1 := by
  by_cases hl : s.deferred.length < maxDeferredActions
  · rw [sendFrameInternal_of_lt hl]
    have hi : Action.isInfo (.frame f) = false := by simp [Action.isInfo, hf]
    exact ⟨.refl _, fun _ => id, [.frame f], rfl, by simp, by simpa using ⟨h, hi⟩⟩
  · have : s.sendFrameInternal f = (s, .noMem) := by
      unfold sendFrameInternal deferAction
      rw [if_pos (by omega)]
    rw [this]
    exact (refl s).weaken (by decide)

end Quiet

theorem quiet_sendAck (s : Locked) (pf : Bool) : Quiet 1 s (s.sendAck pf false).1 := by
  unfold sendAck
  split
  · exact .sendFrame s _ (.rnr pf false) rfl
  · next h => exact .sendFrame s _ (.rr pf false fun _ => by simpa using h) rfl

theorem quiet_sendRej (s : Locked) (pf : Bool) : Quiet 1 s (s.sendRej pf false).1 :=
  (Quiet.modify s (fun c => { c with rejSent := true }) (.flags ..) fun _ => id).trans
    (.sendFrame _ _ (.rej pf false) rfl)

theorem quiet_answerPoll (s : Locked) (f : Frame) : Quiet 1 s (s.answerPoll f) := by
  unfold answerPoll
  split
  · exact quiet_sendAck s true
  · exact (Quiet.refl s).weaken (by decide)

theorem quiet_acknowledge (s : Locked) (f : Frame) : Quiet 1 s (s.acknowledge f) := by
  unfold acknowledge
  split
  · exact quiet_sendAck s true
  · exact (Quiet.modify s _ (.flags ..) fun _ => id).weaken (by decide)

theorem quiet_rejectSequence (s : Locked) (f : Frame) : Quiet 1 s (s.rejectSequence f) := by
  unfold rejectSequence
  split
  · exact quiet_sendRej s f.pf
  · split
    · exact quiet_sendAck s true
    · exact (Quiet.refl s).weaken (by decide)

theorem quiet_peerBusy (s : Locked) (b : Bool) :
    Quiet 0 s (s.modify fun c => { c with peerBusy := b }) :=
  .modify s _ (.flags ..) fun _ => id

theorem quiet_startTimerT3 (s : Locked) : Quiet 0 s (s.modify startTimerT3) :=
  .modify s _ (.flags ..) fun _ => id

theorem markUntransmitted_marks (c : Conn) (a i : Nat)
    (h : ((c.markUntransmitted a).txQueue i).transmitted = true) :
    (c.txQueue i).transmitted = true := by
  unfold markUntransmitted at h
  rw [foldl_setTransmitted] at h
  by_cases hi : i ∈ seqRange a c.vs
  · simp [mapSlots, hi] at h
  · simpa [mapSlots, hi] using h

theorem quiet_markUntransmitted (s : Locked) (a : Nat) :
    Quiet 0 s (s.modify (·.markUntransmitted a)) :=
  .modify s _ (sameLink_markUntransmitted s.conn a) (markUntransmitted_marks s.conn a)

theorem quiet_concludeRecovery (s : Locked) (h : s.conn.state = .timerRecovery) :
    Quiet 0 s s.concludeRecovery := by
  have h₁ : SameLink s.conn { s.conn.stopTimerT1 with retryCount := 0, state := .connected } :=
    ⟨⟨rfl, rfl, rfl, rfl, rfl, rfl⟩, rfl, rfl, rfl, rfl, rfl, rfl, rfl, Or.inr ⟨h, rfl⟩,
      Or.inr rfl, fun _ => ⟨_, rfl⟩⟩
  refine .modify s _ ?_ ?_ <;> dsimp only <;> split
  · exact h₁.trans (sameLink_markUntransmitted _ _)
  · exact h₁
  · intro i hi
    have h := markUntransmitted_marks _ _ i hi
    exact h
  · exact fun _ => id

/-! ### The I frames -/

/-- The end of a section: `send_pending_i_frames` is called at most once, after
which at most T1 is restarted. -/
inductive Flush (t : Locked) : Locked → Prop
  | none : Flush t t
  | sent : Flush t t.sendPendingIFrames.1
  | restarted : Flush t (t.sendPendingIFrames.1.modify startTimerT1)

/-- One I frame: whatever `send_i_frame` manages to record is sound. -/
theorem transfer_sendIFrame (s : Locked) {q : Nat} (hq : Mem 8 s.conn.va s.conn.vs q)
    (hu : (s.conn.txQueue q).inUse = true) :
    Transfer s (s.sendIFrame q (s.conn.txQueue q).data (s.conn.txQueue q).len).1 := by
  have he : Emits s.conn (s.conn.slotFrame q) := .info q hq hu
  refine ⟨?_, ?_⟩
  · rw [sendIFrame, sendFrameInternal_conn]
    exact .flags ..
  · by_cases hl : s.deferred.length < maxDeferredActions
    · rw [sendIFrame, sendFrameInternal_of_lt (by exact hl)]
      exact ⟨[s.conn.slotFrame q], rfl, by simpa using he⟩
    · refine ⟨[], ?_, by simp⟩
      unfold sendIFrame sendFrameInternal deferAction
      rw [if_pos (by simp only [modify_deferred]; omega), List.append_nil]
      rfl

theorem transfer_sendPendingLoop (l : List Nat) : ∀ s : Locked,
    (∀ q ∈ l, Mem 8 s.conn.va s.conn.vs q) → Transfer s (sendPendingLoop l s).1 := by
  induction l with
  | nil => intro s _; exact (Quiet.refl s).transfer
  | cons q l ih =>
      intro s hl
      rw [sendPendingLoop]
      split
      · next hp =>
        simp only [Bool.and_eq_true] at hp
        have hsend := transfer_sendIFrame s (hl q List.mem_cons_self) hp.1
        split
        · next s' heq =>
          rw [heq] at hsend
          -- the slot is marked and the timers move before the loop goes on
          have hmark : SameLink s'.conn
              (((s'.conn.setTransmitted q true).startTimerT1).stopTimerT3) :=
            (sameLink_setTransmitted s'.conn q true).trans
              (.flags ..)
          have hstep : Transfer s
              (s'.modify fun c => ((c.setTransmitted q true).startTimerT1).stopTimerT3) :=
            hsend.trans ⟨hmark, [], by simp, by simp⟩
          refine hstep.trans (ih _ fun x hx => ?_)
          rw [hstep.link.va, hstep.link.vs]
          exact hl x (List.mem_cons_of_mem _ hx)
        · next s' err heq => rw [heq] at hsend; exact hsend
      · exact ih s fun x hx => hl x (List.mem_cons_of_mem _ hx)

theorem transfer_sendPendingIFrames (s : Locked) (ha : s.conn.va < 8) (hs : s.conn.vs < 8) :
    Transfer s s.sendPendingIFrames.1 := by
  unfold sendPendingIFrames
  split
  · exact (Quiet.refl s).transfer
  · exact transfer_sendPendingLoop _ s fun q hq => (mem_seqRange ha hs).mp hq

theorem Flush.transfer {t s' : Locked} (h : Flush t s') (ha : t.conn.va < 8)
    (hs : t.conn.vs < 8) : Transfer t s' := by
  cases h with
  | none => exact (Quiet.refl t).transfer
  | sent => exact transfer_sendPendingIFrames t ha hs
  | restarted =>
      exact (transfer_sendPendingIFrames t ha hs).trans
        (Quiet.modify _ startTimerT1 (.flags ..) fun _ => id).transfer

/-- Settling a recovery: timers, then the retransmission if one is due. -/
theorem flush_settleRecovery (s : Locked) (b : Bool) :
    ∃ t, Quiet 0 s t ∧ Flush t (s.settleRecovery b) := by
  unfold settleRecovery
  have hstop : Quiet 0 s (s.modify stopTimerT3) := .modify s _ (.flags ..) fun _ => id
  split_ifs
  · exact ⟨_, .modify s (fun c => c.stopTimerT1.startTimerT3) (.flags ..) fun _ => id, .none⟩
  · exact ⟨_, hstop, .restarted⟩
  · exact ⟨_, hstop.trans (.modify _ startTimerT1 (.flags ..) fun _ => id), .none⟩
  · exact ⟨s, .refl s, .sent⟩
  · exact ⟨s, .refl s, .none⟩

/-! ### Received I and S frames -/

theorem sameLink_ackTimers (c : Conn) (b : Bool) : SameLink c (c.ackTimers b) := by
  unfold ackTimers
  split
  · split
    · exact .flags ..
    · split
      · exact .flags ..
      · exact .refl c
  · exact .refl c

theorem ackTimers_txQueue (c : Conn) (b : Bool) : (c.ackTimers b).txQueue = c.txQueue := by
  unfold ackTimers
  split_ifs <;> rfl

theorem ackTimers_rejSent (c : Conn) (b : Bool) : (c.ackTimers b).rejSent = c.rejSent := by
  unfold ackTimers
  split_ifs <;> rfl

/-- How the head of an I or S frame with a valid N(R) is accounted for: the
acknowledgement is applied, and an in-sequence I frame is consumed unless the
receiver is busy. -/
inductive Received (s : Locked) (f : Frame) : Locked → Prop
  | ack : Received s f (s.modify (·.ackConn f.nr))
  | data : f.type = .i → f.ns = s.conn.vr → s.conn.localBusy = false →
      Received s f ((s.modify (·.ackConn f.nr)).consume f)

theorem consume_conn (s : Locked) (f : Frame) :
    (s.consume f).conn = { s.conn with vr := mod8 (s.conn.vr + 1), rejSent := false } := by
  unfold consume
  dsimp only
  split
  · rw [deferOnData_conn]; rfl
  · rfl

/-- A payload of a proper size is passed on. -/
theorem consume_deferred {s : Locked} {f : Frame} (hs : s.deferred = [])
    (h₀ : 0 < f.payload.length) (h₁ : f.payload.length ≤ maxInfoLen) :
    (s.consume f).deferred = [.data f.payload] := by
  unfold consume deferOnData
  dsimp only
  rw [if_pos h₀, if_neg (by omega), deferAction_deferred, modify_deferred, hs]
  rfl

/-- The actions that `Received` records: at most one payload. -/
theorem Received.deferred {c : Conn} {f : Frame} {s₁ : Locked} (h : Received ⟨c, []⟩ f s₁) :
    s₁.deferred = [] ∨ s₁.deferred = [.data f.payload] ∧ s₁.conn.vr = mod8 (c.vr + 1) := by
  cases h with
  | ack => exact Or.inl rfl
  | data =>
      rw [consume_conn]
      unfold Locked.consume deferOnData
      dsimp only
      split_ifs
      · exact Or.inl rfl
      · exact Or.inr ⟨rfl, rfl⟩
      · exact Or.inl rfl

theorem Received.vars {c : Conn} {f : Frame} {s₁ : Locked} (h : Received ⟨c, []⟩ f s₁) :
    s₁.conn.va = f.nr ∧ s₁.conn.vs = c.vs ∧ s₁.conn.txQueue = (c.ackConn f.nr).txQueue ∧
      (s₁.conn.vr = c.vr ∨ s₁.conn.vr = mod8 (c.vr + 1)) := by
  cases h with
  | ack => exact ⟨rfl, rfl, rfl, Or.inl rfl⟩
  | data =>
      rw [consume_conn]
      exact ⟨rfl, rfl, rfl, Or.inr rfl⟩

/-- The batch after `consume` does not depend on the context. -/
theorem consume_deferred_congr {s t : Locked} (h : t.deferred = s.deferred) (f : Frame) :
    (t.consume f).deferred = (s.consume f).deferred := by
  unfold consume deferOnData
  dsimp only
  split_ifs <;> simp [deferAction_deferred, h]

/-- Consuming the same frame on both sides keeps the contexts related. -/
theorem SameLink.consume {s t : Locked} (h : SameLink s.conn t.conn) (f : Frame) :
    SameLink (s.consume f).conn (t.consume f).conn := by
  rw [consume_conn, consume_conn]
  obtain ⟨h₁, h₂, h₃, h₄, h₅, h₆⟩ := h.static
  exact ⟨⟨h₁, h₂, h₃, h₄, h₅, h₆⟩, h.remoteAddr, h.remoteAddrSet, h.path, h.vs,
    congrArg (fun n => mod8 (n + 1)) h.vr, h.va, h.localBusy, h.state, h.retry, h.slot⟩

/-- The whole of a section that receives `f`: account for it, stay quiet, flush. -/
def Handled (s : Locked) (f : Frame) (s' : Locked) : Prop :=
  ∃ s₁ t, Received s f s₁ ∧ Quiet 2 s₁ t ∧ Flush t s'

section dataPhase

variable {s : Locked} {f : Frame} (ha : s.conn.va < 8) (hv : s.conn.isValidNr f.nr = true)
include ha hv

theorem handleReceivedNr_link : SameLink (s.conn.ackConn f.nr) (s.conn.handleReceivedNr f.nr) := by
  rw [handleReceivedNr_eq ha f.nr_lt hv]
  exact sameLink_ackTimers _ _

/-- `handle_received_nr` seen from the acknowledged context. -/
theorem quiet_handleReceivedNr :
    Quiet 0 (s.modify (·.ackConn f.nr)) (s.modify (·.handleReceivedNr f.nr)) := by
  refine ⟨handleReceivedNr_link ha hv, fun i => ?_, [], by simp, by simp, by simp⟩
  rw [modify_conn, handleReceivedNr_eq ha f.nr_lt hv, ackTimers_txQueue]
  exact id

/-- The same, with the peer's busy flag cleared as for an I frame. -/
theorem quiet_handleReceivedNr_i :
    Quiet 0 (s.modify (·.ackConn f.nr))
      (s.modify fun c => { c.handleReceivedNr f.nr with peerBusy := false }) :=
  (quiet_handleReceivedNr ha hv).trans (quiet_peerBusy _ false)

/-- The same, with an in-sequence I frame consumed on both sides. -/
theorem quiet_consume :
    Quiet 0 ((s.modify (·.ackConn f.nr)).consume f)
      ((s.modify fun c => { c.handleReceivedNr f.nr with peerBusy := false }).consume f) := by
  have h := quiet_handleReceivedNr_i ha hv
  refine ⟨h.link.consume f, fun i => ?_, [], ?_, by simp, by simp⟩
  · rw [consume_conn, consume_conn]
    exact h.marks i
  · rw [List.append_nil]
    exact consume_deferred_congr (by simp) f

/-- `handle_frame_connected` on an S frame with a valid N(R). -/
theorem connectedS_handled : Handled s f (s.connectedS f).1 ∧ (s.connectedS f).2 = .ok := by
  have h₀ := quiet_handleReceivedNr ha hv
  have poll := fun b => (h₀.trans (quiet_peerBusy _ b)).trans (quiet_answerPoll _ f)
  unfold connectedS
  simp only [hv, Bool.not_true, Bool.false_eq_true, if_false]
  split_ifs
  · exact ⟨⟨_, _, .ack, (poll false).weaken (by decide), .sent⟩, rfl⟩
  · exact ⟨⟨_, _, .ack, (poll true).weaken (by decide), .none⟩, rfl⟩
  · exact ⟨⟨_, _, .ack, ((poll false).trans (quiet_markUntransmitted _ _)).weaken (by decide),
      .sent⟩, rfl⟩
  · exact ⟨⟨_, _, .ack, h₀.weaken (by decide), .none⟩, rfl⟩

/-- `handle_frame_connected` on an I frame with a valid N(R). -/
theorem connectedI_handled (hi : f.type = .i) :
    Handled s f (s.connectedI f).1 ∧ (s.connectedI f).2 = .ok := by
  have h₀ := quiet_handleReceivedNr_i ha hv
  unfold connectedI
  simp only [hv, Bool.not_true, Bool.false_eq_true, if_false]
  split_ifs with hns hb
  · exact ⟨⟨_, _, .ack, ((h₀.trans (quiet_acknowledge _ f)).trans
      (quiet_startTimerT3 _)).weaken (by decide), .sent⟩, rfl⟩
  · -- in sequence and not busy: the frame is consumed
    have hvr : f.ns = s.conn.vr := hns.trans h₀.link.vr
    have hbusy : s.conn.localBusy = false := by
      rw [h₀.link.localBusy] at hb
      exact eq_false_of_ne_true hb
    exact ⟨⟨_, _, .data hi hvr hbusy, (((quiet_consume ha hv).trans
      (quiet_acknowledge _ f)).trans (quiet_startTimerT3 _)).weaken (by decide), .sent⟩, rfl⟩
  · exact ⟨⟨_, _, .ack, (h₀.trans (quiet_rejectSequence _ f)).weaken (by decide), .sent⟩, rfl⟩

/-- In timer recovery the acknowledgement leaves the timers alone. -/
theorem handleReceivedNr_recovery (hst : s.conn.state = .timerRecovery) :
    s.conn.handleReceivedNr f.nr = s.conn.ackConn f.nr := by
  rw [handleReceivedNr_eq ha f.nr_lt hv, ackTimers, if_neg]
  exact fun hc => absurd (hc.symm.trans hst) (by decide)

/-- The head of an S frame in timer recovery: the acknowledgement, and the end
of the recovery if the frame is a final. -/
theorem quiet_concludeIfFinal (hst : s.conn.state = .timerRecovery) :
    Quiet 0 (s.modify (·.ackConn f.nr))
      (if responseFinal f then (s.modify (·.handleReceivedNr f.nr)).concludeRecovery
        else s.modify (·.handleReceivedNr f.nr)) := by
  have h₀ := quiet_handleReceivedNr ha hv
  split
  · refine h₀.trans (quiet_concludeRecovery _ ?_)
    rw [modify_conn, handleReceivedNr_recovery ha hv hst]
    exact hst
  · exact h₀

/-- `handle_frame_timer_recovery` on an S frame with a valid N(R). -/
theorem timerRecoveryS_handled (hst : s.conn.state = .timerRecovery) :
    Handled s f (s.timerRecoveryS f).1 ∧ (s.timerRecoveryS f).2 = .ok := by
  have h₁ := quiet_concludeIfFinal ha hv hst
  have poll := fun b => (h₁.trans (quiet_peerBusy _ b)).trans (quiet_answerPoll _ f)
  have settle : ∀ {t : Locked} (b : Bool), Quiet 1 (s.modify (·.ackConn f.nr)) t →
      Handled s f (t.settleRecovery b) := by
    intro t b ht
    obtain ⟨u, hu, hf⟩ := flush_settleRecovery t b
    exact ⟨_, u, .ack, (ht.trans hu).weaken (by decide), hf⟩
  unfold timerRecoveryS
  simp only [hv, Bool.not_true, Bool.false_eq_true, if_false]
  split
  · exact ⟨settle _ (poll false), rfl⟩
  · split
    · exact ⟨settle _ (poll true), rfl⟩
    · split
      · exact ⟨settle _ ((poll false).trans (quiet_markUntransmitted _ _)), rfl⟩
      · exact ⟨settle _ (h₁.weaken (by decide)), rfl⟩

/-- `handle_frame_timer_recovery` on an I frame with a valid N(R). -/
theorem timerRecoveryI_handled (hi : f.type = .i) :
    Handled s f (s.timerRecoveryI f).1 ∧ (s.timerRecoveryI f).2 = .ok := by
  have h₀ := quiet_handleReceivedNr_i ha hv
  unfold timerRecoveryI
  simp only [hv, Bool.not_true, Bool.false_eq_true, if_false]
  split_ifs with hns hb
  · exact ⟨⟨_, _, .ack, (h₀.trans (quiet_acknowledge _ f)).weaken (by decide), .none⟩, rfl⟩
  · have hvr : f.ns = s.conn.vr := hns.trans h₀.link.vr
    have hbusy : s.conn.localBusy = false := by
      rw [h₀.link.localBusy] at hb
      exact eq_false_of_ne_true hb
    exact ⟨⟨_, _, .data hi hvr hbusy,
      ((quiet_consume ha hv).trans (quiet_acknowledge _ f)).weaken (by decide), .none⟩, rfl⟩
  · exact ⟨⟨_, _, .ack, (h₀.trans (quiet_rejectSequence _ f)).weaken (by decide), .none⟩, rfl⟩

end dataPhase

/-- The handler of the two data-transfer states. -/
def dataHandler (s : Locked) (f : Frame) : Locked × EspErr :=
  if s.conn.state = .connected then s.handleFrameConnected f else s.handleFrameTimerRecovery f

/-- **The data phase.** In the two data-transfer states an I or S frame with a
valid N(R) is accounted for; then the section is quiet, and flushes. -/
theorem dataPhase {s : Locked} {f : Frame} (ha : s.conn.va < 8)
    (hst : s.conn.state = .connected ∨ s.conn.state = .timerRecovery)
    (hty : f.type = .s ∨ f.type = .i) (hv : s.conn.isValidNr f.nr = true) :
    Handled s f (dataHandler s f).1 ∧ (dataHandler s f).2 = .ok := by
  unfold dataHandler
  rcases hst with hst | hst <;> rcases hty with hty | hty <;>
    simp only [hst, reduceCtorEq, if_true, if_false, handleFrameConnected,
      handleFrameTimerRecovery, hty]
  · exact connectedS_handled ha hv
  · exact connectedI_handled ha hv hty
  · exact timerRecoveryS_handled ha hv hst
  · exact timerRecoveryI_handled ha hv hty

end EspAx25
