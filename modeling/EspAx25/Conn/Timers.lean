import EspAx25.Conn.Disconnect

/-!
# EspAx25.Conn.Timers

No dead link and no lost acknowledgement.

* `TimersOk`: while the link is up T1 or T3 is active, and T1 is active whenever
  the peer still owes an acknowledgement or an answer to a poll.
* `Acked n s`: either the last N(R) that was sent is V(R), or an acknowledgement
  is pending and T2 is active. `n` is the N(R) sent last before the section, so
  the law can be followed through the helpers of one section.

The helpers of the data phase keep both, with two exceptions: consuming an I
frame is made good by the acknowledgement that follows it
(`acked_acknowledge`), concluding a recovery by `settleRecovery`
(`timersOk_settleRecovery`).
-/

namespace EspAx25

open Cyclic Conn Locked

/-! ### The N(R) sent last -/

/-- The N(R) of an I or S frame replaces the one sent before. -/
def noteNr (n : Nat) : Action → Nat
  | .frame g => if g.type = .s ∨ g.type = .i then g.nr else n
  | _ => n

/-- The N(R) of the last I or S frame among `acts`, or `n`. -/
def lastNr (n : Nat) (acts : List Action) : Nat := acts.foldl noteNr n

@[simp] theorem lastNr_nil (n : Nat) : lastNr n [] = n := rfl

@[simp] theorem lastNr_append (n : Nat) (l l' : List Action) :
    lastNr n (l ++ l') = lastNr (lastNr n l) l' := List.foldl_append ..

@[simp] theorem lastNr_singleton (n : Nat) (a : Action) : lastNr n [a] = noteNr n a := rfl

/-- Every frame of the information-transfer phase carries V(R). -/
theorem Emits.noteNr {c : Conn} {a : Action} (h : Emits c a) (hvr : c.vr < 8) (n : Nat) :
    noteNr n a = c.vr := by
  cases h with
  | rr pf cmd => exact extractNr_buildS (Or.inl rfl) hvr pf
  | rnr pf cmd => exact extractNr_buildS (Or.inr (Or.inl rfl)) hvr pf
  | rej pf cmd => exact extractNr_buildS (Or.inr (Or.inr rfl)) hvr pf
  | info q hq => exact extractNr_buildI hq.1 hvr false

/-! ### The laws -/

/-- The timers of a link that is up. -/
structure TimersOk (c : Conn) : Prop where
  recovery : c.state = .timerRecovery → c.timerT1.Active
  connected : c.state = .connected → c.timerT1.Active ∨ c.timerT3.Active
  unacked : c.state = .connected → ∀ i, (c.txQueue i).inUse = true →
    (c.txQueue i).transmitted = true → c.timerT1.Active

/-- The acknowledgement that is owed to the peer. -/
def Acked (n : Nat) (s : Locked) : Prop :=
  lastNr n s.deferred = s.conn.vr ∨ s.conn.ackPending = true ∧ s.conn.timerT2.Active

/-- An active T1 is all a link that is up needs. -/
theorem timersOk_of_t1 {c : Conn} (h : c.timerT1.Active) : TimersOk c :=
  ⟨fun _ => h, fun _ => Or.inl h, fun _ _ _ _ => h⟩

theorem timersOk_startTimerT1 (c : Conn) : TimersOk c.startTimerT1 :=
  timersOk_of_t1 (Timer.active_start ..)

theorem TimersOk.congr {c c' : Conn} (h : TimersOk c) (hst : c'.state = c.state)
    (hq : ∀ i, (c'.txQueue i).inUse = true → (c'.txQueue i).transmitted = true →
      (c.txQueue i).inUse = true ∧ (c.txQueue i).transmitted = true)
    (h₁ : c.timerT1.Active → c'.timerT1.Active) (h₃ : c.timerT3.Active → c'.timerT3.Active) :
    TimersOk c' := by
  refine ⟨fun hr => h₁ (h.recovery (hst ▸ hr)), fun hc => ?_, fun hc i hu ht => ?_⟩
  · rcases h.connected (hst ▸ hc) with k | k
    · exact Or.inl (h₁ k)
    · exact Or.inr (h₃ k)
  · obtain ⟨hu, ht⟩ := hq i hu ht
    exact h₁ (h.unacked (hst ▸ hc) i hu ht)

/-! ### Recording -/

theorem acked_modify {n : Nat} {s : Locked} (h : Acked n s) {f : Conn → Conn}
    (hvr : (f s.conn).vr = s.conn.vr) (hp : (f s.conn).ackPending = s.conn.ackPending)
    (ht : (f s.conn).timerT2 = s.conn.timerT2) : Acked n (s.modify f) := by
  unfold Acked
  rw [modify_conn, modify_deferred, hvr, hp, ht]
  exact h

/-- A sound frame that is recorded settles the acknowledgement. -/
theorem acked_sendFrame {n : Nat} {s : Locked} {f : Frame} (hvr : s.conn.vr < 8)
    (he : Emits s.conn (.frame f)) (hl : s.deferred.length < maxDeferredActions) :
    Acked n (s.sendFrameInternal f).1 := by
  rw [sendFrameInternal_of_lt hl]
  refine Or.inl ?_
  rw [lastNr_append, lastNr_singleton]
  exact he.noteNr hvr _

/-- The batch grows by at most one action. -/
theorem sendFrameInternal_length (s : Locked) (f : Frame) :
    (s.sendFrameInternal f).1.deferred.length ≤ s.deferred.length + 1 := by
  by_cases hl : s.deferred.length < maxDeferredActions
  · rw [sendFrameInternal_of_lt hl]
    simp
  · have : s.sendFrameInternal f = (s, .noMem) := by
      unfold sendFrameInternal deferAction
      rw [if_pos (by omega)]
    rw [this]
    exact Nat.le_succ _

/-- What is carried through a section of the data phase: the window, the room
left in the batch, and the acknowledgement owed. -/
structure Tracked (n k : Nat) (s : Locked) : Prop where
  window : WindowInv s.conn
  room : s.deferred.length ≤ k
  acked : Acked n s

namespace Tracked

variable {n k : Nat} {s : Locked}

/-- A change of flags, `transmitted` flags and timers other than T2. -/
theorem modify (h : Tracked n k s) {f : Conn → Conn} (hl : SameLink s.conn (f s.conn))
    (hp : (f s.conn).ackPending = s.conn.ackPending)
    (ht : (f s.conn).timerT2 = s.conn.timerT2) : Tracked n k (s.modify f) :=
  ⟨h.window.sameLink hl, h.room, acked_modify h.acked hl.vr hp ht⟩

theorem sendFrame (h : Tracked n k s) (hk : k < maxDeferredActions) {f : Frame}
    (he : Emits s.conn (.frame f)) : Tracked n (k + 1) (s.sendFrameInternal f).1 := by
  have hr := h.room
  refine ⟨?_, ?_, acked_sendFrame h.window.vr_lt he (by omega)⟩
  · rw [sendFrameInternal_conn]
    exact h.window
  · have := sendFrameInternal_length s f
    omega

theorem weaken {k' : Nat} (h : Tracked n k s) (hk : k ≤ k') : Tracked n k' s :=
  ⟨h.window, Nat.le_trans h.room hk, h.acked⟩

theorem sendAck (h : Tracked n k s) (hk : k < maxDeferredActions) (pf : Bool) :
    Tracked n (k + 1) (s.sendAck pf false).1 := by
  unfold Locked.sendAck
  split
  · exact h.sendFrame hk (.rnr pf false)
  · next hb => exact h.sendFrame hk (.rr pf false fun _ => by simpa using hb)

theorem answerPoll (h : Tracked n k s) (hk : k < maxDeferredActions) (f : Frame) :
    Tracked n (k + 1) (s.answerPoll f) := by
  unfold Locked.answerPoll
  split
  · exact h.sendAck hk true
  · exact h.weaken (Nat.le_succ k)

theorem rejectSequence (h : Tracked n k s) (hk : k < maxDeferredActions) (f : Frame) :
    Tracked n (k + 1) (s.rejectSequence f) := by
  unfold Locked.rejectSequence
  split
  · have h' : Tracked n k (s.modify fun c => { c with rejSent := true }) :=
      h.modify (.flags ..) rfl rfl
    exact h'.sendFrame hk (.rej f.pf false)
  · split
    · exact h.sendAck hk true
    · exact h.weaken (Nat.le_succ k)

/-- The I frames carry V(R) too: after them nothing is owed. -/
theorem sendPendingIFrames (h : Tracked n k s) (hk : k ≤ 5) :
    Tracked n maxDeferredActions s.sendPendingIFrames.1 := by
  have ha := h.window.va_lt
  have hs := h.window.vs_lt
  have hr := h.room
  have heq := sendPendingIFrames_eq ha hs (Nat.le_trans hr hk)
  have ht := transfer_sendPendingIFrames s ha hs
  refine ⟨h.window.sameLink ht.link, ?_, ?_⟩
  · have hlen : s.conn.pendingSeqs.length ≤ 7 := by
      unfold pendingSeqs
      split
      · exact Nat.zero_le 7
      · have hd := arc_lt (a := s.conn.va) hs
        have := List.length_filter_le s.conn.slotPending (seqRange s.conn.va s.conn.vs)
        rw [seqRange_length ha hs] at this
        omega
    rw [heq, List.length_append, List.length_map, maxDeferredActions]
    omega
  · rw [heq]
    rcases List.eq_nil_or_concat s.conn.pendingSeqs with hnil | ⟨qs, q, hq⟩
    · rw [hnil]
      simpa [noteSent] using h.acked
    · -- the last frame sent is an I frame of the window
      have hmem : q ∈ s.conn.pendingSeqs := by simp [hq]
      have hq' := (mem_pendingSeqs ha hs).mp hmem
      refine Or.inl ?_
      have hvr : (s.conn.noteSent s.conn.pendingSeqs).vr = s.conn.vr := by
        unfold noteSent
        split_ifs <;> rfl
      rw [hvr, hq, List.concat_eq_append, List.map_append, ← List.append_assoc, lastNr_append,
        List.map_singleton, lastNr_singleton]
      exact (Emits.info q hq'.2.1 hq'.2.2.1).noteNr h.window.vr_lt _

end Tracked

/-- An acknowledgement is sent at once or by T2, whatever was owed before. -/
theorem tracked_acknowledge {n k : Nat} {s : Locked} (hw : WindowInv s.conn)
    (hr : s.deferred.length ≤ k) (hk : k < maxDeferredActions) (f : Frame) :
    Tracked n (k + 1) (s.acknowledge f) := by
  unfold acknowledge
  split
  · -- `sendAck` settles the debt, so nothing need be known about it
    unfold sendAck
    split
    · exact ⟨by rw [sendRnr_conn]; exact hw,
        Nat.le_trans (sendFrameInternal_length s _) (by omega),
        acked_sendFrame hw.vr_lt (.rnr true false) (by omega)⟩
    · next hb =>
      exact ⟨by rw [sendRr_conn]; exact hw,
        Nat.le_trans (sendFrameInternal_length s _) (by omega),
        acked_sendFrame hw.vr_lt (.rr true false fun _ => by simpa using hb) (by omega)⟩
  · exact ⟨hw.congr rfl rfl rfl rfl rfl, Nat.le_succ_of_le hr, Or.inr ⟨rfl, Timer.active_start ..⟩⟩

/-! ### The timers, helper by helper -/

/-- `send_pending_i_frames` starts T1 with the first frame it sends. -/
theorem timersOk_sendPendingIFrames {s : Locked} (h : TimersOk s.conn) (hw : WindowInv s.conn)
    (hr : s.deferred.length ≤ 5) : TimersOk s.sendPendingIFrames.1.conn := by
  rw [sendPendingIFrames_eq hw.va_lt hw.vs_lt hr]
  show TimersOk (s.conn.noteSent s.conn.pendingSeqs)
  unfold noteSent
  split_ifs
  · exact h
  · exact timersOk_of_t1 (Timer.active_start ..)

/-- Without a slot in use nothing waits for T1. -/
theorem not_inUse_of_va_eq {c : Conn} (hw : WindowInv c) (h : c.va = c.vs) (i : Nat) :
    ¬ (c.txQueue i).inUse = true := by
  rw [hw.inUse i, h]
  exact not_mem_self

/-- With an empty window T3 takes over from T1. -/
theorem timersOk_idle {c : Conn} (hst : c.state = .connected) (hw : WindowInv c)
    (h : c.va = c.vs) : TimersOk (c.stopTimerT1.startTimerT3) := by
  refine ⟨fun hr => ?_, fun _ => Or.inr (Timer.active_start ..), fun _ i hu => ?_⟩
  · exact absurd (hst.symm.trans hr) (by decide)
  · exact absurd hu (not_inUse_of_va_eq hw h i)

/-- `handle_received_nr` keeps the timers right: T1 is stopped only when nothing
is outstanding, and restarted on progress. -/
theorem timersOk_handleReceivedNr {c : Conn} (h : TimersOk c) (hw : WindowInv c) {nr : Nat}
    (hn : nr < 8) (hv : c.isValidNr nr = true) : TimersOk (c.handleReceivedNr nr) := by
  have hack := hw.ack hn hv
  have h₀ : TimersOk (c.ackConn nr) := by
    refine h.congr rfl (fun i hu ht => ?_) id id
    by_cases hm : Mem 8 c.va nr i
    · simp [ackConn, mapSlots, hm] at hu
    · simp only [ackConn, mapSlots, hm, if_false] at hu ht
      exact ⟨hu, ht⟩
  rw [handleReceivedNr_eq hw.va_lt hn hv]
  unfold ackTimers
  split_ifs with hst hva hpr
  · exact timersOk_idle hst hack hva
  · exact timersOk_startTimerT1 _
  · exact h₀
  · exact h₀

theorem timersOk_markUntransmitted {c : Conn} (h : TimersOk c) (hw : WindowInv c) {a : Nat}
    (ha : a < 8) : TimersOk (c.markUntransmitted a) := by
  rw [markUntransmitted_eq c ha hw.vs_lt]
  refine h.congr rfl (fun i hu ht => ?_) id id
  by_cases hm : Mem 8 a c.vs i
  · simp [mapSlots, hm] at ht
  · simp only [mapSlots, hm, if_false] at hu ht
    exact ⟨hu, ht⟩

/-- Settling a recovery that has just been concluded: whatever the timers were,
T1 or T3 is started. -/
theorem timersOk_settleRecovery {s : Locked} (hst : s.conn.state = .connected)
    (hw : WindowInv s.conn) (b : Bool) : TimersOk (s.settleRecovery b).conn := by
  unfold settleRecovery
  rw [if_pos hst]
  split_ifs with hva
  · exact timersOk_idle hst hw hva
  · exact timersOk_startTimerT1 _
  · exact timersOk_startTimerT1 _

/-- The same while the recovery goes on. -/
theorem timersOk_settleRecovery_ne {s : Locked} (hst : s.conn.state ≠ .connected)
    (h : TimersOk s.conn) (hw : WindowInv s.conn) (hr : s.deferred.length ≤ 5) (b : Bool) :
    TimersOk (s.settleRecovery b).conn := by
  unfold settleRecovery
  rw [if_neg hst]
  split_ifs
  · exact timersOk_sendPendingIFrames h hw hr
  · exact h

/-- The marking loop touches nothing but `transmitted` flags. -/
theorem markUntransmitted_fields (c : Conn) (a : Nat) :
    ∃ q, c.markUntransmitted a = { c with txQueue := q } := by
  unfold markUntransmitted
  rw [foldl_setTransmitted]
  exact ⟨_, rfl⟩

theorem markUntransmitted_state (c : Conn) (a : Nat) :
    (c.markUntransmitted a).state = c.state := by
  obtain ⟨q, hq⟩ := markUntransmitted_fields c a
  rw [hq]

theorem Tracked.markUntransmitted {n k : Nat} {s : Locked} (h : Tracked n k s) (a : Nat) :
    Tracked n k (s.modify (·.markUntransmitted a)) := by
  obtain ⟨q, hq⟩ := markUntransmitted_fields s.conn a
  exact h.modify (sameLink_markUntransmitted _ _) (by rw [hq]) (by rw [hq])

/-- The `response_final` block. -/
theorem Tracked.concludeRecovery {n k : Nat} {s : Locked} (h : Tracked n k s)
    (hst : s.conn.state = .timerRecovery) :
    Tracked n k s.concludeRecovery ∧ s.concludeRecovery.conn.state = .connected := by
  have hl := (quiet_concludeRecovery s hst).link
  have hfields : ∃ q, s.concludeRecovery.conn =
      { s.conn.stopTimerT1 with retryCount := 0, state := .connected, txQueue := q } := by
    simp only [Locked.concludeRecovery, modify_conn]
    split_ifs
    · obtain ⟨q, hq⟩ := markUntransmitted_fields
        { s.conn.stopTimerT1 with retryCount := 0, state := .connected } s.conn.va
      exact ⟨q, hq⟩
    · exact ⟨s.conn.txQueue, rfl⟩
  obtain ⟨q, hq⟩ := hfields
  have hp : s.concludeRecovery.conn.ackPending = s.conn.ackPending := by rw [hq]; rfl
  have ht : s.concludeRecovery.conn.timerT2 = s.conn.timerT2 := by rw [hq]; rfl
  exact ⟨h.modify hl hp ht, by rw [hq]⟩

theorem Tracked.settleRecovery {n k : Nat} {s : Locked} (h : Tracked n k s) (hk : k ≤ 5)
    (b : Bool) : Tracked n maxDeferredActions (s.settleRecovery b) := by
  have hk' : k ≤ maxDeferredActions := Nat.le_trans hk (by decide)
  unfold Locked.settleRecovery
  split_ifs with hst hva
  · exact (h.modify (f := fun c => c.stopTimerT1.startTimerT3) (.flags ..) rfl rfl).weaken hk'
  · have h₁ := h.modify (f := Conn.stopTimerT3) (.flags ..) rfl rfl
    exact (h₁.sendPendingIFrames hk).modify (f := Conn.startTimerT1) (.flags ..) rfl rfl
  · have h₁ := h.modify (f := Conn.stopTimerT3) (.flags ..) rfl rfl
    exact (h₁.modify (f := Conn.startTimerT1) (.flags ..) rfl rfl).weaken hk'
  · exact h.sendPendingIFrames hk
  · exact h.weaken hk'

@[simp] theorem answerPoll_conn (s : Locked) (f : Frame) : (s.answerPoll f).conn = s.conn := by
  unfold answerPoll
  split <;> simp

theorem timersOk_acknowledge {s : Locked} (h : TimersOk s.conn) (f : Frame) :
    TimersOk (s.acknowledge f).conn := by
  unfold acknowledge
  split
  · rw [sendAck_conn]
    exact h
  · exact h.congr rfl (fun _ => And.intro) id id

theorem timersOk_rejectSequence {s : Locked} (h : TimersOk s.conn) (f : Frame) :
    TimersOk (s.rejectSequence f).conn := by
  unfold rejectSequence
  split_ifs
  · rw [sendRej_conn]
    exact h.congr rfl (fun _ => And.intro) id id
  · rw [sendAck_conn]
    exact h
  · exact h

/-! ### The two data-transfer handlers -/

theorem ackTimers_fields (c : Conn) (b : Bool) :
    (c.ackTimers b).ackPending = c.ackPending ∧ (c.ackTimers b).timerT2 = c.timerT2 := by
  unfold ackTimers
  split_ifs <;> exact ⟨rfl, rfl⟩

section handlers

variable {c : Conn} {f : Frame} {n : Nat} (hw : WindowInv c) (hv : c.isValidNr f.nr = true)
  (ht : TimersOk c) (ha : Acked n ⟨c, []⟩)
include hw hv

/-- The context after `handle_received_nr`, still with the debt of before. -/
theorem tracked_handleReceivedNr (ha : Acked n ⟨c, []⟩) :
    Tracked n 0 ⟨c.handleReceivedNr f.nr, []⟩ := by
  have hl := handleReceivedNr_link (s := ⟨c, []⟩) hw.va_lt hv
  have hkeep : (c.handleReceivedNr f.nr).ackPending = c.ackPending ∧
      (c.handleReceivedNr f.nr).timerT2 = c.timerT2 := by
    rw [handleReceivedNr_eq hw.va_lt f.nr_lt hv]
    exact ackTimers_fields (c.ackConn f.nr) _
  refine ⟨(hw.ack f.nr_lt hv).sameLink hl, Nat.le_refl 0, ?_⟩
  unfold Acked
  rw [show (⟨c.handleReceivedNr f.nr, []⟩ : Locked).conn.vr = c.vr from hl.vr, hkeep.1, hkeep.2]
  exact ha

include ht ha

/-- `handle_frame_connected` on an S frame. -/
theorem connectedS_timers :
    Tracked n maxDeferredActions (connectedS ⟨c, []⟩ f).1 ∧
      TimersOk (connectedS ⟨c, []⟩ f).1.conn := by
  have h₀ := tracked_handleReceivedNr hw hv ha
  have t₀ := timersOk_handleReceivedNr ht hw f.nr_lt hv
  have step : ∀ b, Tracked n 1 (answerPoll
        ((⟨c.handleReceivedNr f.nr, []⟩ : Locked).modify fun c => { c with peerBusy := b }) f) ∧
      TimersOk (answerPoll
        ((⟨c.handleReceivedNr f.nr, []⟩ : Locked).modify fun c => { c with peerBusy := b }) f).conn := by
    intro b
    refine ⟨(h₀.modify (.flags ..) rfl rfl).answerPoll (by decide) f, ?_⟩
    rw [answerPoll_conn]
    exact t₀.congr rfl (fun _ => And.intro) id id
  unfold connectedS
  simp only [hv, Bool.not_true, Bool.false_eq_true, if_false]
  split_ifs
  · obtain ⟨h₁, t₁⟩ := step false
    exact ⟨h₁.sendPendingIFrames (by decide),
      timersOk_sendPendingIFrames t₁ h₁.window (Nat.le_trans h₁.room (by decide))⟩
  · obtain ⟨h₁, t₁⟩ := step true
    exact ⟨h₁.weaken (by decide), t₁⟩
  · -- REJ: the frames from N(R) on are marked before they are sent again
    obtain ⟨h₁, t₁⟩ := step false
    have h₂ := h₁.markUntransmitted f.nr
    have t₂ := timersOk_markUntransmitted t₁ h₁.window f.nr_lt
    exact ⟨h₂.sendPendingIFrames (by decide),
      timersOk_sendPendingIFrames t₂ h₂.window (Nat.le_trans h₂.room (by decide))⟩
  · exact ⟨h₀.weaken (by decide), t₀⟩

/-- The head that the two I-frame branches share: in sequence or not, the debt
is followed up to the point where the handlers differ. -/
theorem iFrame_timers :
    let s : Locked := ⟨{ c.handleReceivedNr f.nr with peerBusy := false }, []⟩
    (Tracked n 2 (s.acknowledge f) ∧ TimersOk (s.acknowledge f).conn) ∧
    (Tracked n 2 ((s.consume f).acknowledge f) ∧ TimersOk ((s.consume f).acknowledge f).conn) ∧
    (Tracked n 2 (s.rejectSequence f) ∧ TimersOk (s.rejectSequence f).conn) := by
  intro s
  have h₀ : Tracked n 0 s :=
    (tracked_handleReceivedNr hw hv ha).modify (f := fun c => { c with peerBusy := false })
      (.flags ..) rfl rfl
  have t₀ : TimersOk s.conn :=
    (timersOk_handleReceivedNr ht hw f.nr_lt hv).congr rfl (fun _ => And.intro) id id
  have hcw : WindowInv (s.consume f).conn := by
    rw [consume_conn]
    exact { h₀.window with vr_lt := mod8_lt _ }
  have hct : TimersOk (s.consume f).conn := by
    rw [consume_conn]
    exact t₀.congr rfl (fun _ => And.intro) id id
  have hcl : (s.consume f).deferred.length ≤ 1 := by
    simp only [Locked.consume, deferOnData]
    split_ifs <;> simp [s, deferAction_deferred, maxDeferredActions]
  exact ⟨⟨(tracked_acknowledge h₀.window h₀.room (by decide) f).weaken (by decide),
      timersOk_acknowledge t₀ f⟩,
    ⟨tracked_acknowledge hcw hcl (by decide) f, timersOk_acknowledge hct f⟩,
    ⟨(h₀.rejectSequence (by decide) f).weaken (by decide), timersOk_rejectSequence t₀ f⟩⟩

/-- `handle_frame_connected` on an I frame. -/
theorem connectedI_timers :
    Tracked n maxDeferredActions (connectedI ⟨c, []⟩ f).1 ∧
      TimersOk (connectedI ⟨c, []⟩ f).1.conn := by
  obtain ⟨h₁, h₂, h₃⟩ := iFrame_timers hw hv ht ha
  have send : ∀ {s : Locked}, Tracked n 2 s ∧ TimersOk s.conn →
      Tracked n maxDeferredActions s.sendPendingIFrames.1 ∧ TimersOk s.sendPendingIFrames.1.conn :=
    fun h => ⟨h.1.sendPendingIFrames (by decide),
      timersOk_sendPendingIFrames h.2 h.1.window (Nat.le_trans h.1.room (by decide))⟩
  have start : ∀ {s : Locked}, Tracked n 2 s ∧ TimersOk s.conn →
      Tracked n 2 (s.modify startTimerT3) ∧ TimersOk (s.modify startTimerT3).conn :=
    fun h => ⟨h.1.modify (.flags ..) rfl rfl,
      h.2.congr rfl (fun _ => And.intro) id fun _ => Timer.active_start ..⟩
  unfold connectedI
  simp only [hv, Bool.not_true, Bool.false_eq_true, if_false]
  split_ifs
  · exact send (start h₁)
  · exact send (start h₂)
  · exact send h₃

/-- `handle_frame_timer_recovery` on an I frame. -/
theorem timerRecoveryI_timers :
    Tracked n maxDeferredActions (timerRecoveryI ⟨c, []⟩ f).1 ∧
      TimersOk (timerRecoveryI ⟨c, []⟩ f).1.conn := by
  obtain ⟨h₁, h₂, h₃⟩ := iFrame_timers hw hv ht ha
  unfold timerRecoveryI
  simp only [hv, Bool.not_true, Bool.false_eq_true, if_false]
  split_ifs
  · exact ⟨h₁.1.weaken (by decide), h₁.2⟩
  · exact ⟨h₂.1.weaken (by decide), h₂.2⟩
  · exact ⟨h₃.1.weaken (by decide), h₃.2⟩

/-- `handle_frame_timer_recovery` on an S frame. -/
theorem timerRecoveryS_timers (hst : c.state = .timerRecovery) :
    Tracked n maxDeferredActions (timerRecoveryS ⟨c, []⟩ f).1 ∧
      TimersOk (timerRecoveryS ⟨c, []⟩ f).1.conn := by
  have h₀ := tracked_handleReceivedNr hw hv ha
  have t₀ := timersOk_handleReceivedNr ht hw f.nr_lt hv
  have hst₀ : (c.handleReceivedNr f.nr).state = .timerRecovery := by
    rw [handleReceivedNr_eq hw.va_lt f.nr_lt hv, ackTimers, if_neg]
    · exact hst
    · intro h
      exact absurd (hst.symm.trans h) (by decide)
  -- after the `response_final` block the recovery is over, or the timers are as before
  let Settled (s : Locked) : Prop :=
    s.conn.state = .connected ∨ s.conn.state ≠ .connected ∧ TimersOk s.conn
  obtain ⟨s, hs, h₁, t₁⟩ : ∃ s : Locked, s = (if responseFinal f then
        (Locked.modify ⟨c, []⟩ (·.handleReceivedNr f.nr)).concludeRecovery
      else Locked.modify ⟨c, []⟩ (·.handleReceivedNr f.nr)) ∧ Tracked n 0 s ∧ Settled s := by
    refine ⟨_, rfl, ?_⟩
    split_ifs
    · obtain ⟨h, hc⟩ := h₀.concludeRecovery hst₀
      exact ⟨h, Or.inl hc⟩
    · exact ⟨h₀, Or.inr ⟨by rw [modify_conn, hst₀]; decide, t₀⟩⟩
  have poll : ∀ b, Tracked n 1 ((s.modify fun c => { c with peerBusy := b }).answerPoll f) ∧
      Settled ((s.modify fun c => { c with peerBusy := b }).answerPoll f) := by
    intro b
    refine ⟨(h₁.modify (.flags ..) rfl rfl).answerPoll (by decide) f, ?_⟩
    simp only [Settled, answerPoll_conn]
    rcases t₁ with hc | ⟨hne, t⟩
    · exact Or.inl hc
    · exact Or.inr ⟨hne, t.congr rfl (fun _ => And.intro) id id⟩
  have settle : ∀ {s : Locked} {k : Nat} (b : Bool), Tracked n k s → k ≤ 5 → Settled s →
      Tracked n maxDeferredActions (s.settleRecovery b) ∧ TimersOk (s.settleRecovery b).conn := by
    intro s k b h hk hor
    refine ⟨h.settleRecovery hk b, ?_⟩
    rcases hor with hc | ⟨hne, t⟩
    · exact timersOk_settleRecovery hc h.window b
    · exact timersOk_settleRecovery_ne hne t h.window (Nat.le_trans h.room hk) b
  unfold timerRecoveryS
  simp only [hv, Bool.not_true, Bool.false_eq_true, if_false, ← hs]
  split_ifs
  · exact settle _ (poll false).1 (by decide) (poll false).2
  · exact settle _ (poll true).1 (by decide) (poll true).2
  · obtain ⟨h₂, t₂⟩ := poll false
    refine settle _ (h₂.markUntransmitted f.nr) (by decide) ?_
    rcases t₂ with hc | ⟨hne, t⟩
    · exact Or.inl ((markUntransmitted_state _ _).trans hc)
    · exact Or.inr ⟨(markUntransmitted_state _ _).trans_ne hne,
        timersOk_markUntransmitted t h₂.window f.nr_lt⟩
  · exact settle _ h₁ (by decide) t₁

/-- The handler of the two data-transfer states. -/
theorem dataHandler_timers (hl : c.Linked) (hty : f.type = .s ∨ f.type = .i) :
    Tracked n maxDeferredActions (dataHandler ⟨c, []⟩ f).1 ∧
      TimersOk (dataHandler ⟨c, []⟩ f).1.conn := by
  unfold dataHandler
  rcases hl with hst | hst <;> rcases hty with hty | hty <;>
    simp only [hst, reduceCtorEq, if_true, if_false, handleFrameConnected,
      handleFrameTimerRecovery, hty]
  · exact connectedS_timers hw hv ht ha
  · exact connectedI_timers hw hv ht ha
  · exact timerRecoveryS_timers hw hv ht ha hst
  · exact timerRecoveryI_timers hw hv ht ha

end handlers

end EspAx25
