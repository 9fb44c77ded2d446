import EspAx25.Conn.Poll

/-!
# EspAx25.Conn.Retransmit

Go-back-N. A REJ, or the final that ends a timer recovery, makes the station
send its whole window again, in order; an RNR sends nothing.

The I frames carry what the slots of the window hold. That this is what the
application handed in is an invariant of runs (`Holds`), with the payloads that
`send_data` accepted as history. That the *whole* window is sent rests on the
marks: `mark_untransmitted` clears them (`Due`), nothing up to the I frames sets
one, and the peer is not busy.
-/

namespace EspAx25

open Cyclic Conn Locked

/-! ### What `send_data` accepted -/

/-- The payload of the last accepted `send_data` for each sequence number. -/
abbrev Accepted : Type := Nat → Option (List Byte)

namespace Conn

/-- Event `e` in context `c`: an accepted payload gets the number V(S). -/
def accept (c : Conn) (e : Event) (h : Accepted) : Accepted :=
  match e with
  | .call (.sendData data) _ _ =>
    if (c.step e).ret = .ok then Function.update h c.vs (some data) else h
  | _ => h

/-- What has been accepted after a run from `c`. -/
def accepted (c : Conn) : List Event → Accepted → Accepted
  | [], h => h
  | e :: es, h => (c.step e).conn.accepted es (c.accept e h)

end Conn

/-- Every slot in use holds what was accepted for its number. -/
def Holds (h : Accepted) (c : Conn) : Prop :=
  ∀ i, (c.txQueue i).inUse = true → h i = some (c.txQueue i).data

/-- `c'` has no slot in use but those of `c`, with what they held. -/
def Keeps (c c' : Conn) : Prop :=
  ∀ i, (c'.txQueue i).inUse = true →
    (c.txQueue i).inUse = true ∧ (c'.txQueue i).data = (c.txQueue i).data

theorem Keeps.of_eq {c c' : Conn} (h : c'.txQueue = c.txQueue) : Keeps c c' := by
  intro i hi
  rw [h] at hi ⊢
  exact ⟨hi, rfl⟩

theorem Keeps.trans {a b c : Conn} (h₁ : Keeps a b) (h₂ : Keeps b c) : Keeps a c := by
  intro i hi
  obtain ⟨hb, hd⟩ := h₂ i hi
  obtain ⟨ha, hd'⟩ := h₁ i hb
  exact ⟨ha, hd.trans hd'⟩

theorem Keeps.holds {c c' : Conn} {h : Accepted} (hk : Keeps c c') (hh : Holds h c) :
    Holds h c' := by
  intro i hi
  obtain ⟨hu, hd⟩ := hk i hi
  rw [hd]
  exact hh i hu

theorem SameLink.keeps {c c' : Conn} (h : SameLink c c') : Keeps c c' := by
  intro i hi
  rw [h.inUse] at hi
  exact ⟨hi, h.data i⟩

/-- After `reset_state_vars` no slot of the array is in use. -/
theorem keeps_cleared (c : Conn) (st : ConnState) : Keeps c (c.cleared st) := by
  intro i hi
  simp only [cleared] at hi ⊢
  split at hi
  · cases hi
  · next h => simp [h, hi]

theorem keeps_ackConn (c : Conn) (nr : Nat) : Keeps c (c.ackConn nr) := by
  intro i hi
  simp only [ackConn, mapSlots] at hi ⊢
  split at hi
  · cases hi
  · next h => simp [h, hi]

theorem Received.keeps {s s₁ : Locked} {f : Frame} (h : Received s f s₁) :
    Keeps s.conn s₁.conn := by
  cases h with
  | ack => exact keeps_ackConn s.conn f.nr
  | data =>
      rw [consume_conn]
      exact keeps_ackConn s.conn f.nr

/-- No section but that of `send_data` puts a payload in the queue. -/
theorem SectionStep.keeps {c : Conn} {op : Op} {s : Locked} {o : Outcome}
    (h : SectionStep c op s o) : Keeps c s.conn ∨ ∃ data, op = .sendData data ∧ o = .returned .ok ∧
      Keeps (c.queued data) s.conn := by
  cases h with
  | request f =>
      obtain ⟨p, hp⟩ := adopt_eq { c with remoteAddr := f.source, remoteAddrSet := true } f
      simp only [requested, hp]
      exact Or.inl (.of_eq rfl)
  | opened f => exact Or.inl (keeps_cleared c .connected)
  | collision f | relink f =>
      obtain ⟨p, hp⟩ := adopt_eq c f
      rw [hp]
      exact Or.inl (keeps_cleared c .connected)
  | teardown pre => exact Or.inl (keeps_cleared c .disconnected)
  | reestablish f c₀ msg ret hl hc =>
      rcases hc with ⟨-, -, rfl, -⟩ | ⟨-, -, rfl, -⟩
      · exact Or.inl (keeps_cleared c₀ .awaitingConnection)
      · exact Or.inl (keeps_cleared c .awaitingConnection)
  | data f hl hty hv hr ht hd => exact Or.inl (hr.keeps.trans ht.link.keeps)
  | dial a ds => exact Or.inl (keeps_cleared c .awaitingConnection)
  | send data hl h₀ h₁ hq ht hs =>
      obtain ⟨-, -, rfl⟩ := queueIFrame_ok hq
      exact Or.inr ⟨data, rfl, rfl, ht.link.keeps⟩
  | _ => exact Or.inl (.of_eq rfl)

theorem DecideStep.keeps {c c' : Conn} {f : Frame} {acts : List Action}
    (h : DecideStep c f c' acts) : Keeps c c' := by
  cases h with
  | refused => exact keeps_cleared c .disconnected
  | accepted => exact keeps_cleared c .connected

theorem afterOnConnect_txQueue (c : Conn) (refuses : Bool) :
    (c.afterOnConnect refuses).txQueue = c.txQueue := by
  unfold Conn.afterOnConnect refuse
  split_ifs <;> rfl

theorem requested_txQueue (c : Conn) (f : Frame) : (c.requested f).txQueue = c.txQueue := by
  obtain ⟨p, hp⟩ := adopt_eq { c with remoteAddr := f.source, remoteAddrSet := true } f
  simp only [requested, hp]

/-- One event puts at most one payload in the queue: that of an accepted
`send_data`, at V(S). -/
theorem step_keeps {c : Conn} (h : SeqInv c) (e : Event) :
    Keeps c (c.step e).conn ∨ ∃ data heap refuses, e = .call (.sendData data) heap refuses ∧
      (c.step e).ret = .ok ∧ Keeps (c.queued data) (c.step e).conn := by
  cases e with
  | call op heap refuses =>
      have hc := call_cases h op heap refuses
      obtain ⟨t1, t2, t3, ht⟩ := consumeExpiry_cases op c
      rw [ht] at hc
      generalize c.step (.call op heap refuses) = r at hc
      cases hc with
      | early => exact Or.inl (.of_eq rfl)
      | returned ret hp hsec =>
          rcases hsec.keeps with hk | ⟨data, rfl, ho, hk⟩
          · exact Or.inl hk
          · cases ho
            exact Or.inr ⟨data, heap, refuses, rfl, rfl, hk⟩
      | told hp hsec =>
          rcases hsec.keeps with hk | ⟨data, -, ho, -⟩
          · exact Or.inl (hk.trans (.of_eq (afterOnConnect_txQueue _ refuses)))
          · cases ho
      | asked f hop hp hst hu hsabm hdec =>
          refine Or.inl (Keeps.trans ?_ hdec.keeps)
          exact .of_eq ((afterOnConnect_txQueue _ refuses).trans (requested_txQueue _ f))
  | refuse =>
      simp only [Conn.step, refuse, h.initialized, Bool.not_true, Bool.false_eq_true, if_false]
      exact Or.inl (.of_eq rfl)
  | fire t => cases t <;> exact Or.inl (.of_eq rfl)

/-- The number V(S) is free, so what it was last used for does not matter. -/
theorem Holds.update {c : Conn} {h : Accepted} (hh : Holds h c) (hw : WindowInv c)
    (p : Option (List Byte)) : Holds (Function.update h c.vs p) c := by
  intro i hi
  have hne : i ≠ c.vs := by
    rintro rfl
    rw [hw.room] at hi
    cases hi
  rw [Function.update_of_ne hne]
  exact hh i hi

theorem Holds.queued {c : Conn} {h : Accepted} (hh : Holds h c) (data : List Byte) :
    Holds (Function.update h c.vs (some data)) (c.queued data) := by
  intro i hi
  simp only [Conn.queued] at hi ⊢
  by_cases hne : i = c.vs
  · subst hne
    simp
  · rw [Function.update_of_ne hne] at hi ⊢
    rw [Function.update_of_ne hne]
    exact hh i hi

theorem Holds.step {c : Conn} {h : Accepted} (hh : Holds h c) (hc : SeqInv c) (e : Event) :
    Holds (c.accept e h) (c.step e).conn := by
  have hsame : Holds (c.accept e h) c := by
    unfold Conn.accept
    split
    · split
      · exact hh.update hc.window _
      · exact hh
    · exact hh
  rcases step_keeps hc e with hk | ⟨data, heap, refuses, rfl, hret, hk⟩
  · exact hk.holds hsame
  · simp only [Conn.accept, hret, if_true]
    exact hk.holds (hh.queued data)

theorem Holds.run {es : List Event} : ∀ {c : Conn} {h : Accepted}, Holds h c → SeqInv c →
    Holds (c.accepted es h) (c.run es).1 := by
  induction es with
  | nil => intro c h hh _; exact hh
  | cons e es ih => intro c h hh hc; exact ih (hh.step hc e) (hc.step e)

/-! ### The I frames of a batch -/

/-- The I frame that an action records. -/
def Action.info? : Action → Option Frame
  | .frame g => if g.type = .i then some g else none
  | _ => none

/-- The I frames of a batch, in order. -/
def infos (l : List Action) : List Frame := l.filterMap Action.info?

/-- The numbers `a`, `a + 1`, ..., `b - 1` modulo 8. -/
def numbers (a b : Nat) : List Nat := (List.range (arc 8 a b)).map fun k => (a + k) % 8

/-- The I frame of slot `q`. -/
def Conn.infoFrame (c : Conn) (q : Nat) : Frame := iFrame c q (c.txQueue q).data (c.txQueue q).len

theorem infos_append (k l : List Action) : infos (k ++ l) = infos k ++ infos l :=
  List.filterMap_append

theorem infos_slots (c : Conn) (qs : List Nat) :
    infos (qs.map c.slotFrame) = qs.map c.infoFrame := by
  have hinfo : Action.info? ∘ c.slotFrame = some ∘ c.infoFrame := rfl
  rw [infos, List.filterMap_map, hinfo, List.filterMap_eq_map]

theorem infos_eq_nil {l : List Action} (h : ∀ a ∈ l, a.isInfo = false) : infos l = [] := by
  unfold infos
  rw [List.filterMap_eq_nil_iff]
  intro a ha
  have hi := h a ha
  cases a with
  | frame g => simpa [Action.info?, Action.isInfo] using hi
  | _ => rfl

/-! ### The whole window is due -/

/-- Every slot of the window waits for its (re)transmission. -/
def Due (c : Conn) : Prop := ∀ i, Mem 8 c.va c.vs i → (c.txQueue i).transmitted = false

theorem Due.pendingSeqs {c : Conn} (h : Due c) (hw : WindowInv c) (hb : c.peerBusy = false) :
    c.pendingSeqs = seqRange c.va c.vs := by
  unfold Conn.pendingSeqs
  rw [hb]
  refine List.filter_eq_self.mpr fun q hq => ?_
  have hq := (mem_seqRange hw.va_lt hw.vs_lt).mp hq
  simp [slotPending, (hw.inUse q).mpr hq, h q hq]

/-- A quiet section marks nothing. -/
theorem Due.quiet {k : Nat} {s t : Locked} (h : Due s.conn) (hq : Quiet k s t) : Due t.conn := by
  intro i hi
  rw [hq.link.va, hq.link.vs] at hi
  have hs := h i hi
  cases ht : (t.conn.txQueue i).transmitted with
  | false => rfl
  | true =>
      rw [hq.marks i ht] at hs
      cases hs

theorem markUntransmitted_peerBusy (c : Conn) (a : Nat) :
    (c.markUntransmitted a).peerBusy = c.peerBusy := by
  unfold markUntransmitted
  rw [foldl_setTransmitted]
  rfl

theorem due_markUntransmitted {c : Conn} {a : Nat} (h : c.va = a) (ha : a < 8) (hs : c.vs < 8) :
    Due (c.markUntransmitted a) := by
  rw [markUntransmitted_eq c ha hs]
  intro i hi
  have hi : Mem 8 c.va c.vs i := hi
  rw [h] at hi
  simp [mapSlots, hi]

/-- The end of a recovery clears the marks of the window, if there is one. -/
theorem due_concludeRecovery {s : Locked} (ha : s.conn.va < 8) (hs : s.conn.vs < 8) :
    Due s.concludeRecovery.conn := by
  simp only [concludeRecovery, modify_conn]
  split
  · exact due_markUntransmitted rfl ha hs
  · next h =>
    intro i hi
    have hi : Mem 8 s.conn.va s.conn.vs i := hi
    rw [not_not] at h
    have h : s.conn.va = s.conn.vs := h
    rw [h] at hi
    exact absurd hi not_mem_self

theorem SameLink.infoFrame {c c' : Conn} (h : SameLink c c') (q : Nat) :
    c'.infoFrame q = c.infoFrame q := Action.frame.inj (h.slotFrame q)

/-- A quiet section records no I frame. -/
theorem Quiet.infos {k : Nat} {s t : Locked} (hq : Quiet k s t) (hs : s.deferred = []) :
    infos t.deferred = [] := by
  obtain ⟨l, hl, -, hno⟩ := hq.emits
  rw [hl, hs, List.nil_append]
  exact infos_eq_nil fun a ha => (hno a ha).2

/-- A section that arrives at its I frames with the whole window due, and with a
peer that is not busy, sends the whole window. -/
theorem infos_resent {k : Nat} {s₁ t s' : Locked} (hq : Quiet k s₁ t) (hw : WindowInv s₁.conn)
    (hs : s₁.deferred = []) (hb : t.conn.peerBusy = false) (hd : Due t.conn)
    (hdef : s'.deferred = t.deferred ++ t.conn.pendingSeqs.map t.conn.slotFrame) :
    infos s'.deferred = (seqRange s₁.conn.va s₁.conn.vs).map s₁.conn.infoFrame := by
  rw [hdef, infos_append, hq.infos hs, List.nil_append, infos_slots,
    hd.pendingSeqs (hw.sameLink hq.link) hb,
    hq.link.va, hq.link.vs]
  exact List.map_congr_left fun q _ => hq.link.infoFrame q

theorem pendingSeqs_of_empty {c : Conn} (hs : c.vs < 8) (h : c.va = c.vs) :
    c.pendingSeqs = [] := by
  rw [List.eq_nil_iff_forall_not_mem]
  intro q hq
  have hm := ((mem_pendingSeqs (h ▸ hs) hs).mp hq).2.1
  rw [h] at hm
  exact absurd hm not_mem_self

/-- Settling a recovery records the pending I frames, if they are to be sent. -/
theorem settleRecovery_deferred {s : Locked} (hw : WindowInv s.conn) (hlen : s.deferred.length ≤ 5)
    (b : Bool) : (s.settleRecovery b).deferred =
      s.deferred ++ (if b then s.conn.pendingSeqs else []).map s.conn.slotFrame := by
  cases b with
  | false =>
      simp only [settleRecovery, Bool.false_eq_true, if_false, List.map_nil, List.append_nil]
      split_ifs <;> rfl
  | true =>
      simp only [settleRecovery, if_true]
      split_ifs with hst heq
      · simp [pendingSeqs_of_empty hw.vs_lt heq]
      · -- the timers that move do not matter for what is pending
        have hsend := sendPendingIFrames_eq (s := s.modify stopTimerT3) hw.va_lt hw.vs_lt hlen
        simp only [modify_deferred, hsend]
        rfl
      · rw [sendPendingIFrames_eq hw.va_lt hw.vs_lt hlen]

/-- It records all of them if it is asked to whenever something is outstanding. -/
theorem settleRecovery_outstanding {s : Locked} (hw : WindowInv s.conn)
    (hlen : s.deferred.length ≤ 5) {b : Bool} (hb : b = false → s.conn.va = s.conn.vs) :
    (s.settleRecovery b).deferred = s.deferred ++ s.conn.pendingSeqs.map s.conn.slotFrame := by
  rw [settleRecovery_deferred hw hlen]
  cases b with
  | false => rw [pendingSeqs_of_empty hw.vs_lt (hb rfl)]; rfl
  | true => rfl

/-- After a quiet section the batch has room for a whole window. -/
theorem Quiet.room {k : Nat} {s t : Locked} (hq : Quiet k s t) (hs : s.deferred = [])
    (hk : k ≤ 5) : t.deferred.length ≤ 5 := by
  obtain ⟨l, hl, hlen, -⟩ := hq.emits
  rw [hl, hs, List.nil_append]
  exact Nat.le_trans hlen hk

/-- While the peer is busy, settling a recovery sends nothing. -/
theorem infos_settled_busy {k : Nat} {s t : Locked} (hq : Quiet k s t) (hs : s.deferred = [])
    (hw : WindowInv s.conn) (hk : k ≤ 5) (hb : t.conn.peerBusy = true) (b : Bool) :
    infos (t.settleRecovery b).deferred = [] := by
  have hnone : t.conn.pendingSeqs = [] := if_pos hb
  have hlen : t.deferred.length ≤ 5 := hq.room hs hk
  rw [settleRecovery_deferred (hw.sameLink hq.link) hlen, infos_append, hq.infos hs, hnone, ite_self]
  rfl

/-! ### The handlers -/

section handlers

variable {s : Locked} {f : Frame} (hw : WindowInv s.conn) (hs : s.deferred = [])
  (hv : s.conn.isValidNr f.nr = true)

include hw hs hv

/-- `handle_frame_connected` on a REJ. -/
theorem connectedS_rej (hrej : f.sType = ctrlRej) :
    infos (s.connectedS f).1.deferred =
      (seqRange f.nr s.conn.vs).map (s.conn.ackConn f.nr).infoFrame := by
  have hrr : ctrlRej ≠ ctrlRr := by decide
  have hrnr : ctrlRej ≠ ctrlRnr := by decide
  have h₀ := ((quiet_handleReceivedNr hw.va_lt hv).trans (quiet_peerBusy _ false)).trans
    (quiet_answerPoll _ f)
  have hq := h₀.trans (quiet_markUntransmitted _ f.nr)
  have hwt := (hw.ack f.nr_lt hv).sameLink hq.link
  refine infos_resent hq (hw.ack f.nr_lt hv) hs ?_ ?_ ?_
  · rw [modify_conn, markUntransmitted_peerBusy, answerPoll_conn]
    rfl
  · exact due_markUntransmitted h₀.link.va f.nr_lt (h₀.link.vs ▸ hw.vs_lt)
  · simp only [connectedS, hv, hrej, hrr, hrnr, Bool.not_true, Bool.false_eq_true, if_true, if_false]
    rw [sendPendingIFrames_eq hwt.va_lt hwt.vs_lt (hq.room hs (by decide))]

/-- `handle_frame_connected` on an RNR. -/
theorem connectedS_rnr (hrnr : f.sType = ctrlRnr) : infos (s.connectedS f).1.deferred = [] := by
  have hrr : ctrlRnr ≠ ctrlRr := by decide
  have hq := ((quiet_handleReceivedNr hw.va_lt hv).trans (quiet_peerBusy _ true)).trans
    (quiet_answerPoll _ f)
  simp only [connectedS, hv, hrnr, hrr, Bool.not_true, Bool.false_eq_true, if_true, if_false]
  exact hq.infos hs

section recovery

variable (hst : s.conn.state = .timerRecovery)
include hst

/-- `handle_frame_timer_recovery` on a REJ. -/
theorem timerRecoveryS_rej (hrej : f.sType = ctrlRej) :
    infos (s.timerRecoveryS f).1.deferred =
      (seqRange f.nr s.conn.vs).map (s.conn.ackConn f.nr).infoFrame := by
  have hrr : ctrlRej ≠ ctrlRr := by decide
  have hrnr : ctrlRej ≠ ctrlRnr := by decide
  have h₀ := ((quiet_concludeIfFinal hw.va_lt hv hst).trans (quiet_peerBusy _ false)).trans
    (quiet_answerPoll _ f)
  have hq := h₀.trans (quiet_markUntransmitted _ f.nr)
  have hwt := (hw.ack f.nr_lt hv).sameLink hq.link
  refine infos_resent hq (hw.ack f.nr_lt hv) hs ?_ ?_ ?_
  · rw [modify_conn, markUntransmitted_peerBusy, answerPoll_conn]
    rfl
  · exact due_markUntransmitted h₀.link.va f.nr_lt (h₀.link.vs ▸ hw.vs_lt)
  · simp only [timerRecoveryS, hv, hrej, hrr, hrnr, Bool.not_true, Bool.false_eq_true, if_true,
      if_false]
    exact settleRecovery_outstanding hwt (hq.room hs (by decide)) (by simp)

/-- The retransmission due at the end of a recovery: an RR final. -/
theorem timerRecoveryS_final (hrr : f.sType = ctrlRr) (hfin : responseFinal f = true) :
    infos (s.timerRecoveryS f).1.deferred =
      (seqRange f.nr s.conn.vs).map (s.conn.ackConn f.nr).infoFrame := by
  have hcon := quiet_concludeIfFinal hw.va_lt hv hst
  rw [if_pos hfin] at hcon
  have h₁ := hcon.trans (quiet_peerBusy _ false)
  have hq := h₁.trans (quiet_answerPoll _ f)
  have hwt := (hw.ack f.nr_lt hv).sameLink hq.link
  have hva : (s.conn.handleReceivedNr f.nr).va = f.nr := by
    rw [handleReceivedNr_recovery hw.va_lt hv hst]
    rfl
  have hvs : (s.conn.handleReceivedNr f.nr).vs = s.conn.vs := by
    rw [handleReceivedNr_recovery hw.va_lt hv hst]
    rfl
  have hdue : Due (s.modify (·.handleReceivedNr f.nr)).concludeRecovery.conn :=
    due_concludeRecovery (by rw [modify_conn, hva]; exact f.nr_lt)
      (by rw [modify_conn, hvs]; exact hw.vs_lt)
  refine infos_resent hq (hw.ack f.nr_lt hv) hs ?_ ?_ ?_
  · rw [answerPoll_conn]
    rfl
  · rw [answerPoll_conn]
    exact hdue
  · simp only [timerRecoveryS, hv, hrr, hfin, Bool.not_true, Bool.false_eq_true, if_true, if_false]
    refine settleRecovery_outstanding hwt (hq.room hs (by decide)) fun hb => ?_
    have hb : (s.conn.handleReceivedNr f.nr).va = (s.conn.handleReceivedNr f.nr).vs := by
      simpa using hb
    rw [hq.link.va, hq.link.vs]
    exact hva.symm.trans (hb.trans hvs)

/-- `handle_frame_timer_recovery` on an RNR: the peer is busy, so the call of
`send_pending_i_frames` sends nothing. -/
theorem timerRecoveryS_rnr (hrnr : f.sType = ctrlRnr) :
    infos (s.timerRecoveryS f).1.deferred = [] := by
  have hrr : ctrlRnr ≠ ctrlRr := by decide
  have h₁ := (quiet_concludeIfFinal hw.va_lt hv hst).trans (quiet_peerBusy _ true)
  have hq := h₁.trans (quiet_answerPoll _ f)
  have hwt := (hw.ack f.nr_lt hv).sameLink hq.link
  simp only [timerRecoveryS, hv, hrnr, hrr, Bool.not_true, Bool.false_eq_true, if_true, if_false]
  refine infos_settled_busy hq hs (hw.ack f.nr_lt hv) (by decide) ?_ _
  rw [answerPoll_conn]
  rfl

end recovery

end handlers

/-- The frames that make the station go back: a REJ, or, in timer recovery, a
final with RR. -/
def GoesBack (c : Conn) (f : Frame) : Prop :=
  f.sType = ctrlRej ∨ c.state = .timerRecovery ∧ f.sType = ctrlRr ∧ responseFinal f = true

section dataHandler

variable {c : Conn} {f : Frame} (hw : WindowInv c) (hl : c.Linked) (hty : f.type = .s)
  (hv : c.isValidNr f.nr = true)
include hw hl hty hv

theorem dataHandler_goesBack (h : GoesBack c f) :
    infos (dataHandler ⟨c, []⟩ f).1.deferred =
      (seqRange f.nr c.vs).map (c.ackConn f.nr).infoFrame := by
  unfold dataHandler
  rcases hl with hst | hst <;>
    simp only [hst, reduceCtorEq, if_true, if_false, handleFrameConnected,
      handleFrameTimerRecovery, hty]
  · rcases h with hrej | ⟨hrec, -⟩
    · exact connectedS_rej (s := ⟨c, []⟩) hw rfl hv hrej
    · cases hst.symm.trans hrec
  · rcases h with hrej | ⟨-, hrr, hfin⟩
    · exact timerRecoveryS_rej (s := ⟨c, []⟩) hw rfl hv hst hrej
    · exact timerRecoveryS_final (s := ⟨c, []⟩) hw rfl hv hst hrr hfin

theorem dataHandler_rnr (hrnr : f.sType = ctrlRnr) :
    infos (dataHandler ⟨c, []⟩ f).1.deferred = [] := by
  unfold dataHandler
  rcases hl with hst | hst <;>
    simp only [hst, reduceCtorEq, if_true, if_false, handleFrameConnected,
      handleFrameTimerRecovery, hty]
  · exact connectedS_rnr (s := ⟨c, []⟩) hw rfl hv hrnr
  · exact timerRecoveryS_rnr (s := ⟨c, []⟩) hw rfl hv hst hrnr

/-- An S frame moves V(A) to its N(R) and leaves the other variables. -/
theorem dataHandler_link : SameLink (c.ackConn f.nr) (dataHandler ⟨c, []⟩ f).1.conn := by
  obtain ⟨⟨s₁, t, hr, hq, hf⟩, -⟩ := @dataPhase ⟨c, []⟩ f hw.va_lt hl (Or.inl hty) hv
  have hwt := (WindowInv.received (s := ⟨c, []⟩) hw hv hr).sameLink hq.link
  have hlink := hq.link.trans (hf.transfer hwt.va_lt hwt.vs_lt).link
  cases hr with
  | ack => exact hlink
  | data hi => cases hty.symm.trans hi

end dataHandler

/-! ### Exact retransmission -/

/-- The I frames of `out` are those with N(S) = `a`, ..., `b - 1`, in this
order, each with the payload accepted for its number and N(R) = V(R). -/
structure Resends (h : Accepted) (c : Conn) (a b : Nat) (out : List Action) : Prop where
  order : (infos out).map Frame.ns = numbers a b
  payload : ∀ g ∈ infos out, h g.ns = some g.payload
  nr : ∀ g ∈ infos out, g.nr = c.vr

/-- The I frame of a slot of the window. -/
theorem infoFrame_spec {c : Conn} (hw : WindowInv c) {q : Nat} (hq : Mem 8 c.va c.vs q) :
    (c.infoFrame q).ns = q ∧ (c.infoFrame q).nr = c.vr ∧
      (c.infoFrame q).payload = (c.txQueue q).data := by
  obtain ⟨f, hf, -, hns, hpay⟩ := slotFrame_eq hw hq
  have hf : c.infoFrame q = f := Action.frame.inj hf
  refine ⟨hf ▸ hns, ?_, hf ▸ hpay⟩
  exact extractNr_buildI hq.1 hw.vr_lt false

/-- The frames of the window, seen from the history. -/
theorem resends_window {c : Conn} {h : Accepted} (hw : WindowInv c) (hh : Holds h c)
    {out : List Action} (hout : infos out = (seqRange c.va c.vs).map c.infoFrame) :
    Resends h c c.va c.vs out := by
  have hmem : ∀ q ∈ seqRange c.va c.vs, Mem 8 c.va c.vs q :=
    fun q hq => (mem_seqRange hw.va_lt hw.vs_lt).mp hq
  have hspec : ∀ g ∈ infos out, ∃ q, Mem 8 c.va c.vs q ∧ g = c.infoFrame q := by
    intro g hg
    rw [hout] at hg
    obtain ⟨q, hq, rfl⟩ := List.mem_map.mp hg
    exact ⟨q, hmem q hq, rfl⟩
  refine ⟨?_, fun g hg => ?_, fun g hg => ?_⟩
  · rw [hout, List.map_map, numbers, ← seqRange_eq hw.va_lt hw.vs_lt]
    calc (seqRange c.va c.vs).map (Frame.ns ∘ c.infoFrame)
        = (seqRange c.va c.vs).map id :=
          List.map_congr_left fun q hq => (infoFrame_spec hw (hmem q hq)).1
      _ = seqRange c.va c.vs := List.map_id _
  · obtain ⟨q, hq, rfl⟩ := hspec g hg
    obtain ⟨hns, -, hpay⟩ := infoFrame_spec hw hq
    rw [hns, hpay]
    exact hh q ((hw.inUse q).mpr hq)
  · obtain ⟨q, hq, rfl⟩ := hspec g hg
    exact (infoFrame_spec hw hq).2.1

/-- An RNR makes no station send an I frame, whatever its state. -/
theorem step_rnr {c : Conn} (h : SeqInv c) {f : Frame} (hty : f.type = .s)
    (hrnr : f.sType = ctrlRnr) (heap refuses : Bool) :
    infos (c.step (.call (.onFrame f) heap refuses)).out = [] := by
  have hc := call_cases h (.onFrame f) heap refuses
  generalize c.step (.call (.onFrame f) heap refuses) = r at hc
  cases hc with
  | early => rfl
  | returned ret hp hsec =>
      cases hsec with
      | ignored => rfl
      | data f hl hs hv hr ht hd =>
          rw [← hd]
          exact dataHandler_rnr (h.window.congr rfl rfl rfl rfl rfl) hl hty hv hrnr
      | reestablish f c₀ msg ret hl hc => rfl
      | reject f hu | relink f hl hu => cases hty.symm.trans hu
      | teardown pre hne hlen hf hop =>
          rcases hop with ⟨h, -⟩ | ⟨f', h, hu, -⟩
          · cases h
          · cases h
            cases hty.symm.trans hu
  | told hp hsec =>
      cases hsec with
      | opened f hst hu | collision f hst hu => cases hty.symm.trans hu
  | asked f' hop hp hst hu =>
      cases hop
      cases hty.symm.trans hu

/-- **Exact go-back-N.** After any run, on a link that is up: a REJ of the peer
with a valid N(R) = n makes the call send exactly the I frames n, ..., V(S) - 1,
and so does, in timer recovery, an RR or REJ final from the new V(A) on; V(S)
stays. An RNR makes no call send an I frame. -/
theorem retransmission {res : InitResources} {a : Address} {cb : Callbacks} {cfg : Option Config}
    {c₀ : Conn} (h₀ : Conn.init res a cb cfg = .ok c₀) (es : List Event) (f : Frame)
    (heap refuses : Bool) (hty : f.type = .s) :
    let c := (c₀.run es).1
    let r := c.step (.call (.onFrame f) heap refuses)
    let h := c₀.accepted es fun _ => none
    (f.sType = ctrlRnr → infos r.out = []) ∧
    (c.Linked → ¬ Foreign c f → arc 8 c.va f.nr ≤ arc 8 c.va c.vs →
      r.conn.vs = c.vs ∧
      (f.sType = ctrlRej → Resends h r.conn f.nr c.vs r.out) ∧
      (c.state = .timerRecovery → f.sType = ctrlRr ∨ f.sType = ctrlRej → f.isCommand = false →
        f.pf = true → Resends h r.conn r.conn.va c.vs r.out)) := by
  intro c r h
  have hinv : SeqInv c := ((Reachable.init h₀).run es).seqInv
  refine ⟨fun hrnr => step_rnr hinv hty hrnr heap refuses, fun hl hf hnr => ?_⟩
  have hw : WindowInv c.taken := hinv.window.congr rfl rfl rfl rfl rfl
  have hv : c.taken.isValidNr f.nr = true := (isValidNr_iff hw.va_lt hw.vs_lt f.nr_lt).mpr hnr
  have hstep : r = _ := step_linked hinv hl hf heap refuses
  have hlink := dataHandler_link (c := c.taken) hw hl hty hv
  have hholds : Holds h c := by
    refine Holds.run ?_ (Reachable.init h₀).seqInv
    intro i hi
    rw [init_ok h₀] at hi
    cases hi
  have hback : GoesBack c.taken f → Resends h r.conn f.nr c.vs r.out := by
    intro hg
    have hres := resends_window (hw.ack f.nr_lt hv)
      ((keeps_ackConn c.taken f.nr).holds (show Holds h c.taken from hholds))
      (dataHandler_goesBack hw hl hty hv hg)
    rw [hstep]
    exact ⟨hres.order, hres.payload, fun g hg => (hres.nr g hg).trans hlink.vr.symm⟩
  have hva : r.conn.va = f.nr := by rw [hstep]; exact hlink.va
  refine ⟨by rw [hstep]; exact hlink.vs, fun hrej => hback (Or.inl hrej),
    fun hst hsty hcmd hpf => ?_⟩
  rw [hva]
  rcases hsty with hrr | hrej
  · exact hback (Or.inr ⟨hst, hrr, by simp [responseFinal, hpf, hcmd]⟩)
  · exact hback (Or.inl hrej)

/-- A link on which two payloads are outstanding. -/
def sampleWindow : List Event :=
  [.call (.onFrame sampleSabm) false false, .call (.sendData [1]) false false,
    .call (.sendData [2]) false false]

/-- A REJ for the first of them from `sampleB`. -/
def sampleRej : Frame := { sampleSabm with type := .s, control := frameBuildRejControl 0 true }

/-- Both payloads are sent again. -/
theorem retransmission_rej :
    let c := (sampleConn.run sampleWindow).1
    let r := c.step (.call (.onFrame sampleRej) false false)
    Resends (sampleConn.accepted sampleWindow fun _ => none) r.conn sampleRej.nr c.vs r.out ∧
      (infos r.out).map Frame.ns = [0, 1] ∧ (infos r.out).map Frame.payload = [[1], [2]] :=
  ⟨((@retransmission ⟨true, true, .ok, true, .ok, .ok, .ok⟩ sampleA
      ⟨true, true, true, true, true, true, true⟩ none sampleConn rfl sampleWindow sampleRej
      false false rfl).2 (by decide) (by decide) (by decide)).2.1 rfl, by decide, by decide⟩

end EspAx25
