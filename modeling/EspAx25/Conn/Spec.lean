import EspAx25.Cyclic
import EspAx25.Conn.Api

/-!
# EspAx25.Conn.Spec

One specification lemma for each helper of the connection layer, so that no
later proof unfolds a loop.

* The recording helpers do not touch the context (`deferAction_conn` and its
  relatives), and append while there is room (`deferAction_of_lt`).
* The three loops have closed forms: `seqRange` lists the cyclic interval,
  `markUntransmitted` and `retire` rewrite the slots of one, and
  `sendPendingIFrames` records the frames of `pendingSeqs` (`sendPendingIFrames_eq`).
-/

namespace EspAx25

open Cyclic

/-! ### Recording leaves the context alone -/

namespace Locked

@[simp] theorem deferAction_conn (s : Locked) (a : Action) :
    (s.deferAction a).1.conn = s.conn := by
  unfold deferAction; split <;> rfl

/-- There is room in the batch: the action is appended. -/
theorem deferAction_of_lt {s : Locked} (h : s.deferred.length < maxDeferredActions) (a : Action) :
    s.deferAction a = (⟨s.conn, s.deferred ++ [a]⟩, true) := by
  unfold deferAction
  rw [if_neg (by omega)]

theorem deferAction_deferred (s : Locked) (a : Action) :
    (s.deferAction a).1.deferred =
      if s.deferred.length ≥ maxDeferredActions then s.deferred else s.deferred ++ [a] := by
  unfold deferAction; split <;> rfl

@[simp] theorem deferOnError_conn (s : Locked) (code : EspErr) (msg : String) :
    (s.deferOnError code msg).conn = s.conn := deferAction_conn _ _

@[simp] theorem deferOnDisconnect_conn (s : Locked) : s.deferOnDisconnect.conn = s.conn :=
  deferAction_conn _ _

@[simp] theorem deferOnLinkReset_conn (s : Locked) : s.deferOnLinkReset.conn = s.conn :=
  deferAction_conn _ _

@[simp] theorem deferOnFinal_conn (s : Locked) : s.deferOnFinal.conn = s.conn :=
  deferAction_conn _ _

@[simp] theorem deferOnData_conn (s : Locked) (payload : List Byte) :
    (s.deferOnData payload).conn = s.conn := by
  unfold deferOnData
  split
  · rfl
  · exact deferAction_conn _ _

@[simp] theorem sendFrameInternal_conn (s : Locked) (f : Frame) :
    (s.sendFrameInternal f).1.conn = s.conn := by
  have hc := deferAction_conn s (.frame f)
  unfold sendFrameInternal
  rcases h : s.deferAction (.frame f) with ⟨s', _ | _⟩ <;> rw [h] at hc <;> exact hc

theorem sendFrameInternal_of_lt {s : Locked} (h : s.deferred.length < maxDeferredActions)
    (f : Frame) : s.sendFrameInternal f = (⟨s.conn, s.deferred ++ [.frame f]⟩, .ok) := by
  unfold sendFrameInternal
  rw [deferAction_of_lt h]

@[simp] theorem sendUFrame_conn (ctrl : Byte) (cmd : Bool) (s : Locked) (pf : Bool) :
    (sendUFrame ctrl cmd s pf).1.conn = s.conn := sendFrameInternal_conn _ _

@[simp] theorem sendSabm_conn (s : Locked) (pf : Bool) : (s.sendSabm pf).1.conn = s.conn :=
  sendFrameInternal_conn _ _

@[simp] theorem sendDisc_conn (s : Locked) (pf : Bool) : (s.sendDisc pf).1.conn = s.conn :=
  sendFrameInternal_conn _ _

@[simp] theorem sendUa_conn (s : Locked) (pf : Bool) : (s.sendUa pf).1.conn = s.conn :=
  sendFrameInternal_conn _ _

@[simp] theorem sendDm_conn (s : Locked) (pf : Bool) : (s.sendDm pf).1.conn = s.conn :=
  sendFrameInternal_conn _ _

@[simp] theorem sendRr_conn (s : Locked) (pf cmd : Bool) : (s.sendRr pf cmd).1.conn = s.conn :=
  sendFrameInternal_conn _ _

@[simp] theorem sendRnr_conn (s : Locked) (pf cmd : Bool) : (s.sendRnr pf cmd).1.conn = s.conn :=
  sendFrameInternal_conn _ _

@[simp] theorem sendAck_conn (s : Locked) (pf cmd : Bool) : (s.sendAck pf cmd).1.conn = s.conn := by
  unfold sendAck; split <;> simp

@[simp] theorem sendRej_conn (s : Locked) (pf cmd : Bool) :
    (s.sendRej pf cmd).1.conn = { s.conn with rejSent := true } :=
  sendFrameInternal_conn _ _

end Locked

/-! ### The loops -/

namespace Conn

/-- The loop visits the cyclic interval in order. -/
theorem seqRange_eq {a b : Nat} (ha : a < 8) (hb : b < 8) :
    seqRange a b = (List.range (arc 8 a b)).map fun k => (a + k) % 8 := by
  have h : ∀ a < 8, ∀ b < 8,
      seqRange a b = (List.range (arc 8 a b)).map fun k => (a + k) % 8 := by decide
  exact h a ha b hb

theorem seqRange_length {a b : Nat} (ha : a < 8) (hb : b < 8) :
    (seqRange a b).length = arc 8 a b := by
  rw [seqRange_eq ha hb]; simp

theorem mem_seqRange {a b i : Nat} (ha : a < 8) (hb : b < 8) :
    i ∈ seqRange a b ↔ Mem 8 a b i := by
  have h : ∀ a < 8, ∀ b < 8, ∀ i < 8, i ∈ seqRange a b ↔ Mem 8 a b i := by decide
  by_cases hi : i < 8
  · exact h a ha b hb i hi
  · refine ⟨fun hm => absurd ?_ hi, fun hm => absurd hm.1 hi⟩
    rw [seqRange_eq ha hb] at hm
    obtain ⟨k, -, rfl⟩ := List.mem_map.mp hm
    exact Nat.mod_lt _ (by decide)

theorem seqRange_nodup {a b : Nat} (ha : a < 8) (hb : b < 8) : (seqRange a b).Nodup := by
  have h : ∀ a < 8, ∀ b < 8, (seqRange a b).Nodup := by decide
  exact h a ha b hb

/-- Rewrite the slots that satisfy `p`. -/
def mapSlots (c : Conn) (p : Nat → Prop) [DecidablePred p] (f : PendingFrame → PendingFrame) :
    Conn :=
  { c with txQueue := fun i => if p i then f (c.txQueue i) else c.txQueue i }

theorem foldl_setTransmitted (l : List Nat) (c : Conn) :
    l.foldl (fun c seq => c.setTransmitted seq false) c =
      c.mapSlots (· ∈ l) fun pf => { pf with transmitted := false } := by
  induction l generalizing c with
  | nil => simp [mapSlots]
  | cons q l ih =>
      rw [List.foldl_cons, ih]
      simp only [mapSlots, setTransmitted, Conn.mk.injEq, true_and, and_true]
      funext i
      by_cases hq : i = q
      · subst hq; by_cases hl : i ∈ l <;> simp [hl]
      · simp [hq]

/-- `markUntransmitted` clears the flag on `[a, V(S))`. -/
theorem markUntransmitted_eq (c : Conn) {a : Nat} (ha : a < 8) (hs : c.vs < 8) :
    c.markUntransmitted a =
      c.mapSlots (Mem 8 a c.vs) fun pf => { pf with transmitted := false } := by
  unfold markUntransmitted
  rw [foldl_setTransmitted]
  simp only [mapSlots, mem_seqRange ha hs]

/-- `retire` frees the slots of `[V(A), N(R))` and moves V(A) to N(R). -/
theorem retire_eq {nr : Nat} (hnr : nr < 8) : ∀ (fuel : Nat) (c : Conn), c.va < 8 →
    arc 8 c.va nr ≤ fuel →
      c.retire nr fuel =
        { c.mapSlots (Mem 8 c.va nr) fun pf => { pf with inUse := false } with va := nr } := by
  intro fuel
  induction fuel with
  | zero =>
      intro c hva hd
      have : c.va = nr := (arc_eq_zero hva).mp (by omega)
      simp [retire, mapSlots, ← this, not_mem_self]
  | succ fuel ih =>
      intro c hva hd
      unfold retire
      split
      · next h => simp [mapSlots, ← h, not_mem_self]
      · next h =>
        -- the head slot is freed here, the rest of the interval by the recursion
        rw [arc_pred hva hnr h] at hd
        rw [ih _ (mod8_lt _) (by dsimp only [mod8]; omega)]
        simp only [mapSlots, mod8, Conn.mk.injEq, true_and, and_true]
        funext i
        by_cases hi : i = c.va
        · subst hi
          simp [mem_succ_left hva hnr h, mem_left hva h]
        · simp [mem_succ_left hva hnr h, hi]

/-! ### Sending the pending I frames -/

/-- Slot `q` waits for its first transmission or for a retransmission. -/
def slotPending (c : Conn) (q : Nat) : Bool := (c.txQueue q).inUse && !(c.txQueue q).transmitted

/-- The sequence numbers that `send_pending_i_frames` sends, in order. -/
def pendingSeqs (c : Conn) : List Nat :=
  if c.peerBusy then [] else (seqRange c.va c.vs).filter c.slotPending

/-- The I frame of slot `q`, as an action. -/
def slotFrame (c : Conn) (q : Nat) : Action :=
  .frame (Locked.iFrame c q (c.txQueue q).data (c.txQueue q).len)

/-- The context after the frames `qs` have been recorded. -/
def noteSent (c : Conn) (qs : List Nat) : Conn :=
  if qs = [] then c
  else
    ({ c.mapSlots (· ∈ qs) (fun pf => { pf with transmitted := true }) with
        ackPending := false }.startTimerT1).stopTimerT3

end Conn

namespace Locked

open Conn

/-- One round of the loop on a slot that is due: what the rest of the loop does
afterwards, seen from the context before the round. -/
theorem noteSent_cons (c : Conn) {q : Nat} {qs : List Nat} :
    ((({ c with ackPending := false }.setTransmitted q true).startTimerT1).stopTimerT3).noteSent qs =
      c.noteSent (q :: qs) := by
  cases qs with
  | nil =>
      simp only [noteSent, mapSlots, setTransmitted, startTimerT1, stopTimerT3, if_true,
        reduceCtorEq, if_false, List.mem_singleton, Conn.mk.injEq, true_and, and_true]
      refine ⟨funext fun i => ?_, by congr⟩
      by_cases h : i = q <;> simp [h]
  | cons r rs =>
      simp only [noteSent, mapSlots, setTransmitted, startTimerT1, stopTimerT3,
        reduceCtorEq, if_false, Conn.mk.injEq, true_and, Timer.start, Timer.stop, and_true]
      refine ⟨funext fun i => ?_, by congr⟩
      by_cases h : i = q
      · subst h; by_cases hr : i ∈ r :: rs <;> simp [hr]
      · simp [h, List.mem_cons]

/-- `sendPendingLoop` records the frames of the pending slots it visits. -/
theorem sendPendingLoop_eq (l : List Nat) : ∀ s : Locked, l.Nodup →
    s.deferred.length + l.length ≤ maxDeferredActions →
      sendPendingLoop l s =
        (⟨s.conn.noteSent (l.filter s.conn.slotPending),
          s.deferred ++ (l.filter s.conn.slotPending).map s.conn.slotFrame⟩, .ok) := by
  induction l with
  | nil => intro s _ _; simp [sendPendingLoop, noteSent]
  | cons q l ih =>
      intro s hnd hlen
      obtain ⟨hq, hnd⟩ := List.nodup_cons.mp hnd
      rw [List.length_cons] at hlen
      by_cases hp : s.conn.slotPending q = true
      · -- recorded: the loop goes on with the slot marked
        have hp' : ((s.conn.txQueue q).inUse && !(s.conn.txQueue q).transmitted) = true := hp
        have hsend : s.sendIFrame q (s.conn.txQueue q).data (s.conn.txQueue q).len =
            (⟨{ s.conn with ackPending := false }, s.deferred ++ [s.conn.slotFrame q]⟩, .ok) :=
          sendFrameInternal_of_lt (s := s.modify fun c => { c with ackPending := false })
            (by simp only [modify_deferred]; omega) _
        have hne : ∀ x ∈ l, x ≠ q := fun x hx h => hq (h ▸ hx)
        rw [sendPendingLoop]
        simp only [hp', if_true, hsend, modify]
        rw [ih _ hnd (by simp only [List.length_append, List.length_singleton]; omega)]
        have hfilter : l.filter (Conn.slotPending
              ((({ s.conn with ackPending := false }.setTransmitted q true).startTimerT1).stopTimerT3)) =
            l.filter s.conn.slotPending := by
          apply List.filter_congr
          intro x hx
          simp [slotPending, setTransmitted, startTimerT1, stopTimerT3, hne x hx]
        simp only [hfilter]
        rw [noteSent_cons, List.filter_cons_of_pos hp, List.map_cons, List.append_assoc,
          List.singleton_append]
        congr 4
        apply List.map_congr_left
        intro x hx
        have hx := hne x (List.mem_filter.mp hx).1
        simp [slotFrame, iFrame, outFrame, setTransmitted, startTimerT1, stopTimerT3, hx]
      · have hp' : ¬ ((s.conn.txQueue q).inUse && !(s.conn.txQueue q).transmitted) = true := hp
        rw [sendPendingLoop]
        simp only [hp']
        rw [ih s hnd (by omega), List.filter_cons_of_neg hp]
        simp

/-- `send_pending_i_frames`: with at most five actions already in the batch, the
seven frames of a window fit, and all pending frames are recorded. -/
theorem sendPendingIFrames_eq {s : Locked} (ha : s.conn.va < 8) (hs : s.conn.vs < 8)
    (hlen : s.deferred.length ≤ 5) :
    s.sendPendingIFrames =
      (⟨s.conn.noteSent s.conn.pendingSeqs,
        s.deferred ++ s.conn.pendingSeqs.map s.conn.slotFrame⟩, .ok) := by
  unfold sendPendingIFrames pendingSeqs
  split
  · simp [noteSent]
  · have hd := arc_lt (a := s.conn.va) hs
    apply sendPendingLoop_eq _ _ (seqRange_nodup ha hs)
    rw [seqRange_length ha hs, maxDeferredActions]
    omega

end Locked

namespace Conn

/-- Only slots in use, inside the window and not yet (re)transmitted are sent. -/
theorem mem_pendingSeqs {c : Conn} (ha : c.va < 8) (hs : c.vs < 8) {q : Nat} :
    q ∈ c.pendingSeqs ↔ c.peerBusy = false ∧ Mem 8 c.va c.vs q ∧
      (c.txQueue q).inUse = true ∧ (c.txQueue q).transmitted = false := by
  unfold pendingSeqs
  split
  · next h => simp [h]
  · next h => simp [h, List.mem_filter, mem_seqRange ha hs, slotPending]

/-! ### N(R) -/

theorem outstandingFrames_eq {c : Conn} (ha : c.va < 8) (hs : c.vs < 8) :
    c.outstandingFrames = arc 8 c.va c.vs := by
  unfold outstandingFrames arc
  split <;> omega

/-- `is_valid_nr` accepts the closed cyclic interval from V(A) to V(S). -/
theorem isValidNr_iff {c : Conn} (ha : c.va < 8) (hs : c.vs < 8) {nr : Nat} (hn : nr < 8) :
    c.isValidNr nr = true ↔ arc 8 c.va nr ≤ arc 8 c.va c.vs := by
  unfold isValidNr arc
  by_cases h : c.va ≤ c.vs
  · simp only [h, if_true, Bool.and_eq_true, decide_eq_true_eq]
    split <;> omega
  · simp only [h, if_false, Bool.or_eq_true, decide_eq_true_eq]
    split <;> omega

/-- The context with the slots of `[V(A), nr)` freed and V(A) moved to `nr`. -/
def ackConn (c : Conn) (nr : Nat) : Conn :=
  { c.mapSlots (Mem 8 c.va nr) (fun pf => { pf with inUse := false }) with va := nr }

/-- The timers after an acknowledgement: only in the connected state does
`handle_received_nr` touch them. -/
def ackTimers (c : Conn) (progress : Bool) : Conn :=
  if c.state = .connected then
    if c.va = c.vs then c.stopTimerT1.startTimerT3
    else if progress then c.stopTimerT3.startTimerT1
    else c
  else c

/-- `handle_received_nr` on a valid N(R). -/
theorem handleReceivedNr_eq {c : Conn} (ha : c.va < 8) {nr : Nat} (hn : nr < 8)
    (hv : c.isValidNr nr = true) :
    c.handleReceivedNr nr = (c.ackConn nr).ackTimers (c.va != nr) := by
  unfold handleReceivedNr
  simp only [hv, Bool.not_true, Bool.false_eq_true, if_false]
  rw [retire_eq hn 8 c ha (by have := arc_lt (a := c.va) hn; omega)]
  rfl

end Conn

end EspAx25
