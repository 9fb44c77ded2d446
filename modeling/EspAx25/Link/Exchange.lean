import Mathlib.Algebra.Order.BigOperators.Group.List
import Mathlib.Algebra.Order.Ring.Nat
import Mathlib.Data.Finset.Card
import EspAx25.Conn.Retransmit
import EspAx25.Link.Reliable

/-!
# EspAx25.Link.Exchange

Without timers and without calls of the applications, the exchange of frames
between the two endpoints dies out: one arrival may cause further frames, but
there is no storm of polls, rejects or retransmissions.

The argument is a potential. A frame in flight weighs what its arrival can set
free (`Frame.weight`): a supervisory frame may make its receiver mark a whole
window for retransmission, and a poll also draws an answer. An endpoint holds
what it may still send unasked (`Conn.reserve`): the marked slots of its window,
and one REJ. Another REJ takes a payload that has been consumed in between, so
each payload still on its way counts as well. Every arrival lowers the sum
(`Link.Inv.arrive`).
-/

namespace EspAx25

open Cyclic Conn Locked GoBackN

/-! ### The potential -/

/-- What the arrival of a frame can set free: one frame for each slot that it
makes untransmitted, and the answer that it draws. -/
def Frame.weight (f : Frame) : Nat :=
  if f.type = .i then 1 + if f.pf then 9 else 0
  else 9 + if f.pf && f.isCommand then 9 else 0

/-- The weight of the frames in flight. -/
def weight (fs : List Frame) : Nat := (fs.map Frame.weight).sum

@[simp] theorem weight_nil : weight [] = 0 := rfl

@[simp] theorem weight_cons (f : Frame) (fs : List Frame) :
    weight (f :: fs) = f.weight + weight fs := by
  simp [weight]

@[simp] theorem weight_append (fs gs : List Frame) : weight (fs ++ gs) = weight fs + weight gs := by
  simp [weight]

theorem weight_eraseIdx_le (fs : List Frame) (k : Nat) : weight (fs.eraseIdx k) ≤ weight fs :=
  ((List.eraseIdx_sublist fs k).map Frame.weight).sum_le_sum fun _ _ => Nat.zero_le _

theorem Frame.weight_pos (f : Frame) : 0 < f.weight := by
  unfold Frame.weight
  split <;> omega

namespace Conn

/-- The slots that wait for their (re)transmission. -/
def waiting (c : Conn) : Finset Nat := (Finset.range 8).filter fun q => c.slotPending q = true

/-- What an endpoint may send without being asked. -/
def reserve (c : Conn) : Nat := c.waiting.card + if c.rejSent then 0 else 9

theorem mem_waiting {c : Conn} {q : Nat} :
    q ∈ c.waiting ↔ q < 8 ∧ (c.txQueue q).inUse = true ∧ (c.txQueue q).transmitted = false := by
  simp [waiting, slotPending]

theorem waiting_card_le (c : Conn) : c.waiting.card ≤ 8 := by
  have h := Finset.card_filter_le (Finset.range 8) fun q => c.slotPending q = true
  rwa [Finset.card_range] at h

theorem waiting_congr {c c' : Conn} (h : c'.txQueue = c.txQueue) : c'.waiting = c.waiting := by
  unfold waiting slotPending
  rw [h]

end Conn

/-- What a section holds: the frames that it has recorded and the reserve of its
context. -/
def Locked.cost (s : Locked) : Nat := weight (frames s.deferred) + s.conn.reserve

/-! ### What the helpers spend -/

section helpers

variable (s : Locked)

theorem cost_congr {s t : Locked} (hd : t.deferred = s.deferred)
    (hq : t.conn.txQueue = s.conn.txQueue) (hr : t.conn.rejSent = s.conn.rejSent) :
    t.cost = s.cost := by
  simp only [Locked.cost, reserve, hd, waiting_congr hq, hr]

theorem cost_modify {f : Conn → Conn} (hq : (f s.conn).txQueue = s.conn.txQueue)
    (hr : (f s.conn).rejSent = s.conn.rejSent) : (s.modify f).cost = s.cost :=
  cost_congr rfl hq hr

/-- Recording a frame, if the batch has room. -/
theorem cost_sendFrame (f : Frame) : (s.sendFrameInternal f).1.cost ≤ s.cost + f.weight := by
  by_cases hl : s.deferred.length < maxDeferredActions
  · rw [sendFrameInternal_of_lt hl]
    have hw : weight (frames (s.deferred ++ [.frame f])) =
        weight (frames s.deferred) + f.weight := by
      rw [frames_append, weight_append]
      simp [frames]
    simp only [Locked.cost, hw]
    omega
  · have hfull : s.sendFrameInternal f = (s, .noMem) := by
      unfold sendFrameInternal deferAction
      rw [if_pos (by omega)]
    rw [hfull]
    exact Nat.le_add_right _ _

/-- A supervisory response weighs 9: it is no poll. -/
theorem weight_response (c : Conn) (control : Byte) :
    (outFrame c false .s control).weight = 9 := by
  simp [Frame.weight, outFrame]

theorem cost_sendAck (pf : Bool) : (s.sendAck pf false).1.cost ≤ s.cost + 9 := by
  unfold sendAck
  split <;> exact (cost_sendFrame s _).trans_eq (by rw [weight_response])

theorem cost_answerPoll (f : Frame) :
    (s.answerPoll f).cost ≤ s.cost + if f.pf && f.isCommand then 9 else 0 := by
  unfold answerPoll
  split
  · exact cost_sendAck s true
  · exact Nat.le_refl _

theorem cost_acknowledge (f : Frame) : (s.acknowledge f).cost ≤ s.cost + if f.pf then 9 else 0 := by
  unfold acknowledge
  split
  · exact cost_sendAck s true
  · rw [cost_modify s rfl rfl]
    exact Nat.le_refl _

/-- The REJ is paid for by the reserve. -/
theorem cost_rejectSequence (f : Frame) :
    (s.rejectSequence f).cost ≤ s.cost + if f.pf then 9 else 0 := by
  unfold rejectSequence
  split
  · next hrej =>
    have hrej : s.conn.rejSent = false := by simpa using hrej
    have hmark : (s.modify fun c => { c with rejSent := true }).cost + 9 = s.cost := by
      simp only [Locked.cost, reserve, modify_conn, modify_deferred, hrej, if_true,
        Bool.false_eq_true, if_false]
      have hw : ({ s.conn with rejSent := true } : Conn).waiting = s.conn.waiting := rfl
      rw [hw]
      omega
    have hsend := cost_sendFrame (s.modify fun c => { c with rejSent := true })
      (outFrame { s.conn with rejSent := true } false .s (frameBuildRejControl s.conn.vr f.pf))
    rw [weight_response, hmark] at hsend
    exact Nat.le_add_right_of_le hsend
  · split
    · exact cost_sendAck s true
    · exact Nat.le_refl _

end helpers

/-! ### The I frames at the end -/

theorem noteSent_fields (c : Conn) (qs : List Nat) :
    (c.noteSent qs).rejSent = c.rejSent ∧ ∀ q, ((c.noteSent qs).txQueue q).inUse =
      (c.txQueue q).inUse ∧ (((c.noteSent qs).txQueue q).transmitted = false →
        q ∉ qs ∧ (c.txQueue q).transmitted = false) := by
  unfold noteSent
  split_ifs with h
  · subst h
    exact ⟨rfl, fun q => ⟨rfl, fun ht => ⟨List.not_mem_nil, ht⟩⟩⟩
  · refine ⟨rfl, fun q => ?_⟩
    by_cases hq : q ∈ qs <;> simp [stopTimerT3, startTimerT1, mapSlots, hq]

/-- What is sent no longer waits. -/
theorem waiting_noteSent {c : Conn} (hw : WindowInv c) :
    c.pendingSeqs.length + (c.noteSent c.pendingSeqs).waiting.card ≤ c.waiting.card := by
  have hmem := fun q => mem_pendingSeqs (c := c) hw.va_lt hw.vs_lt (q := q)
  have hnd : c.pendingSeqs.Nodup := by
    unfold pendingSeqs
    split
    · exact List.nodup_nil
    · exact (seqRange_nodup hw.va_lt hw.vs_lt).filter _
  rw [← List.toFinset_card_of_nodup hnd, ← Finset.card_union_of_disjoint]
  · refine Finset.card_le_card (Finset.union_subset (fun q hq => ?_) fun q hq => ?_)
    · obtain ⟨-, hm, hu, ht⟩ := (hmem q).mp (List.mem_toFinset.mp hq)
      exact mem_waiting.mpr ⟨hm.1, hu, ht⟩
    · obtain ⟨hlt, hu, ht⟩ := mem_waiting.mp hq
      obtain ⟨hu', ht'⟩ := (noteSent_fields c c.pendingSeqs).2 q
      exact mem_waiting.mpr ⟨hlt, hu' ▸ hu, (ht' ht).2⟩
  · refine Finset.disjoint_left.mpr fun q hq hq' => ?_
    obtain ⟨-, -, ht⟩ := mem_waiting.mp hq'
    exact (((noteSent_fields c c.pendingSeqs).2 q).2 ht).1 (List.mem_toFinset.mp hq)

theorem frames_slots (c : Conn) (qs : List Nat) :
    frames (qs.map c.slotFrame) = qs.map c.infoFrame := by
  induction qs with
  | nil => rfl
  | cons q qs ih => exact congrArg (c.infoFrame q :: ·) ih

/-- The I frames of a window weigh one each. -/
theorem weight_slots {c : Conn} (hw : WindowInv c) {qs : List Nat}
    (hqs : ∀ q ∈ qs, Mem 8 c.va c.vs q) : weight (frames (qs.map c.slotFrame)) = qs.length := by
  rw [frames_slots]
  induction qs with
  | nil => rfl
  | cons q qs ih =>
      obtain ⟨hq, hqs⟩ := List.forall_mem_cons.mp hqs
      have hpf : (c.infoFrame q).pf = false := hasPf_buildI hq.1 hw.vr_lt false
      have hi : (c.infoFrame q).type = .i := rfl
      rw [List.map_cons, weight_cons, ih hqs, List.length_cons]
      simp only [Frame.weight, hi, hpf, if_true]
      exact Nat.add_comm _ _

theorem cost_sendPendingIFrames {s : Locked} (hw : WindowInv s.conn)
    (hlen : s.deferred.length ≤ 5) : s.sendPendingIFrames.1.cost ≤ s.cost := by
  have hslots : ∀ q ∈ s.conn.pendingSeqs, Mem 8 s.conn.va s.conn.vs q := fun q hq =>
    ((mem_pendingSeqs hw.va_lt hw.vs_lt).mp hq).2.1
  have hcard := waiting_noteSent hw
  rw [sendPendingIFrames_eq hw.va_lt hw.vs_lt hlen]
  simp only [Locked.cost, reserve, frames_append, weight_append, weight_slots hw hslots,
    (noteSent_fields s.conn s.conn.pendingSeqs).1]
  omega

theorem Flush.cost {t s : Locked} (h : Flush t s) (hw : WindowInv t.conn)
    (hlen : t.deferred.length ≤ 5) : s.cost ≤ t.cost := by
  cases h with
  | none => exact Nat.le_refl _
  | sent => exact cost_sendPendingIFrames hw hlen
  | restarted =>
      rw [cost_modify t.sendPendingIFrames.1 rfl rfl]
      exact cost_sendPendingIFrames hw hlen

/-! ### A received frame -/

/-- An acknowledgement frees slots. -/
theorem cost_ackConn (s : Locked) (nr : Nat) : (s.modify (·.ackConn nr)).cost ≤ s.cost := by
  have hsub : (s.conn.ackConn nr).waiting ⊆ s.conn.waiting := by
    intro q hq
    obtain ⟨hlt, hu, ht⟩ := mem_waiting.mp hq
    simp only [ackConn, mapSlots] at hu ht
    split at hu
    · cases hu
    · next hm =>
      rw [if_neg hm] at ht
      exact mem_waiting.mpr ⟨hlt, hu, ht⟩
  have hcard := Finset.card_le_card hsub
  have hrej : (s.conn.ackConn nr).rejSent = s.conn.rejSent := rfl
  simp only [Locked.cost, reserve, modify_conn, modify_deferred, hrej]
  omega

/-- With the payload that is consumed the endpoint may send another REJ. -/
theorem Received.cost {s s₁ : Locked} {f : Frame} (h : Received s f s₁) (hs : s.deferred = [])
    (hsize : f.type = .i → 0 < f.payload.length ∧ f.payload.length ≤ maxInfoLen) :
    s₁.cost ≤ s.cost + 9 * (payloads s₁.deferred).length := by
  cases h with
  | ack => exact Nat.le_add_right_of_le (cost_ackConn s f.nr)
  | data hi hns hb =>
      obtain ⟨hpos, hmax⟩ := hsize hi
      have hack := cost_ackConn s f.nr
      have hdef : ((s.modify (·.ackConn f.nr)).consume f).deferred = [.data f.payload] :=
        consume_deferred hs hpos hmax
      have hq : ((s.modify (·.ackConn f.nr)).consume f).conn.waiting =
          (s.conn.ackConn f.nr).waiting := by
        rw [consume_conn]
        exact waiting_congr rfl
      have hone : (payloads [Action.data f.payload]).length = 1 := rfl
      have hnone : weight (frames [Action.data f.payload]) = 0 := rfl
      have hnil : weight (frames ([] : List Action)) = 0 := rfl
      simp only [Locked.cost, reserve, modify_conn, modify_deferred, hs, hnil] at hack ⊢
      rw [hdef, hq, hone, hnone]
      split <;> omega

/-! ### The handlers -/

/-- A section that receives `f`: what it sets free weighs less than `f`. -/
def Spent (s : Locked) (f : Frame) (s' : Locked) : Prop :=
  ∃ s₁, Received s f s₁ ∧ s₁.deferred <+: s'.deferred ∧ s'.cost < s₁.cost + f.weight

theorem Transfer.appends {s t : Locked} (h : Transfer s t) : s.deferred <+: t.deferred := by
  obtain ⟨l, hl, -⟩ := h.emits
  exact ⟨l, hl.symm⟩

/-- From `s` to `t` a section recorded frames of weight `k` at most, and no REJ. -/
structure Paid (j k : Nat) (s t : Locked) : Prop where
  quiet : Quiet j s t
  recorded : weight (frames t.deferred) ≤ weight (frames s.deferred) + k
  rejSent : t.conn.rejSent = s.conn.rejSent

namespace Paid

variable {i j k l : Nat} {s t u : Locked}

theorem trans (h₁ : Paid i k s t) (h₂ : Paid j l t u) : Paid (i + j) (k + l) s u :=
  ⟨h₁.quiet.trans h₂.quiet, by have := h₁.recorded; have := h₂.recorded; omega,
    h₂.rejSent.trans h₁.rejSent⟩

/-- A section without frames. -/
theorem silent (h : Quiet 0 s t) (hr : t.conn.rejSent = s.conn.rejSent) : Paid 0 0 s t :=
  ⟨h, by rw [h.deferred_eq]; omega, hr⟩

/-- Whatever slots it has marked, there are only eight of them. -/
theorem cost_le (h : Paid j k s t) : t.cost ≤ s.cost + k + 8 := by
  have hmarks := waiting_card_le t.conn
  have hrec := h.recorded
  simp only [Locked.cost, reserve, h.rejSent]
  omega

end Paid

theorem paid_answerPoll (s : Locked) (f : Frame) :
    Paid 1 (if f.pf && f.isCommand then 9 else 0) s (s.answerPoll f) := by
  have hcost := cost_answerPoll s f
  have hconn : (s.answerPoll f).conn = s.conn := answerPoll_conn s f
  simp only [Locked.cost, hconn] at hcost
  exact ⟨quiet_answerPoll s f, by omega, by rw [hconn]⟩

theorem paid_markUntransmitted (s : Locked) (a : Nat) :
    Paid 0 0 s (s.modify (·.markUntransmitted a)) := by
  obtain ⟨q, hq⟩ := markUntransmitted_fields s.conn a
  exact .silent (quiet_markUntransmitted s a) (by rw [modify_conn, hq])

theorem concludeRecovery_rejSent (s : Locked) :
    s.concludeRecovery.conn.rejSent = s.conn.rejSent := by
  simp only [concludeRecovery, modify_conn]
  split_ifs
  · obtain ⟨q, hq⟩ := markUntransmitted_fields
      { s.conn.stopTimerT1 with retryCount := 0, state := .connected } s.conn.va
    exact (congrArg Conn.rejSent hq).trans rfl
  · rfl

/-- What has been recorded leaves room for a whole window. -/
theorem Quiet.room_of_received {k : Nat} {c : Conn} {f : Frame} {s₁ t : Locked}
    (hq : Quiet k s₁ t) (hr : Received ⟨c, []⟩ f s₁) (hk : k ≤ 4) : t.deferred.length ≤ 5 := by
  obtain ⟨l, hl, hlen, -⟩ := hq.emits
  have h₁ : s₁.deferred.length ≤ 1 := by
    rcases hr.deferred with h | ⟨h, -⟩ <;> simp [h]
  rw [hl, List.length_append]
  omega

theorem cost_settleRecovery {s : Locked} (hw : WindowInv s.conn) (hlen : s.deferred.length ≤ 5)
    (b : Bool) : (s.settleRecovery b).cost ≤ s.cost := by
  have hstop : (s.modify stopTimerT3).cost = s.cost := cost_modify s rfl rfl
  have hsend := cost_sendPendingIFrames (s := s.modify stopTimerT3)
    (hw.congr rfl rfl rfl rfl rfl) hlen
  unfold settleRecovery
  dsimp only
  split_ifs
  · exact (cost_modify s rfl rfl).le
  · rw [cost_modify _ rfl rfl]
    exact hsend.trans hstop.le
  · rw [cost_modify _ rfl rfl]
    exact hstop.le
  · exact cost_sendPendingIFrames hw hlen
  · exact Nat.le_refl _

section handlers

variable {c : Conn} {f : Frame} (hw : WindowInv c) (hv : c.isValidNr f.nr = true)

/-- What a supervisory frame sets free. -/
theorem spent_of_paid (hs : f.type = .s) {t s' : Locked}
    (h : Paid 1 (if f.pf && f.isCommand then 9 else 0)
      (Locked.modify ⟨c, []⟩ (·.ackConn f.nr)) t)
    (hflush : s'.cost ≤ t.cost) : Spent ⟨c, []⟩ f s' := by
  refine ⟨_, .ack, List.nil_prefix, ?_⟩
  have hcost := h.cost_le
  have hi : f.type ≠ .i := by rw [hs]; decide
  simp only [Frame.weight, hi, if_false]
  omega

/-- An I frame weighs more than the answer that it may ask for. -/
theorem spent_of_cost (hi : f.type = .i) {s s₁ s' : Locked} (hr : Received s f s₁)
    (hdef : s₁.deferred <+: s'.deferred) (h : s'.cost ≤ s₁.cost + if f.pf then 9 else 0) :
    Spent s f s' := by
  refine ⟨s₁, hr, hdef, ?_⟩
  simp only [Frame.weight, hi, if_true]
  omega

/-- The head of an S-frame branch, up to the answer to a poll. -/
theorem paid_poll {s t : Locked} (h : Paid 0 0 s t) (b : Bool) :
    Paid 1 (if f.pf && f.isCommand then 9 else 0) s
      ((t.modify fun c => { c with peerBusy := b }).answerPoll f) := by
  have hb : Paid 0 0 t (t.modify fun c => { c with peerBusy := b }) :=
    .silent (quiet_peerBusy t b) rfl
  have hall := (h.trans hb).trans (paid_answerPoll _ f)
  rwa [Nat.zero_add, Nat.zero_add] at hall

include hw hv

theorem paid_handleReceivedNr :
    Paid 0 0 (Locked.modify ⟨c, []⟩ (·.ackConn f.nr))
      (Locked.modify ⟨c, []⟩ (·.handleReceivedNr f.nr)) := by
  refine .silent (quiet_handleReceivedNr (s := ⟨c, []⟩) hw.va_lt hv) ?_
  simp only [modify_conn]
  rw [handleReceivedNr_eq hw.va_lt f.nr_lt hv, ackTimers_rejSent]

/-- The I frames that follow an answer are in the reserve. -/
theorem Paid.flush {j k : Nat} {t : Locked}
    (h : Paid j k (Locked.modify ⟨c, []⟩ (·.ackConn f.nr)) t) (hj : j ≤ 4) :
    t.sendPendingIFrames.1.cost ≤ t.cost ∧ ∀ b, (t.settleRecovery b).cost ≤ t.cost := by
  have hwt := (hw.ack f.nr_lt hv).sameLink h.quiet.link
  have hlen := h.quiet.room_of_received (c := c) .ack hj
  exact ⟨cost_sendPendingIFrames hwt hlen, cost_settleRecovery hwt hlen⟩

theorem connectedS_spent (hs : f.type = .s) : Spent ⟨c, []⟩ f (connectedS ⟨c, []⟩ f).1 := by
  have h₀ := paid_handleReceivedNr hw hv
  have poll := paid_poll (f := f) h₀
  have rej := (poll false).trans (paid_markUntransmitted _ f.nr)
  unfold connectedS
  simp only [hv, Bool.not_true, Bool.false_eq_true, if_false]
  split_ifs
  · exact spent_of_paid hs (poll false) ((poll false).flush hw hv (by decide)).1
  · exact spent_of_paid hs (poll true) (Nat.le_refl _)
  · exact spent_of_paid hs rej (rej.flush hw hv (by decide)).1
  · refine spent_of_paid hs ⟨h₀.quiet.weaken (by decide), ?_, h₀.rejSent⟩ (Nat.le_refl _)
    exact h₀.recorded.trans (Nat.le_add_right _ _)

theorem timerRecoveryS_spent (hst : c.state = .timerRecovery) (hs : f.type = .s) :
    Spent ⟨c, []⟩ f (timerRecoveryS ⟨c, []⟩ f).1 := by
  have h₀ : Paid 0 0 (Locked.modify ⟨c, []⟩ (·.ackConn f.nr))
      (if responseFinal f then (Locked.modify ⟨c, []⟩ (·.handleReceivedNr f.nr)).concludeRecovery
        else Locked.modify ⟨c, []⟩ (·.handleReceivedNr f.nr)) := by
    refine .silent (quiet_concludeIfFinal (s := ⟨c, []⟩) hw.va_lt hv hst) ?_
    have hrej := (paid_handleReceivedNr hw hv).rejSent
    split
    · exact (concludeRecovery_rejSent _).trans hrej
    · exact hrej
  have poll := paid_poll (f := f) h₀
  have rej := (poll false).trans (paid_markUntransmitted _ f.nr)
  have other : Paid 1 (if f.pf && f.isCommand then 9 else 0) _ _ :=
    ⟨h₀.quiet.weaken (by decide), h₀.recorded.trans (Nat.le_add_right _ _), h₀.rejSent⟩
  unfold timerRecoveryS
  simp only [hv, Bool.not_true, Bool.false_eq_true, if_false]
  split
  · exact spent_of_paid hs (poll false) (((poll false).flush hw hv (by decide)).2 _)
  · split
    · exact spent_of_paid hs (poll true) (((poll true).flush hw hv (by decide)).2 _)
    · split
      · exact spent_of_paid hs rej ((rej.flush hw hv (by decide)).2 _)
      · exact spent_of_paid hs other ((other.flush hw hv (by decide)).2 _)

/-- The head of an I frame, without and with its payload. -/
theorem cost_handleReceivedNr_i :
    (Locked.modify ⟨c, []⟩ fun c => { c.handleReceivedNr f.nr with peerBusy := false }).cost =
        (Locked.modify ⟨c, []⟩ (·.ackConn f.nr)).cost ∧
      ((Locked.modify ⟨c, []⟩ fun c =>
          { c.handleReceivedNr f.nr with peerBusy := false }).consume f).cost =
        ((Locked.modify ⟨c, []⟩ (·.ackConn f.nr)).consume f).cost := by
  have hq : (c.handleReceivedNr f.nr).txQueue = (c.ackConn f.nr).txQueue := by
    rw [handleReceivedNr_eq hw.va_lt f.nr_lt hv, ackTimers_txQueue]
  have hr : (c.handleReceivedNr f.nr).rejSent = (c.ackConn f.nr).rejSent := by
    rw [handleReceivedNr_eq hw.va_lt f.nr_lt hv, ackTimers_rejSent]
  refine ⟨cost_congr rfl hq hr, cost_congr ?_ ?_ ?_⟩
  · exact consume_deferred_congr (by simp) f
  · rw [consume_conn, consume_conn]
    exact hq
  · rw [consume_conn, consume_conn]

theorem connectedI_spent (hi : f.type = .i) : Spent ⟨c, []⟩ f (connectedI ⟨c, []⟩ f).1 := by
  have h₀ := quiet_handleReceivedNr_i (s := ⟨c, []⟩) hw.va_lt hv
  obtain ⟨hack, hdata⟩ := cost_handleReceivedNr_i hw hv
  -- what is recorded leaves room for the I frames, which are in the reserve
  have flush : ∀ {s₁ t : Locked}, Received ⟨c, []⟩ f s₁ → Quiet 2 s₁ t →
      t.sendPendingIFrames.1.cost ≤ t.cost := fun hr hq =>
    cost_sendPendingIFrames ((WindowInv.received (s := ⟨c, []⟩) hw hv hr).sameLink hq.link)
      (hq.room_of_received hr (by decide))
  unfold connectedI
  simp only [hv, Bool.not_true, Bool.false_eq_true, if_false]
  split_ifs with hns hb
  · have hq := ((h₀.trans (quiet_acknowledge _ f)).trans (quiet_startTimerT3 _)).weaken
      (by decide : 0 + 1 + 0 ≤ 2)
    refine spent_of_cost hi .ack List.nil_prefix ((flush .ack hq).trans ?_)
    rw [cost_modify _ rfl rfl, ← hack]
    exact cost_acknowledge _ f
  · have hvr : f.ns = c.vr := hns.trans h₀.link.vr
    have hbusy : c.localBusy = false := by
      rw [h₀.link.localBusy] at hb
      exact eq_false_of_ne_true hb
    have hr : Received ⟨c, []⟩ f _ := .data hi hvr hbusy
    have hq := (((quiet_consume (s := ⟨c, []⟩) hw.va_lt hv).trans
      (quiet_acknowledge _ f)).trans (quiet_startTimerT3 _)).weaken (by decide : 0 + 1 + 0 ≤ 2)
    have hw₁ := (WindowInv.received (s := ⟨c, []⟩) hw hv hr).sameLink hq.link
    have hall := hq.transfer.trans (transfer_sendPendingIFrames _ hw₁.va_lt hw₁.vs_lt)
    refine spent_of_cost hi hr hall.appends ((flush hr hq).trans ?_)
    rw [cost_modify _ rfl rfl, ← hdata]
    exact cost_acknowledge _ f
  · have hq := (h₀.trans (quiet_rejectSequence _ f)).weaken (by decide : 0 + 1 ≤ 2)
    refine spent_of_cost hi .ack List.nil_prefix ((flush .ack hq).trans ?_)
    rw [← hack]
    exact cost_rejectSequence _ f

theorem timerRecoveryI_spent (hi : f.type = .i) :
    Spent ⟨c, []⟩ f (timerRecoveryI ⟨c, []⟩ f).1 := by
  have h₀ := quiet_handleReceivedNr_i (s := ⟨c, []⟩) hw.va_lt hv
  obtain ⟨hack, hdata⟩ := cost_handleReceivedNr_i hw hv
  unfold timerRecoveryI
  simp only [hv, Bool.not_true, Bool.false_eq_true, if_false]
  split_ifs with hns hb
  · refine spent_of_cost hi .ack List.nil_prefix ?_
    rw [← hack]
    exact cost_acknowledge _ f
  · have hvr : f.ns = c.vr := hns.trans h₀.link.vr
    have hbusy : c.localBusy = false := by
      rw [h₀.link.localBusy] at hb
      exact eq_false_of_ne_true hb
    have hq := (quiet_consume (s := ⟨c, []⟩) hw.va_lt hv).trans (quiet_acknowledge _ f)
    refine spent_of_cost hi (.data hi hvr hbusy) hq.transfer.appends ?_
    rw [← hdata]
    exact cost_acknowledge _ f
  · refine spent_of_cost hi .ack List.nil_prefix ?_
    rw [← hack]
    exact cost_rejectSequence _ f

/-- **What an arrival sets free.** In the two data-transfer states, an I or S
frame with a valid N(R) weighs more than what its handler records and holds. -/
theorem dataHandler_spent (hl : c.Linked) (hty : f.type = .s ∨ f.type = .i) :
    Spent ⟨c, []⟩ f (dataHandler ⟨c, []⟩ f).1 := by
  unfold dataHandler
  rcases hl with hst | hst <;> rcases hty with hty | hty <;>
    simp only [hst, reduceCtorEq, if_true, if_false, handleFrameConnected,
      handleFrameTimerRecovery, hty]
  · exact connectedS_spent hw hv hty
  · exact connectedI_spent hw hv hty
  · exact timerRecoveryS_spent hw hv hst hty
  · exact timerRecoveryI_spent hw hv hty

end handlers

/-! ### Arrivals -/

/-- One call of `ax25_conn_on_frame` on a link that is up: the frames that it
emits and what the context holds afterwards weigh less than the frame and what
the context held, but for the payloads that it passes on. -/
theorem step_spent {c : Conn} (h : SeqInv c) (hl : c.Linked) {f : Frame}
    (hty : f.type = .s ∨ f.type = .i) (hv : c.isValidNr f.nr = true)
    (hsize : f.type = .i → 0 < f.payload.length ∧ f.payload.length ≤ maxInfoLen) :
    let r := c.step (.call (.onFrame f) false false)
    weight (frames r.out) + r.conn.reserve <
      f.weight + c.reserve + 9 * (payloads r.out).length := by
  intro r
  by_cases hf : Foreign c f
  · have hne : c.state ≠ .disconnected := by rcases hl with h | h <;> rw [h] <;> decide
    have hr : r = ⟨c, [], .ok⟩ := step_foreign h hne hf false false
    have hpos := f.weight_pos
    rw [hr]
    show 0 + c.reserve < f.weight + c.reserve + 9 * 0
    omega
  · have hw : WindowInv c.taken := h.window.congr rfl rfl rfl rfl rfl
    obtain ⟨s₁, hr, happ, hcost⟩ := dataHandler_spent hw hv hl hty
    have hrec := hr.cost rfl hsize
    have hstep : r = _ := step_linked h hl hf false false
    have hpay : (payloads s₁.deferred).length ≤ (payloads r.out).length := by
      rw [hstep]
      exact (happ.sublist.filterMap _).length_le
    have hstart : Locked.cost ⟨c.taken, []⟩ = c.reserve := Nat.zero_add _
    have hend : weight (frames r.out) + r.conn.reserve = (dataHandler ⟨c.taken, []⟩ f).1.cost := by
      rw [hstep]
      rfl
    rw [hend]
    omega

/-- An I or S frame does not end a link. -/
theorem step_onFrame_linked {c : Conn} (h : SeqInv c) (hl : c.Linked) {f : Frame}
    (hty : f.type = .s ∨ f.type = .i) (hv : c.isValidNr f.nr = true) :
    (c.step (.call (.onFrame f) false false)).conn.Linked := by
  by_cases hf : Foreign c f
  · have hne : c.state ≠ .disconnected := by rcases hl with h | h <;> rw [h] <;> decide
    rw [step_foreign h hne hf]
    exact hl
  · have hw : WindowInv c.taken := h.window.congr rfl rfl rfl rfl rfl
    obtain ⟨⟨s₁, t, hr, hq, hfl⟩, -⟩ := dataPhase (s := ⟨c.taken, []⟩) hw.va_lt hl hty hv
    have hwt := (WindowInv.received (s := ⟨c.taken, []⟩) hw hv hr).sameLink hq.link
    have hlink := hq.link.trans (hfl.transfer hwt.va_lt hwt.vs_lt).link
    rw [step_linked h hl hf]
    refine hlink.linked ?_
    unfold Linked
    rw [hr.state]
    exact hl

namespace Link

/-- The frames on their way to one side. -/
def incoming (x : Link) : Side → List Frame
  | .near => x.toNear
  | .far => x.toFar

/-- What the link can still exchange by itself: the frames in flight, what the
endpoints hold, and the payloads that have not been passed on. -/
def potential (x : Link) : Nat :=
  weight x.toFar + weight x.toNear + (x.near.conn.reserve + x.far.conn.reserve) +
    9 * ((x.near.accepted.length - x.far.delivered.length) +
      (x.far.accepted.length - x.near.delivered.length))

theorem potential_swap (x : Link) : x.swap.potential = x.potential := by
  simp only [potential, swap]
  omega

/-- From `x` to `y`, `n` frames arrive one after the other, on whichever side, and any
others are lost. -/
inductive Arrivals (x : Link) : Nat → Link → Prop
  | none : Arrivals x 0 x
  | next {n : Nat} {y : Link} (side : Side) : Arrivals x n y → y.incoming side ≠ [] →
      Arrivals x (n + 1) (y.step side .deliver).1
  | lost {n : Nat} {y : Link} (side : Side) (k : Nat) : Arrivals x n y →
      Arrivals x n (y.step side (.drop k)).1

/-- What has been passed on had been accepted. -/
theorem Inv.delivered_le {x : Link} (h : x.Inv) :
    x.far.delivered.length ≤ x.near.accepted.length ∧
      x.near.delivered.length ≤ x.far.accepted.length := by
  obtain ⟨b, r, b', r', fwd, bwd, hx⟩ := h.sim
  refine ⟨?_, ?_⟩
  · rw [hx.out.delivered]
    exact List.length_take_le' _ _
  · rw [hx.back.delivered]
    exact List.length_take_le' _ _

/-- An arrival on the near side. -/
theorem Inv.arrive_near {x : Link} (h : x.Inv) (hne : x.toNear ≠ []) :
    (x.act .deliver).1.Inv ∧ (x.act .deliver).1.potential < x.potential := by
  obtain ⟨b, r, b', r', fwd, bwd, hx⟩ := h.sim
  cases bwd with
  | nil => exact absurd hx.toNear hne
  | cons p bwd =>
      have hcons : x.toNear = p.1 :: bwd.map Prod.fst := hx.toNear
      have hv := hx.isValidNr h.near.window (p := p) List.mem_cons_self
      have hty : p.1.type = .s ∨ p.1.type = .i := by
        rcases (hx.back.carried p List.mem_cons_self).data with ⟨hs, -⟩ | ⟨hi, -⟩
        · exact Or.inl hs
        · exact Or.inr hi
      have hsize : p.1.type = .i → 0 < p.1.payload.length ∧ p.1.payload.length ≤ maxInfoLen := by
        intro hi
        rcases (hx.back.carried p List.mem_cons_self).data with ⟨hs, -⟩ | ⟨-, n, s, -, -, hpay⟩
        · cases hs.symm.trans hi
        · exact hx.back.sizes _ (List.mem_of_getElem? hpay)
      have hstep := step_spent h.near h.up.1 hty hv hsize
      have hact : (x.act .deliver).1 =
          (Link.call { x with toNear := bwd.map Prod.fst } (.onFrame p.1)).1 := by
        unfold Link.act
        simp only [hcons]
      have hup : (x.act .deliver).1.Up := by
        rw [hact]
        exact ⟨step_onFrame_linked h.near h.up.1 hty hv, h.up.2⟩
      have hinv := (h.act .deliver).2 hup
      refine ⟨hinv, ?_⟩
      have hle := hinv.delivered_le.2
      rw [hact] at hle ⊢
      simp only [Link.call, Op.accepts, List.append_nil, List.length_append, potential,
        weight_append, hcons, weight_cons] at hle ⊢
      omega

/-- **An arrival lowers the potential.** -/
theorem Inv.arrive {x : Link} (h : x.Inv) (side : Side) (hne : x.incoming side ≠ []) :
    (x.step side .deliver).1.Inv ∧ (x.step side .deliver).1.potential < x.potential := by
  cases side with
  | near => exact h.arrive_near hne
  | far =>
      obtain ⟨hinv, hlt⟩ := h.swap.arrive_near hne
      refine ⟨hinv.swap, ?_⟩
      show (x.swap.act .deliver).1.swap.potential < x.potential
      rw [potential_swap, ← potential_swap x]
      exact hlt

/-- A loss takes at most a frame's weight from the potential. -/
theorem Inv.lose {x : Link} (h : x.Inv) (side : Side) (k : Nat) :
    (x.step side (.drop k)).1.Inv ∧ (x.step side (.drop k)).1.potential ≤ x.potential := by
  refine ⟨(h.step side (.drop k)).2 (by cases side <;> exact h.up), ?_⟩
  cases side with
  | near =>
      have := weight_eraseIdx_le x.toFar k
      simp only [Link.step, Link.act, potential]
      omega
  | far =>
      have := weight_eraseIdx_le x.toNear k
      simp only [Link.step, Link.act, Link.swap, potential]
      omega

theorem Arrivals.inv {x y : Link} {n : Nat} (h : x.Arrivals n y) (hx : x.Inv) :
    y.Inv ∧ n + y.potential ≤ x.potential := by
  induction h with
  | none => exact ⟨hx, by omega⟩
  | next side _ hne ih =>
      obtain ⟨hinv, hlt⟩ := ih.1.arrive side hne
      exact ⟨hinv, by omega⟩
  | lost side k _ ih =>
      obtain ⟨hinv, hle⟩ := ih.1.lose side k
      exact ⟨hinv, by omega⟩

end Link

/-- **No frame storm.** On a lossy link of two endpoints that stay in the
data-transfer states, in whatever state it is, at most `potential` frames arrive
before the next call of an application or the next timer expiry, whatever else is
lost: the exchange that polls, rejects and retransmissions keep up between the
endpoints dies out, and no arrival takes an endpoint out of these states. -/
theorem exchange_dies_out {x₀ x y : Link} {n : Nat} (h₀ : x₀.Start) (h : Link.Runs x₀ x)
    (hn : x.Arrivals n y) : y.Up ∧ n + y.potential ≤ x.potential := by
  obtain ⟨hinv, hle⟩ := hn.inv (h.inv h₀)
  exact ⟨hinv.up, hle⟩

/-- A link on which the first of two payloads has been lost. -/
def sampleLost : Link :=
  (((samplePair.step .near (.sendData [1])).1.step .near (.sendData [2])).1.step .near (.drop 0)).1

theorem runs_sampleLost : Link.Runs samplePair sampleLost :=
  .step .near (.drop 0) (.step .near (.sendData [2])
    (.step .near (.sendData [1]) .start (by decide)) (by decide)) (by decide)

/-- The second payload draws a REJ, which brings both back. -/
theorem exchange_dies_out_lost :
    let y := (((sampleLost.step .far .deliver).1.step .near .deliver).1.step .far .deliver).1
    y.far.delivered = [[1]] ∧ y.Up ∧ 3 + y.potential ≤ sampleLost.potential :=
  ⟨by decide, exchange_dies_out start_samplePair runs_sampleLost
    (.next .far (.next .near (.next .far .none (by decide)) (by decide)) (by decide))⟩

end EspAx25
