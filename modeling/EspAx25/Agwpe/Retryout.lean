import EspAx25.Agwpe.CrossWait
import EspAx25.Conn.Cases

/-!
# EspAx25.Agwpe.Retryout

Where the errors on the dispatcher task come from.

The timer task enqueues what the timer callbacks record. T2 and T3 record frames, and so
does T1 until it gives up after N2 retries. An error comes to the dispatcher task only
from a T1 that gives up, so a run in which none does is a run in which no wait for the
dispatcher task is in vain (`no_deadlock_without_retryout`).
-/

namespace EspAx25

/-! ### What the timers record -/

/-- T1 would give up if it expired now: N2 retries have been made. -/
def Conn.givesUp (c : Conn) : Bool :=
  match c.state with
  | .disconnected => false
  | .connected => (0 : UInt8) ≥ c.config.n2Retries
  | _ => c.retryCount ≥ c.config.n2Retries

namespace Locked

theorem pollOrFail_errors {c : Conn} (h : c.retryCount < c.config.n2Retries) :
    ∀ a ∈ (pollOrFail ⟨c, []⟩).deferred, a.isError = false := by
  simp [pollOrFail, UInt8.not_le.mpr h, Locked.modify, sendRr, sendSFrame, Action.isError]

theorem timerT1Callback_errors {c : Conn} (h : c.givesUp = false) :
    ∀ a ∈ (timerT1Callback ⟨c, []⟩).deferred, a.isError = false := by
  cases hst : c.state with
  | disconnected => simp [timerT1Callback, hst]
  | connected =>
      simp only [Conn.givesUp, hst, decide_eq_false_iff_not, UInt8.not_le, ge_iff_le] at h
      simp only [timerT1Callback, hst]
      exact pollOrFail_errors h
  | timerRecovery =>
      simp only [Conn.givesUp, hst, decide_eq_false_iff_not, UInt8.not_le, ge_iff_le] at h
      simp only [timerT1Callback, hst]
      exact pollOrFail_errors h
  | awaitingConnection | awaitingRelease =>
      simp only [Conn.givesUp, hst, decide_eq_false_iff_not, UInt8.not_le, ge_iff_le] at h
      simp [timerT1Callback, hst, UInt8.not_le.mpr h, Locked.modify, sendSabm, sendDisc, sendUFrame,
        Action.isError]

theorem timerT2Callback_errors (c : Conn) :
    ∀ a ∈ (timerT2Callback ⟨c, []⟩).deferred, a.isError = false := by
  simp only [timerT2Callback, sendAck, Locked.modify, sendRnr, sendRr, sendSFrame,
    sendFrameInternal_nil]
  split_ifs <;> simp [Action.isError]

theorem timerT3Callback_errors (c : Conn) :
    ∀ a ∈ (timerT3Callback ⟨c, []⟩).deferred, a.isError = false := by
  simp only [timerT3Callback, Locked.modify, sendRr, sendSFrame, sendFrameInternal_nil]
  split_ifs <;> simp [Action.isError]

end Locked

theorem acquireDeferred_givesUp {c c' : Conn} {heap : Bool} {buf : Conn.Buffer}
    (h : c.acquireDeferred heap = some (buf, c')) : c'.givesUp = c.givesUp := by
  unfold Conn.acquireDeferred at h
  split_ifs at h <;> cases h <;> rfl

/-- The batch of a timer callback that does not give up holds no error. -/
theorem timer_errors {c : Conn} {t : TimerId} (ht : t = .t1 → c.givesUp = false) (heap : Bool) :
    ∀ a ∈ (c.step (.call (Agwpe.timerOp t) heap false)).out, a.isError = false := by
  have hexpiry : ((Agwpe.timerOp t).consumeExpiry c).givesUp = c.givesUp := by cases t <;> rfl
  simp only [Conn.step, Op.call]
  generalize (Agwpe.timerOp t).consumeExpiry c = c₀ at hexpiry
  split
  · intro a ha
    exact absurd ha List.not_mem_nil
  · unfold Conn.locked
    split
    · intro a ha
      exact absurd ha List.not_mem_nil
    · rename_i buf c₁ hacq
      have hsame := acquireDeferred_givesUp hacq
      cases t with
      | t1 => exact Locked.timerT1Callback_errors (hsame.trans (hexpiry.trans (ht rfl)))
      | t2 => exact Locked.timerT2Callback_errors c₁
      | t3 => exact Locked.timerT3Callback_errors c₁

namespace Dispatcher

variable {κ : Type} {spiram : Bool} {s s' : Disp κ} {i : Nat}

theorem action_of_set {x : Item κ} {j : Nat} (hpool : s'.pool = s.pool.set j x)
    (hlt : j < s.pool.length)
    (hx : x.inUse = true → (s.item j).inUse = true ∧ x.action = (s.item j).action)
    (hu : (s'.item i).inUse = true) :
    (s.item i).inUse = true ∧ (s'.item i).action = (s.item i).action := by
  rw [item_of_set hpool hlt] at hu ⊢
  by_cases hij : i = j
  · rw [if_pos hij] at hu ⊢
    rw [hij]
    exact hx hu
  · rw [if_neg hij] at hu ⊢
    exact ⟨hu, rfl⟩

theorem action_of_drop {j : Nat} (hlt : j < s.pool.length) (hu : ((s.drop j).item i).inUse = true) :
    (s.item i).inUse = true ∧ ((s.drop j).item i).action = (s.item i).action :=
  action_of_set rfl hlt (fun hx => by cases hx) hu

theorem action_of_fill {c : κ} {a : Action} {j : Nat} (hpool : s'.pool = s.pool.set j (s.newItem c a))
    (hlt : j < s.pool.length) (hu : (s'.item i).inUse = true) :
    ((s.item i).inUse = true ∧ (s'.item i).action = (s.item i).action) ∨ (s'.item i).action = a := by
  rw [item_of_set hpool hlt] at hu ⊢
  by_cases hij : i = j
  · rw [if_pos hij]
    exact .inr rfl
  · rw [if_neg hij] at hu ⊢
    exact .inl ⟨hu, rfl⟩

variable [DecidableEq κ] {e : Event κ}

theorem action_of_quiet {c : κ} (hu : ((s.quiet c).item i).inUse = true) :
    (s.item i).inUse = true ∧ ((s.quiet c).item i).action = (s.item i).action := by
  have hitem : (s.quiet c).item i = (s.item i).cancel c := item_of_cancel rfl i
  rw [hitem] at hu ⊢
  exact ⟨Item.cancel_inUse (s.item i) ▸ hu, Item.cancel_action (s.item i)⟩

/-- The action of an item in use is the one that was enqueued. -/
theorem Move.action (h : Sound spiram s) (hm : Move s e s') (hu : (s'.item i).inUse = true) :
    ((s.item i).inUse = true ∧ (s'.item i).action = (s.item i).action) ∨
      ∃ c, e = .enqueue c (s'.item i).action := by
  have hlt : ∀ {j : Nat}, s.worker.index = [j] → j < s.pool.length :=
    fun hw => h.tidy.lt (by rw [Disp.held, hw]; exact List.mem_cons_self)
  cases hm with
  | refuse c a => exact .inl ⟨hu, rfl⟩
  | fill c a j _ _ hj _ =>
      exact (action_of_fill rfl hj hu).imp_right fun ha => ⟨c, by rw [ha]⟩
  | receive j rest _ _ => exact .inl ⟨hu, rfl⟩
  | dropCancelled j hw _ => exact .inl (action_of_drop (hlt (by rw [hw]; rfl)) hu)
  | dropOutdated j c hw _ =>
      exact .inl (action_of_drop (s := s.setCtl c _) (hlt (by rw [hw]; rfl)) hu)
  | claim j c hw hp _ =>
      obtain ⟨hj, -, -, -⟩ := Item.pendingOf_iff.mp hp
      exact .inl (action_of_set rfl (lt_of_inUse hj) (fun _ => ⟨hj, rfl⟩) hu)
  | invoke j c _ => exact .inl ⟨hu, rfl⟩
  | finish j c hw => exact .inl (action_of_drop (s := s.setCtl c _) (hlt (by rw [hw]; rfl)) hu)
  | quiesced e c w _ _ _ => exact .inl (action_of_quiet hu)
  | wait e c w ws _ _ _ _ => exact .inl (action_of_quiet (c := c) hu)
  | wake e c w ws _ _ _ _ => exact .inl ⟨hu, rfl⟩
  | deleteSem c _ => exact .inl ⟨hu, rfl⟩
  | initClear c _ => exact .inl ⟨hu, rfl⟩
  | initReady c _ => exact .inl ⟨hu, rfl⟩

end Dispatcher

namespace Agwpe

open Transition

namespace Server

variable {κ : Type} [DecidableEq κ] {spiram : Bool} {s s' : Server κ} {e : Event κ}

/-! ### Runs in which T1 does not give up -/

/-- The step is not the expiry of a T1 that gives up. -/
def Patient (s : Server κ) (e : Event κ) : Prop :=
  ∀ c heap, e = .expire c .t1 heap → (s.conn c).givesUp = false

/-- No error is on its way to the dispatcher task, and it is not in `conn_on_error`. -/
structure ErrorFree (s : Server κ) : Prop where
  batch : ∀ c a, (c, a) ∈ s.batch → a.isError = false
  items : ∀ i, (s.disp.item i).inUse = true → (s.disp.item i).action.isError = false
  callback : s.callback.inError = false

theorem errorFree_init (h : s.IsInit spiram) : ErrorFree s := by
  obtain ⟨hdisp, -, -, hcb, hbatch⟩ := h
  have hsound := Dispatcher.sound_init hdisp
  obtain ⟨ctl, hdisp⟩ := hdisp
  refine ⟨?_, ?_, by rw [hcb]; rfl⟩
  · intro c a ha
    rw [hbatch] at ha
    exact absurd ha List.not_mem_nil
  · intro i hu
    have hheld := (hsound.tidy.inUse i).mpr hu
    rw [hdisp] at hheld
    exact absurd hheld List.not_mem_nil

theorem ErrorFree.step (h : ErrorFree s) (hinv : Inv spiram s) (hok : s.Patient e)
    (hstep : s.step spiram e = some s') : ErrorFree s' := by
  have heff := step_effect hstep
  constructor
  · intro c a ha
    rcases heff.batch c a ha with ha | ⟨t, heap, he, ha⟩
    · exact h.batch c a ha
    · refine timer_errors ?_ heap a ha
      intro ht
      exact hok c heap (ht ▸ he)
  · intro i hu
    rcases heff.disp with hsame | ⟨e', hdisp, -, -, henq⟩
    · rw [hsame] at hu ⊢
      exact h.items i hu
    · rcases (Dispatcher.step_move hinv.sound hdisp).action hinv.sound hu with ⟨hu', ha⟩ | ⟨c, hc⟩
      · rw [ha]
        exact h.items i hu'
      · exact h.batch c _ (henq c _ hc)
  · by_contra he
    rcases heff.error (by simpa using he) with he | ⟨i, c, hw, ha⟩
    · rw [h.callback] at he
      cases he
    · have hserving : s.disp.worker.serving = some (i, c) := by rw [hw]; rfl
      have hu := (hinv.sound.tidy.inUse i).mp (Dispatcher.mem_held_of_serving hserving)
      rw [h.items i hu] at ha
      cases ha

omit [DecidableEq κ] in
/-- Out of `conn_on_error` there is no call of `ax25_conn_deinit`. -/
theorem ErrorFree.deinitsOwn (h : ErrorFree s) : s.deinitsOwn = false := by
  unfold Server.deinitsOwn
  split
  · rename_i hcb
    have hfree := h.callback
    rw [hcb] at hfree
    cases hfree
  · rfl

theorem ErrorFree.wantsMutex (h : ErrorFree s) (c : κ) : s.wantsMutex c = false := by
  by_contra hwant
  obtain ⟨i, -, hcb⟩ := wantsMutex_iff.mp (by simpa using hwant)
  have hfree := h.callback
  rw [hcb] at hfree
  cases hfree

theorem ErrorFree.entersError (h : ErrorFree s) (hinv : Inv spiram s) (c : κ) :
    s.entersError c = false := by
  unfold Server.entersError
  split
  · rename_i i c' hw _
    have hserving : s.disp.worker.serving = some (i, c') := by rw [hw]; rfl
    have hu := (hinv.sound.tidy.inUse i).mp (Dispatcher.mem_held_of_serving hserving)
    rw [h.items i hu, Bool.and_false, Bool.false_and]
  · rfl

end Server

namespace Guarded

variable {κ : Type} [DecidableEq κ] {spiram : Bool} {g : Guarded κ}

/-- The step is not the expiry of a T1 that gives up. -/
def Patient (g : Guarded κ) (e : GuardedEvent κ) : Prop :=
  ∀ e', e = .plain e' → g.server.Patient e'

/-- **Without a T1 that gives up, no wait is for an action that needs what the waiting task
holds.** -/
theorem no_deadlock_without_retryout (h : Reach (IsInit spiram) (step spiram) Patient g) :
    ¬g.server.SelfBlocked ∧ ¬g.CrossBlocked := by
  have hclear : Reach (IsInit spiram) (step spiram) Clear g ∧ g.server.ErrorFree := by
    induction h with
    | start h₀ => exact ⟨.start h₀, Server.errorFree_init h₀.1⟩
    | next e hreach hok hstep ih =>
        obtain ⟨hclear, hfree⟩ := ih
        have hinv := (inv_of_reach hreach).server
        cases step_move hstep with
        | plain e s _ hs =>
            exact ⟨hclear.next (.plain e)
              (fun _ => ⟨hfree.deinitsOwn, fun c _ => hfree.entersError hinv c⟩) hstep,
              hfree.step hinv (hok e rfl) hs⟩
        | quiesce c s _ _ hs =>
            exact ⟨hclear.next (.quiesce c) (hfree.wantsMutex c) hstep,
              hfree.step hinv (fun _ _ he => by cases he) hs⟩
        | wake c s _ hs =>
            exact ⟨hclear.next .wake trivial hstep, hfree.step hinv (fun _ _ he => by cases he) hs⟩
  exact ⟨Server.not_selfBlocked (server_of_reach hclear.1), not_crossBlocked hclear.1⟩

end Guarded

end Agwpe

end EspAx25
