import EspAx25.Agwpe.Callbacks
import EspAx25.Dispatcher.Quiesce

/-!
# EspAx25.Agwpe.Deadlock

When the dispatcher task waits for itself.

`ax25_conn_dispatcher_quiesce` waits until nothing of the connection is executing. Only
the dispatcher task ends an execution, so a wait of the dispatcher task never ends. It
waits only for the connection whose callback it is in, and the only callback that
quiesces is `conn_on_error`: the timer task has enqueued the error, the dispatcher task
takes the server mutex and deinitialises the connection, and both the task and the mutex
are lost.

Main results:

* `not_selfBlocked`: as long as `conn_on_error` does not reach `ax25_conn_deinit` on the
  dispatcher task with the connection still initialised, the dispatcher task never waits
  in `ax25_conn_dispatcher_quiesce`.
* `Stuck`: a step that does reach it so blocks the dispatcher task for ever, with the
  server mutex.
* `retryout`: a connection request that is never answered ends there.
-/

namespace EspAx25

/-! ### Contexts that are not initialised -/

/-- Every operation on such a context returns at once. -/
theorem Op.call_uninitialized {c : Conn} (h : c.initialized = false) (op : Op) (heap : Bool) :
    ∃ ret, op.call heap c = .early (op.consumeExpiry c) ret := by
  have hpre : ∃ ret, op.precheck (op.consumeExpiry c) = some ret := by
    cases op <;> simp [Op.precheck, Op.consumeExpiry, h]
  obtain ⟨ret, hpre⟩ := hpre
  exact ⟨ret, by simp only [Op.call, hpre]⟩

theorem Conn.step_uninitialized {c : Conn} (h : c.initialized = false) (e : Event) :
    (c.step e).conn.initialized = false := by
  cases e with
  | call op heap refuses =>
      obtain ⟨ret, hcall⟩ := op.call_uninitialized h heap
      have hconn : (c.step (.call op heap refuses)).conn = op.consumeExpiry c := by
        simp only [Conn.step, hcall]
        rfl
      rw [hconn]
      cases op <;> exact h
  | refuse => simp [Conn.step, Conn.refuse, h]
  | fire t => cases t <;> exact h

/-- The action calls `on_error`. -/
def Action.isError : Action → Bool
  | .error .. => true
  | _ => false

namespace Dispatcher

variable {κ : Type} [DecidableEq κ] {spiram : Bool} {s s' : Disp κ} {e : Event κ}

/-! ### Steps of the dispatcher -/

/-- Only `quiesceSelf` makes the dispatcher task wait. -/
theorem Move.awaits (hm : Move s e s') (hne : ∀ c, e ≠ .quiesceSelf c)
    (hw : s.worker.awaits = none) : s'.worker.awaits = none := by
  cases hm with
  | refuse c a => exact hw
  | fill c a i _ _ _ _ => exact hw
  | receive i rest _ _ => rfl
  | dropCancelled i _ _ => rfl
  | dropOutdated i c _ _ => rfl
  | claim i c _ _ _ => rfl
  | invoke i c _ => rfl
  | finish i c _ => rfl
  | quiesced e c w _ _ _ => exact hw
  | wait e c w ws hq _ _ _ =>
      cases hq with
      | other => exact hw
      | self i c' _ => exact absurd rfl (hne c)
  | wake e c w ws hwake _ _ _ =>
      cases hwake with
      | other => exact hw
      | self i c' _ => rfl
  | deleteSem c _ => exact hw
  | initClear c _ => exact hw
  | initReady c _ => exact hw

/-- `ax25_conn_init` has come past its clearing of the context, at least once. -/
def Life.up : Life → Bool
  | .fresh | .clearing => false
  | _ => true

theorem up_update {life : κ → Life} {c c' : κ} {l : Life} (hl : l.up = true)
    (hup : (life c').up = true) : (Function.update life c l c').up = true := by
  by_cases hc : c' = c
  · subst hc
    rw [Function.update_self]
    exact hl
  · rw [Function.update_of_ne hc]
    exact hup

/-- Only `ax25_conn_init` clears a connection. -/
theorem Move.up {c : κ} (hm : Move s e s') (hne : e ≠ .initClear c)
    (hup : (s.life c).up = true) : (s'.life c).up = true := by
  cases hm with
  | refuse c' a => exact hup
  | fill c' a i _ _ _ _ => exact hup
  | receive i rest _ _ => exact hup
  | dropCancelled i _ _ => exact hup
  | dropOutdated i c' _ _ => exact hup
  | claim i c' _ _ _ => exact hup
  | invoke i c' _ => exact hup
  | finish i c' _ => exact hup
  | quiesced e c' w _ _ _ => exact up_update rfl hup
  | wait e c' w ws _ _ _ _ => exact up_update rfl hup
  | wake e c' w ws _ _ _ _ => exact up_update rfl hup
  | deleteSem c' _ => exact hup
  | initClear c' _ =>
      have hc : c ≠ c' := fun hc => hne (hc ▸ rfl)
      exact (congrArg Life.up (Function.update_of_ne hc _ _)).trans hup
  | initReady c' _ => exact up_update rfl hup

/-- An item that is executing is counted. -/
theorem Sound.executingCount_ne_zero {i : Nat} {c : κ} (h : Sound spiram s)
    (he : (s.item i).executingOf c = true) (hfresh : s.life c ≠ .fresh) :
    (s.ctl c).executingCount ≠ 0 := by
  intro hzero
  obtain ⟨hu, -, -⟩ := Item.executingOf_iff.mp he
  have hpos := countP_pos (lt_of_inUse hu) he
  rw [← h.counted.executing c hfresh, hzero] at hpos
  exact absurd hpos (by decide)

/-- The dispatcher task cannot quiesce the connection that it is serving without a wait. -/
theorem quiesceSelf_waits {i : Nat} {c : κ} (h : Sound spiram s) (hw : s.worker = .running i c)
    (hup : (s.life c).up = true) (hstep : step spiram s (.quiesceSelf c) = some s') :
    s'.worker = .waiting i c c := by
  have hlife : ¬(s.life c = .fresh ∨ s.life c = .clearing) := by
    rintro (hl | hl) <;> rw [hl] at hup <;> cases hup
  obtain ⟨he, hfresh⟩ := h.serving_executingOf (c := c) (i := i) (by rw [hw]; rfl)
  have hwait := (h.waitNeeded_iff hlife).mpr (h.executingCount_ne_zero he hfresh)
  simp only [step, hw, if_neg hlife, h.counted.cancelAll_eq hfresh, hwait, if_true] at hstep
  cases hstep
  rfl

/-- The semaphore is given only when nothing of the connection is executing. -/
theorem Sound.not_given {i : Nat} {c : κ} (h : Sound spiram s) (hw : s.worker = .waiting i c c) :
    (s.ctl c).quiescedSem ≠ some true := by
  intro hsem
  obtain ⟨he, -⟩ := h.serving_executingOf (c := c) (i := i) (by rw [hw]; rfl)
  obtain ⟨hu, -, -⟩ := Item.executingOf_iff.mp he
  have hpos := countP_pos (lt_of_inUse hu) he
  have hzero : s.pool.countP (Item.executingOf c) = 0 := by
    rcases (h.calm c).waited (by simp [Disp.unwaited, hw, Worker.awaits]) with hl | hl
    · exact (h.calm c).signalled hl hsem
    · exact (h.calm c).done hl
  omega

/-- Once it waits for the connection that it is serving, it waits. -/
theorem Move.waiting {i : Nat} {c : κ} (h : Sound spiram s) (hm : Move s e s')
    (hw : s.worker = .waiting i c c) : s'.worker = .waiting i c c := by
  have hbusy : ∀ w : Worker κ, s.worker = w → w = .waiting i c c := fun w hw' => hw' ▸ hw
  cases hm with
  | refuse c' a => exact hw
  | fill c' a j _ _ _ _ => exact hw
  | receive j rest hw' _ => cases hbusy _ hw'
  | dropCancelled j hw' _ => cases hbusy _ hw'
  | dropOutdated j c' hw' _ => cases hbusy _ hw'
  | claim j c' hw' _ _ => cases hbusy _ hw'
  | invoke j c' hw' => cases hbusy _ hw'
  | finish j c' hw' => cases hbusy _ hw'
  | quiesced e c' w _ _ _ => exact hw
  | wait e c' w ws hq _ _ _ =>
      cases hq with
      | other => exact hw
      | self j c₁ hw' => cases hbusy _ hw'
  | wake e c' w ws hwake hsem _ _ =>
      cases hwake with
      | other => exact hw
      | self j c₁ hw' =>
          cases hbusy _ hw'
          exact absurd hsem (h.not_given hw)
  | deleteSem c' _ => exact hw
  | initClear c' _ => exact hw
  | initReady c' _ => exact hw

end Dispatcher

namespace Agwpe

open Transition
open Dispatcher (Disp Sound)

variable {κ : Type} [DecidableEq κ]

/-- In `conn_on_error`, past the check of the callback context. -/
def CallbackPc.inError : CallbackPc → Bool
  | .start | .done => false
  | _ => true

/-- In `conn_on_error` with the server mutex. -/
def CallbackPc.holds : CallbackPc → Bool
  | .locked | .deinit | .release => true
  | _ => false

namespace Server

/-! ### The property and the condition -/

/-- The dispatcher task is in `ax25_conn_dispatcher_quiesce` and waits for the end of an
execution, which only the dispatcher task brings about. -/
def SelfBlocked (s : Server κ) : Prop :=
  ∃ c, s.disp.worker.awaits = some c ∧ (s.disp.ctl c).quiescedSem ≠ some true

/-- The dispatcher task is about to call `ax25_conn_deinit` for the connection whose action
it executes, and the connection is still initialised. -/
def deinitsOwn (s : Server κ) : Bool :=
  match s.disp.worker, s.callback with
  | .running _ c, .locked => (s.conn c).initialized
  | _, _ => false

/-- The step is not such a call. -/
def Clear (s : Server κ) (e : Event κ) : Prop := e = .callback → s.deinitsOwn = false

instance (s : Server κ) (e : Event κ) : Decidable (s.Clear e) :=
  inferInstanceAs (Decidable (_ → _))

/-! ### What a step does -/

/-- What the timer task records when it runs the callback of timer `t`. -/
def expired (s : Server κ) (c : κ) (t : TimerId) (heap : Bool) : List Action :=
  ((s.conn c).step (.call (timerOp t) heap false)).out

/-- What a step does to the dispatcher, the connections, the mutex and the batch. -/
structure Effect (spiram : Bool) (s : Server κ) (e : Event κ) (s' : Server κ) : Prop where
  disp : s'.disp = s.disp ∨ ∃ e', Dispatcher.step spiram s.disp e' = some s'.disp ∧
    (∀ c, e' = .quiesceSelf c → e = .callback ∧ s.deinitsOwn = true) ∧
    (∀ c, e' = .initClear c → (s'.conn c).initialized = false) ∧
    (∀ c a, e' = .enqueue c a → (c, a) ∈ s.batch)
  conn : ∀ c, (s'.conn c).initialized = true →
    (s.conn c).initialized = true ∨ s'.disp = s.disp ∧ s.disp.life c = .ready
  mutex : (s.callback.holds = true → s.mutex = some .dispatcher) →
    s'.callback.holds = true → s'.mutex = some .dispatcher
  callback : s.disp.worker.awaits ≠ none → s'.callback = s.callback
  error : s'.callback.inError = true → s.callback.inError = true ∨
    ∃ i c, s.disp.worker = .running i c ∧ (s.disp.item i).action.isError = true
  batch : ∀ c a, (c, a) ∈ s'.batch → (c, a) ∈ s.batch ∨
    ∃ t heap, e = .expire c t heap ∧ a ∈ s.expired c t heap

section Effects

variable {spiram : Bool} {s s' s₁ : Server κ} {e : Event κ} {c : κ}

theorem liftDisp_eq {e' : Dispatcher.Event κ} (h : s.liftDisp spiram e' = some s') :
    Dispatcher.step spiram s.disp e' = some s'.disp ∧ s' = { s with disp := s'.disp } := by
  simp only [liftDisp, Option.map_eq_some_iff] at h
  obtain ⟨d, hd, rfl⟩ := h
  exact ⟨hd, rfl⟩

/-- A context is written, and it was initialised before if it is so now. -/
theorem effect_setConn {conn : Conn}
    (h : conn.initialized = true → (s.conn c).initialized = true ∨ s.disp.life c = .ready)
    {b : List (κ × Action)} (hb : ∀ c a, (c, a) ∈ b → (c, a) ∈ s.batch ∨
      ∃ t heap, e = .expire c t heap ∧ a ∈ s.expired c t heap) :
    Effect spiram s e { s.setConn c conn with batch := b } := by
  refine ⟨.inl rfl, ?_, fun hm => hm, fun _ => rfl, .inl, hb⟩
  intro c' hc'
  have hc' : (Function.update s.conn c conn c').initialized = true := hc'
  by_cases hc : c' = c
  · subst hc
    rw [Function.update_self] at hc'
    exact (h hc').imp_right fun hl => ⟨rfl, hl⟩
  · rw [Function.update_of_ne hc] at hc'
    exact .inl hc'

theorem initialized_of_step {c : Conn} {e : EspAx25.Event}
    (h : (c.step e).conn.initialized = true) : c.initialized = true := by
  by_contra hc
  rw [c.step_uninitialized (by simpa using hc) e] at h
  cases h

/-- A step that is a step of the dispatcher. -/
theorem effect_lift {e' : Dispatcher.Event κ} (h : s₁.liftDisp spiram e' = some s')
    (hdisp : s₁.disp = s.disp)
    (hconn : ∀ c, (s₁.conn c).initialized = true → (s.conn c).initialized = true)
    (hself : ∀ c, e' = .quiesceSelf c → e = .callback ∧ s.deinitsOwn = true)
    (hclear : ∀ c, e' = .initClear c → (s₁.conn c).initialized = false)
    (henq : ∀ c a, e' = .enqueue c a → (c, a) ∈ s.batch) (hbatch : s₁.batch ⊆ s.batch)
    (hmutex : (s.callback.holds = true → s.mutex = some .dispatcher) →
      s₁.callback.holds = true → s₁.mutex = some .dispatcher)
    (hcb : s.disp.worker.awaits ≠ none → s₁.callback = s.callback)
    (herr : s₁.callback.inError = true → s.callback.inError = true) : Effect spiram s e s' := by
  obtain ⟨hstep, heq⟩ := liftDisp_eq h
  rw [heq]
  exact ⟨.inr ⟨e', hdisp ▸ hstep, hself, hclear, henq⟩, fun c hc => .inl (hconn c hc), hmutex, hcb,
    fun he => .inl (herr he), fun _ _ hp => .inl (hbatch hp)⟩

theorem unmake_initialized (s : Server κ) {c c' : κ}
    (h : ((s.unmake c).conn c').initialized = true) : (s.conn c').initialized = true := by
  by_cases hc : c' = c
  · subst hc
    simp [unmake, setConn] at h
  · simpa [unmake, setConn, hc] using h

/-- A step that leaves the dispatcher and the connections alone. -/
theorem effect_rest (hdisp : s'.disp = s.disp) (hconn : s'.conn = s.conn) (hbatch : s'.batch = s.batch)
    (hmutex : (s.callback.holds = true → s.mutex = some .dispatcher) →
      s'.callback.holds = true → s'.mutex = some .dispatcher)
    (hcb : s.disp.worker.awaits ≠ none → s'.callback = s.callback)
    (herr : s'.callback.inError = true → s.callback.inError = true ∨
      ∃ i c, s.disp.worker = .running i c ∧ (s.disp.item i).action.isError = true) :
    Effect spiram s e s' :=
  ⟨.inl hdisp, fun _ hc => .inl (hconn ▸ hc), hmutex, hcb, herr, fun _ _ hp => .inl (hbatch ▸ hp)⟩

theorem callbackStep_effect {i : Nat} (hw : s.disp.worker = .running i c)
    (h : s.callbackStep spiram i c = some s') : Effect spiram s .callback s' := by
  have hrun : ∀ {P : Prop}, s.disp.worker.awaits ≠ none → P := by
    intro P hne
    rw [hw] at hne
    exact absurd rfl hne
  cases hcb : s.callback with
  | start =>
      simp only [callbackStep, hcb] at h
      split at h
      · rename_i hact
        cases h
        refine effect_rest rfl rfl rfl (fun _ hholds => ?_) hrun
          fun _ => .inr ⟨i, c, hw, by rw [hact]; rfl⟩
        dsimp only at hholds
        split at hholds <;> cases hholds
      · split_ifs at h <;> cases h <;>
          exact effect_rest rfl rfl rfl (fun _ hh => by cases hh) hrun fun he => by cases he
      · cases h
        exact effect_rest rfl rfl rfl (fun _ hh => by cases hh) hrun fun he => by cases he
  | wantMutex =>
      simp only [callbackStep, hcb] at h
      split_ifs at h
      cases h
      exact effect_rest rfl rfl rfl (fun _ _ => rfl) hrun fun _ => .inl (by rw [hcb]; rfl)
  | locked =>
      simp only [callbackStep, hcb] at h
      split_ifs at h with hinit
      · refine effect_lift h rfl (fun c' hc' => s.unmake_initialized hc') ?_ (fun _ hc' => by cases hc')
          (fun _ _ hc' => by cases hc') (List.Subset.refl _) (fun hm _ => hm (by rw [hcb]; rfl)) hrun
          fun _ => by rw [hcb]; rfl
        intro c' _
        exact ⟨rfl, by simp only [deinitsOwn, hw, hcb, hinit]⟩
      · cases h
        exact effect_rest rfl rfl rfl (fun hm _ => hm (by rw [hcb]; rfl)) hrun
          fun _ => .inl (by rw [hcb]; rfl)
  | deinit =>
      simp only [callbackStep, hcb] at h
      cases h
      exact effect_rest rfl rfl rfl (fun hm _ => hm (by rw [hcb]; rfl)) hrun
        fun _ => .inl (by rw [hcb]; rfl)
  | release =>
      simp only [callbackStep, hcb] at h
      cases h
      exact effect_rest rfl rfl rfl (fun _ hh => by cases hh) hrun fun he => by cases he
  | done =>
      simp only [callbackStep, hcb] at h
      cases h

theorem disp_effect {e' : Dispatcher.Event κ} (h : s.step spiram (.disp e') = some s') :
    Effect spiram s (.disp e') s' := by
  have hkeep : ∀ {e' : Dispatcher.Event κ}, outside e' = true → (∀ c, e' ≠ .initClear c) →
      s.liftDisp spiram e' = some s' → Effect spiram s (.disp e') s' := by
    intro e' hout hne hl
    refine effect_lift hl rfl (fun _ hc => hc) ?_ (fun c hc => absurd hc (hne c)) ?_
      (List.Subset.refl _) (fun hm => hm) (fun _ => rfl) fun he => he
    · intro c hc
      rw [hc] at hout
      cases hout
    · intro c a hc
      rw [hc] at hout
      cases hout
  cases e' with
  | invoke =>
      refine effect_lift h rfl (fun _ hc => hc) (fun _ hc => by cases hc) (fun _ hc => by cases hc)
        (fun _ _ hc => by cases hc) (List.Subset.refl _) (fun _ hh => by cases hh) ?_
        fun he => by cases he
      -- the dispatcher task has an item to invoke, and does not wait
      intro hne
      have hstep := (liftDisp_eq h).1
      cases hw : s.disp.worker with
      | claimed i c =>
          rw [hw] at hne
          exact absurd rfl hne
      | idle | received | running | waiting => simp [Dispatcher.step, hw] at hstep
  | finish =>
      simp only [step] at h
      split_ifs at h
      exact hkeep rfl (fun c hc => by cases hc) h
  | initClear c =>
      refine effect_lift h rfl (fun c' hc' => s.unmake_initialized hc') (fun _ hc' => by cases hc') ?_
        (fun _ _ hc' => by cases hc') (List.Subset.refl _) (fun hm => hm) (fun _ => rfl) fun he => he
      intro c' hc'
      cases hc'
      simp [unmake, setConn]
  | enqueue c a => simp [step, outside] at h
  | quiesceSelf c => simp [step, outside] at h
  | wakeSelf => simp [step, outside] at h
  | receive => exact hkeep rfl (fun c hc => by cases hc) h
  | takeUp => exact hkeep rfl (fun c hc => by cases hc) h
  | quiesce c => exact hkeep rfl (fun c hc => by cases hc) h
  | wake c => exact hkeep rfl (fun c hc => by cases hc) h
  | deleteSem c => exact hkeep rfl (fun c hc => by cases hc) h
  | initReady c => exact hkeep rfl (fun c hc => by cases hc) h

/-- **Every step has an effect of this kind.** -/
theorem step_effect (h : s.step spiram e = some s') : Effect spiram s e s' := by
  have hsame : ∀ c a, (c, a) ∈ s.batch → (c, a) ∈ s.batch ∨
      ∃ t heap, e = .expire c t heap ∧ a ∈ s.expired c t heap := fun _ _ => .inl
  cases e with
  | fire c t =>
      cases h
      exact effect_setConn (fun hi => .inl (by cases t <;> exact hi)) hsame
  | expire c t heap =>
      simp only [step] at h
      split at h
      · cases h
        refine effect_setConn (fun hi => .inl (initialized_of_step hi)) fun c' a hp => .inr ?_
        obtain ⟨a', ha', heq⟩ := List.mem_map.mp hp
        cases heq
        exact ⟨t, heap, rfl, ha'⟩
      · cases h
  | drain =>
      simp only [step] at h
      split at h
      · cases h
      · rename_i c a rest hbatch
        refine effect_lift h rfl (fun _ hc => hc) (fun _ hc => by cases hc) (fun _ hc => by cases hc)
          ?_ ?_ (fun hm => hm) (fun _ => rfl) fun he => he
        · intro c' a' hc
          cases hc
          rw [hbatch]
          exact List.mem_cons_self
        · rw [hbatch]
          exact List.subset_cons_self _ _
  | call c op heap refuses =>
      simp only [step] at h
      split at h <;> cases h
      exact effect_setConn (fun hi => .inl (initialized_of_step hi)) hsame
  | disp e' => exact disp_effect h
  | callback =>
      simp only [step] at h
      split at h
      · exact callbackStep_effect ‹_› h
      · exact effect_lift h rfl (fun _ hc => hc) (fun _ hc => by cases hc) (fun _ hc => by cases hc)
          (fun _ _ hc => by cases hc) (List.Subset.refl _) (fun hm => hm) (fun _ => rfl) fun he => he
      · cases h
  | lock =>
      simp only [step] at h
      split_ifs at h with hfree
      cases h
      refine effect_rest rfl rfl rfl (fun hm hholds => ?_) (fun _ => rfl) .inl
      rw [hm hholds] at hfree
      cases hfree
  | unlock =>
      simp only [step] at h
      split_ifs at h with hother
      cases h
      refine effect_rest rfl rfl rfl (fun hm hholds => ?_) (fun _ => rfl) .inl
      rw [hm hholds] at hother
      cases hother
  | alloc c =>
      simp only [step] at h
      split_ifs at h
      cases h
      exact effect_rest rfl rfl rfl (fun hm => hm) (fun _ => rfl) .inl
  | free c needsCleanup =>
      cases h
      exact effect_rest rfl rfl rfl (fun hm => hm) (fun _ => rfl) .inl
  | mark c =>
      cases h
      exact ⟨.inl rfl, fun c' hc' => .inl (s.unmake_initialized hc'), fun hm => hm, fun _ => rfl,
        .inl, hsame⟩
  | ready c localAddr =>
      simp only [step] at h
      split_ifs at h with hlife
      cases h
      exact effect_setConn (fun _ => .inr hlife) hsame
  | stop =>
      cases h
      exact effect_rest rfl rfl rfl (fun hm => hm) (fun _ => rfl) .inl

end Effects

/-! ### Runs -/

/-- The invariant: the books of the dispatcher are right, a connection that is initialised
has come past `ax25_conn_init`, and `conn_on_error` holds the mutex that it has taken. -/
structure Inv (spiram : Bool) (s : Server κ) : Prop where
  sound : Sound spiram s.disp
  live : ∀ c, (s.conn c).initialized = true → (s.disp.life c).up = true
  holding : s.callback.holds = true → s.mutex = some .dispatcher

section Runs

variable {spiram : Bool} {s s' s₁ s₂ : Server κ} {e : Event κ} {c : κ}

theorem inv_init (h : s.IsInit spiram) : Inv spiram s := by
  obtain ⟨hdisp, hconn, -, hcb, -⟩ := h
  refine ⟨Dispatcher.sound_init hdisp, ?_, ?_⟩
  · intro c hc
    rw [hconn c] at hc
    cases hc
  · rw [hcb]
    intro hholds
    cases hholds

theorem Inv.step (h : Inv spiram s) (hstep : s.step spiram e = some s') : Inv spiram s' := by
  have heff := step_effect hstep
  rcases heff.disp with hsame | ⟨e', hdisp, -, hclear, -⟩
  · refine ⟨hsame ▸ h.sound, ?_, heff.mutex h.holding⟩
    intro c hc
    rw [hsame]
    rcases heff.conn c hc with hinit | ⟨-, hlife⟩
    · exact h.live c hinit
    · rw [hlife]
      rfl
  · have hm := Dispatcher.step_move h.sound hdisp
    refine ⟨h.sound.move hm, ?_, heff.mutex h.holding⟩
    intro c hc
    have hup : (s.disp.life c).up = true := by
      rcases heff.conn c hc with hinit | ⟨-, hlife⟩
      · exact h.live c hinit
      · rw [hlife]
        rfl
    refine hm.up ?_ hup
    intro hce
    rw [hclear c hce] at hc
    cases hc

theorem inv_of_reach {ok : Server κ → Event κ → Prop}
    (h : Reach (IsInit spiram) (step spiram) ok s) : Inv spiram s :=
  h.invariant (fun _ => inv_init) fun _ _ _ hinv _ hstep => hinv.step hstep

/-- Along the condition the dispatcher task never waits. -/
theorem awaits_of_reach (h : Reach (IsInit spiram) (step spiram) Clear s) :
    s.disp.worker.awaits = none := by
  have hinv : Inv spiram s ∧ s.disp.worker.awaits = none := by
    refine h.invariant (I := fun s => Inv spiram s ∧ s.disp.worker.awaits = none) ?_ ?_
    · intro s hs
      obtain ⟨ctl, hdisp⟩ := hs.1
      exact ⟨inv_init hs, by rw [hdisp]; rfl⟩
    · intro s e s' hs hclear hstep
      refine ⟨hs.1.step hstep, ?_⟩
      rcases (step_effect hstep).disp with hsame | ⟨e', hdisp, hself, -, -⟩
      · rw [hsame]
        exact hs.2
      · refine (Dispatcher.step_move hs.1.sound hdisp).awaits ?_ hs.2
        intro c hc
        obtain ⟨rfl, hown⟩ := hself c hc
        rw [hclear rfl] at hown
        cases hown
  exact hinv.2

/-- The dispatcher task waits for itself, with the server mutex. -/
structure Stuck (spiram : Bool) (i : Nat) (c : κ) (s : Server κ) : Prop where
  inv : Inv spiram s
  worker : s.disp.worker = .waiting i c c
  callback : s.callback = .deinit

theorem Stuck.start {i : Nat} (h : Inv spiram s) (hw : s.disp.worker = .running i c)
    (hcb : s.callback = .locked) (hinit : (s.conn c).initialized = true)
    (hstep : s.step spiram .callback = some s') : Stuck spiram i c s' := by
  refine ⟨h.step hstep, ?_, ?_⟩
  · simp only [step, hw, callbackStep, hcb, hinit, if_true] at hstep
    exact Dispatcher.quiesceSelf_waits h.sound hw (h.live c hinit) (liftDisp_eq hstep).1
  · simp only [step, hw, callbackStep, hcb, hinit, if_true] at hstep
    rw [(liftDisp_eq hstep).2]

theorem Stuck.step {i : Nat} (h : Stuck spiram i c s) (hstep : s.step spiram e = some s') :
    Stuck spiram i c s' := by
  have hworker : s'.disp.worker = .waiting i c c := by
    rcases (step_effect hstep).disp with hsame | ⟨e', hdisp, -, -, -⟩
    · rw [hsame]
      exact h.worker
    · exact (Dispatcher.step_move h.inv.sound hdisp).waiting h.inv.sound h.worker
  refine ⟨h.inv.step hstep, hworker, ?_⟩
  rw [(step_effect hstep).callback (by rw [h.worker]; exact Option.some_ne_none c), h.callback]

theorem Stuck.blocked {i : Nat} (h : Stuck spiram i c s) :
    s.SelfBlocked ∧ s.mutex = some .dispatcher :=
  ⟨⟨c, by rw [h.worker]; rfl, h.inv.sound.not_given h.worker⟩,
    h.inv.holding (by rw [h.callback]; rfl)⟩

/-- Along the condition the dispatcher task never waits for itself. -/
theorem not_selfBlocked (h : Reach (IsInit spiram) (step spiram) Clear s) : ¬s.SelfBlocked := by
  rintro ⟨c, hc, -⟩
  rw [awaits_of_reach h] at hc
  cases hc

/-- A call that the condition excludes blocks the dispatcher task. -/
theorem Stuck.of_deinitsOwn (h : Inv spiram s) (hown : s.deinitsOwn = true)
    (hstep : s.step spiram .callback = some s') : ∃ i c, Stuck spiram i c s' := by
  unfold deinitsOwn at hown
  split at hown
  · rename_i i c hw hcb
    exact ⟨i, c, Stuck.start h hw hcb hown hstep⟩
  · cases hown

end Runs

/-! ### A connection request that is never answered -/

/-- A server without connections. -/
def sample : Server Nat :=
  { initialized := true, disp := Dispatcher.sampleDisp
    conn := fun _ => { sampleConn with initialized := false }
    slot := fun _ => {}, mutex := none, callback := .done, batch := [] }

theorem sample_isInit : sample.IsInit false :=
  ⟨Dispatcher.sampleDisp_isInit, fun _ => rfl, rfl, rfl, rfl⟩

/-- `initiate_connection` -/
def dial : List (Event Nat) :=
  [.lock, .alloc 0, .disp (.initClear 0), .disp (.initReady 0), .ready 0 sampleA,
    .call 0 (.connectVia sampleB []) true false, .unlock]

/-- T1 expires, and the SABM that it repeats is sent by the dispatcher task. -/
def retry : List (Event Nat) :=
  [.fire 0 .t1, .expire 0 .t1 true, .drain, .disp .receive, .disp .takeUp, .disp .invoke, .callback,
    .disp .finish]

/-- T1 expires once more and gives up; the error comes to `conn_on_error`, which takes the
server mutex. -/
def giveUp : List (Event Nat) :=
  [.fire 0 .t1, .expire 0 .t1 true, .drain, .disp .receive, .disp .takeUp, .disp .invoke,
    .callback, .callback]

/-- The state before `ax25_conn_deinit`. -/
def retryout : Option (Server Nat) :=
  replay (step false) Clear sample (dial ++ (List.replicate 10 retry).flatten ++ giveUp)

theorem retryout_spec : ∃ s s₁, Reach (IsInit false) (step false) Clear s ∧
    s.disp.worker = .running 0 0 ∧ s.callback = .locked ∧ (s.conn 0).initialized = true ∧
    s.step false .callback = some s₁ := by
  have hfacts : retryout.map (fun s => (s.disp.worker, s.callback, (s.conn 0).initialized,
      (s.step false .callback).isSome)) = some (.running 0 0, .locked, true, true) := by
    decide +kernel
  obtain ⟨s, hs, hfacts⟩ := Option.map_eq_some_iff.mp hfacts
  simp only [Prod.mk.injEq] at hfacts
  obtain ⟨hw, hcb, hinit, hstep⟩ := hfacts
  obtain ⟨s₁, hstep⟩ := Option.isSome_iff_exists.mp hstep
  exact ⟨s, s₁, Reach.replay (.start sample_isInit) hs, hw, hcb, hinit, hstep⟩

end Server

end Agwpe

end EspAx25
