import EspAx25.Agwpe.Deadlock

/-!
# EspAx25.Agwpe.CrossWait

When `ax25_conn_dispatcher_quiesce` waits for a task that waits for its caller.

`ax25_conn_deinit` is called with the server mutex in `conn_on_error` on the task of a router
port, in `alloc_conn_slot`, in `handle_disconnect` and in `ax25_agwpe_server_deinit`. If the
dispatcher task is in `conn_on_error` of the same connection by then and still needs the mutex,
each of the two tasks waits for the other.

The machine is that of the server. The task that holds the server mutex is told apart from the
others, and `awaited` is the connection that it waits for.

Main results:

* `self_deadlock_exact`: no wait in `ax25_conn_dispatcher_quiesce` is for an action that cannot
  end before the waiting task goes on, as long as no step is one of three; and each of the three
  makes such a wait, which never ends, with the server mutex held.
* `retryout_deadlock`: the failing runs.
-/

namespace EspAx25

namespace Dispatcher

variable {κ : Type} [DecidableEq κ] {spiram : Bool} {s s' : Disp κ} {e : Event κ} {i : Nat} {c : κ}

/-- In a callback the dispatcher task moves by itself only. -/
theorem Move.stays (hm : Move s e s') (hw : s.worker = .running i c) (hfin : e ≠ .finish)
    (hself : ∀ c', e ≠ .quiesceSelf c') : s'.worker = .running i c := by
  have hbusy : ∀ w : Worker κ, s.worker = w → w = .running i c := fun w hw' => hw' ▸ hw
  cases hm with
  | refuse c' a => exact hw
  | fill c' a j _ _ _ _ => exact hw
  | receive j rest hw' _ => cases hbusy _ hw'
  | dropCancelled j hw' _ => cases hbusy _ hw'
  | dropOutdated j c' hw' _ => cases hbusy _ hw'
  | claim j c' hw' _ _ => cases hbusy _ hw'
  | invoke j c' hw' => cases hbusy _ hw'
  | finish j c' hw' => exact absurd rfl hfin
  | quiesced e c' w _ _ _ => exact hw
  | wait e c' w ws hq _ _ _ =>
      cases hq with
      | other => exact hw
      | self j c₁ _ => exact absurd rfl (hself c')
  | wake e c' w ws hwake _ _ _ =>
      cases hwake with
      | other => exact hw
      | self j c₁ hw' => cases hbusy _ hw'
  | deleteSem c' _ => exact hw
  | initClear c' _ => exact hw
  | initReady c' _ => exact hw

/-- It is in a callback only after `invoke`. -/
theorem Move.running (hm : Move s e s') (hinvoke : e ≠ .invoke) (hawaits : s.worker.awaits = none)
    (hw : s'.worker = .running i c) : s.worker = .running i c := by
  cases hm with
  | refuse c' a => exact hw
  | fill c' a j _ _ _ _ => exact hw
  | receive j rest _ _ => cases hw
  | dropCancelled j _ _ => cases hw
  | dropOutdated j c' _ _ => cases hw
  | claim j c' _ _ _ => cases hw
  | invoke j c' _ => exact absurd rfl hinvoke
  | finish j c' _ => cases hw
  | quiesced e c' w _ _ _ => exact hw
  | wait e c' w ws hq _ _ _ =>
      cases hq with
      | other => exact hw
      | self j c₁ _ => cases hw
  | wake e c' w ws hwake _ _ _ =>
      cases hwake with
      | other => exact hw
      | self j c₁ hw' =>
          rw [hw'] at hawaits
          cases hawaits
  | deleteSem c' _ => exact hw
  | initClear c' _ => exact hw
  | initReady c' _ => exact hw

theorem Disp.waiters_enqueue (s : Disp κ) (a : Action) :
    (s.enqueue spiram c a).2.waiters = s.waiters := by
  unfold Disp.enqueue
  dsimp only
  split_ifs
  · rfl
  · split <;> rfl
  · split <;> rfl

theorem Disp.waiters_takeUp (s : Disp κ) : (s.takeUp i).waiters = s.waiters := by
  unfold Disp.takeUp
  dsimp only
  split
  · rfl
  · split
    · rfl
    · split_ifs <;> rfl

theorem Disp.waiters_finish (s : Disp κ) : (s.finish i c).waiters = s.waiters := by
  unfold Disp.finish
  dsimp only
  split_ifs <;> rfl

/-- A task that waits goes on waiting until it is woken. -/
theorem waiters_of_step (h : step spiram s e = some s') (hw : s.waiters c ≠ 0)
    (hwake : e = .wake c → 1 < s.waiters c) : s'.waiters c ≠ 0 := by
  cases e with
  | enqueue c' a =>
      simp only [step] at h
      split_ifs at h
      cases h
      rwa [Disp.waiters_enqueue]
  | receive =>
      simp only [step] at h
      split at h <;> cases h
      exact hw
  | takeUp =>
      simp only [step] at h
      split at h <;> cases h
      rwa [Disp.waiters_takeUp]
  | invoke =>
      simp only [step] at h
      split at h <;> cases h
      exact hw
  | finish =>
      simp only [step] at h
      split at h <;> cases h
      rwa [Disp.waiters_finish]
  | quiesce c' =>
      simp only [step] at h
      split_ifs at h <;> cases h
      · by_cases hc : c = c'
        · subst hc
          exact (Function.update_self c _ s.waiters).trans_ne (Nat.succ_ne_zero _)
        · exact (Function.update_of_ne hc _ s.waiters).trans_ne hw
      · exact hw
  | wake c' =>
      simp only [step] at h
      split_ifs at h
      cases h
      by_cases hc : c = c'
      · subst hc
        have hmore := hwake rfl
        refine (Function.update_self c _ s.waiters).trans_ne ?_
        omega
      · exact (Function.update_of_ne hc _ s.waiters).trans_ne hw
  | quiesceSelf c' =>
      simp only [step] at h
      split at h
      · split_ifs at h <;> cases h <;> exact hw
      · cases h
  | wakeSelf =>
      simp only [step] at h
      split at h
      · split_ifs at h
        cases h
        exact hw
      · cases h
  | deleteSem c' | initClear c' | initReady c' =>
      simp only [step] at h
      split_ifs at h
      cases h
      exact hw

/-- A quiescing task waits if the dispatcher task is in a callback of the connection. -/
theorem quiesce_waits (h : Sound spiram s) (hw : s.worker = .running i c)
    (hup : (s.life c).up = true) (hstep : step spiram s (.quiesce c) = some s') :
    (s.cancelAll c).waitNeeded c = true ∧ s'.waiters c ≠ 0 := by
  have hlife : ¬(s.life c = .fresh ∨ s.life c = .clearing) := by
    rintro (hl | hl) <;> rw [hl] at hup <;> cases hup
  obtain ⟨he, hfresh⟩ := h.serving_executingOf (c := c) (i := i) (by rw [hw]; rfl)
  have hwait : (s.cancelAll c).waitNeeded c = true := by
    rw [h.counted.cancelAll_eq hfresh, h.waitNeeded_iff hlife]
    exact h.executingCount_ne_zero he hfresh
  refine ⟨hwait, ?_⟩
  simp only [step, if_neg hlife, hwait, if_true] at hstep
  cases hstep
  exact (Function.update_self c _ s.waiters).trans_ne (Nat.succ_ne_zero _)

/-- The semaphore of a connection that is waited for is not given during its callback. -/
theorem Sound.not_given_running (h : Sound spiram s) (hw : s.worker = .running i c)
    (hwaiters : s.waiters c ≠ 0) : (s.ctl c).quiescedSem ≠ some true := by
  intro hsem
  obtain ⟨he, -⟩ := h.serving_executingOf (c := c) (i := i) (by rw [hw]; rfl)
  obtain ⟨hu, -, -⟩ := Item.executingOf_iff.mp he
  have hpos := countP_pos (lt_of_inUse hu) he
  have hzero : s.pool.countP (Item.executingOf c) = 0 := by
    rcases (h.calm c).waited (by simp [Disp.unwaited, hwaiters]) with hl | hl
    · exact (h.calm c).signalled hl hsem
    · exact (h.calm c).done hl
  omega

end Dispatcher

namespace Agwpe

open Transition

variable {κ : Type} [DecidableEq κ]

/-! ### The task with the server mutex -/

/-- The server, and the connection for which the task that holds the server mutex waits in
`ax25_conn_dispatcher_quiesce`, if that is not the dispatcher task. -/
structure Guarded (κ : Type) where
  server : Server κ
  awaited : Option κ := none

/-- The steps. -/
inductive GuardedEvent (κ : Type)
  /-- Any step but the two others. -/
  | plain (e : Event κ)
  /-- The task that holds the server mutex enters `ax25_conn_dispatcher_quiesce`, and returns
  or waits. -/
  | quiesce (c : κ)
  /-- Its wait ends. -/
  | wake

namespace Guarded

/-- A task that waits does not release the mutex, and nobody else takes its place among those
that wait for the semaphore. -/
def permits (g : Guarded κ) : Event κ → Bool
  | .unlock => g.awaited.isNone
  | .disp (.wake c) => decide (g.awaited = some c → 1 < g.server.disp.waiters c)
  | _ => true

def step (spiram : Bool) (g : Guarded κ) : GuardedEvent κ → Option (Guarded κ)
  | .plain e =>
    if g.permits e then (g.server.step spiram e).map fun s => { g with server := s } else none
  | .quiesce c =>
    if g.server.mutex = some .other ∧ g.awaited = none then
      (g.server.step spiram (.disp (.quiesce c))).map fun s =>
        { server := s
          awaited := if (g.server.disp.cancelAll c).waitNeeded c then some c else none }
    else none
  | .wake =>
    match g.awaited with
    | some c => (g.server.step spiram (.disp (.wake c))).map fun s => { server := s }
    | none => none

/-- After `ax25_agwpe_server_init`. -/
def IsInit (spiram : Bool) (g : Guarded κ) : Prop := g.server.IsInit spiram ∧ g.awaited = none

end Guarded

/-! ### The property and the condition -/

namespace Server

/-- The dispatcher task is in `conn_on_error` of the connection, before it has the server mutex. -/
def wantsMutex (s : Server κ) (c : κ) : Bool :=
  match s.disp.worker, s.callback with
  | .running _ c', .wantMutex => c' == c
  | _, _ => false

/-- The dispatcher task is about to enter `conn_on_error` of the connection, whose callback context
is valid. -/
def entersError (s : Server κ) (c : κ) : Bool :=
  match s.disp.worker, s.callback with
  | .running i c', .start => c' == c && (s.disp.item i).action.isError && s.resolve c
  | _, _ => false

theorem wantsMutex_iff {s : Server κ} {c : κ} : s.wantsMutex c = true ↔
    ∃ i, s.disp.worker = .running i c ∧ s.callback = .wantMutex := by
  unfold wantsMutex
  constructor
  · intro h
    split at h
    · rename_i i c' hw hcb
      obtain rfl : c' = c := by simpa using h
      exact ⟨i, hw, hcb⟩
    · cases h
  · rintro ⟨i, hw, hcb⟩
    rw [hw, hcb]
    exact beq_self_eq_true c

end Server

namespace Guarded

/-- The task with the server mutex waits in `ax25_conn_dispatcher_quiesce` for the end of the
callback that the dispatcher task is in, and the dispatcher task needs the mutex to end it. -/
def CrossBlocked (g : Guarded κ) : Prop :=
  ∃ c, g.awaited = some c ∧ (g.server.disp.ctl c).quiescedSem ≠ some true ∧
    g.server.wantsMutex c = true ∧ g.server.mutex = some .other

/-- **The condition.** The dispatcher task does not deinitialise the connection that it serves;
the task with the server mutex does not quiesce a connection while the dispatcher task is in
`conn_on_error` of it, before the mutex; and the dispatcher task does not enter `conn_on_error` of
a connection that the task with the server mutex waits for. -/
def Clear (g : Guarded κ) : GuardedEvent κ → Prop
  | .plain e => e = .callback →
    g.server.deinitsOwn = false ∧ ∀ c, g.awaited = some c → g.server.entersError c = false
  | .quiesce c => g.server.wantsMutex c = false
  | .wake => True

end Guarded

/-! ### What a step of the server does -/

namespace Server

section Steps

variable {spiram : Bool} {s s' s₁ : Server κ} {e : Event κ} {c : κ} {i : Nat}

/-- The steps of the dispatcher that are part of a step of the server. -/
inductive Performs : Event κ → Dispatcher.Event κ → Prop
  | disp (e : Dispatcher.Event κ) : Performs (.disp e) e
  | drain (c : κ) (a : Action) : Performs .drain (.enqueue c a)
  | deinit (c : κ) : Performs .callback (.quiesceSelf c)
  | woken : Performs .callback .wakeSelf

theorem performs_of_lift {e' : Dispatcher.Event κ} (h : s₁.liftDisp spiram e' = some s')
    (hdisp : s₁.disp = s.disp) (hp : Performs e e') :
    s'.disp = s.disp ∨ ∃ e', Dispatcher.step spiram s.disp e' = some s'.disp ∧ Performs e e' :=
  .inr ⟨e', hdisp ▸ (liftDisp_eq h).1, hp⟩

theorem callbackStep_performs (h : s.callbackStep spiram i c = some s') :
    s'.disp = s.disp ∨
      ∃ e', Dispatcher.step spiram s.disp e' = some s'.disp ∧ Performs .callback e' := by
  cases hcb : s.callback with
  | start =>
      simp only [callbackStep, hcb] at h
      split at h
      · cases h
        exact .inl rfl
      · split_ifs at h <;> cases h <;> exact .inl rfl
      · cases h
        exact .inl rfl
  | wantMutex =>
      simp only [callbackStep, hcb] at h
      split_ifs at h
      cases h
      exact .inl rfl
  | locked =>
      simp only [callbackStep, hcb] at h
      split_ifs at h
      · exact performs_of_lift h rfl (.deinit c)
      · cases h
        exact .inl rfl
  | deinit | release =>
      simp only [callbackStep, hcb] at h
      cases h
      exact .inl rfl
  | done =>
      simp only [callbackStep, hcb] at h
      cases h

/-- The dispatcher is left alone or makes one of its steps. -/
theorem step_performs (h : s.step spiram e = some s') :
    s'.disp = s.disp ∨ ∃ e', Dispatcher.step spiram s.disp e' = some s'.disp ∧ Performs e e' := by
  cases e with
  | fire c t =>
      cases h
      exact .inl rfl
  | expire c t heap =>
      simp only [step] at h
      split at h <;> cases h
      exact .inl rfl
  | drain =>
      simp only [step] at h
      split at h
      · cases h
      · exact performs_of_lift h rfl (.drain _ _)
  | call c op heap refuses =>
      simp only [step] at h
      split at h <;> cases h
      exact .inl rfl
  | disp e' =>
      cases e' with
      | finish =>
          simp only [step] at h
          split_ifs at h
          exact performs_of_lift h rfl (.disp _)
      | enqueue | quiesceSelf | wakeSelf => simp [step, outside] at h
      | invoke => exact performs_of_lift h rfl (.disp _)
      | initClear c => exact performs_of_lift h rfl (.disp _)
      | receive | takeUp | quiesce | wake | deleteSem | initReady =>
          exact performs_of_lift h rfl (.disp _)
  | callback =>
      simp only [step] at h
      split at h
      · exact callbackStep_performs h
      · exact performs_of_lift h rfl .woken
      · cases h
  | lock =>
      simp only [step] at h
      split_ifs at h
      cases h
      exact .inl rfl
  | unlock =>
      simp only [step] at h
      split_ifs at h
      cases h
      exact .inl rfl
  | alloc c =>
      simp only [step] at h
      split_ifs at h
      cases h
      exact .inl rfl
  | free | mark | stop =>
      cases h
      exact .inl rfl
  | ready c localAddr =>
      simp only [step] at h
      split_ifs at h
      cases h
      exact .inl rfl

/-- The callback goes on by its own steps, and starts with `invoke`. -/
theorem callback_of_step (h : s.step spiram e = some s') (hcall : e ≠ .callback)
    (hinvoke : e ≠ .disp .invoke) : s'.callback = s.callback := by
  cases e with
  | callback => exact absurd rfl hcall
  | fire | free | mark | stop =>
      cases h
      rfl
  | expire c t heap =>
      simp only [step] at h
      split at h <;> cases h
      rfl
  | drain =>
      simp only [step] at h
      split at h
      · cases h
      · rw [(liftDisp_eq h).2]
  | call c op heap refuses =>
      simp only [step] at h
      split at h <;> cases h
      rfl
  | disp e' =>
      cases e' with
      | invoke => exact absurd rfl hinvoke
      | finish =>
          simp only [step] at h
          split_ifs at h
          rw [(liftDisp_eq h).2]
      | enqueue | quiesceSelf | wakeSelf => simp [step, outside] at h
      | initClear c =>
          rw [(liftDisp_eq (s := s.unmake c) h).2]
          rfl
      | receive | takeUp | quiesce | wake | deleteSem | initReady =>
          rw [(liftDisp_eq (s := s) h).2]
  | lock | unlock | alloc | ready =>
      simp only [step] at h
      split_ifs at h
      cases h
      rfl

/-- The dispatcher task does not take the mutex from another task. -/
theorem callbackStep_other (hinv : Inv spiram s) (hm : s.mutex = some .other)
    (h : s.callbackStep spiram i c = some s') : s'.mutex = some .other ∧ s'.callback ≠ .locked := by
  have hholds : s.callback.holds = true → False := by
    intro hholds
    rw [hinv.holding hholds] at hm
    cases hm
  cases hcb : s.callback with
  | start =>
      simp only [callbackStep, hcb] at h
      split at h
      · cases h
        refine ⟨hm, ?_⟩
        dsimp only
        split <;> exact fun hne => (by cases hne)
      · split_ifs at h <;> cases h <;> exact ⟨hm, fun hne => (by cases hne)⟩
      · cases h
        exact ⟨hm, fun hne => (by cases hne)⟩
  | wantMutex =>
      simp only [callbackStep, hcb, hm] at h
      cases h
  | locked | deinit | release =>
      rw [hcb] at hholds
      exact (hholds rfl).elim
  | done =>
      simp only [callbackStep, hcb] at h
      cases h

theorem mutex_other (hinv : Inv spiram s) (hm : s.mutex = some .other) (hne : e ≠ .unlock)
    (h : s.step spiram e = some s') : s'.mutex = some .other := by
  cases e with
  | unlock => exact absurd rfl hne
  | fire | free | mark | stop =>
      cases h
      exact hm
  | expire c t heap =>
      simp only [step] at h
      split at h <;> cases h
      exact hm
  | drain =>
      simp only [step] at h
      split at h
      · cases h
      · rw [(liftDisp_eq h).2]
        exact hm
  | call c op heap refuses =>
      simp only [step] at h
      split at h <;> cases h
      exact hm
  | disp e' =>
      cases e' with
      | invoke =>
          rw [(liftDisp_eq (s := { s with callback := .start }) h).2]
          exact hm
      | finish =>
          simp only [step] at h
          split_ifs at h
          rw [(liftDisp_eq h).2]
          exact hm
      | enqueue | quiesceSelf | wakeSelf => simp [step, outside] at h
      | initClear c =>
          rw [(liftDisp_eq (s := s.unmake c) h).2]
          exact hm
      | receive | takeUp | quiesce | wake | deleteSem | initReady =>
          rw [(liftDisp_eq (s := s) h).2]
          exact hm
  | callback =>
      simp only [step] at h
      split at h
      · exact (callbackStep_other hinv hm h).1
      · rw [(liftDisp_eq h).2]
        exact hm
      · cases h
  | lock =>
      simp only [step, hm] at h
      cases h
  | alloc | ready =>
      simp only [step] at h
      split_ifs at h
      cases h
      exact hm

/-- The dispatcher task comes before the mutex in `conn_on_error` by one step only. -/
theorem wantsMutex_of_step (hinv : Inv spiram s) (hawaits : s.disp.worker.awaits = none)
    (h : s.step spiram e = some s') (hw : s'.wantsMutex c = true) :
    s.wantsMutex c = true ∨ e = .callback ∧ s.entersError c = true := by
  obtain ⟨i, hrun, hwant⟩ := wantsMutex_iff.mp hw
  by_cases hcall : e = .callback
  · subst hcall
    simp only [step] at h
    split at h
    · rename_i j c' hworker
      have hrun : s'.disp.worker = s.disp.worker → c' = c := by
        intro hsame
        rw [hsame, hworker] at hrun
        cases hrun
        rfl
      cases hcb : s.callback with
      | start =>
          simp only [callbackStep, hcb] at h
          split at h
          · rename_i hact
            cases h
            obtain rfl := hrun rfl
            refine .inr ⟨rfl, ?_⟩
            have hres : s.resolve c' = true := by
              by_contra hres
              rw [if_neg hres] at hwant
              cases hwant
            simp only [entersError, hworker, hcb, hact, Action.isError, hres, beq_self_eq_true,
              Bool.and_self]
          · split_ifs at h <;> cases h <;> cases hwant
          · cases h
            cases hwant
      | wantMutex =>
          simp only [callbackStep, hcb] at h
          split_ifs at h
          cases h
          cases hwant
      | locked =>
          simp only [callbackStep, hcb] at h
          split_ifs at h
          · rw [(liftDisp_eq h).2] at hwant
            cases hwant
          · cases h
            cases hwant
      | deinit | release =>
          simp only [callbackStep, hcb] at h
          cases h
          cases hwant
      | done =>
          simp only [callbackStep, hcb] at h
          cases h
    · rename_i hworker
      rw [hworker] at hawaits
      cases hawaits
    · cases h
  · left
    by_cases hinvoke : e = .disp .invoke
    · subst hinvoke
      rw [(liftDisp_eq (s := { s with callback := .start }) h).2] at hwant
      cases hwant
    · rw [callback_of_step h hcall hinvoke] at hwant
      refine wantsMutex_iff.mpr ⟨i, ?_, hwant⟩
      rcases step_performs h with hsame | ⟨e', hdisp, hp⟩
      · rw [← hsame]
        exact hrun
      · refine (Dispatcher.step_move hinv.sound hdisp).running ?_ hawaits hrun
        rintro rfl
        cases hp
        exact hinvoke rfl

end Steps

end Server

/-! ### Runs -/

namespace Guarded

section Runs

variable {spiram : Bool} {g g₁ : Guarded κ} {e : GuardedEvent κ} {c : κ} {i : Nat}

/-- What a step does. -/
inductive Move (spiram : Bool) (g : Guarded κ) : GuardedEvent κ → Guarded κ → Prop
  | plain (e : Event κ) (s : Server κ) (hpermits : g.permits e = true)
      (hs : g.server.step spiram e = some s) : Move spiram g (.plain e) { g with server := s }
  | quiesce (c : κ) (s : Server κ) (hmutex : g.server.mutex = some .other)
      (hfree : g.awaited = none) (hs : g.server.step spiram (.disp (.quiesce c)) = some s) :
      Move spiram g (.quiesce c)
        ⟨s, if (g.server.disp.cancelAll c).waitNeeded c then some c else none⟩
  | wake (c : κ) (s : Server κ) (hawaited : g.awaited = some c)
      (hs : g.server.step spiram (.disp (.wake c)) = some s) : Move spiram g .wake { server := s }

theorem step_move (h : g.step spiram e = some g₁) : Move spiram g e g₁ := by
  cases e with
  | plain e =>
      simp only [step] at h
      split at h
      · obtain ⟨s, hs, rfl⟩ := Option.map_eq_some_iff.mp h
        exact .plain e s ‹_› hs
      · cases h
  | quiesce c =>
      simp only [step] at h
      split at h
      · rename_i hentry
        obtain ⟨s, hs, rfl⟩ := Option.map_eq_some_iff.mp h
        exact .quiesce c s hentry.1 hentry.2 hs
      · cases h
  | wake =>
      simp only [step] at h
      split at h
      · obtain ⟨s, hs, rfl⟩ := Option.map_eq_some_iff.mp h
        exact .wake _ s ‹_› hs
      · cases h

/-- It is a step of the server. -/
theorem Move.server (hm : Move spiram g e g₁) : ∃ e',
    g.server.step spiram e' = some g₁.server ∧ (e' = .callback → e = .plain .callback) := by
  cases hm with
  | plain e s _ hs => exact ⟨e, hs, fun he => he ▸ rfl⟩
  | quiesce c s _ _ hs => exact ⟨_, hs, fun he => by cases he⟩
  | wake c s _ hs => exact ⟨_, hs, fun he => by cases he⟩

/-- The invariant: a task that waits with the server mutex has it, and is counted among those that
wait for the connection. -/
structure Inv (spiram : Bool) (g : Guarded κ) : Prop where
  server : Server.Inv spiram g.server
  mutex : g.awaited ≠ none → g.server.mutex = some .other
  waiters : ∀ c, g.awaited = some c → g.server.disp.waiters c ≠ 0

theorem inv_init (h : g.IsInit spiram) : Inv spiram g :=
  ⟨Server.inv_init h.1, fun hne => absurd h.2 hne, fun c hc => by rw [h.2] at hc; cases hc⟩

theorem Inv.move (h : Inv spiram g) (hm : Move spiram g e g₁) : Inv spiram g₁ := by
  refine ⟨?_, ?_, ?_⟩
  · obtain ⟨e', hs, -⟩ := hm.server
    exact h.server.step hs
  · intro hne
    cases hm with
    | plain e s hpermits hs =>
        refine Server.mutex_other h.server (h.mutex hne) ?_ hs
        rintro rfl
        exact hne (Option.isNone_iff_eq_none.mp hpermits)
    | quiesce c s hmutex _ hs =>
        exact Server.mutex_other h.server hmutex (fun he => by cases he) hs
    | wake c s _ _ => exact absurd rfl hne
  · intro c hc
    cases hm with
    | plain e s hpermits hs =>
        rcases Server.step_performs hs with hsame | ⟨e', hdisp, hp⟩
        · rw [hsame]
          exact h.waiters c hc
        · refine Dispatcher.waiters_of_step hdisp (h.waiters c hc) ?_
          rintro rfl
          cases hp
          exact of_decide_eq_true hpermits hc
    | quiesce c' s _ _ hs =>
        dsimp only at hc
        split_ifs at hc with hwait
        cases hc
        have hdisp := (Server.liftDisp_eq (s := g.server) hs).1
        simp only [Dispatcher.step] at hdisp
        split_ifs at hdisp
        rw [← Option.some.inj hdisp]
        exact (Function.update_self c _ _).trans_ne (Nat.succ_ne_zero _)
    | wake c' s _ _ => cases hc

theorem inv_of_reach {ok : Guarded κ → GuardedEvent κ → Prop}
    (h : Reach (IsInit spiram) (step spiram) ok g) : Inv spiram g :=
  h.invariant (fun _ => inv_init) fun _ _ _ hinv _ hstep => hinv.move (step_move hstep)

/-- What the server does in a run. -/
theorem server_of_reach (h : Reach (IsInit spiram) (step spiram) Clear g) :
    Reach (Server.IsInit spiram) (Server.step spiram) Server.Clear g.server := by
  induction h with
  | start h₀ => exact .start h₀.1
  | next e _ hclear hstep ih =>
      obtain ⟨e', hs, hcall⟩ := (step_move hstep).server
      refine ih.next e' (fun he => ?_) hs
      obtain rfl := hcall he
      exact (hclear rfl).1

theorem server_of_later (h : Reach (· = g) (step spiram) Always g₁) :
    Reach (· = g.server) (Server.step spiram) Always g₁.server := by
  induction h with
  | start heq => exact .start (congrArg Guarded.server heq)
  | next e _ _ hstep ih =>
      obtain ⟨e', hs, -⟩ := (step_move hstep).server
      exact ih.next e' trivial hs

/-- Along the condition the dispatcher task does not need the mutex of a task that waits for it. -/
theorem not_crossBlocked (h : Reach (IsInit spiram) (step spiram) Clear g) : ¬g.CrossBlocked := by
  have hfree : ∀ c, g.awaited = some c → g.server.wantsMutex c = false := by
    induction h with
    | start h₀ =>
        intro c hc
        rw [h₀.2] at hc
        cases hc
    | next e hreach hclear hstep ih =>
        intro c hc
        have hm := step_move hstep
        obtain ⟨e', hs, hcall⟩ := hm.server
        have hinv := (inv_of_reach hreach).server
        by_contra hwant
        rw [Bool.not_eq_false] at hwant
        rcases Server.wantsMutex_of_step hinv (Server.awaits_of_reach (server_of_reach hreach)) hs
          hwant with hbefore | ⟨he, henters⟩
        -- it has come there before, and the wait begins
        · cases hm with
          | plain e s _ _ =>
              rw [ih c hc] at hbefore
              cases hbefore
          | quiesce c' s _ _ _ =>
              dsimp only at hc
              split_ifs at hc
              cases hc
              exact Bool.false_ne_true (hclear.symm.trans hbefore)
          | wake c' s _ _ => cases hc
        -- it comes there, and the wait has begun before
        · obtain rfl := hcall he
          cases hm with
          | plain e s _ _ =>
              rw [(hclear rfl).2 c hc] at henters
              cases henters
  rintro ⟨c, hc, -, hwant, -⟩
  rw [hfree c hc] at hwant
  cases hwant

/-- The task with the server mutex and the dispatcher task wait for each other. -/
structure Crossed (spiram : Bool) (i : Nat) (c : κ) (g : Guarded κ) : Prop where
  inv : Inv spiram g
  worker : g.server.disp.worker = .running i c
  callback : g.server.callback = .wantMutex
  awaited : g.awaited = some c

theorem Crossed.blocked (h : Crossed spiram i c g) : g.CrossBlocked :=
  ⟨c, h.awaited,
    h.inv.server.sound.not_given_running h.worker (h.inv.waiters c h.awaited),
    Server.wantsMutex_iff.mpr ⟨i, h.worker, h.callback⟩,
    h.inv.mutex (by rw [h.awaited]; exact Option.some_ne_none c)⟩

theorem Crossed.step (h : Crossed spiram i c g) (hstep : g.step spiram e = some g₁) :
    Crossed spiram i c g₁ := by
  have hm := step_move hstep
  have hnext := h.inv.move hm
  obtain ⟨-, -, -, -, hmutex⟩ := h.blocked
  cases hm with
  | plain e s _ hs =>
      -- the dispatcher task waits for the mutex
      have hcall : e ≠ .callback := by
        rintro rfl
        simp only [Server.step, h.worker, Server.callbackStep, h.callback, hmutex] at hs
        cases hs
      have hinvoke : e ≠ .disp .invoke := by
        rintro rfl
        have hdisp := (Server.liftDisp_eq (s := { g.server with callback := .start }) hs).1
        simp [Dispatcher.step, h.worker] at hdisp
      refine ⟨hnext, ?_, (Server.callback_of_step hs hcall hinvoke).trans h.callback, h.awaited⟩
      rcases Server.step_performs hs with hsame | ⟨e', hdisp, hp⟩
      · rw [hsame]
        exact h.worker
      · refine (Dispatcher.step_move h.inv.server.sound hdisp).stays h.worker ?_ ?_
        · rintro rfl
          cases hp
          simp [Server.step, h.callback] at hs
        · rintro c' rfl
          cases hp with
          | disp => simp [Server.step, outside] at hs
          | deinit => exact hcall rfl
  | quiesce c' s _ hfree _ =>
      rw [h.awaited] at hfree
      cases hfree
  | wake c' s hawaited hs =>
      obtain rfl : c = c' := Option.some.inj (h.awaited.symm.trans hawaited)
      have hdisp := (Server.liftDisp_eq (s := g.server) hs).1
      simp only [Dispatcher.step] at hdisp
      split_ifs at hdisp with hgiven
      exact absurd hgiven.2 (h.inv.server.sound.not_given_running h.worker hgiven.1)

/-- The wait begins while the dispatcher task is in `conn_on_error` before the mutex. -/
theorem Crossed.of_quiesce (h : Inv spiram g) (hwant : g.server.wantsMutex c = true)
    (hstep : g.step spiram (.quiesce c) = some g₁) : ∃ i, Crossed spiram i c g₁ := by
  have hm := step_move hstep
  have hnext := h.move hm
  obtain ⟨i, hw, hcb⟩ := Server.wantsMutex_iff.mp hwant
  cases hm with
  | quiesce c s _ _ hs =>
      obtain ⟨hdisp, hrest⟩ := Server.liftDisp_eq (s := g.server) hs
      have hup : (g.server.disp.life c).up = true := by
        by_contra hup
        have hlife : g.server.disp.life c = .fresh ∨ g.server.disp.life c = .clearing := by
          cases hl : g.server.disp.life c <;> simp [hl, Dispatcher.Life.up] at hup ⊢
        simp only [Dispatcher.step, if_pos hlife] at hdisp
        cases hdisp
      obtain ⟨hwait, -⟩ := Dispatcher.quiesce_waits h.server.sound hw hup hdisp
      refine ⟨i, hnext, ?_, ?_, if_pos hwait⟩
      · exact (Dispatcher.step_move h.server.sound hdisp).stays hw (fun he => by cases he)
          fun _ he => by cases he
      · rw [hrest]
        exact hcb

/-- The dispatcher task enters `conn_on_error` during the wait. -/
theorem Crossed.of_entersError (h : Inv spiram g) (hawaited : g.awaited = some c)
    (henters : g.server.entersError c = true)
    (hstep : g.step spiram (.plain .callback) = some g₁) : ∃ i, Crossed spiram i c g₁ := by
  have hm := step_move hstep
  have hnext := h.move hm
  unfold Server.entersError at henters
  split at henters
  · rename_i i c' hw hcb
    simp only [Bool.and_eq_true, beq_iff_eq] at henters
    obtain ⟨⟨rfl, herr⟩, hres⟩ := henters
    cases hm with
    | plain e s _ hs =>
        cases hact : (g.server.disp.item i).action <;> rw [hact] at herr <;>
          simp only [Action.isError, Bool.false_eq_true] at herr
        simp only [Server.step, hw, Server.callbackStep, hcb, hact, hres, if_true] at hs
        cases hs
        exact ⟨i, hnext, hw, rfl, hawaited⟩
  · cases henters

/-- **No wait is for an action that needs what the waiting task holds, as long as no step is one of
the three; each of the three begins such a wait, which never ends.** -/
theorem self_deadlock_exact (spiram : Bool) :
    (∀ g : Guarded κ, Reach (IsInit spiram) (step spiram) Clear g →
      ¬g.server.SelfBlocked ∧ ¬g.CrossBlocked) ∧
    ∀ (g : Guarded κ) (e : GuardedEvent κ) (g₁ g₂ : Guarded κ),
      Reach (IsInit spiram) (step spiram) Always g → ¬g.Clear e → g.step spiram e = some g₁ →
      Reach (· = g₁) (step spiram) Always g₂ →
      g₂.server.SelfBlocked ∧ g₂.server.mutex = some .dispatcher ∨ g₂.CrossBlocked := by
  constructor
  · exact fun g h => ⟨Server.not_selfBlocked (server_of_reach h), not_crossBlocked h⟩
  · intro g e g₁ g₂ h hbreach hstep hlater
    have hinv := inv_of_reach h
    cases e with
    | plain e =>
        simp only [Clear, Classical.not_imp, not_and_or, not_forall, Bool.not_eq_false] at hbreach
        obtain ⟨rfl, hown | ⟨c, hawaited, henters⟩⟩ := hbreach
        · cases step_move hstep with
          | plain e s _ hs =>
              obtain ⟨i, c, hstuck⟩ := Server.Stuck.of_deinitsOwn hinv.server hown hs
              have hlast : Server.Stuck spiram i c g₂.server :=
                (server_of_later hlater).invariant (fun s hs => hs ▸ hstuck)
                  fun _ _ _ hs _ hstep => hs.step hstep
              exact .inl hlast.blocked
        · obtain ⟨i, hcrossed⟩ := Crossed.of_entersError hinv hawaited henters hstep
          have hlast : Crossed spiram i c g₂ :=
            hlater.invariant (fun g hg => hg ▸ hcrossed) fun _ _ _ hg _ hstep => hg.step hstep
          exact .inr hlast.blocked
    | quiesce c =>
        simp only [Clear, Bool.not_eq_false] at hbreach
        obtain ⟨i, hcrossed⟩ := Crossed.of_quiesce hinv hbreach hstep
        have hlast : Crossed spiram i c g₂ :=
          hlater.invariant (fun g hg => hg ▸ hcrossed) fun _ _ _ hg _ hstep => hg.step hstep
        exact .inr hlast.blocked
    | wake => exact absurd trivial hbreach

/-- A run of the server is one in which no task waits with the server mutex. -/
theorem reach_of_server {s : Server κ}
    (h : Reach (Server.IsInit spiram) (Server.step spiram) Server.Clear s) :
    Reach (IsInit spiram) (step spiram) Clear ⟨s, none⟩ := by
  induction h with
  | start h₀ => exact .start ⟨h₀, rfl⟩
  | next e _ hclear hstep ih =>
      refine ih.next (.plain e) (fun he => ⟨hclear he, fun c hc => by cases hc⟩) ?_
      rename_i s₀ s _
      have hpermits : permits (⟨s₀, none⟩ : Guarded κ) e = true := by
        cases e with
        | disp e => cases e <;> rfl
        | _ => rfl
      simp only [step, hpermits, if_true, hstep, Option.map_some]

end Runs

/-! ### A connection request that is never answered -/

open Server (dial retry giveUp retryout_spec sample sample_isInit)

/-- The server is stopped while the dispatcher task is in `conn_on_error`, before the server
mutex; `ax25_agwpe_server_deinit` takes the mutex and deinitialises the connection. -/
def stopped : Option (Server Nat) :=
  replay (Server.step false) Server.Clear sample
    (dial ++ (List.replicate 10 retry).flatten ++ giveUp.dropLast ++ [.stop, .lock, .mark 0])

theorem stopped_spec : ∃ s s₁, Reach (IsInit false) (step false) Clear ⟨s, none⟩ ∧
    s.wantsMutex 0 = true ∧ s.mutex = some .other ∧
    step false ⟨s, none⟩ (.quiesce (0 : Nat)) = some s₁ := by
  have hfacts : stopped.map (fun s => (s.wantsMutex 0, s.mutex,
      (step false ⟨s, none⟩ (.quiesce 0)).isSome)) = some (true, some .other, true) := by
    decide +kernel
  obtain ⟨s, hs, hfacts⟩ := Option.map_eq_some_iff.mp hfacts
  simp only [Prod.mk.injEq] at hfacts
  obtain ⟨hwant, hmutex, hstep⟩ := hfacts
  obtain ⟨s₁, hstep⟩ := Option.isSome_iff_exists.mp hstep
  exact ⟨s, s₁, reach_of_server (Reach.replay (.start sample_isInit) hs), hwant, hmutex, hstep⟩

/-- The error of the request that is not answered blocks the dispatcher task by itself; and if the
server is stopped meanwhile, the task that stops it and the dispatcher task block each other. -/
theorem retryout_deadlock :
    (∃ g : Guarded Nat, Reach (IsInit false) (step false) Always g ∧
      ∀ g₂, Reach (· = g) (step false) Always g₂ →
        g₂.server.SelfBlocked ∧ g₂.server.mutex = some .dispatcher) ∧
    ∃ g : Guarded Nat, Reach (IsInit false) (step false) Always g ∧
      ∀ g₂, Reach (· = g) (step false) Always g₂ → g₂.CrossBlocked := by
  constructor
  · obtain ⟨s, s₁, hreach, hw, hcb, hinit, hstep⟩ := retryout_spec
    have hreach' : Reach (IsInit false) (step false) Always ⟨s, none⟩ :=
      (reach_of_server hreach).mono fun _ _ _ => trivial
    have hstuck := Server.Stuck.start (Server.inv_of_reach hreach) hw hcb hinit hstep
    refine ⟨⟨s₁, none⟩, hreach'.next (.plain .callback) trivial ?_, fun g₂ hlater => ?_⟩
    · simp only [step, permits, if_true, hstep, Option.map_some]
    · have hlast : Server.Stuck false 0 0 g₂.server :=
        (server_of_later hlater).invariant (fun s hs => hs ▸ hstuck)
          fun _ _ _ hs _ hstep => hs.step hstep
      exact hlast.blocked
  · obtain ⟨s, g₁, hreach, hwant, -, hstep⟩ := stopped_spec
    have hreach' : Reach (IsInit false) (step false) Always ⟨s, none⟩ :=
      hreach.mono fun _ _ _ => trivial
    obtain ⟨i, hcrossed⟩ := Crossed.of_quiesce (inv_of_reach hreach) hwant hstep
    refine ⟨g₁, hreach'.next (.quiesce 0) trivial hstep, fun g₂ hlater => ?_⟩
    have hlast : Crossed false i 0 g₂ :=
      hlater.invariant (fun g hg => hg ▸ hcrossed) fun _ _ _ hg _ hstep => hg.step hstep
    exact hlast.blocked

theorem self_deadlock_exact_retryout :
    (∃ g g₁ : Guarded Nat, Reach (IsInit false) (step false) Clear g ∧ ¬g.server.SelfBlocked ∧
      ¬g.Clear (.plain .callback) ∧ g.step false (.plain .callback) = some g₁ ∧
      (g₁.server.SelfBlocked ∧ g₁.server.mutex = some .dispatcher ∨ g₁.CrossBlocked)) ∧
    ∃ g g₁ : Guarded Nat, Reach (IsInit false) (step false) Clear g ∧ ¬g.CrossBlocked ∧
      ¬g.Clear (.quiesce 0) ∧ g.step false (.quiesce 0) = some g₁ ∧
      (g₁.server.SelfBlocked ∧ g₁.server.mutex = some .dispatcher ∨ g₁.CrossBlocked) := by
  obtain ⟨hclear, hblock⟩ := @self_deadlock_exact Nat _ false
  constructor
  · obtain ⟨s, s₁, hserver, hw, hcb, hinit, hs⟩ := retryout_spec
    have hreach := reach_of_server hserver
    have hnot : ¬Clear ⟨s, none⟩ (.plain .callback) := by
      simp [Clear, Server.deinitsOwn, hw, hcb, hinit]
    have hstep : step false ⟨s, none⟩ (.plain .callback) = some ⟨s₁, none⟩ := by
      simp only [step, permits, if_true, hs, Option.map_some]
    exact ⟨_, _, hreach, (hclear _ hreach).1, hnot, hstep,
      hblock _ _ _ _ (hreach.mono fun _ _ _ => trivial) hnot hstep (.start rfl)⟩
  · obtain ⟨s, g₁, hreach, hwant, -, hstep⟩ := stopped_spec
    have hnot : ¬Clear ⟨s, none⟩ (.quiesce 0) := by simp [Clear, hwant]
    exact ⟨_, _, hreach, (hclear _ hreach).2, hnot, hstep,
      hblock _ _ _ _ (hreach.mono fun _ _ _ => trivial) hnot hstep (.start rfl)⟩

end Guarded

end Agwpe

end EspAx25
