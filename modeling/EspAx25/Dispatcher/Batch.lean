import EspAx25.Dispatcher.Quiesce
import EspAx25.Conn.Machine
import Mathlib.Data.List.Nodup

/-!
# EspAx25.Dispatcher.Batch

`drain_deferred` on the timer task.

A timer callback records a batch of actions. Each action is handed to the dispatcher, and
one that finds no free slot is invoked by the timer task itself. The dispatcher task and
the other connections take any steps in between.

An action that the timer task invokes itself overtakes the actions of the batch that still
wait in the queue. This is the only way in which the order is lost.

Main results:

* `timer_batch_in_order`: every action of the batch is invoked once, and the order is the
  recorded one exactly in the runs in which no action is invoked by the timer task while
  an earlier one waits.
-/

namespace EspAx25.Dispatcher

open Transition

variable {κ : Type} [DecidableEq κ]

/-! ### The drain -/

/-- What the loop has done with an action. -/
inductive Fate
  /-- `ax25_conn_dispatcher_enqueue` has accepted it, as the action with this number. -/
  | queued (serial : Nat)
  /-- Invoked by the timer task. -/
  | direct
  /-- The connection is shutting down. -/
  | skipped
  deriving DecidableEq

/-- The dispatcher, and the timer task in the loop of `drain_deferred` for connection
`ctx`. -/
structure Drain (κ : Type) where
  disp : Disp κ
  ctx : κ
  batch : List Action
  /-- For the actions that the loop is done with. -/
  fates : List Fate
  /-- There was no slot for the next action, and it is not invoked yet. -/
  full : Bool
  /-- The actions of the batch that have been invoked, with their places in it. -/
  heard : List (Action × Nat)

/-- The place in the batch of an action that was enqueued. -/
def Drain.place (s : Drain κ) (serial : Nat) : Option Nat :=
  s.fates.findIdx? fun f => f == .queued serial

/-- The steps: one of the loop, or any step of the dispatcher. -/
inductive DrainEvent (κ : Type)
  | enqueue
  | invoke
  | other (e : Event κ)
  deriving DecidableEq

/-- What the dispatcher task invokes in a step is heard if it is of the batch. -/
def Drain.advance (s : Drain κ) (d : Disp κ) : Drain κ :=
  { s with
    disp := d
    heard := s.heard ++ (d.invoked.drop s.disp.invoked.length).filterMap fun v =>
      (s.place v.serial).map fun k => (v.action, k) }

def drainStep (spiram : Bool) (s : Drain κ) : DrainEvent κ → Option (Drain κ)
  | .enqueue =>
    match s.batch[s.fates.length]?, s.full with
    | some action, false =>
      let (err, d) := s.disp.enqueue spiram s.ctx action
      match err with
      | .ok => some { s with disp := d, fates := s.fates ++ [.queued s.disp.accepted.length] }
      | .noMem => some { s with disp := d, full := true }
      | _ => some { s with disp := d, fates := s.fates ++ [.skipped] }
    | _, _ => none
  | .invoke =>
    match s.batch[s.fates.length]?, s.full with
    | some action, true =>
      some { s with
        fates := s.fates ++ [.direct]
        full := false
        heard := s.heard ++ [(action, s.fates.length)] }
    | _, _ => none
  | .other e => (step spiram s.disp e).map s.advance

/-- The loop begins, on any dispatcher, for a connection that is not shutting down. -/
def Begins (spiram : Bool) (s : Drain κ) : Prop :=
  Reach (IsInit spiram) (step spiram) Always s.disp ∧ s.disp.life s.ctx = .ready ∧
    (s.disp.ctl s.ctx).shutdown = false ∧ s.fates = [] ∧ s.full = false ∧ s.heard = []

/-- Nobody shuts the connection down. -/
def StaysUp (s : Drain κ) : DrainEvent κ → Prop
  | .other (.quiesce c) => c ≠ s.ctx
  | .other (.quiesceSelf c) => c ≠ s.ctx
  | _ => True

instance (s : Drain κ) (e : DrainEvent κ) : Decidable (StaysUp s e) := by
  cases e with
  | other e => cases e <;> unfold StaysUp <;> infer_instance
  | _ => exact inferInstanceAs (Decidable True)

/-- The dispatcher task was given the action, and has not invoked it yet. -/
def Drain.waits (s : Drain κ) : Fate → Bool
  | .queued n => s.disp.invoked.all fun v => v.serial != n
  | _ => false

/-- The timer task invokes an action only when none of the batch waits. -/
def NoneWaits (s : Drain κ) : DrainEvent κ → Prop
  | .invoke => ∀ f ∈ s.fates, s.waits f = false
  | _ => True

instance (s : Drain κ) (e : DrainEvent κ) : Decidable (NoneWaits s e) := by
  cases e <;> unfold NoneWaits <;> infer_instance

/-- The loop is at its end, and nothing waits to be invoked. -/
def Drain.Over (s : Drain κ) : Prop := s.fates.length = s.batch.length ∧ s.disp.todo = []

/-- What has been heard is the batch from its first action on, in the recorded order. -/
def Drain.InOrder (s : Drain κ) : Prop := s.heard <+: s.batch.zipIdx

/-! ### An action that waits -/

/-- The accepted action with number `n` of connection `c` waits for the dispatcher task,
which will not reject it. -/
def Pends (d : Disp κ) (c : κ) (n : Nat) : Prop :=
  ∃ i ∈ d.todo, (d.item i).serial = n ∧ (d.item i).cancelled = false ∧
    (d.item i).ctx = some c ∧ (d.item i).generation = (d.ctl c).generation

/-- The connection is in use, and is not shutting down. -/
structure Up (d : Disp κ) (c : κ) : Prop where
  ready : d.life c = .ready
  up : (d.ctl c).shutdown = false

/-- The call of `ax25_conn_dispatcher_quiesce`, if the step is one. -/
def Event.quiesces : Event κ → Option κ
  | .quiesce c => some c
  | .quiesceSelf c => some c
  | _ => none

section Waiting

variable {spiram : Bool} {d d' : Disp κ} {e : Event κ} {c : κ} {n : Nat}

theorem maybeSignalQuiesced_generation (x : Ctl) :
    (maybeSignalQuiesced x).generation = x.generation := by
  unfold maybeSignalQuiesced
  split <;> rfl

omit [DecidableEq κ] in
theorem Quiesces.quiesces {c' : κ} {w : Worker κ} (h : Quiesces d c' e w) : e.quiesces = some c' := by
  cases h <;> rfl

/-- A step other than its own quiescence leaves a connection up, in its generation. -/
theorem Up.move (h : Sound spiram d) (hup : Up d c) (hm : Move d e d') (hq : e.quiesces ≠ some c) :
    Up d' c ∧ (d'.ctl c).generation = (d.ctl c).generation := by
  obtain ⟨hready, hshut⟩ := hup
  -- the control block of another connection, or one with the two marks as they were
  have hctl : ∀ (c' : κ) (x : Ctl), (c' = c → x.shutdown = (d.ctl c).shutdown ∧
      x.generation = (d.ctl c).generation) →
      (Function.update d.ctl c' x c).shutdown = false ∧
        (Function.update d.ctl c' x c).generation = (d.ctl c).generation := by
    intro c' x hx
    by_cases hc : c' = c
    · subst hc
      rw [Function.update_self]
      exact ⟨(hx rfl).1.trans hshut, (hx rfl).2⟩
    · rw [Function.update_of_ne (Ne.symm hc)]
      exact ⟨hshut, rfl⟩
  have hlife : ∀ (c' : κ) (l : Life), c' ≠ c → Function.update d.life c' l c = .ready := by
    intro c' l hc
    rw [Function.update_of_ne (Ne.symm hc), hready]
  have hsplit : ∀ {x : Disp κ}, x.life c = .ready → (x.ctl c).shutdown = false ∧
      (x.ctl c).generation = (d.ctl c).generation →
      Up x c ∧ (x.ctl c).generation = (d.ctl c).generation :=
    fun hl hc => ⟨⟨hl, hc.1⟩, hc.2⟩
  cases hm with
  | refuse c' a => exact hsplit hready ⟨hshut, rfl⟩
  | fill c' a i _ _ _ _ => exact hsplit hready (hctl c' _ fun hc => hc ▸ ⟨rfl, rfl⟩)
  | receive i rest _ _ => exact hsplit hready ⟨hshut, rfl⟩
  | dropCancelled i _ _ => exact hsplit hready ⟨hshut, rfl⟩
  | dropOutdated i c' _ _ => exact hsplit hready (hctl c' _ fun hc => by
      subst hc
      simp [maybeSignalQuiesced_generation])
  | claim i c' _ _ _ => exact hsplit hready (hctl c' _ fun hc => hc ▸ ⟨rfl, rfl⟩)
  | invoke i c' _ => exact hsplit hready ⟨hshut, rfl⟩
  | finish i c' _ => exact hsplit hready (hctl c' _ fun hc => by
      subst hc
      simp [maybeSignalQuiesced_generation])
  | quiesced e c' w hqs _ _ =>
      have hc : c' ≠ c := fun hc => hq (hc ▸ hqs.quiesces)
      exact hsplit (hlife c' _ hc) (hctl c' _ fun hc' => absurd hc' hc)
  | wait e c' w ws hqs _ _ _ =>
      have hc : c' ≠ c := fun hc => hq (hc ▸ hqs.quiesces)
      refine hsplit (hlife c' _ hc) ?_
      simp only [Disp.setLife, Disp.takeSem, Disp.quiet, Disp.setCtl,
        Function.update_of_ne (Ne.symm hc)]
      exact ⟨hshut, trivial⟩
  | wake e c' w ws _ _ hun _ =>
      -- a connection that is waited for is not in use
      have hc : c' ≠ c := by
        intro hc
        rcases (h.calm c').waited hun with hl | hl <;>
        · rw [hc, hready] at hl
          cases hl
      exact hsplit (hlife c' _ hc) (hctl c' _ fun hc' => absurd hc' hc)
  | deleteSem c' hl =>
      exact hsplit hready (hctl c' _ fun hc => hc ▸ ⟨rfl, rfl⟩)
  | initClear c' hl =>
      have hc : c' ≠ c := by
        intro hc
        rw [hc, hready] at hl
        rcases hl with hl | ⟨hl, -⟩ <;> cases hl
      exact hsplit (hlife c' _ hc) (hctl c' _ fun hc' => absurd hc' hc)
  | initReady c' hl =>
      have hc : c' ≠ c := by
        intro hc
        rw [hc, hready] at hl
        cases hl
      exact hsplit (hlife c' _ hc) (hctl c' _ fun hc' => absurd hc' hc)

omit [DecidableEq κ] in
/-- A step that leaves the item alone. -/
theorem Pends.of_item (h : Pends d c n) (hgen : (d'.ctl c).generation = (d.ctl c).generation)
    (hitem : ∀ i ∈ d.todo, (d.item i).cancelled = false → (d.item i).ctx = some c →
      (d.item i).generation = (d.ctl c).generation →
      i ∈ d'.todo ∧ (d'.item i).serial = (d.item i).serial ∧
        (d'.item i).cancelled = (d.item i).cancelled ∧ (d'.item i).ctx = (d.item i).ctx ∧
        (d'.item i).generation = (d.item i).generation) : Pends d' c n := by
  obtain ⟨i, hi, hserial, hcan, hctx, hg⟩ := h
  obtain ⟨hi', hserial', hcan', hctx', hg'⟩ := hitem i hi hcan hctx hg
  exact ⟨i, hi', hserial'.trans hserial, hcan'.trans hcan, hctx'.trans hctx,
    hg'.trans (hg.trans hgen.symm)⟩

omit [DecidableEq κ] in
/-- A step that leaves all items alone. -/
theorem Pends.of_same (h : Pends d c n) (hgen : (d'.ctl c).generation = (d.ctl c).generation)
    (hpool : d'.pool = d.pool) (htodo : d'.todo = d.todo) : Pends d' c n := by
  refine h.of_item hgen fun i hi _ _ _ => ⟨htodo ▸ hi, ?_⟩
  have hitem : d'.item i = d.item i := by rw [Disp.item, hpool, Disp.item]
  rw [hitem]
  exact ⟨rfl, rfl, rfl, rfl⟩

/-- Another connection is quiesced. -/
theorem Pends.quiet {c' : κ} (h : Pends d c n)
    (hgen : (d'.ctl c).generation = (d.ctl c).generation) (hc : c' ≠ c)
    (hpool : d'.pool = d.pool.map (Item.cancel c')) (htodo : d'.todo = d.todo) : Pends d' c n := by
  refine h.of_item hgen fun i hi _ hctx _ => ⟨htodo ▸ hi, ?_⟩
  have hsame : (d.item i).cancel c' = d.item i := by
    rw [Item.cancel, if_neg]
    rw [Item.pendingOf_iff, hctx, Option.some.injEq]
    exact fun hp => hc hp.2.2.2.symm
  rw [item_of_cancel hpool, hsame]
  exact ⟨rfl, rfl, rfl, rfl⟩

/-- The dispatcher task does not reject the item of a connection that is up. -/
theorem takeUp_claims {i : Nat} (hu : (d.item i).inUse = true) (hcan : (d.item i).cancelled = false)
    (hctx : (d.item i).ctx = some c) (hgen : (d.item i).generation = (d.ctl c).generation)
    (hshut : (d.ctl c).shutdown = false) : (d.takeUp i).worker = .claimed i c := by
  simp [Disp.takeUp, hu, hctx, hcan, hgen, hshut]

omit [DecidableEq κ] in
/-- An index behind the one in hand. -/
theorem mem_queue_of_todo {i j : Nat} (hw : d.worker.index = [i]) (hj : j ∈ d.todo) (hne : j ≠ i) :
    j ∈ d.queue := by
  have hheld := mem_held_of_todo hj
  rw [Disp.held, hw] at hheld
  exact (List.mem_cons.mp hheld).resolve_left hne

omit [DecidableEq κ] in
/-- The item in hand is given back, and it is another one. -/
theorem Pends.behind {i : Nat} {x : Item κ} (h : Tidy spiram d) (hp : Pends d c n)
    (hgen : (d'.ctl c).generation = (d.ctl c).generation) (hw : d.worker.index = [i])
    (hpool : d'.pool = d.pool.set i x) (htodo : d'.todo = d.queue)
    (hne : ∀ j ∈ d.todo, (d.item j).cancelled = false → (d.item j).ctx = some c →
      (d.item j).generation = (d.ctl c).generation → j ≠ i) : Pends d' c n := by
  refine hp.of_item hgen fun j hj hcan hctx hg => ?_
  have hji := hne j hj hcan hctx hg
  have hlt : i < d.pool.length := h.lt (by rw [Disp.held, hw]; exact List.mem_cons_self)
  rw [item_of_set hpool hlt, if_neg hji, htodo]
  exact ⟨mem_queue_of_todo hw hj hji, rfl, rfl, rfl, rfl⟩

/-- **An action that waits goes on waiting until it is invoked.** -/
theorem Pends.move (h : Sound spiram d) (hup : Up d c) (hp : Pends d c n)
    (hs : step spiram d e = some d') (hq : e.quiesces ≠ some c) :
    Pends d' c n ∨ e = .invoke ∧ ∃ i c', d.worker = .claimed i c' ∧ (d.item i).serial = n := by
  have hm := step_move h hs
  have hgen := (Up.move h hup hm hq).2
  cases hm with
  | refuse c' a => exact .inl hp
  | fill c' a i _ _ hlt hfree =>
      refine .inl (hp.of_item hgen fun j hj _ _ _ => ?_)
      have hne : j ≠ i := by
        intro hji
        rw [← hji, (h.tidy.inUse j).mp (mem_held_of_todo hj)] at hfree
        cases hfree
      rw [item_of_set (s := d) (i := i) rfl hlt, if_neg hne]
      refine ⟨?_, rfl, rfl, rfl, rfl⟩
      rw [Disp.todo, ← List.append_assoc]
      exact List.mem_append_left _ hj
  | receive i rest hw hq' =>
      refine .inl (hp.of_same hgen rfl ?_)
      rw [Disp.todo, Disp.todo, hw, hq']
      rfl
  | dropCancelled i hw hc =>
      refine .inl (hp.behind h.tidy hgen (i := i) (by rw [hw]; rfl) rfl rfl ?_)
      intro j hj hcan _ _ hji
      rw [hji, hc] at hcan
      cases hcan
  | dropOutdated i c' hw _ =>
      refine .inl (hp.behind h.tidy hgen (i := i) (by rw [hw]; rfl) rfl rfl ?_)
      intro j hj hcan hctx hg hji
      -- it would have been taken up
      have hu := (h.tidy.inUse j).mp (mem_held_of_todo hj)
      have hclaim := takeUp_claims hu hcan hctx hg hup.up
      simp only [step, hw, Option.some.injEq] at hs
      rw [hji, hs] at hclaim
      cases hclaim
  | claim i c' hw hpend _ =>
      obtain ⟨hu, -, -, -⟩ := Item.pendingOf_iff.mp hpend
      refine .inl (hp.of_item hgen fun j hj _ _ _ => ⟨?_, ?_⟩)
      · rw [Disp.todo, hw] at hj
        exact hj
      · rw [item_of_set (s := d) (i := i) rfl (lt_of_inUse hu)]
        split
        · rename_i hji
          rw [hji]
          exact ⟨rfl, rfl, rfl, rfl⟩
        · exact ⟨rfl, rfl, rfl, rfl⟩
  | invoke i c' hw =>
      obtain ⟨j, hj, hserial, hrest⟩ := hp
      by_cases hji : j = i
      · exact .inr ⟨rfl, i, c', hw, hji ▸ hserial⟩
      · have hjq : j ∈ d.queue := mem_queue_of_todo (by rw [hw]; rfl) hj hji
        exact .inl ⟨j, hjq, hserial, hrest⟩
  | finish i c' hw =>
      have hidx : d.worker.index = [i] := by rw [hw]; rfl
      refine .inl (hp.behind h.tidy hgen hidx rfl rfl ?_)
      intro j hj _ _ _ hji
      rw [Disp.todo, hw] at hj
      exact h.tidy.not_mem_queue hidx (hji ▸ hj)
  | quiesced e c' w hqs _ _ =>
      have hc : c' ≠ c := fun hc => hq (hc ▸ hqs.quiesces)
      exact .inl (hp.quiet hgen hc rfl rfl)
  | wait e c' w ws hqs _ _ _ =>
      have hc : c' ≠ c := fun hc => hq (hc ▸ hqs.quiesces)
      refine .inl (hp.quiet hgen hc rfl ?_)
      rw [Disp.todo, Disp.todo, hqs.sameHands.todo]
      rfl
  | wake e c' w ws hwake _ _ _ =>
      refine .inl (hp.of_same hgen rfl ?_)
      rw [Disp.todo, Disp.todo, hwake.sameHands.todo]
      rfl
  | deleteSem c' _ => exact .inl (hp.of_same hgen rfl rfl)
  | initClear c' _ => exact .inl (hp.of_same hgen rfl rfl)
  | initReady c' _ => exact .inl (hp.of_same hgen rfl rfl)

/-- Only the dispatcher task adds to what has been invoked. -/
theorem invoked_of_move (hm : Move d e d') : d'.invoked = d.invoked ∨
    ∃ i c', d.worker = .claimed i c' ∧ e = .invoke ∧ d' = d.invokeAction i c' := by
  cases hm with
  | invoke i c' hw => exact .inr ⟨i, c', hw, rfl, rfl⟩
  | _ => exact .inl rfl

omit [DecidableEq κ] in
theorem getElem?_of_prefix {l l' : List (κ × Action)} {x : κ × Action} (h : l <+: l')
    (hn : l[n]? = some x) : l'[n]? = some x := by
  obtain ⟨rest, rfl⟩ := h
  exact List.getElem?_append_left (List.getElem?_eq_some_iff.mp hn).1 ▸ hn

theorem accepted_of_move (hm : Move d e d') : d.accepted <+: d'.accepted := by
  cases hm with
  | fill c' a i _ _ _ _ => exact List.prefix_append _ _
  | _ => exact List.prefix_refl _

/-- What `ax25_conn_dispatcher_enqueue` does for a connection that is up. -/
theorem enqueue_cases (h : Sound spiram d) (hup : Up d c) (a : Action) :
    d.enqueue spiram c a = (.noMem, d) ∨
    (d.enqueue spiram c a).1 = .ok ∧ Pends (d.enqueue spiram c a).2 c d.accepted.length ∧
      (d.enqueue spiram c a).2.accepted = d.accepted ++ [(c, a)] := by
  simp only [Disp.enqueue, hup.up, Bool.false_eq_true, if_false]
  cases hfind : d.pool.findIdx? fun it => !it.inUse with
  | none => exact .inl rfl
  | some i =>
      obtain ⟨hlt, hp, -⟩ := List.findIdx?_eq_some_iff_getElem.mp hfind
      have hitem : d.pool[i] = d.item i :=
        Option.some.inj ((List.getElem?_eq_getElem hlt).symm.trans (getElem?_pool hlt))
      rw [hitem, Bool.not_eq_true'] at hp
      simp only [h.tidy.queue_lt hlt hp, if_true]
      refine .inr ⟨trivial, ⟨i, ?_, ?_⟩, trivial⟩
      · exact List.mem_append_right _ (List.mem_append_right _ List.mem_cons_self)
      · rw [item_of_set (s := d) (i := i) rfl hlt, if_pos rfl]
        simp [Disp.newItem, Disp.setCtl]

end Waiting

/-! ### The invariant of the drain -/

/-- The places of the actions that have been invoked. -/
def Drain.places (s : Drain κ) : List Nat := s.heard.map Prod.snd

/-- Every action that the loop is done with waits or has been invoked, and not both. -/
structure Kept (spiram : Bool) (s : Drain κ) : Prop where
  sound : Sound spiram s.disp
  up : Up s.disp s.ctx
  room : s.fates.length ≤ s.batch.length
  queued : ∀ k n : Nat, s.fates[k]? = some (Fate.queued n) →
    ∃ a, s.batch[k]? = some a ∧ s.disp.accepted[n]? = some (s.ctx, a) ∧
      (Pends s.disp s.ctx n ∧ k ∉ s.places ∨ (∃ v ∈ s.disp.invoked, v.serial = n) ∧ k ∈ s.places)
  direct : ∀ k : Nat, s.fates[k]? = some Fate.direct → k ∈ s.places
  unskipped : Fate.skipped ∉ s.fates
  heard : ∀ p ∈ s.heard, s.batch[p.2]? = some p.1 ∧ p.2 < s.fates.length
  nodup : s.places.Nodup
  serials : ∀ j k m n : Nat, s.fates[j]? = some (Fate.queued m) →
    s.fates[k]? = some (Fate.queued n) → j < k → m < n

section Kept

variable {spiram : Bool} {s s' : Drain κ}

theorem kept_begins (h : Begins spiram s) : Kept spiram s := by
  obtain ⟨hreach, hready, hup, hfates, -, hheard⟩ := h
  have hplaces : s.places = [] := by rw [Drain.places, hheard]; rfl
  constructor
  · exact sound_of_reach hreach
  · exact ⟨hready, hup⟩
  · rw [hfates]
    exact Nat.zero_le _
  · intro k n hk
    rw [hfates] at hk
    cases hk
  · intro k hk
    rw [hfates] at hk
    cases hk
  · rw [hfates]
    exact List.not_mem_nil
  · rw [hheard]
    intro p hp
    cases hp
  · rw [hplaces]
    exact List.nodup_nil
  · intro j k m n hj
    rw [hfates] at hj
    cases hj

omit [DecidableEq κ] in
theorem place_eq_some {n k : Nat} (h : s.place n = some k) : s.fates[k]? = some (Fate.queued n) := by
  obtain ⟨hlt, hp, -⟩ := List.findIdx?_eq_some_iff_getElem.mp h
  rw [List.getElem?_eq_getElem hlt, eq_of_beq hp]

omit [DecidableEq κ] in
theorem place_eq_none {n : Nat} (h : s.place n = none) (k : Nat) : s.fates[k]? ≠ some (Fate.queued n) := by
  intro hk
  have hnone := List.findIdx?_eq_none_iff.mp h _ (List.mem_of_getElem? hk)
  simp at hnone

theorem Kept.places_lt (h : Kept spiram s) {k : Nat} (hk : k ∈ s.places) : k < s.fates.length := by
  obtain ⟨p, hp, rfl⟩ := List.mem_map.mp hk
  exact (h.heard p hp).2

/-- Actions at different places have different numbers. -/
theorem Kept.place_unique (h : Kept spiram s) {j k n : Nat} (hj : s.fates[j]? = some (Fate.queued n))
    (hk : s.fates[k]? = some (Fate.queued n)) : j = k := by
  rcases Nat.lt_trichotomy j k with hlt | heq | hlt
  · exact absurd (h.serials j k n n hj hk hlt) (Nat.lt_irrefl n)
  · exact heq
  · exact absurd (h.serials k j n n hk hj hlt) (Nat.lt_irrefl n)

/-- The action in hand has not been invoked yet. -/
theorem Kept.place_fresh (h : Kept spiram s) {i k : Nat} (hi : i ∈ s.disp.todo)
    (hk : s.fates[k]? = some (Fate.queued (s.disp.item i).serial)) : k ∉ s.places := by
  obtain ⟨a, -, -, ⟨-, hnot⟩ | ⟨⟨v, hv, hserial⟩, -⟩⟩ := h.queued k _ hk
  · exact hnot
  · have hlt := h.sound.ordered.next v hv i hi
    rw [hserial] at hlt
    exact absurd hlt (Nat.lt_irrefl _)

/-- A step of the dispatcher in which nothing of the batch is invoked. -/
theorem Kept.unheard {d : Disp κ} (h : Kept spiram s) (hd : Sound spiram d) (hup : Up d s.ctx)
    (hacc : s.disp.accepted <+: d.accepted) (hinv : s.disp.invoked <+: d.invoked)
    (hpend : ∀ k n : Nat, s.fates[k]? = some (Fate.queued n) → Pends s.disp s.ctx n → Pends d s.ctx n)
    (heq : s.advance d = { s with disp := d }) : Kept spiram (s.advance d) := by
  rw [heq]
  refine ⟨hd, hup, h.room, ?_, h.direct, h.unskipped, h.heard, h.nodup, h.serials⟩
  intro k n hk
  obtain ⟨a, ha, haccepted, hcases⟩ := h.queued k n hk
  refine ⟨a, ha, getElem?_of_prefix hacc haccepted, hcases.imp ?_ ?_⟩
  · exact And.imp_left (hpend k n hk)
  · exact And.imp_left fun ⟨v, hv, hserial⟩ => ⟨v, hinv.subset hv, hserial⟩

omit [DecidableEq κ] in
theorem advance_of_invoked {d : Disp κ} (h : d.invoked = s.disp.invoked) :
    s.advance d = { s with disp := d } := by
  rw [Drain.advance, h, List.drop_length, List.filterMap_nil, List.append_nil]

omit [DecidableEq κ] in
theorem advance_invoke (i : Nat) (c : κ) : s.advance (s.disp.invokeAction i c) =
    { s with
      disp := s.disp.invokeAction i c
      heard := s.heard ++
        ((s.place (s.disp.item i).serial).map fun k => ((s.disp.item i).action, k)).toList } := by
  rw [Drain.advance, Disp.invokeAction, List.drop_left]
  cases h : s.place (s.disp.item i).serial <;> simp [h]

/-- The dispatcher task invokes an action of the batch. -/
theorem Kept.hear {i k : Nat} {c : κ} (h : Kept spiram s) (hs : Sound spiram (s.disp.invokeAction i c))
    (hup : Up (s.disp.invokeAction i c) s.ctx) (hw : s.disp.worker = .claimed i c)
    (hk : s.fates[k]? = some (Fate.queued (s.disp.item i).serial))
    (hpend : ∀ n, n ≠ (s.disp.item i).serial → Pends s.disp s.ctx n →
      Pends (s.disp.invokeAction i c) s.ctx n) :
    Kept spiram { s with
      disp := s.disp.invokeAction i c
      heard := s.heard ++ [((s.disp.item i).action, k)] } := by
  have hi : i ∈ s.disp.todo := by
    rw [Disp.todo, hw]
    exact List.mem_cons_self
  have hplaces : Drain.places { s with
      disp := s.disp.invokeAction i c
      heard := s.heard ++ [((s.disp.item i).action, k)] } = s.places ++ [k] := by
    rw [Drain.places, List.map_append]
    rfl
  have hfresh := h.place_fresh hi hk
  obtain ⟨a, ha, haccepted, -⟩ := h.queued k _ hk
  -- what is invoked is what was accepted
  have haction : (s.disp.item i).action = a := by
    obtain ⟨c', -, -, hacc⟩ := h.sound.tidy.owned i ((h.sound.tidy.inUse i).mp (mem_held_of_todo hi))
    rw [haccepted] at hacc
    cases hacc
    rfl
  refine ⟨hs, hup, h.room, ?_, ?_, h.unskipped, ?_, ?_, h.serials⟩
  · intro j n hj
    rw [hplaces]
    obtain ⟨b, hb, hbacc, hcases⟩ := h.queued j n hj
    refine ⟨b, hb, hbacc, ?_⟩
    by_cases hn : n = (s.disp.item i).serial
    · subst hn
      refine .inr ⟨⟨_, List.mem_append_right _ List.mem_cons_self, rfl⟩, ?_⟩
      rw [h.place_unique hj hk]
      exact List.mem_append_right _ List.mem_cons_self
    · have hjk : j ≠ k := by
        intro hjk
        rw [hjk, hk] at hj
        cases hj
        exact hn rfl
      refine hcases.imp ?_ ?_
      · rintro ⟨hp, hnot⟩
        refine ⟨hpend n hn hp, ?_⟩
        rw [List.mem_append, List.mem_singleton, not_or]
        exact ⟨hnot, hjk⟩
      · rintro ⟨⟨v, hv, hserial⟩, hmem⟩
        exact ⟨⟨v, List.mem_append_left _ hv, hserial⟩, List.mem_append_left _ hmem⟩
  · intro j hj
    rw [hplaces]
    exact List.mem_append_left _ (h.direct j hj)
  · intro p hp
    rcases List.mem_append.mp hp with hp | hp
    · exact h.heard p hp
    · rw [List.mem_singleton.mp hp]
      exact ⟨ha.trans (congrArg some haction.symm), (List.getElem?_eq_some_iff.mp hk).1⟩
  · rw [hplaces, ← List.concat_eq_append, List.nodup_concat]
    exact ⟨hfresh, h.nodup⟩

/-- A step of the dispatcher task or of another connection. -/
theorem Kept.other {e : Event κ} {d : Disp κ} (h : Kept spiram s) (hs : step spiram s.disp e = some d)
    (hq : e.quiesces ≠ some s.ctx) : Kept spiram (s.advance d) := by
  have hm := step_move h.sound hs
  have hsound := h.sound.move hm
  have hup := (Up.move h.sound h.up hm hq).1
  rcases invoked_of_move hm with hinv | ⟨i, c, hw, he, hd⟩
  · refine h.unheard hsound hup (accepted_of_move hm) (hinv ▸ List.prefix_refl _) ?_
      (advance_of_invoked hinv)
    intro k n _ hp
    rcases hp.move h.sound h.up hs hq with hp | ⟨rfl, i, c, hw, -⟩
    · exact hp
    · -- an invocation is not a step of this kind
      simp only [step, hw, Option.some.injEq] at hs
      rw [← hs, Disp.invokeAction] at hinv
      simp at hinv
  · subst hd
    have hpend : ∀ n, n ≠ (s.disp.item i).serial → Pends s.disp s.ctx n →
        Pends (s.disp.invokeAction i c) s.ctx n := by
      intro n hn hp
      rcases hp.move h.sound h.up hs hq with hp | ⟨-, j, c', hw', hserial⟩
      · exact hp
      · rw [hw] at hw'
        cases hw'
        exact absurd hserial.symm hn
    cases hplace : s.place (s.disp.item i).serial with
    | none =>
        refine h.unheard hsound hup (accepted_of_move hm) (List.prefix_append _ _) ?_ ?_
        · intro k n hk hp
          refine hpend n ?_ hp
          rintro rfl
          exact place_eq_none hplace k hk
        · rw [advance_invoke, hplace]
          simp
    | some k =>
        rw [advance_invoke, hplace]
        exact h.hear hsound hup hw (place_eq_some hplace) hpend

omit [DecidableEq κ] in
/-- The next action gets its fate. -/
theorem getElem?_snoc {f : Fate} {fs : List Fate} {k : Nat} {g : Fate}
    (h : (fs ++ [f])[k]? = some g) : fs[k]? = some g ∨ k = fs.length ∧ g = f := by
  rcases Nat.lt_trichotomy k fs.length with hlt | rfl | hlt
  · rw [List.getElem?_append_left hlt] at h
    exact .inl h
  · rw [List.getElem?_concat_length] at h
    exact .inr ⟨rfl, (Option.some.inj h).symm⟩
  · rw [List.getElem?_eq_none (by rw [List.length_append, List.length_singleton]; omega)] at h
    cases h

/-- The next action is accepted by the dispatcher. -/
theorem Kept.accept {d : Disp κ} {a : Action} (h : Kept spiram s) (hd : Sound spiram d)
    (hup : Up d s.ctx) (ha : s.batch[s.fates.length]? = some a)
    (hacc : d.accepted = s.disp.accepted ++ [(s.ctx, a)]) (hinv : d.invoked = s.disp.invoked)
    (hpend : ∀ n, Pends s.disp s.ctx n → Pends d s.ctx n)
    (hnew : Pends d s.ctx s.disp.accepted.length) :
    Kept spiram { s with disp := d, fates := s.fates ++ [.queued s.disp.accepted.length] } := by
  have hlt := (List.getElem?_eq_some_iff.mp ha).1
  refine ⟨hd, hup, ?_, ?_, ?_, ?_, ?_, h.nodup, ?_⟩
  · rw [List.length_append]
    exact hlt
  · intro k n hk
    rcases getElem?_snoc hk with hk | ⟨rfl, hn⟩
    · obtain ⟨b, hb, hbacc, hcases⟩ := h.queued k n hk
      refine ⟨b, hb, getElem?_of_prefix (hacc ▸ List.prefix_append _ _) hbacc, ?_⟩
      rw [hinv]
      exact hcases.imp_left (And.imp_left (hpend n))
    · cases hn
      refine ⟨a, ha, ?_, .inl ⟨hnew, ?_⟩⟩
      · rw [hacc, List.getElem?_concat_length]
      · exact fun hk => Nat.lt_irrefl _ (h.places_lt hk)
  · intro k hk
    rcases getElem?_snoc hk with hk | ⟨-, hn⟩
    · exact h.direct k hk
    · cases hn
  · rw [List.mem_append, List.mem_singleton, not_or]
    exact ⟨h.unskipped, by intro hn; cases hn⟩
  · intro p hp
    obtain ⟨hb, hplace⟩ := h.heard p hp
    exact ⟨hb, by rw [List.length_append]; exact Nat.lt_add_right 1 hplace⟩
  · intro j k m n hj hk hjk
    rcases getElem?_snoc hj with hj | ⟨rfl, -⟩
    · rcases getElem?_snoc hk with hk | ⟨-, hn⟩
      · exact h.serials j k m n hj hk hjk
      · cases hn
        obtain ⟨b, -, hbacc, -⟩ := h.queued j m hj
        exact (List.getElem?_eq_some_iff.mp hbacc).1
    · have hkl := (List.getElem?_eq_some_iff.mp hk).1
      rw [List.length_append, List.length_singleton] at hkl
      omega

/-- The timer task invokes the next action. -/
theorem Kept.invoke {a : Action} (h : Kept spiram s) (ha : s.batch[s.fates.length]? = some a) :
    Kept spiram { s with
      fates := s.fates ++ [.direct], full := false, heard := s.heard ++ [(a, s.fates.length)] } := by
  have hlt := (List.getElem?_eq_some_iff.mp ha).1
  have hplaces : Drain.places { s with
      fates := s.fates ++ [.direct], full := false, heard := s.heard ++ [(a, s.fates.length)] } =
      s.places ++ [s.fates.length] := by
    rw [Drain.places, List.map_append]
    rfl
  refine ⟨h.sound, h.up, ?_, ?_, ?_, ?_, ?_, ?_, ?_⟩
  · rw [List.length_append]
    exact hlt
  · intro k n hk
    rcases getElem?_snoc hk with hk | ⟨-, hn⟩
    · obtain ⟨b, hb, hbacc, hcases⟩ := h.queued k n hk
      refine ⟨b, hb, hbacc, hcases.imp (And.imp_right ?_) (And.imp_right ?_)⟩
      · rw [hplaces, List.mem_append, List.mem_singleton, not_or]
        exact fun hnot => ⟨hnot, Nat.ne_of_lt (List.getElem?_eq_some_iff.mp hk).1⟩
      · rw [hplaces]
        exact List.mem_append_left _
    · cases hn
  · intro k hk
    rw [hplaces]
    rcases getElem?_snoc hk with hk | ⟨rfl, -⟩
    · exact List.mem_append_left _ (h.direct k hk)
    · exact List.mem_append_right _ List.mem_cons_self
  · rw [List.mem_append, List.mem_singleton, not_or]
    exact ⟨h.unskipped, by intro hn; cases hn⟩
  · intro p hp
    rw [List.length_append]
    rcases List.mem_append.mp hp with hp | hp
    · exact ⟨(h.heard p hp).1, Nat.lt_add_right 1 (h.heard p hp).2⟩
    · rw [List.mem_singleton.mp hp]
      exact ⟨ha, Nat.lt_succ_self _⟩
  · rw [hplaces, ← List.concat_eq_append, List.nodup_concat]
    exact ⟨fun hk => Nat.lt_irrefl _ (h.places_lt hk), h.nodup⟩
  · intro j k m n hj hk hjk
    rcases getElem?_snoc hj with hj | ⟨-, hn⟩
    · rcases getElem?_snoc hk with hk | ⟨-, hn⟩
      · exact h.serials j k m n hj hk hjk
      · cases hn
    · cases hn

/-- What the loop does with the next action. -/
inductive Loops (s : Drain κ) (spiram : Bool) : Drain κ → Prop
  | accept (a : Action) (ha : s.batch[s.fates.length]? = some a)
      (hok : (s.disp.enqueue spiram s.ctx a).1 = .ok)
      (hnew : Pends (s.disp.enqueue spiram s.ctx a).2 s.ctx s.disp.accepted.length)
      (hacc : (s.disp.enqueue spiram s.ctx a).2.accepted = s.disp.accepted ++ [(s.ctx, a)]) :
      Loops s spiram { s with
        disp := (s.disp.enqueue spiram s.ctx a).2
        fates := s.fates ++ [.queued s.disp.accepted.length] }
  | refuse (a : Action) (ha : s.batch[s.fates.length]? = some a) :
      Loops s spiram { s with full := true }

theorem Kept.loops (h : Kept spiram s) (hs : drainStep spiram s .enqueue = some s') :
    Loops s spiram s' := by
  cases ha : s.batch[s.fates.length]? with
  | none => simp [drainStep, ha] at hs
  | some a =>
      cases hf : s.full with
      | true => simp [drainStep, ha, hf] at hs
      | false =>
          rcases enqueue_cases h.sound h.up a with heq | ⟨hok, hnew, hacc⟩
          · simp only [drainStep, ha, hf, heq, Option.some.injEq] at hs
            subst hs
            exact .refuse a ha
          · simp only [drainStep, ha, hf, hok, Option.some.injEq] at hs
            subst hs
            have hloop : Loops s spiram _ := .accept a ha hok hnew hacc
            rw [hf] at hloop
            exact hloop

/-- The timer task invokes the next action of the batch. -/
theorem drainStep_invoke (hs : drainStep spiram s .invoke = some s') :
    ∃ a, s.batch[s.fates.length]? = some a ∧ s' = { s with
      fates := s.fates ++ [.direct], full := false, heard := s.heard ++ [(a, s.fates.length)] } := by
  cases ha : s.batch[s.fates.length]? with
  | none => simp [drainStep, ha] at hs
  | some a =>
      cases hf : s.full with
      | false => simp [drainStep, ha, hf] at hs
      | true =>
          simp only [drainStep, ha, hf, Option.some.injEq] at hs
          exact ⟨a, rfl, hs.symm⟩

/-- **The invariant of the drain is kept.** -/
theorem Kept.step {e : DrainEvent κ} (h : Kept spiram s) (hs : drainStep spiram s e = some s')
    (hup : StaysUp s e) : Kept spiram s' := by
  cases e with
  | enqueue =>
      cases h.loops hs with
      | refuse a ha => exact ⟨h.sound, h.up, h.room, h.queued, h.direct, h.unskipped, h.heard,
          h.nodup, h.serials⟩
      | accept a ha hok hnew hacc =>
          have hfresh : s.disp.life s.ctx ≠ .fresh := by
            rw [h.up.ready]
            intro hl
            cases hl
          have hm := move_enqueue h.sound hfresh a
          have hstep : EspAx25.Dispatcher.step spiram s.disp (.enqueue s.ctx a) =
              some (s.disp.enqueue spiram s.ctx a).2 := if_neg hfresh
          have hq : (Event.enqueue s.ctx a).quiesces ≠ some s.ctx := by
            intro hq
            cases hq
          have hinv : (s.disp.enqueue spiram s.ctx a).2.invoked = s.disp.invoked := by
            rcases invoked_of_move hm with hinv | ⟨i, c, -, he, -⟩
            · exact hinv
            · cases he
          refine h.accept (h.sound.move hm) (Up.move h.sound h.up hm hq).1 ha hacc hinv ?_ hnew
          intro n hp
          rcases hp.move h.sound h.up hstep hq with hp | ⟨he, -⟩
          · exact hp
          · cases he
  | invoke =>
      obtain ⟨a, ha, rfl⟩ := drainStep_invoke hs
      exact h.invoke ha
  | other e =>
      obtain ⟨d, hd, rfl⟩ := Option.map_eq_some_iff.mp hs
      refine h.other hd ?_
      intro hq
      cases e <;> cases hq <;> exact hup rfl

end Kept

/-! ### The order -/

section Order

variable {spiram : Bool} {s s' : Drain κ}

omit [DecidableEq κ] in
/-- The first numbers, and the next one. -/
theorem range_snoc {l : List Nat} {k : Nat} (h : l = List.range l.length) (hbelow : ∀ j < k, j ∈ l)
    (hk : k ∉ l) : l ++ [k] = List.range (l ++ [k]).length := by
  have hle : l.length ≤ k := by
    by_contra hlt
    rw [h, List.mem_range] at hk
    omega
  have hge : k ≤ l.length := by
    by_contra hlt
    have hmem := hbelow l.length (by omega)
    rw [h, List.mem_range, List.length_range] at hmem
    exact Nat.lt_irrefl _ hmem
  obtain rfl : k = l.length := Nat.le_antisymm hge hle
  rw [List.length_append, List.length_singleton, List.range_succ, ← h]

omit [DecidableEq κ] in
/-- What has been heard is in order if the places are. -/
theorem inOrder_of_places (hheard : ∀ p ∈ s.heard, s.batch[p.2]? = some p.1)
    (h : s.places = List.range s.places.length) : s.InOrder := by
  rw [Drain.InOrder, List.prefix_iff_getElem?]
  intro i hi
  have hplace : s.heard[i].2 = i := by
    have hget : s.places[i]? = some s.heard[i].2 := by
      rw [Drain.places, List.getElem?_map, List.getElem?_eq_getElem hi]
      rfl
    rw [h, Drain.places, List.length_map, List.getElem?_range hi] at hget
    exact (Option.some.inj hget).symm
  have hb := hheard s.heard[i] (List.getElem_mem hi)
  rw [hplace] at hb
  rw [List.getElem?_zipIdx, hb]
  exact congrArg some (Prod.ext rfl (by rw [Nat.zero_add]; exact hplace.symm))

omit [DecidableEq κ] in
theorem places_of_inOrder (h : s.InOrder) : s.places = List.range s.places.length := by
  apply List.ext_getElem?
  intro i
  rw [Drain.places, List.length_map, List.getElem?_map]
  rcases Nat.lt_or_ge i s.heard.length with hi | hi
  · have hget := List.prefix_iff_getElem?.mp h i hi
    rw [List.getElem?_zipIdx, Option.map_eq_some_iff] at hget
    obtain ⟨a, -, ha⟩ := hget
    rw [List.getElem?_range hi, List.getElem?_eq_getElem hi, Option.map_some, ← ha, Nat.zero_add]
  · rw [List.getElem?_eq_none hi, List.getElem?_eq_none (by rw [List.length_range]; exact hi)]
    rfl

/-- An action that the loop is done with has been invoked, or it waits. -/
theorem Kept.heard_or_pends {k : Nat} (h : Kept spiram s) (hk : k < s.fates.length) :
    k ∈ s.places ∨ ∃ n, s.fates[k]? = some (.queued n) ∧ Pends s.disp s.ctx n := by
  have hget : s.fates[k]? = some s.fates[k] := List.getElem?_eq_getElem hk
  cases hfate : s.fates[k] with
  | queued n =>
      rw [hfate] at hget
      obtain ⟨a, -, -, ⟨hp, -⟩ | ⟨-, hmem⟩⟩ := h.queued k n hget
      · exact .inr ⟨n, hget, hp⟩
      · exact .inl hmem
  | direct => exact .inl (h.direct k (hfate ▸ hget))
  | skipped => exact absurd (hfate ▸ List.getElem_mem hk) h.unskipped

/-- Every earlier action has been invoked when one is invoked by the dispatcher task: the
earlier ones would be before it in the queue. -/
theorem Kept.earlier_heard {i j k : Nat} {c : κ} (h : Kept spiram s)
    (hw : s.disp.worker = .claimed i c)
    (hk : s.fates[k]? = some (Fate.queued (s.disp.item i).serial)) (hjk : j < k) : j ∈ s.places := by
  have hlt : j < s.fates.length := Nat.lt_trans hjk (List.getElem?_eq_some_iff.mp hk).1
  have htodo : s.disp.todo = i :: s.disp.queue := by
    rw [Disp.todo, hw]
    rfl
  refine (h.heard_or_pends hlt).resolve_right ?_
  rintro ⟨n, hget, i', hi', hserial, -⟩
  have hn := h.serials j k _ _ hget hk hjk
  rw [htodo, List.mem_cons] at hi'
  rcases hi' with rfl | hi'
  · omega
  · have hle := (List.pairwise_cons.mp (htodo ▸ h.sound.ordered.waiting)).1 i' hi'
    omega

/-- A step that meets the condition keeps the order. -/
theorem Kept.ordered_step {e : DrainEvent κ} (h : Kept spiram s)
    (hs : drainStep spiram s e = some s') (hclear : NoneWaits s e)
    (hord : s.places = List.range s.places.length) :
    s'.places = List.range s'.places.length := by
  cases e with
  | enqueue =>
      cases h.loops hs <;> exact hord
  | invoke =>
      obtain ⟨a, -, rfl⟩ := drainStep_invoke hs
      rw [Drain.places, List.map_append]
      refine range_snoc hord (fun j hj => (h.heard_or_pends hj).resolve_right ?_) ?_
      · rintro ⟨n, hget, i, hi, hin, -⟩
        have hnot := hclear _ (List.mem_of_getElem? hget)
        simp only [Drain.waits, List.all_eq_false, bne_iff_ne, not_not] at hnot
        obtain ⟨v, hv, hserial⟩ := hnot
        have hlt := h.sound.ordered.next v hv i hi
        omega
      · exact fun hk => Nat.lt_irrefl _ (h.places_lt hk)
  | other e =>
      obtain ⟨d, hd, rfl⟩ := Option.map_eq_some_iff.mp hs
      rcases invoked_of_move (step_move h.sound hd) with hinv | ⟨i, c, hw, -, rfl⟩
      · rw [advance_of_invoked hinv]
        exact hord
      · rw [advance_invoke]
        cases hplace : s.place (s.disp.item i).serial with
        | none =>
            rw [Option.map_none, Option.toList_none, List.append_nil]
            exact hord
        | some k =>
            have hk := place_eq_some hplace
            have hi : i ∈ s.disp.todo := by
              rw [Disp.todo, hw]
              exact List.mem_cons_self
            rw [Drain.places, List.map_append]
            exact range_snoc hord (fun j hj => h.earlier_heard hw hk hj) (h.place_fresh hi hk)

/-- A step that does not meet the condition loses it. -/
theorem Kept.disordered_step {e : DrainEvent κ} (h : Kept spiram s)
    (hs : drainStep spiram s e = some s') (hwaits : ¬ NoneWaits s e) : ¬ s'.InOrder := by
  cases e with
  | invoke =>
      obtain ⟨a, -, rfl⟩ := drainStep_invoke hs
      intro hord
      have hplaces := places_of_inOrder hord
      rw [Drain.places, List.map_append, List.map_singleton] at hplaces
      simp only [NoneWaits, not_forall, Bool.not_eq_false] at hwaits
      obtain ⟨f, hf, hwaits⟩ := hwaits
      obtain ⟨k, hk⟩ := List.getElem?_of_mem hf
      cases f with
      | direct => cases hwaits
      | skipped => cases hwaits
      | queued n =>
          have hlt := (List.getElem?_eq_some_iff.mp hk).1
          obtain ⟨b, -, -, ⟨-, hnot⟩ | ⟨⟨v, hv, hserial⟩, -⟩⟩ := h.queued k n hk
          · -- the place of the action that waits is before the last one
            have hlast : s.fates.length ∈ s.heard.map Prod.snd ++ [s.fates.length] :=
              List.mem_append_right _ List.mem_cons_self
            rw [hplaces, List.mem_range] at hlast
            have hmem := List.mem_range.mpr (Nat.lt_trans hlt hlast)
            rw [← hplaces, List.mem_append, List.mem_singleton] at hmem
            exact hmem.elim hnot (Nat.ne_of_lt hlt)
          · have hne := List.all_eq_true.mp hwaits v hv
            exact absurd hserial (by simpa using hne)
  | _ => exact absurd trivial hwaits

omit [DecidableEq κ] in
/-- An order that is lost stays lost. -/
theorem InOrder.of_prefix (h : s'.InOrder) (hbatch : s'.batch = s.batch)
    (hheard : s.heard <+: s'.heard) : s.InOrder := by
  rw [Drain.InOrder, ← hbatch]
  exact hheard.trans h

theorem heard_grows {e : DrainEvent κ} (hs : drainStep spiram s e = some s') :
    s'.batch = s.batch ∧ s.heard <+: s'.heard := by
  cases e with
  | other e =>
      obtain ⟨d, -, rfl⟩ := Option.map_eq_some_iff.mp hs
      exact ⟨rfl, List.prefix_append _ _⟩
  | _ =>
      simp only [drainStep] at hs
      repeat' split at hs
      all_goals cases hs
      all_goals exact ⟨rfl, by first | exact List.prefix_refl _ | exact List.prefix_append _ _⟩

/-- Every action has been invoked when the drain is over. -/
theorem Kept.all_heard (h : Kept spiram s) (hover : s.Over) : s.heard.Perm s.batch.zipIdx := by
  obtain ⟨hlength, htodo⟩ := hover
  have hall : ∀ k < s.fates.length, k ∈ s.places := by
    intro k hk
    refine (h.heard_or_pends hk).resolve_right ?_
    rintro ⟨n, -, i, hi, -⟩
    rw [htodo] at hi
    cases hi
  have hnodup : s.batch.zipIdx.Nodup := by
    apply List.Nodup.of_map Prod.snd
    rw [List.zipIdx_map_snd]
    exact List.nodup_range' _
  rw [List.perm_ext_iff_of_nodup (List.Nodup.of_map _ h.nodup) hnodup]
  rintro ⟨a, k⟩
  rw [List.mk_mem_zipIdx_iff_getElem?]
  constructor
  · exact fun hp => (h.heard _ hp).1
  · intro ha
    have hk := (List.getElem?_eq_some_iff.mp ha).1
    obtain ⟨⟨b, k'⟩, hp, rfl⟩ := List.mem_map.mp (hall k (hlength ▸ hk))
    have hb := (h.heard _ hp).1
    rw [ha] at hb
    cases hb
    exact hp

end Order

theorem kept_of_reach {spiram : Bool} {s : Drain κ}
    (h : Reach (Begins spiram) (drainStep spiram) StaysUp s) : Kept spiram s := by
  refine h.invariant (fun _ => kept_begins) ?_
  intro s e s' hs hup hstep
  exact hs.step hstep hup

/-- **Timer batches and their order.** A connection that is not shutting down hears every
action of a batch once. It hears them in the recorded order in every run in which the timer
task invokes none while an earlier one waits in the queue; as soon as it does, the order is
lost for good. -/
theorem timer_batch_in_order (spiram : Bool) :
    (∀ s : Drain κ, Reach (Begins spiram) (drainStep spiram) StaysUp s →
      (s.heard.map Prod.snd).Nodup ∧ (s.Over → s.heard.Perm s.batch.zipIdx)) ∧
    (∀ s : Drain κ, Reach (Begins spiram) (drainStep spiram)
        (fun s e => StaysUp s e ∧ NoneWaits s e) s →
      s.InOrder ∧ (s.Over → s.heard = s.batch.zipIdx)) ∧
    ∀ (s s' s'' : Drain κ) e, Reach (Begins spiram) (drainStep spiram) StaysUp s →
      StaysUp s e → drainStep spiram s e = some s' → ¬ NoneWaits s e →
      Reach (· = s') (drainStep spiram) StaysUp s'' → ¬ s''.InOrder := by
  refine ⟨?_, ?_, ?_⟩
  · intro s h
    have hkept := kept_of_reach h
    exact ⟨hkept.nodup, hkept.all_heard⟩
  · intro s h
    have hkept := kept_of_reach (h.mono fun _ _ => And.left)
    have hplaces : Kept spiram s ∧ s.places = List.range s.places.length := by
      refine h.invariant (I := fun s => Kept spiram s ∧ s.places = List.range s.places.length) ?_ ?_
      · intro s hs
        refine ⟨kept_begins hs, ?_⟩
        rw [Drain.places, hs.2.2.2.2.2]
        rfl
      · intro s e s' hs hok hstep
        exact ⟨hs.1.step hstep hok.1, hs.1.ordered_step hstep hok.2 hs.2⟩
    have hord := inOrder_of_places (fun p hp => (hkept.heard p hp).1) hplaces.2
    exact ⟨hord, fun hover => hord.eq_of_length (hkept.all_heard hover).length_eq⟩
  · intro s s' s'' e h hup hstep hwaits hlater
    refine hlater.invariant (I := fun s => ¬ s.InOrder) ?_ ?_
    · rintro _ rfl
      exact (kept_of_reach h).disordered_step hstep hwaits
    · intro s₁ e₁ s₂ hlost _ hstep₁ hord
      obtain ⟨hbatch, hheard⟩ := heard_grows hstep₁
      exact hlost (InOrder.of_prefix hord hbatch hheard)

/-- The batch of `timer_t1_callback` when the peer of `sampleConn` has not answered the
last poll: an error, a DM, the end of the transmission and the disconnection. -/
def linkFailure : List Action :=
  (Locked.timerT1Callback
    ⟨{ sampleConn with remoteAddr := sampleB, state := .timerRecovery, retryCount := 10 },
      []⟩).deferred

/-- What a replay that is possible ends in. -/
theorem replay_getD {σ ε : Type} {step : σ → ε → Option σ} {ok : σ → ε → Prop}
    [∀ s e, Decidable (ok s e)] {s : σ} {es : List ε} (h : (replay step ok s es).isSome = true) :
    replay step ok s es = some ((replay step ok s es).getD s) := by
  obtain ⟨t, ht⟩ := Option.isSome_iff_exists.mp h
  rw [ht, Option.getD_some]

/-- The timer task begins with the batch of connection 0, on the dispatcher `d`. -/
def drainOn (d : Disp Nat) : Drain Nat :=
  { disp := d, ctx := 0, batch := linkFailure, fates := [], full := false, heard := [] }

/-- Connection 0 is in use, and nothing waits. -/
def roomy : Disp Nat :=
  (replay (step false) Always sampleDisp [.initClear 0, .initReady 0]).getD sampleDisp

/-- The dispatcher task serves one item. -/
def serving : List (DrainEvent Nat) :=
  [.other .receive, .other .takeUp, .other .invoke, .other .finish]

theorem timer_batch_in_order_room : ∃ s : Drain Nat,
    Reach (Begins false) (drainStep false) (fun s e => StaysUp s e ∧ NoneWaits s e) s ∧
      s.heard = linkFailure.zipIdx := by
  have hbegins : Begins false (drainOn roomy) :=
    ⟨Reach.replay (.start sampleDisp_isInit) (show replay (step false) Always sampleDisp
      [.initClear 0, .initReady 0] = some roomy from rfl), rfl, rfl, rfl, rfl, rfl⟩
  have hrun : (replay (drainStep false) (fun s e => StaysUp s e ∧ NoneWaits s e) (drainOn roomy)
      (.enqueue :: .enqueue :: serving ++ .enqueue :: .enqueue :: serving ++ serving ++ serving)).map
      (fun s => (s.batch, s.fates.length, s.disp.todo)) =
      some (linkFailure, linkFailure.length, []) := by decide +kernel
  obtain ⟨s, hs, hend⟩ := Option.map_eq_some_iff.mp hrun
  simp only [Prod.mk.injEq] at hend
  obtain ⟨hbatch, hlength, htodo⟩ := hend
  have hreach := Reach.replay (.start hbegins) hs
  have hover : s.Over := ⟨by rw [hlength, hbatch], htodo⟩
  refine ⟨s, hreach, ?_⟩
  rw [← hbatch]
  exact ((timer_batch_in_order false).2.1 s hreach).2 hover

/-- Connections 0 and 1 are in use, and 63 actions of the second one wait. -/
def crowding : List (Event Nat) :=
  [.initClear 0, .initReady 0, .initClear 1, .initReady 1] ++
    List.replicate 63 (.enqueue 1 .final)

def crowded : Disp Nat := (replay (step false) Always sampleDisp crowding).getD sampleDisp

/-- The error takes the last slot, the other three are invoked by the timer task, and then
the dispatcher task serves all 64 items. -/
def overtaking : List (DrainEvent Nat) :=
  .enqueue :: (List.replicate 3 [.enqueue, .invoke]).flatten ++
    (List.replicate 64 serving).flatten

theorem crowded_begins : Begins false (drainOn crowded) := by
  refine ⟨?_, by decide +kernel, by decide +kernel, rfl, rfl, rfl⟩
  exact Reach.replay (.start sampleDisp_isInit) (show replay (step false) Always sampleDisp
    crowding = some crowded from replay_getD (by decide +kernel))

/-- The error of a link failure is heard last, after the disconnection. -/
theorem error_after_disconnect : ∃ s : Drain Nat,
    Reach (Begins false) (drainStep false) StaysUp s ∧ s.batch = linkFailure ∧ s.Over ∧
      s.heard.map Prod.snd = [1, 2, 3, 0] ∧ ¬ s.InOrder := by
  have hrun : (replay (drainStep false) StaysUp (drainOn crowded) overtaking).map
      (fun s => (s.batch, s.fates.length, s.disp.todo, s.heard.map Prod.snd)) =
      some (linkFailure, linkFailure.length, [], [1, 2, 3, 0]) := by decide +kernel
  obtain ⟨s, hs, hend⟩ := Option.map_eq_some_iff.mp hrun
  simp only [Prod.mk.injEq] at hend
  obtain ⟨hbatch, hlength, htodo, hheard⟩ := hend
  refine ⟨s, Reach.replay (.start crowded_begins) hs, hbatch, ⟨?_, htodo⟩, hheard, ?_⟩
  · rw [hlength, hbatch]
  · intro hord
    have hplaces := places_of_inOrder hord
    rw [Drain.places, hheard] at hplaces
    cases hplaces

end EspAx25.Dispatcher
