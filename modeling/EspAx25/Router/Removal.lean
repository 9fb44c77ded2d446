import EspAx25.Router.Race

/-!
# EspAx25.Router.Removal

No delivery after removal: what a port task is about to deliver comes from the queue
of a registration of that port whose removal has not returned.

The argument is about one slot. A task that is on its way to a callback (from
`xQueueReceive` on) finds its own port in the slot, because a teardown clears `port`
only when the task has left its loop, or when it is the task itself that is in the
teardown; and a task that has left its callback sees that `running` is false. It holds
for runs in which the wait of a teardown does not expire and no registration gets a
slot in the second window of `EspAx25.Router.Race` while the task is still there. A slot
whose task is gone may be handed out in that window: the statement that is left of its
teardown then marks the new registration as retired, and does no more.
-/

namespace EspAx25

open Transition

/-! ### The condition -/

/-- The wait of a teardown does not expire. -/
def RaceEvent.inTime : RaceEvent → Bool
  | .teardown _ late => !late
  | _ => true

/-- Runs in which no wait expires. -/
def Race.InTime (_ : Race) (e : RaceEvent) : Prop := e.inTime = true

instance (s : Race) (e : RaceEvent) : Decidable (s.InTime e) := inferInstanceAs (Decidable (_ = _))

/-- Runs in which, besides, no registration gets a slot that is being torn down and has
still its task. -/
def Race.Orderly (s : Race) (e : RaceEvent) : Prop := s.InTime e ∧ s.VacantRegister e = true

instance (s : Race) (e : RaceEvent) : Decidable (s.Orderly e) := inferInstanceAs (Decidable (_ ∧ _))

/-! ### The invariant -/

/-- On the way to the callback. -/
def TaskPc.serving : TaskPc → Bool
  | .receive | .blocked _ | .got _ _ | .found _ _ _ => true
  | _ => false

/-- In the callback. -/
def TaskPc.isCalling : TaskPc → Bool
  | .calling _ _ _ => true
  | _ => false

theorem not_serving_of_calling {pc : TaskPc} (h : pc.isCalling = true) : pc.serving = false := by
  cases pc with
  | calling => rfl
  | _ => cases h

/-- The queue that the task is reading, or that its frame came from. -/
def TaskPc.queue : TaskPc → Option QueueId
  | .blocked q | .got q _ | .found _ q _ => some q
  | _ => none

/-- The port that the task has read. -/
def TaskPc.port : TaskPc → Option PortId
  | .found p _ _ => some p
  | _ => none

/-- Task `t` serves its own registration. -/
structure TaskOk (s : Race) (t : TaskId) (ctx : Slot) (pc : TaskPc) : Prop where
  serving : pc.serving = true → ctx.port ≠ none
  running : ctx.running = true → ctx.port ≠ none
  queue : ∀ q, pc.queue = some q → q = t
  port : ∀ p, pc.port = some p → p = s.lease t

/-- The teardown of registration `k`, on a slot, has come so far. -/
structure TeardownOk (s : Race) (k : Nat) (ctx : Slot) (td : Teardown) : Prop where
  lease : s.lease k = td.port
  port : td.pc ≠ .retire → ctx.port = some td.port
  running : td.pc ≠ .stop → td.pc ≠ .retire → ctx.running = false
  /-- The wait ends when the task has written `stopped`. -/
  stopped : td.pc = .testTask → ∀ t pc, s.tasks t = some (td.slot, pc) → pc = .clearing
  /-- The port is cleared when the task has left its loop or is the caller. -/
  left : td.pc = .detach → ∀ t pc, s.tasks t = some (td.slot, pc) →
    pc = .clearing ∨ (td.caller = some t ∧ pc.isCalling = true)
  caller : ∀ t, td.caller = some t → ∃ j pc, s.tasks t = some (j, pc) ∧ pc.isCalling = true
  /-- From here on the port may be in another slot, or the slot have another port: with a
  later registration. -/
  later : td.pc = .retire → ∀ (j : Nat) (b : Slot), s.router.slots[j]? = some b →
    b.port = some td.port → k < s.holder j

structure ServeSlot (s : Race) (i : Nat) (ctx : Slot) : Prop where
  port : ∀ p, ctx.port = some p → p = s.lease (s.holder i) ∧ s.removed p ≤ s.holder i
  task : ∀ t pc, s.tasks t = some (i, pc) →
    s.holder i = t ∧ ctx.txQueue = some t ∧ TaskOk s t ctx pc
  stopped : ctx.stopped = true → ∀ t pc, s.tasks t = some (i, pc) → pc = .clearing
  teardown : ∀ k td, s.teardowns k = some td → td.slot = i → TeardownOk s k ctx td

structure ServeOk (s : Race) : Prop where
  slot : ∀ {i : Nat} {ctx : Slot}, s.router.slots[i]? = some ctx → ServeSlot s i ctx
  removed : ∀ p, s.removed p ≤ s.router.nextId

section Keep

variable {s s' : Race}

theorem TaskOk.of_serving {t : TaskId} {ctx : Slot} {pc : TaskPc}
    (hserv : pc.serving = true → ctx.port ≠ none)
    (hrun : ctx.running = true → ctx.port ≠ none) (hqueue : ∀ q, pc.queue = some q → q = t)
    (hport : pc.port = none) : TaskOk s t ctx pc :=
  ⟨hserv, hrun, hqueue, fun p hp => by rw [hport] at hp; cases hp⟩

theorem TaskOk.of_idle {t : TaskId} {ctx : Slot} {pc : TaskPc} (hserv : pc.serving = false)
    (hqueue : pc.queue = none) (hport : pc.port = none)
    (hrun : ctx.running = true → ctx.port ≠ none) : TaskOk s t ctx pc :=
  .of_serving (fun hc => by rw [hserv] at hc; cases hc) hrun
    (fun q hq => by rw [hqueue] at hq; cases hq) hport

/-- Steps that leave the slots, the tasks and the teardowns alone. -/
theorem ServeOk.of_quiet (h : ServeOk s) (hslots : s'.router.slots = s.router.slots)
    (htasks : s'.tasks = s.tasks) (htd : s'.teardowns = s.teardowns)
    (hid : s'.router.nextId = s.router.nextId) (hlease : s'.lease = s.lease)
    (hholder : s'.holder = s.holder) (hremoved : s'.removed = s.removed) : ServeOk s' := by
  obtain ⟨⟨slots, depth, ports, queues, id⟩, mutex, tasks, teardowns, lease, holder, removed⟩ := s
  obtain ⟨⟨slots', depth', ports', queues', id'⟩, mutex', tasks', teardowns', lease', holder',
    removed'⟩ := s'
  dsimp only at hslots htasks htd hid hlease hholder hremoved
  subst hslots htasks htd hid hlease hholder hremoved
  refine ⟨fun hctx => ?_, h.removed⟩
  obtain ⟨hport, htask, hstopped, hteardown⟩ := h.slot hctx
  refine ⟨hport, fun t pc ht => ?_, hstopped, fun k td htd hi => ?_⟩
  · obtain ⟨h₁, h₂, h₃, h₄, h₅, h₆⟩ := htask t pc ht
    exact ⟨h₁, h₂, h₃, h₄, h₅, h₆⟩
  · obtain ⟨h₁, h₂, h₃, h₄, h₅, h₆, h₇⟩ := hteardown k td htd hi
    exact ⟨h₁, h₂, h₃, h₄, h₅, h₆, h₇⟩

/-- What a step on slot `i` leaves alone, for the other slots. -/
structure Local (s s' : Race) (i : Nat) (ctx new : Slot) : Prop where
  old : s.router.slots[i]? = some ctx
  slots : s'.router.slots = s.router.slots.set i new
  port : new.port = ctx.port ∨ new.port = none
  nextId : s'.router.nextId = s.router.nextId
  lease : s'.lease = s.lease
  holder : s'.holder = s.holder
  teardowns : ∀ k td, td.slot ≠ i → s'.teardowns k = some td → s.teardowns k = some td
  tasks : ∀ t j pc, j ≠ i → (s'.tasks t = some (j, pc) ↔ s.tasks t = some (j, pc))
  callers : ∀ k td t, s.teardowns k = some td → td.caller = some t → s'.tasks t = s.tasks t

theorem Local.ports {i : Nat} {ctx new : Slot} (hl : Local s s' i ctx new) {j : Nat} {b : Slot}
    {p : PortId} (hb : s'.router.slots[j]? = some b) (hp : b.port = some p) :
    ∃ b', s.router.slots[j]? = some b' ∧ b'.port = some p := by
  rw [hl.slots, getElem?_set_some hl.old] at hb
  split_ifs at hb with hji
  · subst hji
    cases hb
    rcases hl.port with hport | hport
    · exact ⟨ctx, hl.old, hport ▸ hp⟩
    · rw [hport] at hp
      cases hp
  · exact ⟨b, hb, hp⟩

/-- A teardown whose slot is as it was, as far as it looks at it. -/
theorem TeardownOk.of_local {i : Nat} {ctx new : Slot} (hl : Local s s' i ctx new) {k : Nat}
    {td : Teardown} {b b' : Slot} (htd : s.teardowns k = some td) (h : TeardownOk s k b td)
    (hport : td.pc ≠ .retire → b'.port = b.port)
    (hrunning : td.pc ≠ .stop → td.pc ≠ .retire → b.running = false → b'.running = false)
    (htasks : td.pc ≠ .retire → ∀ t pc, s'.tasks t = some (td.slot, pc) →
      s.tasks t = some (td.slot, pc)) : TeardownOk s' k b' td := by
  obtain ⟨h₁, h₂, h₃, h₄, h₅, h₆, h₇⟩ := h
  refine ⟨by rw [hl.lease]; exact h₁, fun hpc => (hport hpc).trans (h₂ hpc),
    fun hs hr => hrunning hs hr (h₃ hs hr), fun hpc t pc ht => ?_, fun hpc t pc ht => ?_,
    fun t ht => ?_, fun hpc k c hc hcp => ?_⟩
  · exact h₄ hpc t pc (htasks (by rw [hpc]; decide) t pc ht)
  · exact h₅ hpc t pc (htasks (by rw [hpc]; decide) t pc ht)
  · rw [hl.callers k td t htd ht]
    exact h₆ t ht
  · obtain ⟨c', hc', hcp'⟩ := hl.ports hc hcp
    rw [hl.holder]
    exact h₇ hpc k c' hc' hcp'

theorem ServeOk.of_local (h : ServeOk s) {i : Nat} {ctx new : Slot} (hl : Local s s' i ctx new)
    (hremoved : ∀ j b p, j ≠ i → s.router.slots[j]? = some b → b.port = some p →
      s'.removed p ≤ s.holder j)
    (hbound : ∀ p, s'.removed p ≤ s.router.nextId)
    (hnew : ServeSlot s' i new) : ServeOk s' where
  slot := by
    intro j b hb
    rw [hl.slots, getElem?_set_some hl.old] at hb
    split_ifs at hb with hji
    · subst hji
      cases hb
      exact hnew
    · obtain ⟨hport, htask, hstopped, hteardown⟩ := h.slot hb
      refine ⟨fun p hp => ?_, fun t pc ht => ?_, fun hst t pc ht => ?_, fun k td htd hj => ?_⟩
      · obtain ⟨h₁, -⟩ := hport p hp
        rw [hl.lease, hl.holder]
        exact ⟨h₁, hremoved j b p hji hb hp⟩
      · obtain ⟨h₁, h₂, h₃, h₄, h₅, h₆⟩ := htask t pc ((hl.tasks t j pc hji).mp ht)
        rw [hl.holder]
        exact ⟨h₁, h₂, h₃, h₄, h₅, by rw [hl.lease]; exact h₆⟩
      · exact hstopped hst t pc ((hl.tasks t j pc hji).mp ht)
      · have hne : td.slot ≠ i := fun hi => hji (hj.symm.trans hi)
        have htd := hl.teardowns k td hne htd
        exact (hteardown k td htd hj).of_local hl htd (fun _ => rfl) (fun _ _ => id)
          fun _ t pc => (hl.tasks t td.slot pc hne).mp
  removed := by
    intro p
    rw [hl.nextId]
    exact hbound p

/-! ### Teardowns -/

/-- What a statement of `port_ctx_teardown` does to the fields. -/
theorem teardownNext_fields {td : Teardown} {ctx new : Slot} {late : Bool} {pc' : Option TeardownPc}
    (h : teardownNext td ctx late = some (new, pc')) :
    (new.running = true → ctx.running = true ∧ td.pc ≠ .stop) ∧
      (new.stopped = true → ctx.stopped = true) ∧
      (td.pc.clean = false → new.txQueue = ctx.txQueue) ∧
      (new.port = ctx.port ∨ (new.port = none ∧ (td.pc = .detach ∨ td.pc = .detachClean))) := by
  obtain ⟨pc, port, caller, slot⟩ := td
  cases pc with
  | wait =>
      simp only [teardownNext] at h
      split_ifs at h
      cases h
      simp
  | testSelf | testTask | deleteQueue =>
      simp only [teardownNext] at h
      split_ifs at h <;> cases h <;> simp
  | stop | clearQueue | clearTask | clearStopped | detachClean | detach | retire =>
      cases h
      simp [TeardownPc.clean]

/-- How `port_ctx_teardown` comes to the statements that matter. -/
theorem teardownNext_pc {td : Teardown} {ctx new : Slot} {late : Bool} {pc : TeardownPc}
    (h : teardownNext td ctx late = some (new, some pc)) :
    (pc = .testTask → ctx.txTask = none ∨ ctx.stopped = true ∨ late = true) ∧
      (pc = .detach → (td.caller.isSome = true ∧ ctx.txTask = td.caller) ∨ td.pc = .testTask) ∧
      (pc = .retire → td.pc ≠ .retire ∧ new.port = none) ∧
      (pc ≠ .retire → td.pc ≠ .retire ∧ new.port = ctx.port) := by
  obtain ⟨tpc, port, caller, slot⟩ := td
  cases tpc with
  | wait =>
      simp only [teardownNext] at h
      split_ifs at h with hw
      cases h
      simpa using hw
  | testSelf | testTask | deleteQueue =>
      simp only [teardownNext] at h
      split_ifs at h with hc
      · cases h
        simp_all
      · cases h
        simp
  | stop | clearQueue | clearTask | clearStopped | detachClean | detach =>
      cases h
      simp
  | retire => cases h

/-- The registrations of `q` whose removal has returned, after a step of a removal of `q`. -/
theorem removed_le {pc' : Option TeardownPc} {k m : Nat} {p q : PortId}
    (hremoved : s'.removed = if pc'.isNone then
      Function.update s.removed q (max (s.removed q) (k + 1)) else s.removed)
    (h : s.removed p ≤ m) (hk : pc' = none → p = q → k + 1 ≤ m) : s'.removed p ≤ m := by
  cases pc' with
  | some pc => rwa [hremoved]
  | none =>
      rw [hremoved, Option.isNone_none, if_pos rfl]
      by_cases hp : p = q
      · subst hp
        rw [Function.update_self]
        exact Nat.max_le.mpr ⟨h, hk rfl rfl⟩
      · rwa [Function.update_of_ne hp]

/-- The last statement of a teardown. -/
theorem teardownNext_last {td : Teardown} {ctx new : Slot} {late : Bool}
    {pc' : Option TeardownPc} (h : teardownNext td ctx late = some (new, pc')) :
    (pc' = none → td.pc = .retire) ∧
      (td.pc = .retire → new.port = ctx.port ∧ new.running = ctx.running) := by
  refine ⟨fun heq => ?_, fun hpc => ?_⟩
  · subst heq
    obtain ⟨-, -, ⟨pc, hc, -⟩ | ⟨hc, -⟩ | ⟨-, hpc, -⟩⟩ := teardownNext_cases h
    · cases hc
    · cases hc
    · exact hpc
  · simp only [teardownNext, hpc] at h
    cases h
    exact ⟨rfl, rfl⟩

/-- A task in the slot of a teardown that makes a step. -/
theorem TaskOk.of_teardown {k : Nat} {td : Teardown} {ctx new : Slot} {pc' : Option TeardownPc}
    {t : TaskId} {pc : TaskPc} (htd : TeardownOk s k ctx td) (hclean : td.pc.clean = false)
    (hnext : teardownNext td ctx false = some (new, pc')) (hlease : s'.lease = s.lease)
    (ht : s.tasks t = some (td.slot, pc)) (h : TaskOk s t ctx pc) : TaskOk s' t new pc := by
  obtain ⟨hrun, -, -, hport⟩ := teardownNext_fields hnext
  refine ⟨fun hserv => ?_, fun hr => ?_, h.queue, by rw [hlease]; exact h.port⟩
  · rcases hport with heq | ⟨-, hpc | hpc⟩
    · rw [heq]
      exact h.serving hserv
    · rcases htd.left hpc t pc ht with rfl | ⟨-, hcall⟩
      · cases hserv
      · rw [not_serving_of_calling hcall] at hserv
        cases hserv
    · rw [hpc] at hclean
      cases hclean
  · by_cases hpc : td.pc = .retire
    · obtain ⟨hp, hrr⟩ := (teardownNext_last hnext).2 hpc
      rw [hp]
      exact h.running (hrr ▸ hr)
    · obtain ⟨hr₁, hr₂⟩ := hrun hr
      rw [htd.running hr₂ hpc] at hr₁
      cases hr₁

/-- A teardown that makes a step. -/
theorem TeardownOk.next (hr : RaceOk s) {k : Nat} {td : Teardown} {ctx new : Slot}
    {pc : TeardownPc} (h : TeardownOk s k ctx td) (hslot : ServeSlot s td.slot ctx)
    (hl : Local s s' td.slot ctx new) (htasks : s'.tasks = s.tasks)
    (hnext : teardownNext td ctx false = some (new, some pc)) :
    TeardownOk s' k new { td with pc } := by
  obtain ⟨hrun, -⟩ := teardownNext_fields hnext
  obtain ⟨hptest, hpdetach, hpretire, hpother⟩ := teardownNext_pc hnext
  have hrslot := hr.slot hl.old
  have hne : td.pc ≠ .retire := by
    by_cases hpc : pc = .retire
    · exact (hpretire hpc).1
    · exact (hpother hpc).1
  refine ⟨by rw [hl.lease]; exact h.lease, fun hpc => ?_, fun _ _ => ?_, fun hpc t pc ht => ?_,
    fun hpc t pc ht => ?_, by rw [htasks]; exact h.caller, fun hpc j b hb hbp => ?_⟩
  · rw [(hpother hpc).2]
    exact h.port hne
  · rw [Bool.eq_false_iff]
    intro hr'
    obtain ⟨hr₁, hr₂⟩ := hrun hr'
    rw [h.running hr₂ hne] at hr₁
    cases hr₁
  · rw [htasks] at ht
    rcases hptest hpc with hnone | hs | hc
    · rw [(hrslot.task t).mpr ⟨pc, ht⟩] at hnone
      cases hnone
    · exact hslot.stopped hs t pc ht
    · cases hc
  · rw [htasks] at ht
    rcases hpdetach hpc with ⟨-, hself⟩ | htest
    · right
      rw [(hrslot.task t).mpr ⟨pc, ht⟩] at hself
      obtain ⟨j, pc₁, ht₁, hcall⟩ := h.caller t hself.symm
      rw [ht] at ht₁
      cases ht₁
      exact ⟨hself.symm, hcall⟩
    · exact .inl (h.stopped htest t pc ht)
  · -- no other slot has the port, and this one has none any more
    rw [hl.slots, getElem?_set_some hl.old] at hb
    split_ifs at hb with hji
    · cases hb
      rw [(hpretire hpc).2] at hbp
      cases hbp
    · exact absurd hbp (hr.ports hl.old hb (Ne.symm hji) (h.port hne))

theorem serveOk_teardown (hr : RaceOk s) (h : ServeOk s) {k : Nat} {td : Teardown} {ctx new : Slot}
    {pc' : Option TeardownPc} (htd : s.teardowns k = some td)
    (hctx : s.router.slots[td.slot]? = some ctx)
    (hnext : teardownNext td ctx false = some (new, pc'))
    (hslots : s'.router.slots = s.router.slots.set td.slot new)
    (hid : s'.router.nextId = s.router.nextId) (htasks : s'.tasks = s.tasks)
    (hlease : s'.lease = s.lease) (hholder : s'.holder = s.holder)
    (htds : s'.teardowns = Function.update s.teardowns k (pc'.map fun pc => { td with pc }))
    (hremoved : s'.removed = if pc'.isNone then
      Function.update s.removed td.port (max (s.removed td.port) (k + 1)) else s.removed) :
    ServeOk s' := by
  obtain ⟨-, hst, hqueue, hporteq⟩ := teardownNext_fields hnext
  obtain ⟨hlast, hsame⟩ := teardownNext_last hnext
  obtain ⟨hport, htask, hstopped, hteardown⟩ := h.slot hctx
  have hok := hteardown k td htd rfl
  obtain ⟨hklt, -, hcur⟩ := hr.ending htd
  have hrslot := hr.slot hctx
  have hbump : ∀ j b p, s.router.slots[j]? = some b → b.port = some p →
      s'.removed p ≤ s.holder j := by
    intro j b p hb hp
    refine removed_le hremoved ((h.slot hb).port p hp).2 fun hnone heq => ?_
    subst heq
    exact hok.later (hlast hnone) j b hb hp
  have hl : Local s s' td.slot ctx new := by
    refine ⟨hctx, hslots, hporteq.imp_right And.left, hid, hlease, hholder,
      fun k' td' hne htd' => ?_, fun t j pc _ => by rw [htasks], fun j td t _ _ => by rw [htasks]⟩
    rw [htds] at htd'
    by_cases hk : k' = k
    · subst hk
      rw [Function.update_self] at htd'
      obtain ⟨pc, -, rfl⟩ := Option.map_eq_some_iff.mp htd'
      exact absurd rfl hne
    · rwa [Function.update_of_ne hk] at htd'
  refine h.of_local hl (fun j b p _ => hbump j b p)
    (fun p => removed_le hremoved (h.removed p) fun _ _ => hklt) ?_
  refine ⟨fun p hp => ?_, fun t pc ht => ?_, fun hs t pc ht => ?_, fun k' td' htd' hi => ?_⟩
  · have hcp : ctx.port = some p := by
      rcases hporteq with heq | ⟨hnone, -⟩
      · exact heq ▸ hp
      · rw [hnone] at hp
        cases hp
    rw [hlease, hholder]
    exact ⟨(hport p hcp).1, hbump td.slot ctx p hctx hcp⟩
  · rw [htasks] at ht
    obtain ⟨h₁, h₂, h₃⟩ := htask t pc ht
    -- while a task is there the teardown has not come to the clean path
    have hclean : td.pc.clean = false := by
      rcases hcur with hk | hpc
      · by_contra hc
        have hnone := hrslot.clean td.pc (pc_eq htd rfl hk) (by simpa using hc)
        rw [(hrslot.task t).mpr ⟨pc, ht⟩] at hnone
        cases hnone
      · rw [hpc]
        rfl
    rw [hholder, hqueue hclean]
    exact ⟨h₁, h₂, h₃.of_teardown hok hclean hnext hlease ht⟩
  · rw [htasks] at ht
    exact hstopped (hst hs) t pc ht
  · rw [htds] at htd'
    by_cases hk' : k' = k
    · subst hk'
      rw [Function.update_self] at htd'
      obtain ⟨pc, rfl, rfl⟩ := Option.map_eq_some_iff.mp htd'
      exact hok.next hr ⟨hport, htask, hstopped, hteardown⟩ hl htasks hnext
    · -- of the two teardowns of one slot the older one has come to its last statement
      rw [Function.update_of_ne hk'] at htd'
      have hone : td'.pc ≠ .retire → td.pc = .retire := by
        intro hpc
        refine hcur.resolve_left fun hk => ?_
        rw [← hi] at hk
        exact hk' (((hr.ending htd').2.2.resolve_right hpc).symm.trans hk)
      refine (hteardown k' td' htd' hi).of_local hl htd' (fun hpc => (hsame (hone hpc)).1)
        (fun _ hpc hfalse => ?_) fun _ t pc ht => by rwa [htasks] at ht
      rw [(hsame (hone hpc)).2]
      exact hfalse

/-! ### Port tasks -/

theorem removing_of_caller (hr : RaceOk s) {k : Nat} {td : Teardown} {t : TaskId}
    (htd : s.teardowns k = some td) (ht : td.caller = some t) : s.removing t = true := by
  unfold Race.removing
  rw [List.any_eq_true]
  exact ⟨k, List.mem_range.mpr (hr.ending htd).1, by simp [htd, ht]⟩

/-- A task that is in `ax25_router_remove_port` does not leave its callback. -/
theorem caller_waits (hr : RaceOk s) (h : ServeOk s) {k : Nat} {td : Teardown} {t : TaskId}
    (htd : s.teardowns k = some td) (hcaller : td.caller = some t) {i : Nat} {pc : TaskPc}
    (ht : s.tasks t = some (i, pc)) (ctx : Slot) (late : Bool) :
    taskNext s t pc ctx late = none := by
  have hslot := List.getElem?_eq_getElem (hr.ending htd).2.1
  obtain ⟨i', pc₁, ht₁, hcall⟩ := ((h.slot hslot).teardown k td htd rfl).caller t hcaller
  rw [ht] at ht₁
  cases ht₁
  cases pc with
  | calling => simp [taskNext, removing_of_caller hr htd hcaller]
  | _ => cases hcall

/-- Where a port task goes next. -/
theorem taskNext_pc {t : TaskId} {pc : TaskPc} {ctx new : Slot} {late : Bool} {pc' : Option TaskPc}
    (h : taskNext s t pc ctx late = some (new, pc')) (htq : ctx.txQueue = some t)
    (hport : ∀ p, ctx.port = some p → p = s.lease t) (hok : TaskOk s t ctx pc) :
    (new.running = true → ctx.running = true) ∧
      (new.stopped = true → ctx.stopped = true ∨ pc' = some .clearing) ∧
      ∀ pc₁, pc' = some pc₁ → TaskOk s t ctx pc₁ := by
  obtain ⟨hserv, hrun, hqueue, hfound⟩ := hok
  cases pc with
  | start =>
      cases h
      refine ⟨id, .inl, fun pc₁ hpc₁ => ?_⟩
      cases late <;> cases hpc₁ <;> exact .of_idle rfl rfl rfl hrun
  | test =>
      cases h
      refine ⟨id, .inl, fun pc₁ hpc₁ => ?_⟩
      split_ifs at hpc₁ with hr <;> cases hpc₁
      · exact .of_serving (fun _ => hrun hr) hrun (fun q hq => by cases hq) rfl
      · exact .of_idle rfl rfl rfl hrun
  | receive =>
      obtain ⟨q, hq, hpair⟩ := Option.map_eq_some_iff.mp h
      cases hpair
      refine ⟨id, .inl, fun pc₁ hpc₁ => ?_⟩
      cases hpc₁
      refine .of_serving (fun _ => hserv rfl) hrun (fun q' hq' => ?_) rfl
      cases hq'
      exact Option.some.inj (hq.symm.trans htq)
  | blocked q =>
      simp only [taskNext] at h
      split_ifs at h
      · cases h
        refine ⟨id, .inl, fun pc₁ hpc₁ => ?_⟩
        cases hpc₁
        exact .of_idle rfl rfl rfl hrun
      · split at h
        · cases h
          refine ⟨id, .inl, fun pc₁ hpc₁ => ?_⟩
          cases hpc₁
          exact .of_serving (fun _ => hserv rfl) hrun hqueue rfl
        · cases h
  | got q f =>
      simp only [taskNext] at h
      split at h
      · cases h
        refine ⟨id, .inl, fun pc₁ hpc₁ => ?_⟩
        cases hpc₁
        exact .of_idle rfl rfl rfl hrun
      · rename_i p hp
        cases h
        refine ⟨id, .inl, fun pc₁ hpc₁ => ?_⟩
        cases hpc₁
        refine ⟨fun _ => hserv rfl, hrun, hqueue, fun p' hp' => ?_⟩
        cases hp'
        exact hport p hp
  | found p q f =>
      cases h
      refine ⟨id, .inl, fun pc₁ hpc₁ => ?_⟩
      cases hpc₁
      exact .of_idle rfl rfl rfl hrun
  | calling p q f =>
      simp only [taskNext] at h
      split_ifs at h
      cases h
      refine ⟨id, .inl, fun pc₁ hpc₁ => ?_⟩
      cases hpc₁
      exact .of_idle rfl rfl rfl hrun
  | exiting =>
      simp only [taskNext] at h
      split_ifs at h
      cases h
      refine ⟨id, fun _ => .inr rfl, fun pc₁ hpc₁ => ?_⟩
      cases hpc₁
      exact .of_idle rfl rfl rfl hrun
  | failing =>
      simp only [taskNext] at h
      split_ifs at h
      cases h
      refine ⟨fun hc => (by cases hc), .inl, fun pc₁ hpc₁ => ?_⟩
      cases hpc₁
      exact .of_idle rfl rfl rfl hrun
  | stopping =>
      cases h
      refine ⟨id, fun _ => .inr rfl, fun pc₁ hpc₁ => ?_⟩
      cases hpc₁
      exact .of_idle rfl rfl rfl hrun
  | clearing =>
      cases h
      exact ⟨id, .inl, fun pc₁ hpc₁ => by cases hpc₁⟩

theorem serveOk_task (hr : RaceOk s) (h : ServeOk s) {t : TaskId} {i : Nat} {pc : TaskPc}
    {ctx new : Slot} {late : Bool} {pc' : Option TaskPc} (ht : s.tasks t = some (i, pc))
    (hctx : s.router.slots[i]? = some ctx) (hnext : taskNext s t pc ctx late = some (new, pc'))
    (hslots : s'.router.slots = s.router.slots.set i new)
    (hid : s'.router.nextId = s.router.nextId)
    (htasks : s'.tasks = Function.update s.tasks t (pc'.map fun pc => (i, pc)))
    (hlease : s'.lease = s.lease) (hholder : s'.holder = s.holder)
    (htds : s'.teardowns = s.teardowns) (hremoved : s'.removed = s.removed) : ServeOk s' := by
  obtain ⟨hport, htask, hstopped, hteardown⟩ := h.slot hctx
  obtain ⟨hheld, htq, hok⟩ := htask t pc ht
  have hown : ∀ p, ctx.port = some p → p = s.lease t := by
    intro p hp
    rw [← hheld]
    exact (hport p hp).1
  obtain ⟨hrun, hst, hnextok⟩ := taskNext_pc hnext htq hown hok
  obtain ⟨hporteq, hqueueeq, -, -⟩ := taskNext_cases hnext
  have hclearing : pc = .clearing → pc' = none := by
    intro heq
    subst heq
    cases hnext
    rfl
  -- the task is the only one on its slot
  have honly : ∀ t' pc₁, s'.tasks t' = some (i, pc₁) → t' = t ∧ pc' = some pc₁ := by
    intro t' pc₁ ht'
    rw [htasks, update_task ht] at ht'
    rcases ht' with ⟨heq, -, hpc⟩ | ⟨hne, ht'⟩
    · exact ⟨heq, hpc⟩
    · exact absurd ((htask t' pc₁ ht').1.symm.trans hheld) hne
  have hcallers : ∀ j td t', s.teardowns j = some td → td.caller = some t' →
      s'.tasks t' = s.tasks t' := by
    intro j td t' htd hc
    rw [htasks]
    by_cases heq : t' = t
    · subst heq
      rw [caller_waits hr h htd hc ht] at hnext
      cases hnext
    · rw [Function.update_of_ne heq]
  have hl : Local s s' i ctx new := by
    refine ⟨hctx, hslots, .inl hporteq, hid, hlease, hholder, fun k td _ => by rw [htds]; exact id,
      fun t' j pc₁ hj => ?_, hcallers⟩
    rw [htasks, update_task ht]
    constructor
    · rintro (⟨-, hji, -⟩ | ⟨-, ht'⟩)
      · exact absurd hji hj
      · exact ht'
    · intro ht'
      refine .inr ⟨?_, ht'⟩
      intro heq
      subst heq
      rw [ht] at ht'
      cases ht'
      exact hj rfl
  refine h.of_local hl (fun j b p _ hb hp => ?_) (fun p => ?_) ?_
  · rw [hremoved]
    exact ((h.slot hb).port p hp).2
  · rw [hremoved]
    exact h.removed p
  · refine ⟨fun p hp => ?_, fun t' pc₁ ht' => ?_, fun hs t' pc₁ ht' => ?_, fun k td htd hi => ?_⟩
    · rw [hlease, hholder, hremoved]
      exact hport p (hporteq ▸ hp)
    · obtain ⟨rfl, hpc⟩ := honly t' pc₁ ht'
      obtain ⟨h₁, h₂, h₃, h₄⟩ := hnextok pc₁ hpc
      rw [hholder, hqueueeq]
      refine ⟨hheld, htq, ?_, ?_, h₃, by rw [hlease]; exact h₄⟩
      · rw [hporteq]
        exact h₁
      · rw [hporteq]
        exact fun hr' => h₂ (hrun hr')
    · obtain ⟨rfl, hpc⟩ := honly t' pc₁ ht'
      rcases hst hs with hs | hs
      · rw [hclearing (hstopped hs t' pc ht)] at hpc
        cases hpc
      · exact (Option.some.inj (hs.symm.trans hpc)).symm
    · rw [htds] at htd
      obtain ⟨h₁, h₂, h₃, h₄, h₅, h₆, h₇⟩ := hteardown k td htd hi
      rw [hi] at h₄ h₅
      refine ⟨by rw [hlease]; exact h₁, by rw [hporteq]; exact h₂, fun hs hne => ?_,
        fun hpc t' pc₁ ht' => ?_, fun hpc t' pc₁ ht' => ?_, fun t' hc => ?_,
        fun hpc j b hb hbp => ?_⟩
      · rw [Bool.eq_false_iff]
        intro hr'
        have hfalse := hrun hr'
        rw [h₃ hs hne] at hfalse
        cases hfalse
      · rw [hi] at ht'
        obtain ⟨rfl, hpc'⟩ := honly t' pc₁ ht'
        rw [hclearing (h₄ hpc t' pc ht)] at hpc'
        cases hpc'
      · rw [hi] at ht'
        obtain ⟨rfl, hpc'⟩ := honly t' pc₁ ht'
        rcases h₅ hpc t' pc ht with hc | ⟨hc, -⟩
        · rw [hclearing hc] at hpc'
          cases hpc'
        · rw [caller_waits hr h htd hc ht] at hnext
          cases hnext
      · rw [hcallers k td t' htd hc]
        exact h₆ t' hc
      · obtain ⟨b', hb', hbp'⟩ := hl.ports hb hbp
        rw [hholder]
        exact h₇ hpc j b' hb' hbp'

/-! ### Registering and removing -/

/-- A teardown that has come to its last statement looks at the registrations of its port
only. -/
theorem TeardownOk.of_last {k : Nat} {td : Teardown} {ctx ctx' : Slot} (h : TeardownOk s k ctx td)
    (hlast : td.pc = .retire) (hlease : s'.lease k = s.lease k)
    (hcaller : ∀ t j pc, s.tasks t = some (j, pc) → s'.tasks t = some (j, pc))
    (hlater : ∀ (j : Nat) (b : Slot), s'.router.slots[j]? = some b → b.port = some td.port →
      k < s'.holder j) : TeardownOk s' k ctx' td where
  lease := hlease.trans h.lease
  port hpc := absurd hlast hpc
  running _ hpc := absurd hlast hpc
  stopped hpc := by
    rw [hlast] at hpc
    cases hpc
  left hpc := by
    rw [hlast] at hpc
    cases hpc
  caller t ht := by
    obtain ⟨j, pc, htask, hcall⟩ := h.caller t ht
    exact ⟨j, pc, hcaller t j pc htask, hcall⟩
  later _ := hlater

theorem serveOk_register (hr : RaceOk s) (h : ServeOk s) {p : PortId} {i : Nat} {ctx : Slot}
    (hrep : SlotReplaced s.router s'.router i ctx (.fresh p s.router.nextId))
    (hfree : (s.pc i = none ∨ s.pc i = some .retire) ∧ ∀ t pc, s.tasks t ≠ some (i, pc))
    (hid : s'.router.nextId = s.router.nextId + 1)
    (htasks : s'.tasks = Function.update s.tasks s.router.nextId (some (i, .start)))
    (hlease : s'.lease = Function.update s.lease s.router.nextId p)
    (hholder : s'.holder = Function.update s.holder i s.router.nextId)
    (htds : s'.teardowns = s.teardowns) (hremoved : s'.removed = s.removed) : ServeOk s' := by
  have hleaseold : ∀ k < s.router.nextId, s'.lease k = s.lease k := by
    intro k hk
    rw [hlease, Function.update_of_ne (Nat.ne_of_lt hk)]
  have htaskold : ∀ t j pc, j ≠ i → s'.tasks t = some (j, pc) → s.tasks t = some (j, pc) := by
    intro t j pc hj ht
    rw [htasks] at ht
    by_cases htn : t = s.router.nextId
    · subst htn
      rw [Function.update_self] at ht
      cases ht
      exact absurd rfl hj
    · rwa [Function.update_of_ne htn] at ht
  have htasknew : ∀ t pc, s'.tasks t = some (i, pc) → t = s.router.nextId ∧ pc = .start := by
    intro t pc ht
    rw [htasks] at ht
    by_cases htn : t = s.router.nextId
    · subst htn
      rw [Function.update_self] at ht
      cases ht
      exact ⟨rfl, rfl⟩
    · rw [Function.update_of_ne htn] at ht
      exact absurd ht (hfree.2 t pc)
  have hcaller : ∀ t j pc, s.tasks t = some (j, pc) → s'.tasks t = some (j, pc) := by
    intro t j pc ht
    rw [htasks, Function.update_of_ne (Nat.ne_of_lt (hr.range ht).1)]
    exact ht
  -- a registration that is made now is later than all that are torn down
  have hlater : ∀ k td, s.teardowns k = some td → td.pc = .retire → ∀ (j : Nat) (b : Slot),
      s'.router.slots[j]? = some b → b.port = some td.port → k < s'.holder j := by
    intro k td htd hpc j b hb hbp
    obtain ⟨hk, hslot, -⟩ := hr.ending htd
    rw [hrep.slots, getElem?_set_some hrep.old] at hb
    rw [hholder]
    split_ifs at hb with hji
    · subst hji
      rw [Function.update_self]
      exact hk
    · rw [Function.update_of_ne hji]
      exact ((h.slot (List.getElem?_eq_getElem hslot)).teardown k td htd rfl).later hpc j b hb hbp
  refine ⟨fun {j b} hb => ?_, fun q => ?_⟩
  · rw [hrep.slots, getElem?_set_some hrep.old] at hb
    split_ifs at hb with hji
    · subst hji
      cases hb
      refine ⟨fun q hq => ?_, fun t pc ht => ?_, fun hc => (by cases hc), fun k td htd hj => ?_⟩
      · cases hq
        rw [hlease, hholder, Function.update_self, Function.update_self, hremoved]
        exact ⟨rfl, h.removed p⟩
      · obtain ⟨rfl, rfl⟩ := htasknew t pc ht
        rw [hholder, Function.update_self]
        exact ⟨rfl, rfl, .of_idle rfl rfl rfl fun _ => Option.some_ne_none p⟩
      · rw [htds] at htd
        have hlast := hr.only_last hfree.1 htd hj
        exact ((h.slot hrep.old).teardown k td htd hj).of_last hlast (hleaseold k (hr.ending htd).1)
          hcaller (hlater k td htd hlast)
    · obtain ⟨hport, htask, hstopped, hteardown⟩ := h.slot hb
      have hkeep : s'.holder j = s.holder j := by rw [hholder, Function.update_of_ne hji]
      refine ⟨fun q hq => ?_, fun t pc ht => ?_, fun hs t pc ht => ?_, fun k td htd hj => ?_⟩
      · have hlt := (hr.slot hb).held (by rw [hq]; exact Option.some_ne_none q)
        rw [hkeep, hleaseold _ hlt, hremoved]
        exact hport q hq
      · have ht' := htaskold t j pc hji ht
        obtain ⟨h₁, h₂, h₃, h₄, h₅, h₆⟩ := htask t pc ht'
        rw [hkeep]
        refine ⟨h₁, h₂, h₃, h₄, h₅, ?_⟩
        rw [hleaseold t (hr.range ht').1]
        exact h₆
      · exact hstopped hs t pc (htaskold t j pc hji ht)
      · rw [htds] at htd
        obtain ⟨h₁, h₂, h₃, h₄, h₅, h₆, -⟩ := hteardown k td htd hj
        have hne : td.slot ≠ i := fun hi => hji (hj.symm.trans hi)
        refine ⟨(hleaseold k (hr.ending htd).1).trans h₁, h₂, h₃,
          fun hpc t pc ht => h₄ hpc t pc (htaskold t td.slot pc hne ht),
          fun hpc t pc ht => h₅ hpc t pc (htaskold t td.slot pc hne ht), fun t hc => ?_,
          hlater k td htd⟩
        obtain ⟨l, pc, ht, hcall⟩ := h₆ t hc
        exact ⟨l, pc, hcaller t l pc ht, hcall⟩
  · rw [hremoved, hid]
    exact Nat.le_succ_of_le (h.removed q)

theorem serveOk_refused (hr : RaceOk s) (h : ServeOk s) {i : Nat} {ctx : Slot} {running : Bool}
    (hrep : SlotReplaced s.router s'.router i ctx { running })
    (hfree : (s.pc i = none ∨ s.pc i = some .retire) ∧ ∀ t pc, s.tasks t ≠ some (i, pc))
    (hid : s'.router.nextId = s.router.nextId) (htasks : s'.tasks = s.tasks)
    (hlease : s'.lease = s.lease) (hholder : s'.holder = s.holder)
    (htds : s'.teardowns = s.teardowns) (hremoved : s'.removed = s.removed) : ServeOk s' := by
  have hl : Local s s' i ctx { running } :=
    ⟨hrep.old, hrep.slots, .inr rfl, hid, hlease, hholder, fun k td _ => by rw [htds]; exact id,
      fun t j pc _ => by rw [htasks], fun j td t _ _ => by rw [htasks]⟩
  refine h.of_local hl (fun j b p _ hb hp => ?_) (fun p => ?_) ?_
  · rw [hremoved]
    exact ((h.slot hb).port p hp).2
  · rw [hremoved]
    exact h.removed p
  · refine ⟨fun p hp => (by cases hp), fun t pc ht => ?_, fun hs => (by cases hs),
      fun k td htd hi => ?_⟩
    · rw [htasks] at ht
      exact absurd ht (hfree.2 t pc)
    · rw [htds] at htd
      have hlast := hr.only_last hfree.1 htd hi
      exact ((h.slot hrep.old).teardown k td htd hi).of_local hl htd (absurd hlast)
        (fun _ hpc => absurd hlast hpc) (absurd hlast)

theorem serveOk_remove (h : ServeOk s) {i : Nat} {ctx : Slot} {p : PortId}
    {caller : Option TaskId} (hctx : s.router.slots[i]? = some ctx) (hp : ctx.port = some p)
    (hcaller : ∀ t, caller = some t → ∃ j pc, s.tasks t = some (j, pc) ∧ pc.isCalling = true)
    (hrouter : s'.router = s.router) (htasks : s'.tasks = s.tasks) (hlease : s'.lease = s.lease)
    (hholder : s'.holder = s.holder) (hremoved : s'.removed = s.removed)
    (htds : s'.teardowns = Function.update s.teardowns (s.holder i)
      (some { pc := .stop, port := p, caller, slot := i })) : ServeOk s' := by
  obtain ⟨hport, htask, hstopped, hteardown⟩ := h.slot hctx
  have hcases : ∀ k td, s'.teardowns k = some td →
      (k = s.holder i ∧ td = { pc := .stop, port := p, caller, slot := i }) ∨
        s.teardowns k = some td := by
    intro k td htd
    rw [htds] at htd
    by_cases hk : k = s.holder i
    · subst hk
      rw [Function.update_self] at htd
      exact .inl ⟨rfl, (Option.some.inj htd).symm⟩
    · rw [Function.update_of_ne hk] at htd
      exact .inr htd
  have hl : Local s s' i ctx ctx := by
    refine ⟨hctx, by rw [hrouter, set_of_getElem? hctx], .inl rfl, by rw [hrouter], hlease, hholder,
      fun k td hne htd => ?_, fun t j pc _ => by rw [htasks], fun j td t _ _ => by rw [htasks]⟩
    rcases hcases k td htd with ⟨-, rfl⟩ | htd
    · exact absurd rfl hne
    · exact htd
  refine h.of_local hl (fun j b p _ hb hp => ?_) (fun p => ?_) ?_
  · rw [hremoved]
    exact ((h.slot hb).port p hp).2
  · rw [hremoved]
    exact h.removed p
  · refine ⟨fun q hq => ?_, fun t pc ht => ?_, by rw [htasks]; exact hstopped,
      fun k td htd hi => ?_⟩
    · rw [hlease, hholder, hremoved]
      exact hport q hq
    · rw [htasks] at ht
      obtain ⟨h₁, h₂, h₃, h₄, h₅, h₆⟩ := htask t pc ht
      rw [hholder]
      exact ⟨h₁, h₂, h₃, h₄, h₅, by rw [hlease]; exact h₆⟩
    · rcases hcases k td htd with ⟨rfl, rfl⟩ | htd
      · refine ⟨?_, fun _ => hp, fun hc => absurd rfl hc, fun hc => (by cases hc),
          fun hc => (by cases hc), by rw [htasks]; exact hcaller, fun hc => (by cases hc)⟩
        rw [hlease]
        exact (hport p hp).1.symm
      · exact (hteardown k td htd hi).of_local hl htd (fun _ => rfl) (fun _ _ => id)
          fun _ t pc ht => by rwa [htasks] at ht

theorem mayCall_calling {caller : Option TaskId} (h : s.mayCall caller = true) :
    ∀ t, caller = some t → ∃ j pc, s.tasks t = some (j, pc) ∧ pc.isCalling = true := by
  rintro t rfl
  unfold Race.mayCall at h
  dsimp only at h
  split at h
  · rename_i j p q f ht
    exact ⟨j, _, ht, rfl⟩
  · cases h

theorem serveOk_step (hr : RaceOk s) (h : ServeOk s) {e : RaceEvent} (hok : s.Orderly e)
    (hs : s.step e = some s') : ServeOk s' := by
  cases race_step hs with
  | idle => exact h
  | registered hpass hrep hid =>
      exact serveOk_register hr h hrep (handed_free hr hok.2 hpass hrep) hid rfl rfl rfl rfl rfl
  | refused hpass hrep hid =>
      exact serveOk_refused hr h hrep (handed_free hr hok.2 hpass hrep) hid rfl rfl rfl rfl rfl
  | sent f source =>
      obtain ⟨hslots, hid, -⟩ := routerSend_frame s.router f source
      exact h.of_quiet hslots rfl rfl hid rfl rfl rfl
  | removed hctx hp hcall _ =>
      exact serveOk_remove h hctx hp (mayCall_calling hcall) rfl rfl rfl rfl rfl rfl
  | @teardown k late td ctx new pc htd hctx hnext =>
      obtain rfl : late = false := by simpa [Race.InTime, RaceEvent.inTime] using hok.1
      obtain ⟨hslots, hid, -⟩ := teardownEffect_frame s.router td.pc ctx
      exact serveOk_teardown hr h htd hctx hnext (by simp [Router.setSlot, hslots]) hid rfl rfl rfl
        rfl rfl
  | @task t late i pc ctx new pc' ht hctx hnext =>
      obtain ⟨hslots, hid, -⟩ := taskEffect_frame s.router pc late
      exact serveOk_task hr h ht hctx hnext (by simp [Router.setSlot, hslots]) hid rfl rfl rfl rfl
        rfl
  | written => exact h.of_quiet rfl rfl rfl rfl rfl rfl rfl

theorem serveOk_init (h : s.IsInit) : ServeOk s := by
  obtain ⟨maxPorts, queueDepth, ports, rfl⟩ := h
  refine ⟨fun {i ctx} hctx => ?_, fun p => Nat.le_refl _⟩
  have hslot : ctx = {} := List.eq_of_mem_replicate (List.mem_of_getElem? hctx)
  subst hslot
  exact ⟨fun p hp => (by cases hp), fun t pc ht => (by cases ht), fun hs => (by cases hs),
    fun k td htd => (by cases htd)⟩

/-- What is written once stays: the lease of a registration, and what is removed. -/
structure Later (s s' : Race) : Prop where
  nextId : s.router.nextId ≤ s'.router.nextId
  removed : ∀ p, s.removed p ≤ s'.removed p
  lease : ∀ k < s.router.nextId, s'.lease k = s.lease k

theorem later_step {e : RaceEvent} (hs : s.step e = some s') : Later s s' := by
  cases race_step hs with
  | idle | written => exact ⟨Nat.le_refl _, fun _ => Nat.le_refl _, fun _ _ => rfl⟩
  | registered _ _ hid =>
      refine ⟨by simp [hid], fun _ => Nat.le_refl _, fun k hk => ?_⟩
      exact Function.update_of_ne (Nat.ne_of_lt hk) _ _
  | refused _ _ hid => exact ⟨Nat.le_of_eq hid.symm, fun _ => Nat.le_refl _, fun _ _ => rfl⟩
  | sent f source =>
      exact ⟨Nat.le_of_eq (routerSend_frame s.router f source).2.1.symm, fun _ => Nat.le_refl _,
        fun _ _ => rfl⟩
  | removed => exact ⟨Nat.le_refl _, fun _ => Nat.le_refl _, fun _ _ => rfl⟩
  | @teardown k late td ctx new pc =>
      refine ⟨Nat.le_of_eq (teardownEffect_frame s.router td.pc ctx).2.1.symm, fun p => ?_,
        fun _ _ => rfl⟩
      dsimp only
      split_ifs
      · by_cases hp : p = td.port
        · subst hp
          rw [Function.update_self]
          exact Nat.le_max_left _ _
        · exact Nat.le_of_eq (Function.update_of_ne hp _ _).symm
      · exact Nat.le_refl _
  | @task t late i pc =>
      exact ⟨Nat.le_of_eq (taskEffect_frame s.router pc late).2.1.symm, fun _ => Nat.le_refl _,
        fun _ _ => rfl⟩

theorem later_run {ok : Race → RaceEvent → Prop} (h : Reach (· = s) Race.step ok s') :
    Later s s' := by
  induction h with
  | start heq =>
      subst heq
      exact ⟨Nat.le_refl _, fun _ => Nat.le_refl _, fun _ _ => rfl⟩
  | next e _ _ hs ih =>
      have hstep := later_step hs
      refine ⟨Nat.le_trans ih.nextId hstep.nextId,
        fun p => Nat.le_trans (ih.removed p) (hstep.removed p), fun k hk => ?_⟩
      rw [hstep.lease k (Nat.lt_of_lt_of_le hk ih.nextId), ih.lease k hk]

end Keep

/-! ### After a removal -/

theorem orderly_ok {s : Race} (h : Reach Race.IsInit Race.step Race.Orderly s) :
    RaceOk s ∧ ServeOk s :=
  h.invariant (I := fun s => RaceOk s ∧ ServeOk s)
    (fun _ hi => ⟨raceOk_init hi, serveOk_init hi⟩) fun _ _ _ hi hok hs =>
    ⟨raceOk_step hi.1 hok.2 hs, serveOk_step hi.1 hi.2 hok hs⟩

/-- **No delivery after removal.** Let `ax25_router_remove_port` for registration `k` of the
port `td.port` return with the step from `s₁` to `s₂`. What a port task is about to deliver
at any later time is a frame from the queue of a registration of the port it is delivered
to; that registration is not the removed one and, for the removed port, it was made after
it. -/
theorem no_delivery_after_removal {s₁ s₂ s₃ : Race} {k : Nat} {late : Bool} {td : Teardown}
    (h : Reach Race.IsInit Race.step Race.Orderly s₁) (htd : s₁.teardowns k = some td)
    (hok : s₁.Orderly (.teardown k late)) (hs : s₁.step (.teardown k late) = some s₂)
    (hret : s₂.teardowns k = none) (hrun : Reach (· = s₂) Race.step Race.Orderly s₃) {t : TaskId}
    {j : Nat} {p : PortId} {q : QueueId} {f : Frame}
    (hfound : s₃.tasks t = some (j, .found p q f)) :
    s₃.lease q = p ∧ q ≠ k ∧ (p = td.port → k < q) := by
  obtain ⟨hrace₁, hserve₁⟩ := orderly_ok h
  have h₂ := h.next (.teardown k late) hok hs
  obtain ⟨hrace, hserve⟩ := orderly_ok (h₂.trans hrun)
  have hlater := later_run hrun
  -- the registration that the task serves
  obtain ⟨ctx, hctx⟩ : ∃ ctx, s₃.router.slots[j]? = some ctx :=
    ⟨_, List.getElem?_eq_getElem (hrace.range hfound).2⟩
  obtain ⟨hport, htask, -, -⟩ := hserve.slot hctx
  obtain ⟨hheld, -, hserv, -, hqueue, hlease⟩ := htask t _ hfound
  obtain rfl : q = t := hqueue q rfl
  obtain rfl : p = s₃.lease q := hlease p rfl
  obtain ⟨p', hp'⟩ := Option.ne_none_iff_exists'.mp (hserv rfl)
  obtain ⟨hp'', hrem⟩ := hport p' hp'
  rw [hheld] at hp'' hrem
  subst hp''
  -- the registration that was removed
  obtain ⟨hklt, hslot, -⟩ := hrace₁.ending htd
  have hklease := ((hserve₁.slot (List.getElem?_eq_getElem hslot)).teardown k td htd rfl).lease
  have hstep := later_step hs
  have hremoved₂ : k + 1 ≤ s₂.removed td.port := by
    unfold Race.step at hs
    simp only [htd, List.getElem?_eq_getElem hslot] at hs
    split at hs
    · cases hs
    · rename_i new pc' hnext
      cases hs
      cases pc' with
      | some pc => simp at hret
      | none =>
          simp only [Option.isNone_none, if_true, Function.update_self]
          exact Nat.le_max_right _ _
  have hlt : s₃.lease q = td.port → k < q := by
    intro heq
    rw [heq] at hrem
    exact Nat.lt_of_lt_of_le hremoved₂ (Nat.le_trans (hlater.removed td.port) hrem)
  refine ⟨rfl, ?_, hlt⟩
  intro heq
  subst heq
  refine Nat.lt_irrefl _ (hlt ?_)
  rw [hlater.lease _ (Nat.lt_of_lt_of_le hklt hstep.nextId), hstep.lease _ hklt, hklease]

/-- When the task of port 0 is gone, port 2 may have the slot before the last statement of
the teardown, which then retires it. -/
example :
    ((replay Race.step Race.Orderly sampleRace
      (queueDeleted ++ [.teardown 0 false, .teardown 0 false, .teardown 0 false, .teardown 0 false,
        .register 2 {}, .teardown 0 false])).bind fun s => s.router.slots[0]?).map
        (fun ctx => (ctx.port, ctx.retired)) = some (some 2, true) := by
  decide

/-- Port 0 is removed from its own callback, up to the last statement of the teardown. -/
def selfRemoved : Race := (replay Race.step Race.Orderly sampleRace selfDetached).getD sampleRace

/-- The removal returns. -/
def removalReturned : Race := (selfRemoved.step (.teardown 0 false)).getD sampleRace

/-- The task of port 0 exits, and port 2 gets the slot and a frame. -/
def slotReused : List RaceEvent :=
  [.task 0 false, .task 0 false, .task 0 false, .task 0 false, .register 2 {}, .task 1 false,
    .task 1 false, .task 1 false, .send frameInit 1, .task 1 false, .task 1 false]

theorem no_delivery_after_removal_reuse :
    ∃ s₃, Reach (· = removalReturned) Race.step Race.Orderly s₃ ∧
      s₃.tasks 1 = some (0, .found 2 1 frameInit) ∧ s₃.lease 1 = 2 := by
  have hreach : Reach Race.IsInit Race.step Race.Orderly selfRemoved :=
    Reach.replay (.start sampleRace_isInit)
      (show replay Race.step Race.Orderly sampleRace selfDetached = some selfRemoved from rfl)
  have hrun : replay Race.step Race.Orderly removalReturned slotReused = some _ := rfl
  have hstart : Reach (· = removalReturned) Race.step Race.Orderly removalReturned := .start rfl
  have hlater := hstart.replay hrun
  have hok : selfRemoved.Orderly (.teardown 0 false) := ⟨rfl, rfl⟩
  have hstep : selfRemoved.step (.teardown 0 false) = some removalReturned := rfl
  exact ⟨_, hlater, rfl,
    (no_delivery_after_removal hreach rfl hok hstep rfl hlater (t := 1) (j := 0) (f := frameInit)
      rfl).1⟩

/-- Port 0 is removed from its own callback while port 2 gets the slot. The task of
port 0 goes on in the loop, with a frame for port 2. Then port 2 is removed by another
task, which waits for the other port task only. -/
def staleTask : List RaceEvent :=
  selfDetached ++
    [.register 2 {}, .teardown 0 false, .task 0 false, .task 0 false, .task 0 false,
      .send frameInit 1, .task 0 false, .task 0 false, .remove 2 none, .teardown 1 false,
      .teardown 1 false, .task 1 false, .task 1 false, .task 1 false, .task 1 false,
      .teardown 1 false, .teardown 1 false, .teardown 1 false, .teardown 1 false,
      .teardown 1 false, .teardown 1 false, .teardown 1 false]

/-- **A callback after removal.** `ax25_router_remove_port` returns for port 2, and a
port task is about to call its callback. -/
theorem delivery_after_removal :
    ∃ s₁ s₂ td, Reach Race.IsInit Race.step Race.InTime s₁ ∧ s₁.teardowns 1 = some td ∧
      td.port = 2 ∧ s₁.step (.teardown 1 false) = some s₂ ∧ s₂.teardowns 1 = none ∧
      s₂.tasks 0 = some (0, .found 2 1 frameInit) := by
  have hrun : replay Race.step Race.InTime sampleRace staleTask = some _ := rfl
  exact ⟨_, _, _, Reach.replay (.start sampleRace_isInit) hrun, rfl, rfl, rfl, rfl, rfl⟩

end EspAx25
