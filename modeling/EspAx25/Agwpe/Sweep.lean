import Mathlib.Data.Fintype.Basic
import Mathlib.Logic.Function.Basic
import EspAx25.Transition

/-!
# EspAx25.Agwpe.Sweep

The cleanup of released connection slots (`ax25_agwpe_server.c`, `ax25_conn_deinit` of
`ax25_conn.c`).

`conn_on_disconnect` frees a slot and leaves its connection to
`sweep_released_conn_slots`, which every task runs at the end of its work on the server,
without the server mutex. `alloc_conn_slot` deinitialises what is left of the connection
of the slot that it takes, with the mutex.

* `κ` are the slots, `τ` the tasks. A task goes over the slots one after the other; here
  it may take up any slot at any time.
* Every step of a task is a read, a write or a call that the source makes: the reads of the
  two flags, the test and the check of `initialized`, the section that clears it, the
  release steps of `ax25_conn_deinit`, and what follows. So are the two writes of
  `conn_on_disconnect`.
* `closing`, `releases` and `intruded` are not in the source. They tell where
  `conn_on_disconnect` is, count how often the release steps have been executed since the
  last `ax25_conn_init`, and tell whether a sweep has worked on the connection of a slot in
  use.

The paths that deinitialise a connection in use before they free its slot, under the
mutex, are left out.
-/

namespace EspAx25.Sweep

open Transition

/-- The part of `agwpe_conn_slot_t` that the cleanup looks at. -/
structure Slot where
  inUse : Bool := false
  connNeedsCleanup : Bool := false
  /-- `conn.initialized`. -/
  initialized : Bool := false
  /-- `conn_on_disconnect` is between its two writes. -/
  closing : Bool := false
  releases : Nat := 0
  deriving DecidableEq

/-- What a task is doing with a slot. -/
inductive Role
  /-- `sweep_released_conn_slots`. -/
  | sweep
  /-- `alloc_conn_slot`, and `ax25_conn_init` afterwards. -/
  | alloc
  deriving Repr, DecidableEq

inductive Pc
  /-- Between `slot->in_use` and `slot->conn_needs_cleanup`. -/
  | look
  /-- Before `if (slot->conn.initialized)`. -/
  | test
  /-- In `ax25_conn_deinit`, before `!ctx->initialized`. -/
  | check
  /-- Before `ctx->initialized = false`. -/
  | mark
  /-- Before the timers, the mutex and the pool are deleted. -/
  | release
  /-- Before `conn_needs_cleanup = false`, or before `memset` and `in_use = true`. -/
  | finish
  /-- Before `ax25_conn_init`. -/
  | init
  deriving Repr, DecidableEq

structure Job (κ : Type) where
  role : Role
  slot : κ
  pc : Pc
  deriving DecidableEq

structure State (κ τ : Type) where
  slot : κ → Slot
  job : τ → Option (Job κ)
  /-- Who holds `srv->mutex`. -/
  holder : Option τ
  intruded : Bool

inductive Event (κ τ : Type)
  /-- `slot->conn_needs_cleanup = true` of `conn_on_disconnect`. -/
  | disconnect (i : κ)
  /-- `free_conn_slot` after it. -/
  | free (i : κ)
  /-- `sweep_released_conn_slots` finds that the slot is not in use. -/
  | sweep (t : τ) (i : κ)
  /-- `alloc_conn_slot` finds that the slot is not in use. -/
  | alloc (t : τ) (i : κ)
  /-- The next step of a task; `ok` is the result of `ax25_conn_init`. -/
  | advance (t : τ) (ok : Bool)

variable {κ τ : Type}

section

variable [DecidableEq κ] [DecidableEq τ]

namespace State

def setSlot (s : State κ τ) (i : κ) (slot : Slot) : State κ τ :=
  { s with slot := Function.update s.slot i slot }

def setJob (s : State κ τ) (t : τ) (job : Option (Job κ)) : State κ τ :=
  { s with job := Function.update s.job t job }

/-- A sweep works on the connection. -/
def intrude (s : State κ τ) (job : Job κ) : State κ τ :=
  { s with intruded := s.intruded || (job.role == .sweep && (s.slot job.slot).inUse) }

/-- The next step of a task. -/
def advance (s : State κ τ) (t : τ) (ok : Bool) (job : Job κ) : State κ τ :=
  let i := job.slot
  match job.pc with
  | .look =>
    s.setJob t (if (s.slot i).connNeedsCleanup then some { job with pc := .test } else none)
  | .test =>
    s.setJob t (some { job with pc := if (s.slot i).initialized then .check else .finish })
  | .check =>
    s.setJob t (some { job with pc := if (s.slot i).initialized then .mark else .finish })
  | .mark =>
    ((s.intrude job).setSlot i { s.slot i with initialized := false }).setJob t
      (some { job with pc := .release })
  | .release =>
    ((s.intrude job).setSlot i { s.slot i with releases := (s.slot i).releases + 1 }).setJob t
      (some { job with pc := .finish })
  | .finish =>
    match job.role with
    | .sweep => (s.setSlot i { s.slot i with connNeedsCleanup := false }).setJob t none
    | .alloc =>
      (s.setSlot i { inUse := true, releases := (s.slot i).releases }).setJob t
        (some { job with pc := .init })
  | .init =>
    let slot : Slot :=
      if ok then { s.slot i with initialized := true, releases := 0 }
      -- `free_conn_slot`
      else { s.slot i with inUse := false }
    { (s.setSlot i slot).setJob t none with holder := none }

end State

def step (s : State κ τ) : Event κ τ → Option (State κ τ)
  | .disconnect i =>
    if (s.slot i).inUse ∧ (s.slot i).initialized ∧ (s.slot i).closing = false then
      some (s.setSlot i { s.slot i with connNeedsCleanup := true, closing := true })
    else none
  | .free i =>
    if (s.slot i).closing then
      some (s.setSlot i { s.slot i with inUse := false, closing := false })
    else none
  | .sweep t i =>
    if s.job t = none ∧ (s.slot i).inUse = false then
      some (s.setJob t (some ⟨.sweep, i, .look⟩))
    else none
  | .alloc t i =>
    if s.job t = none ∧ s.holder = none ∧ (s.slot i).inUse = false then
      some { s.setJob t (some ⟨.alloc, i, .test⟩) with holder := some t }
    else none
  | .advance t ok =>
    match s.job t with
    | none => none
    | some job => some (s.advance t ok job)

end

/-- No slot has been used yet. -/
def IsInit (s : State κ τ) : Prop :=
  (∀ i, s.slot i = {}) ∧ (∀ t, s.job t = none) ∧ s.holder = none ∧ s.intruded = false

/-! ### Overlapping work on a slot -/

section

variable [DecidableEq κ]

/-- The task is allocating the slot. -/
def State.allocating (s : State κ τ) (i : κ) (t : τ) : Bool :=
  match s.job t with
  | some job => job.role == .alloc && job.slot == i
  | none => false

/-- The task is sweeping the slot, and has not come to the end of `ax25_conn_deinit`. -/
def State.sweeping (s : State κ τ) (i : κ) (t : τ) : Bool :=
  match s.job t with
  | some job => job.role == .sweep && job.slot == i && job.pc != .finish
  | none => false

/-- Some task has passed the check of `ax25_conn_deinit`, and has not cleared
`initialized`. -/
def State.marking (s : State κ τ) (i : κ) (t : τ) : Bool :=
  match s.job t with
  | some job => job.slot == i && job.pc == .mark
  | none => false

theorem State.allocating_iff {s : State κ τ} {i : κ} {t : τ} :
    s.allocating i t = true ↔ ∃ pc, s.job t = some ⟨.alloc, i, pc⟩ := by
  unfold State.allocating
  cases s.job t with
  | none => simp
  | some job =>
      obtain ⟨role, j, pc⟩ := job
      simp

theorem State.sweeping_iff {s : State κ τ} {i : κ} {t : τ} :
    s.sweeping i t = true ↔ ∃ pc, s.job t = some ⟨.sweep, i, pc⟩ ∧ pc ≠ .finish := by
  unfold State.sweeping
  cases s.job t with
  | none => simp
  | some job =>
      obtain ⟨role, j, pc⟩ := job
      simp [and_assoc]

theorem State.marking_iff {s : State κ τ} {i : κ} {t : τ} :
    s.marking i t = true ↔ ∃ role, s.job t = some ⟨role, i, .mark⟩ := by
  unfold State.marking
  cases s.job t with
  | none => simp
  | some job =>
      obtain ⟨role, j, pc⟩ := job
      simp

/-- **The condition.** A slot is not taken by a sweep while it is being allocated, nor
allocated while a sweep is at work on it; and no task passes the check of
`ax25_conn_deinit` where another one has passed it and not yet cleared `initialized`. -/
def Exclusive (s : State κ τ) : Event κ τ → Prop
  | .disconnect _ => True
  | .free _ => True
  | .sweep _ i => ∀ u, s.allocating i u = false
  | .alloc _ i => ∀ u, s.sweeping i u = false
  | .advance t _ =>
    ∀ job ∈ s.job t, job.pc = .check → (s.slot job.slot).initialized = true →
      ∀ u, s.marking job.slot u = false

instance [Fintype τ] (s : State κ τ) : ∀ e, Decidable (Exclusive s e)
  | .disconnect _ => inferInstanceAs (Decidable True)
  | .free _ => inferInstanceAs (Decidable True)
  | .sweep _ i => inferInstanceAs (Decidable (∀ u, s.allocating i u = false))
  | .alloc _ i => inferInstanceAs (Decidable (∀ u, s.sweeping i u = false))
  | .advance t _ => inferInstanceAs (Decidable (∀ job ∈ s.job t, job.pc = .check →
      (s.slot job.slot).initialized = true → ∀ u, s.marking job.slot u = false))

end

/-- A sweep has deinitialised the connection of a slot in use, or the release steps have
been executed twice for one initialisation. -/
def Violated (s : State κ τ) : Prop := s.intruded = true ∨ ∃ i, 1 < (s.slot i).releases

/-! ### The invariant -/

/-- A slot between two initialisations. -/
structure SlotOk (slot : Slot) : Prop where
  closing : slot.closing = true → slot.inUse = true
  initialized : slot.initialized = true → slot.releases = 0
  releases : slot.releases ≤ 1

/-- A task at work on a slot. -/
structure JobOk (slot : Slot) (job : Job κ) : Prop where
  sweep : job.role = .sweep → job.pc ≠ .init ∧ (job.pc ≠ .finish → slot.inUse = false)
  alloc : job.role = .alloc → job.pc ≠ .look ∧ slot.inUse = (job.pc == .init) ∧
    (job.pc = .init → slot.initialized = false ∧ slot.closing = false)
  mark : job.pc = .mark → slot.initialized = true
  release : job.pc = .release → slot.initialized = false ∧ slot.releases = 0

/-- Two tasks at work on one slot. -/
structure Apart (a b : Job κ) : Prop where
  left : a.role = .alloc → b.role = .sweep ∧ b.pc = .finish
  right : b.role = .alloc → a.role = .sweep ∧ a.pc = .finish
  mark : a.pc = .mark → b.pc ≠ .mark
  release : a.pc = .release → b.pc ≠ .release

theorem Apart.symm {a b : Job κ} (h : Apart a b) : Apart b a :=
  ⟨h.right, h.left, fun hb ha => h.mark ha hb, fun hb ha => h.release ha hb⟩

structure Ok (s : State κ τ) : Prop where
  slot : ∀ i, SlotOk (s.slot i)
  job : ∀ t job, s.job t = some job → JobOk (s.slot job.slot) job
  holder : ∀ t job, s.job t = some job → job.role = .alloc → s.holder = some t
  apart : ∀ t u a b, t ≠ u → s.job t = some a → s.job u = some b → a.slot = b.slot → Apart a b
  intruded : s.intruded = false

theorem ok_init {s : State κ τ} (h : IsInit s) : Ok s := by
  obtain ⟨hslot, hjob, -, hintruded⟩ := h
  have hnone : ∀ t job, s.job t ≠ some job := by
    intro t job ht
    rw [hjob t] at ht
    cases ht
  refine ⟨fun i => ?_, fun t job ht => absurd ht (hnone t job),
    fun t job ht => absurd ht (hnone t job), fun t u a b _ ht => absurd ht (hnone t a), hintruded⟩
  rw [hslot i]
  exact ⟨fun h => (by cases h), fun h => (by cases h), Nat.zero_le 1⟩

/-- A write of `conn_on_disconnect`. -/
theorem Ok.write [DecidableEq κ] {s : State κ τ} (h : Ok s) {i : κ} {slot : Slot}
    (hslot : SlotOk slot) (hjob : ∀ job : Job κ, JobOk (s.slot i) job → JobOk slot job) :
    Ok (s.setSlot i slot) := by
  refine ⟨fun j => ?_, fun t b hb => ?_, h.holder, h.apart, h.intruded⟩
  · unfold State.setSlot
    dsimp only
    by_cases hj : j = i
    · rw [hj, Function.update_self]
      exact hslot
    · rw [Function.update_of_ne hj]
      exact h.slot j
  · have hok := h.job t b hb
    unfold State.setSlot
    dsimp only
    by_cases hj : b.slot = i
    · rw [hj, Function.update_self]
      exact hjob b (hj ▸ hok)
    · rw [Function.update_of_ne hj]
      exact hok

/-- A sweep that works on a connection finds its slot free. -/
theorem Ok.intrude {s : State κ τ} (h : Ok s) {t : τ} {a : Job κ} (ht : s.job t = some a)
    (hpc : a.pc = .mark ∨ a.pc = .release) : (s.intrude a).intruded = false := by
  unfold State.intrude
  dsimp only
  rw [h.intruded, Bool.false_or]
  cases hrole : a.role with
  | alloc => rfl
  | sweep =>
      have hfree : (s.slot a.slot).inUse = false := by
        refine ((h.job t a ht).sweep hrole).2 fun hfinish => ?_
        rcases hpc with hpc | hpc
        · rw [hpc] at hfinish; cases hfinish
        · rw [hpc] at hfinish; cases hfinish
      rw [hfree]
      rfl

variable [DecidableEq τ]

/-- A task takes up a slot. -/
theorem Ok.take {s : State κ τ} (h : Ok s) {t : τ} {a : Job κ} (ht : s.job t = none)
    (hjob : JobOk (s.slot a.slot) a) (hholder : a.role = .alloc → s.holder = none)
    (hapart : ∀ u b, s.job u = some b → a.slot = b.slot → Apart a b) :
    Ok { s.setJob t (some a) with holder := if a.role = .alloc then some t else s.holder } := by
  have hcases : ∀ u b, (Function.update s.job t (some a)) u = some b →
      (u = t ∧ b = a) ∨ (u ≠ t ∧ s.job u = some b) := by
    intro u b hu
    by_cases hut : u = t
    · rw [hut, Function.update_self] at hu
      exact .inl ⟨hut, (Option.some.inj hu).symm⟩
    · rw [Function.update_of_ne hut] at hu
      exact .inr ⟨hut, hu⟩
  refine ⟨h.slot, fun u b hu => ?_, fun u b hu hrole => ?_, fun u v b c huv hu hv hslot => ?_,
    h.intruded⟩
  · rcases hcases u b hu with ⟨-, rfl⟩ | ⟨-, hu⟩
    · exact hjob
    · exact h.job u b hu
  · dsimp only
    rcases hcases u b hu with ⟨rfl, rfl⟩ | ⟨-, hu⟩
    · rw [if_pos hrole]
    · have hheld := h.holder u b hu hrole
      rw [if_neg fun ha => by rw [hholder ha] at hheld; cases hheld]
      exact hheld
  · rcases hcases u b hu with ⟨hut, hb⟩ | ⟨-, hu'⟩
    · rcases hcases v c hv with ⟨hvt, -⟩ | ⟨-, hv'⟩
      · exact absurd (hut.trans hvt.symm) huv
      · exact hb ▸ hapart v c hv' (hb ▸ hslot)
    · rcases hcases v c hv with ⟨-, hc⟩ | ⟨-, hv'⟩
      · exact hc ▸ (hapart u b hu' (hc ▸ hslot.symm)).symm
      · exact h.apart u v b c huv hu' hv' hslot

variable [DecidableEq κ]

/-- A task makes a step on its slot. -/
theorem Ok.work {s s' : State κ τ} (h : Ok s) {t : τ} {a : Job κ} (ht : s.job t = some a)
    {slot : Slot} {job : Option (Job κ)} (hslots : s'.slot = Function.update s.slot a.slot slot)
    (hjobs : s'.job = Function.update s.job t job) (hintruded : s'.intruded = false)
    (hholder : s'.holder = s.holder ∨ job = none ∧ a.role = .alloc)
    (hslot : SlotOk slot)
    (hjob : ∀ a', job = some a' → a'.slot = a.slot ∧ a'.role = a.role ∧ JobOk slot a')
    (hothers : ∀ u b, s.job u = some b → b.slot = a.slot → Apart a b → JobOk (s.slot a.slot) b →
      JobOk slot b ∧ ∀ a', job = some a' → Apart a' b) : Ok s' := by
  have hcases : ∀ u b, s'.job u = some b →
      (u = t ∧ job = some b) ∨ (u ≠ t ∧ s.job u = some b) := by
    intro u b hu
    rw [hjobs] at hu
    by_cases hut : u = t
    · rw [hut, Function.update_self] at hu
      exact .inl ⟨hut, hu⟩
    · rw [Function.update_of_ne hut] at hu
      exact .inr ⟨hut, hu⟩
  have hother : ∀ u b, u ≠ t → s.job u = some b → a.slot = b.slot →
      JobOk slot b ∧ ∀ a', job = some a' → Apart a' b := by
    intro u b hut hu hab
    exact hothers u b hu hab.symm (h.apart t u a b (Ne.symm hut) ht hu hab) (hab ▸ h.job u b hu)
  refine ⟨fun i => ?_, fun u b hu => ?_, fun u b hu hrole => ?_, fun u v b c huv hu hv hbc => ?_,
    hintruded⟩
  · rw [hslots]
    by_cases hi : i = a.slot
    · rw [hi, Function.update_self]
      exact hslot
    · rw [Function.update_of_ne hi]
      exact h.slot i
  · rw [hslots]
    rcases hcases u b hu with ⟨-, hb⟩ | ⟨hut, hu⟩
    · obtain ⟨hsame, -, hok⟩ := hjob b hb
      rw [hsame, Function.update_self]
      exact hok
    · by_cases hi : b.slot = a.slot
      · rw [hi, Function.update_self]
        exact (hother u b hut hu hi.symm).1
      · rw [Function.update_of_ne hi]
        exact h.job u b hu
  · rcases hcases u b hu with ⟨hut, hb⟩ | ⟨hut, hu⟩
    · obtain ⟨-, hsame, -⟩ := hjob b hb
      rcases hholder with hholder | ⟨hnone, -⟩
      · rw [hholder, hut]
        exact h.holder t a ht (hsame ▸ hrole)
      · rw [hnone] at hb
        cases hb
    · have hheld := h.holder u b hu hrole
      rcases hholder with hholder | ⟨-, halloc⟩
      · rw [hholder]
        exact hheld
      · rw [h.holder t a ht halloc] at hheld
        exact absurd (Option.some.inj hheld).symm hut
  · rcases hcases u b hu with ⟨hut, hb⟩ | ⟨hut, hu⟩
    · rcases hcases v c hv with ⟨hvt, -⟩ | ⟨hvt, hv⟩
      · exact absurd (hut.trans hvt.symm) huv
      · exact (hother v c hvt hv ((hjob b hb).1.symm.trans hbc)).2 b hb
    · rcases hcases v c hv with ⟨hvt, hc⟩ | ⟨hvt, hv⟩
      · exact ((hother u b hut hu ((hjob c hc).1.symm.trans hbc.symm)).2 c hc).symm
      · exact h.apart u v b c huv hu hv hbc

section

variable {s : State κ τ} {t : τ} {a : Job κ}

/-- The slot is not changed; the task goes on somewhere else. -/
theorem Ok.read (h : Ok s) (ht : s.job t = some a) {job : Option (Job κ)}
    (hjob : ∀ a', job = some a' → a'.slot = a.slot ∧ a'.role = a.role ∧
      JobOk (s.slot a.slot) a')
    (hothers : ∀ u b, s.job u = some b → b.slot = a.slot → Apart a b →
      ∀ a', job = some a' → Apart a' b) : Ok (s.setJob t job) :=
  h.work ht (Function.update_eq_self a.slot s.slot).symm rfl h.intruded (.inl rfl) (h.slot a.slot)
    hjob fun u b hu hb hab hbok => ⟨hbok, hothers u b hu hb hab⟩

theorem Ok.look (h : Ok s) (ht : s.job t = some a) (ok : Bool) (hpc : a.pc = .look) :
    Ok (s.advance t ok a) := by
  have ha := h.job t a ht
  have hrole : a.role = .sweep := by
    cases hrole : a.role with
    | sweep => rfl
    | alloc => exact absurd hpc (ha.alloc hrole).1
  simp only [State.advance, hpc]
  refine h.read ht (fun a' ha' => ?_) fun u b hu hb hab a' ha' => ?_
  · split_ifs at ha'
    obtain rfl := Option.some.inj ha'
    refine ⟨rfl, rfl, ?_⟩
    constructor <;> grind [JobOk]
  · split_ifs at ha'
    obtain rfl := Option.some.inj ha'
    constructor <;> grind [Apart]

theorem Ok.test (h : Ok s) (ht : s.job t = some a) (ok : Bool) (hpc : a.pc = .test) :
    Ok (s.advance t ok a) := by
  have ha := h.job t a ht
  simp only [State.advance, hpc]
  refine h.read ht (fun a' ha' => ?_) fun u b hu hb hab a' ha' => ?_
  · obtain rfl := Option.some.inj ha'
    refine ⟨rfl, rfl, ?_⟩
    split_ifs <;> constructor <;> grind [JobOk]
  · obtain rfl := Option.some.inj ha'
    split_ifs <;> constructor <;> grind [Apart]

theorem Ok.check (h : Ok s) (ht : s.job t = some a) (ok : Bool) (hpc : a.pc = .check)
    (hexcl : (s.slot a.slot).initialized = true → ∀ u, s.marking a.slot u = false) :
    Ok (s.advance t ok a) := by
  have ha := h.job t a ht
  -- no other task is between the check and the clearing of `initialized`
  have hno : (s.slot a.slot).initialized = true →
      ∀ u b, s.job u = some b → b.slot = a.slot → b.pc ≠ .mark := by
    intro hinit u b hu hb hmark
    have hmarking : s.marking a.slot u = true :=
      State.marking_iff.2 ⟨b.role, by rw [hu, ← hb, ← hmark]⟩
    rw [hexcl hinit u] at hmarking
    cases hmarking
  simp only [State.advance, hpc]
  refine h.read ht (fun a' ha' => ?_) fun u b hu hb hab a' ha' => ?_
  · obtain rfl := Option.some.inj ha'
    refine ⟨rfl, rfl, ?_⟩
    split_ifs <;> constructor <;> grind [JobOk]
  · obtain rfl := Option.some.inj ha'
    split_ifs with hinit
    · have hb' := hno hinit u b hu hb
      constructor <;> grind [Apart]
    · constructor <;> grind [Apart]

theorem Ok.mark (h : Ok s) (ht : s.job t = some a) (ok : Bool) (hpc : a.pc = .mark) :
    Ok (s.advance t ok a) := by
  have ha := h.job t a ht
  have hslot := h.slot a.slot
  simp only [State.advance, hpc]
  refine h.work ht rfl rfl (h.intrude ht (.inl hpc)) (.inl rfl)
    ⟨hslot.closing, fun h => (by cases h), hslot.releases⟩
    (fun a' ha' => ?_) fun u b hu hb hab hbok => ⟨?_, fun a' ha' => ?_⟩
  · obtain rfl := Option.some.inj ha'
    refine ⟨rfl, rfl, ?_⟩
    constructor <;> grind [JobOk, SlotOk]
  · constructor <;> grind [Apart, JobOk]
  · obtain rfl := Option.some.inj ha'
    constructor <;> grind [Apart, JobOk]

theorem Ok.release (h : Ok s) (ht : s.job t = some a) (ok : Bool) (hpc : a.pc = .release) :
    Ok (s.advance t ok a) := by
  have ha := h.job t a ht
  have hslot := h.slot a.slot
  simp only [State.advance, hpc]
  refine h.work ht rfl rfl (h.intrude ht (.inr hpc)) (.inl rfl) ?_
    (fun a' ha' => ?_) fun u b hu hb hab hbok => ⟨?_, fun a' ha' => ?_⟩
  · constructor <;> grind [JobOk, SlotOk]
  · obtain rfl := Option.some.inj ha'
    refine ⟨rfl, rfl, ?_⟩
    constructor <;> grind [JobOk]
  · constructor <;> grind [Apart, JobOk]
  · obtain rfl := Option.some.inj ha'
    constructor <;> grind [Apart]

theorem Ok.finish (h : Ok s) (ht : s.job t = some a) (ok : Bool) (hpc : a.pc = .finish) :
    Ok (s.advance t ok a) := by
  have ha := h.job t a ht
  have hslot := h.slot a.slot
  cases hrole : a.role with
  | sweep =>
      simp only [State.advance, hpc, hrole]
      refine h.work ht rfl rfl h.intruded (.inl rfl)
        ⟨hslot.closing, hslot.initialized, hslot.releases⟩ (fun a' ha' => by cases ha')
        fun u b hu hb hab hbok => ⟨?_, fun a' ha' => by cases ha'⟩
      exact ⟨hbok.sweep, hbok.alloc, hbok.mark, hbok.release⟩
  | alloc =>
      simp only [State.advance, hpc, hrole]
      refine h.work ht rfl rfl h.intruded (.inl rfl)
        ⟨fun _ => rfl, fun h => (by cases h), hslot.releases⟩ (fun a' ha' => ?_)
        fun u b hu hb hab hbok => ⟨?_, fun a' ha' => ?_⟩
      · obtain rfl := Option.some.inj ha'
        refine ⟨rfl, hrole.symm, ?_⟩
        constructor <;> grind
      · constructor <;> grind [Apart, JobOk]
      · obtain rfl := Option.some.inj ha'
        constructor <;> grind [Apart]

theorem Ok.init (h : Ok s) (ht : s.job t = some a) (ok : Bool) (hpc : a.pc = .init) :
    Ok (s.advance t ok a) := by
  have ha := h.job t a ht
  have hslot := h.slot a.slot
  have hrole : a.role = .alloc := by
    cases hrole : a.role with
    | alloc => rfl
    | sweep => exact absurd hpc (ha.sweep hrole).1
  obtain ⟨-, -, hclear⟩ := ha.alloc hrole
  simp only [State.advance, hpc]
  refine h.work ht rfl rfl h.intruded (.inr ⟨rfl, hrole⟩) ?_
    (fun a' ha' => by cases ha') fun u b hu hb hab hbok => ⟨?_, fun a' ha' => by cases ha'⟩
  · split_ifs
    · exact ⟨hslot.closing, fun _ => rfl, Nat.zero_le 1⟩
    · exact ⟨fun h => absurd h (by rw [(hclear hpc).2]; decide), hslot.initialized,
        hslot.releases⟩
  · split_ifs <;> constructor <;> grind [Apart, JobOk]

end

/-- **One step of a task.** -/
theorem Ok.advance {s : State κ τ} (h : Ok s) {t : τ} {a : Job κ} (ht : s.job t = some a)
    (ok : Bool) (hexcl : a.pc = .check → (s.slot a.slot).initialized = true →
      ∀ u, s.marking a.slot u = false) : Ok (s.advance t ok a) := by
  cases hpc : a.pc with
  | look => exact h.look ht ok hpc
  | test => exact h.test ht ok hpc
  | check => exact h.check ht ok hpc (hexcl hpc)
  | mark => exact h.mark ht ok hpc
  | release => exact h.release ht ok hpc
  | finish => exact h.finish ht ok hpc
  | init => exact h.init ht ok hpc

/-- **The invariant is kept by every step that meets the condition.** -/
theorem ok_step {s s' : State κ τ} {e : Event κ τ} (h : Ok s) (hexcl : Exclusive s e)
    (hs : step s e = some s') : Ok s' := by
  cases e with
  | disconnect i =>
      simp only [step] at hs
      split_ifs at hs with hconn
      cases hs
      refine h.write ⟨fun _ => hconn.1, (h.slot i).initialized, (h.slot i).releases⟩ fun b hb => ?_
      constructor <;> grind [JobOk]
  | free i =>
      simp only [step] at hs
      split_ifs at hs with hclosing
      cases hs
      have huse := (h.slot i).closing hclosing
      refine h.write ⟨fun h => (by cases h), (h.slot i).initialized, (h.slot i).releases⟩
        fun b hb => ?_
      constructor <;> grind [JobOk]
  | sweep t i =>
      simp only [step] at hs
      split_ifs at hs with hfree
      cases hs
      have htake := h.take (a := ⟨.sweep, i, .look⟩) hfree.1
        (by constructor <;> grind) (fun h => by cases h) fun u b hu hb => ?_
      · exact htake
      · -- the other task is a sweep as well
        have hnot := hexcl u
        simp only [State.allocating, hu, hb.symm, beq_self_eq_true, Bool.and_true,
          beq_eq_false_iff_ne, ne_eq] at hnot
        constructor <;> grind
  | alloc t i =>
      simp only [step] at hs
      split_ifs at hs with hfree
      cases hs
      have htake := h.take (a := ⟨.alloc, i, .test⟩) hfree.1
        (by constructor <;> grind) (fun _ => hfree.2.1) fun u b hu hb => ?_
      · exact htake
      · -- the other task is a sweep that is done with the connection
        have hnot := hexcl u
        have hrole : b.role = .sweep := by
          cases hrole : b.role with
          | sweep => rfl
          | alloc =>
              have hheld := h.holder u b hu hrole
              rw [hfree.2.1] at hheld
              cases hheld
        simp only [State.sweeping, hu] at hnot
        constructor <;> grind
  | advance t ok =>
      simp only [step] at hs
      split at hs
      · cases hs
      · rename_i job ht
        cases hs
        exact h.advance ht ok (hexcl job ht)

/-! ### Where overlapping work leads -/

/-- Some continuation of the run leads to a state that is wrong. -/
def CanGoWrong (s : State κ τ) : Prop := ∃ s', Reach (· = s) step Always s' ∧ Violated s'

theorem Violated.canGoWrong {s : State κ τ} (h : Violated s) : CanGoWrong s := ⟨s, .start rfl, h⟩

theorem CanGoWrong.before {s s₁ : State κ τ} {e : Event κ τ} (h : CanGoWrong s₁)
    (hs : step s e = some s₁) : CanGoWrong s := by
  obtain ⟨s', hreach, hwrong⟩ := h
  exact ⟨s', Reach.trans (.next e (.start rfl) trivial hs) hreach, hwrong⟩

/-- The next step of a task may be taken. -/
theorem canGoWrong_advance {s : State κ τ} {t : τ} {a : Job κ} (ht : s.job t = some a)
    (h : CanGoWrong (s.advance t true a)) : CanGoWrong s :=
  h.before (e := .advance t true) (by simp only [step, ht])

section

variable {s : State κ τ} {t u : τ} {i : κ}

theorem canGoWrong_mark (hu : s.job u = some ⟨.sweep, i, .mark⟩) (huse : (s.slot i).inUse = true) :
    CanGoWrong s := by
  refine canGoWrong_advance hu (Violated.canGoWrong (.inl ?_))
  simp [State.advance, State.setJob, State.setSlot, State.intrude, huse]

theorem canGoWrong_check (hu : s.job u = some ⟨.sweep, i, .check⟩)
    (huse : (s.slot i).inUse = true) (hinit : (s.slot i).initialized = true) : CanGoWrong s := by
  refine canGoWrong_advance hu (canGoWrong_mark (u := u) (i := i) ?_ huse)
  simp [State.advance, State.setJob, hinit]

theorem canGoWrong_test (hu : s.job u = some ⟨.sweep, i, .test⟩)
    (huse : (s.slot i).inUse = true) (hinit : (s.slot i).initialized = true) : CanGoWrong s := by
  refine canGoWrong_advance hu (canGoWrong_check (u := u) (i := i) ?_ huse hinit)
  simp [State.advance, State.setJob, hinit]

/-- A sweep is at work on the connection of a slot in use. -/
theorem canGoWrong_of_inUse {pc : Pc} (hu : s.job u = some ⟨.sweep, i, pc⟩)
    (huse : (s.slot i).inUse = true) (hinit : (s.slot i).initialized = true)
    (hclosing : (s.slot i).closing = false) (hpc : pc ≠ .finish) (hpc' : pc ≠ .init) :
    CanGoWrong s := by
  cases pc with
  | look =>
      -- `conn_on_disconnect` sets the flag that the sweep is going to read
      let slot : Slot := { s.slot i with connNeedsCleanup := true, closing := true }
      have hs : step s (.disconnect i) = some (s.setSlot i slot) :=
        if_pos ⟨huse, hinit, hclosing⟩
      have hu' : (s.setSlot i slot).job u = some ⟨.sweep, i, .look⟩ := hu
      refine .before (canGoWrong_advance hu' (canGoWrong_test (u := u) (i := i) ?_ ?_ ?_)) hs
      · simp [slot, State.advance, State.setJob, State.setSlot]
      · simpa [slot, State.advance, State.setJob, State.setSlot] using huse
      · simpa [slot, State.advance, State.setJob, State.setSlot] using hinit
  | test => exact canGoWrong_test hu huse hinit
  | check => exact canGoWrong_check hu huse hinit
  | mark => exact canGoWrong_mark hu huse
  | release =>
      refine canGoWrong_advance hu (Violated.canGoWrong (.inl ?_))
      simp [State.advance, State.setJob, State.setSlot, State.intrude, huse]
  | finish => exact absurd rfl hpc
  | init => exact absurd rfl hpc'

/-- A slot is allocated while a sweep is at work on it: the allocation comes to its end
before the sweep goes on. -/
theorem canGoWrong_of_alloc {pc pc' : Pc} (htu : t ≠ u) (ht : s.job t = some ⟨.alloc, i, pc⟩)
    (hu : s.job u = some ⟨.sweep, i, pc'⟩) (hlook : pc ≠ .look) (hinit : pc ≠ .init)
    (hfinish' : pc' ≠ .finish) (hinit' : pc' ≠ .init) : CanGoWrong s := by
  have hut : u ≠ t := Ne.symm htu
  have hlast : ∀ {s : State κ τ}, s.job t = some ⟨.alloc, i, .finish⟩ →
      s.job u = some ⟨.sweep, i, pc'⟩ → CanGoWrong s := by
    intro s ht hu
    refine canGoWrong_advance ht (canGoWrong_advance (t := t) (a := ⟨.alloc, i, .init⟩) ?_
      (canGoWrong_of_inUse (u := u) (i := i) ?_ ?_ ?_ ?_ hfinish' hinit'))
    · simp [State.advance, State.setJob]
    · simpa [State.advance, State.setJob, State.setSlot, hut] using hu
    all_goals simp [State.advance, State.setJob, State.setSlot]
  have hrelease : ∀ {s : State κ τ}, s.job t = some ⟨.alloc, i, .release⟩ →
      s.job u = some ⟨.sweep, i, pc'⟩ → CanGoWrong s := by
    intro s ht hu
    refine canGoWrong_advance ht (hlast ?_ ?_)
    · simp [State.advance, State.setJob]
    · simpa [State.advance, State.setJob, State.setSlot, State.intrude, hut] using hu
  have hmark : ∀ {s : State κ τ}, s.job t = some ⟨.alloc, i, .mark⟩ →
      s.job u = some ⟨.sweep, i, pc'⟩ → CanGoWrong s := by
    intro s ht hu
    refine canGoWrong_advance ht (hrelease ?_ ?_)
    · simp [State.advance, State.setJob]
    · simpa [State.advance, State.setJob, State.setSlot, State.intrude, hut] using hu
  have hcheck : ∀ {s : State κ τ}, s.job t = some ⟨.alloc, i, .check⟩ →
      s.job u = some ⟨.sweep, i, pc'⟩ → CanGoWrong s := by
    intro s ht hu
    have hu' : (s.advance t true ⟨.alloc, i, .check⟩).job u = some ⟨.sweep, i, pc'⟩ := by
      simpa [State.advance, State.setJob, hut] using hu
    refine canGoWrong_advance ht ?_
    by_cases h : (s.slot i).initialized = true
    · exact hmark (by simp [State.advance, State.setJob, h]) hu'
    · exact hlast (by simp [State.advance, State.setJob, h]) hu'
  cases pc with
  | look => exact absurd rfl hlook
  | test =>
      have hu' : (s.advance t true ⟨.alloc, i, .test⟩).job u = some ⟨.sweep, i, pc'⟩ := by
        simpa [State.advance, State.setJob, hut] using hu
      refine canGoWrong_advance ht ?_
      by_cases h : (s.slot i).initialized = true
      · exact hcheck (by simp [State.advance, State.setJob, h]) hu'
      · exact hlast (by simp [State.advance, State.setJob, h]) hu'
  | check => exact hcheck ht hu
  | mark => exact hmark ht hu
  | release => exact hrelease ht hu
  | finish => exact hlast ht hu
  | init => exact absurd rfl hinit

/-- Two tasks have passed the check of `ax25_conn_deinit`: both execute the release
steps. -/
theorem canGoWrong_of_marking {a b : Job κ} (htu : t ≠ u) (ht : s.job t = some a)
    (hu : s.job u = some b) (hslot : b.slot = a.slot) (ha : a.pc = .mark) (hb : b.pc = .mark) :
    CanGoWrong s := by
  have hut : u ≠ t := Ne.symm htu
  obtain ⟨role, i, pc⟩ := a
  obtain ⟨role', i', pc'⟩ := b
  dsimp only at hslot ha hb
  subst hslot ha hb
  refine canGoWrong_advance ht (canGoWrong_advance (t := u) (a := ⟨role', i', .mark⟩) ?_
    (canGoWrong_advance (t := t) (a := ⟨role, i', .release⟩) ?_
      (canGoWrong_advance (t := u) (a := ⟨role', i', .release⟩) ?_
        (Violated.canGoWrong (.inr ⟨i', ?_⟩)))))
  · simpa [State.advance, State.setJob, State.setSlot, State.intrude, hut] using hu
  · simp [State.advance, State.setJob, State.setSlot, State.intrude, htu]
  · simp [State.advance, State.setJob, State.setSlot, State.intrude, hut]
  · simp [State.advance, State.setJob, State.setSlot, State.intrude]

end

/-- **A step that does not meet the condition leads to a violation.** -/
theorem Ok.canGoWrong {s s' : State κ τ} {e : Event κ τ} (h : Ok s) (hs : step s e = some s')
    (hno : ¬ Exclusive s e) : CanGoWrong s' := by
  cases e with
  | disconnect i => exact absurd trivial hno
  | free i => exact absurd trivial hno
  | sweep t i =>
      obtain ⟨u, hu⟩ := not_forall.1 hno
      obtain ⟨pc, hjob⟩ := State.allocating_iff.1 (Bool.not_eq_false _ ▸ hu)
      simp only [step] at hs
      split_ifs at hs with hfree
      cases hs
      have hut : u ≠ t := by
        intro heq
        rw [heq, hfree.1] at hjob
        cases hjob
      obtain ⟨hlook, huse, -⟩ := (h.job u _ hjob).alloc rfl
      have halloc : (s.setJob t (some ⟨.sweep, i, .look⟩)).job u = some ⟨.alloc, i, pc⟩ := by
        simp only [State.setJob, Function.update_of_ne hut]
        exact hjob
      have hsweep : (s.setJob t (some ⟨.sweep, i, .look⟩)).job t = some ⟨.sweep, i, .look⟩ :=
        Function.update_self t _ s.job
      refine canGoWrong_of_alloc hut halloc hsweep hlook ?_ (by decide) (by decide)
      intro hpc
      rw [hfree.2, hpc] at huse
      cases huse
  | alloc t i =>
      obtain ⟨u, hu⟩ := not_forall.1 hno
      obtain ⟨pc, hjob, hpc⟩ := State.sweeping_iff.1 (Bool.not_eq_false _ ▸ hu)
      simp only [step] at hs
      split_ifs at hs with hfree
      cases hs
      have hut : u ≠ t := by
        intro heq
        rw [heq, hfree.1] at hjob
        cases hjob
      let s₁ : State κ τ := { s.setJob t (some ⟨.alloc, i, .test⟩) with holder := some t }
      have halloc : s₁.job t = some ⟨.alloc, i, .test⟩ := Function.update_self t _ s.job
      have hsweep : s₁.job u = some ⟨.sweep, i, pc⟩ := (Function.update_of_ne hut _ s.job).trans hjob
      exact canGoWrong_of_alloc (Ne.symm hut) halloc hsweep (by decide) (by decide) hpc
        ((h.job u _ hjob).sweep rfl).1
  | advance t ok =>
      simp only [Exclusive, not_forall] at hno
      obtain ⟨a, ha, hpc, hinit, u, hu⟩ := hno
      obtain ⟨role, hjob⟩ := State.marking_iff.1 (Bool.not_eq_false _ ▸ hu)
      have ht : s.job t = some a := ha
      simp only [step, ht, Option.some.injEq] at hs
      cases hs
      have hut : u ≠ t := by
        intro heq
        rw [heq, ht] at hjob
        rw [Option.some.inj hjob] at hpc
        cases hpc
      refine canGoWrong_of_marking (t := t) (u := u) (a := { a with pc := .mark })
        (b := ⟨role, a.slot, .mark⟩) (Ne.symm hut) ?_ ?_ rfl rfl rfl
      · simp only [State.advance, hpc, State.setJob, Function.update_self, hinit, if_true]
      · simp only [State.advance, hpc, State.setJob, Function.update_of_ne hut]
        exact hjob

/-- **Cleanup is exclusive exactly when work on a slot does not overlap.** In every run all
of whose steps meet the condition no sweep works on the connection of a slot in use, and no
initialisation is followed by two executions of the release steps; and every step that does
not meet it can be continued to a state where that has happened. -/
theorem slot_cleanup_exact :
    (∀ s : State κ τ, Reach IsInit step Exclusive s →
      s.intruded = false ∧ ∀ i, (s.slot i).releases ≤ 1) ∧
    ∀ (s s' : State κ τ) (e : Event κ τ), Reach IsInit step Exclusive s → step s e = some s' →
      ¬ Exclusive s e → ∃ s'', Reach (· = s') step Always s'' ∧
        ¬ (s''.intruded = false ∧ ∀ i, (s''.slot i).releases ≤ 1) := by
  have hok : ∀ s : State κ τ, Reach IsInit step Exclusive s → Ok s := by
    intro s h
    exact h.invariant (fun _ hs => ok_init hs) fun _ _ _ hs hexcl hstep => ok_step hs hexcl hstep
  constructor
  · intro s h
    exact ⟨(hok s h).intruded, fun i => ((hok s h).slot i).releases⟩
  · intro s s' e h hs hno
    obtain ⟨s'', hreach, hwrong⟩ := (hok s h).canGoWrong hs hno
    refine ⟨s'', hreach, fun hright => ?_⟩
    rcases hwrong with hintruded | ⟨i, hi⟩
    · rw [hright.1] at hintruded
      cases hintruded
    · exact absurd (hright.2 i) (Nat.not_le.2 hi)

/-! ### Two tasks and one slot -/

/-- The client task and the router task (`false` and `true`), and one slot. -/
def idle : State Unit Bool :=
  { slot := fun _ => {}, job := fun _ => none, holder := none, intruded := false }

theorem isInit_idle : IsInit idle := ⟨fun _ => rfl, fun _ => rfl, rfl, rfl⟩

/-- A task makes `n` steps. -/
def steps (t : Bool) (n : Nat) : List (Event Unit Bool) := List.replicate n (.advance t true)

/-- The client task opens a connection, which ends. -/
def session : List (Event Unit Bool) :=
  .alloc false () :: steps false 3 ++ [.disconnect (), .free ()]

/-- Both tasks sweep the slot, and both pass the check before one of them clears
`initialized`. -/
def bothSweep : List (Event Unit Bool) :=
  session ++ [.sweep true (), .sweep false ()] ++ steps true 3 ++ steps false 3 ++
    steps true 2 ++ steps false 2

/-- The sweep of the router task has passed the check when the client task allocates the
slot and initialises its connection. -/
def sweepAndReuse : List (Event Unit Bool) :=
  session ++ [.sweep true ()] ++ steps true 3 ++ [.alloc false ()] ++ steps false 6 ++
    steps true 1

/-- The sweep comes to its end before the slot is allocated again. -/
def sweepThenReuse : List (Event Unit Bool) :=
  session ++ [.sweep true ()] ++ steps true 6 ++ session

/-- The release steps are executed twice, and a connection in use is deinitialised. -/
theorem slot_cleanup_overlaps :
    ¬ (∀ s : State Unit Bool, Reach IsInit step Always s → ∀ i, (s.slot i).releases ≤ 1) ∧
    ¬ ∀ s : State Unit Bool, Reach IsInit step Always s → s.intruded = false := by
  constructor
  · intro hall
    have hrun : (replay step Always idle bothSweep).map (fun s => (s.slot ()).releases) =
        some 2 := by decide +kernel
    obtain ⟨s, hs, htwo⟩ := Option.map_eq_some_iff.1 hrun
    have hone := hall s (Reach.replay (.start isInit_idle) hs) ()
    rw [htwo] at hone
    exact absurd hone (by decide)
  · intro hall
    have hrun : (replay step Always idle sweepAndReuse).map (fun s => s.intruded) =
        some true := by decide +kernel
    obtain ⟨s, hs, htrue⟩ := Option.map_eq_some_iff.1 hrun
    rw [hall s (Reach.replay (.start isInit_idle) hs)] at htrue
    cases htrue

/-- One after the other, the sweep and the allocation release the connection once. -/
theorem slot_cleanup_exact_apart :
    ∃ s : State Unit Bool, replay step Exclusive idle sweepThenReuse = some s ∧
      s.intruded = false ∧ (s.slot ()).releases ≤ 1 := by
  have hrun : (replay step Exclusive idle sweepThenReuse).isSome = true := by decide +kernel
  obtain ⟨s, hs⟩ := Option.isSome_iff_exists.1 hrun
  have hright := slot_cleanup_exact.1 s (Reach.replay (.start isInit_idle) hs)
  exact ⟨s, hs, hright.1, hright.2 ()⟩

end EspAx25.Sweep
