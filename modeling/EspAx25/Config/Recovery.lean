import EspAx25.Config.Device

/-!
# EspAx25.Config.Recovery

Power failures and failing calls inside a save and inside a rollback.

A rollback copies all entries before it erases the flag, so it may be cut off and
started again any number of times. A save copies the entries first as well, but it
sets the flag last: a save that stops among its writes has changed the
configuration, and nothing says that it is to be restored.
-/

namespace EspAx25.Config

open Crash Transition

variable {schema : List Param}

/-! ### Rollback -/

/-- Restarts, and the timer running out. -/
def Rollback : Device → DeviceOp → Prop
  | _, .reboot _ => True
  | _, .expire _ => True
  | _, _ => False

instance (d : Device) : (op : DeviceOp) → Decidable (Rollback d op)
  | .reboot _ => .isTrue trivial
  | .expire _ => .isTrue trivial
  | .stage _ => .isFalse id
  | .exit => .isFalse id
  | .save _ => .isFalse id
  | .commit _ => .isFalse id
  | .revert _ => .isFalse id

/-- What holds while a rollback is under way, and after it: the backup is untouched, the flag
is set or the primary namespace is restored, and the timer runs only with the flag set. -/
structure Restoring (schema : List Param) (saved : Namespace) (d : Device) : Prop where
  backup : Agree schema d.flash.backup saved
  flag : d.flash.backup pendingKey = some (.u8 1) ∨
    d.flash.backup pendingKey = none ∧ Agree schema d.flash.primary saved
  timer : ∀ ctx, d.ctx = some ctx → ctx.commitTimer = true →
    d.flash.backup pendingKey = some (.u8 1)

/-- After its callback the timer does not run. -/
theorem commitTimeoutCb_ctx {ctx ctx' : Ctx} {f : Flash} {t : Fates Nat}
    (h : (commitTimeoutCb schema ctx f t).1.join = some ctx') : ctx'.commitTimer = false := by
  unfold commitTimeoutCb at h
  rcases hm : restoreBackupToPrimary schema f t with ⟨_ | e | u, f', t'⟩
  · rw [bind_run_none hm] at h
    cases h
  · rw [bind_run_some hm] at h
    cases h
    rfl
  · rw [bind_run_some hm] at h
    cases h

theorem restoring_step (hkey : NoFlagKey schema) {saved : Namespace} {d d' : Device}
    {op : DeviceOp} (hi : Restoring schema saved d) (hok : Rollback d op)
    (hs : deviceStep schema d op = some d') : Restoring schema saved d' := by
  cases op with
  | reboot t =>
      cases hs
      obtain ⟨hflash, hctx⟩ := boot_cases d.flash t
      exact ⟨by rw [hflash]; exact hi.backup, by rw [hflash]; exact hi.flag,
        fun ctx h htimer => by rw [hflash]; exact (hctx ctx h).2 htimer⟩
  | expire t =>
      obtain ⟨ctx, hctx, hs⟩ := Option.bind_eq_some_iff.mp hs
      split_ifs at hs with htimer
      cases hs
      have hleaves : (commitTimeoutCb schema ctx d.flash t).2.1 =
          (restoreBackupToPrimary schema d.flash t).2.1 :=
        congrArg Prod.fst (commitTimeoutCb_leaves ctx d.flash t)
      obtain ⟨hagree, hcases⟩ := restore_leaves hkey d.flash t
      have hset := hi.timer ctx hctx htimer
      rw [← hleaves] at hagree hcases
      refine ⟨fun p hp => (hagree p hp).trans (hi.backup p hp), ?_, fun ctx' h htimer' => ?_⟩
      · obtain hsame | ⟨hnone, hrestored⟩ := hcases
        · exact .inl (by rw [hsame]; exact hset)
        · exact .inr ⟨hnone, fun p hp => (hrestored p hp).trans (hi.backup p hp)⟩
      · rw [commitTimeoutCb_ctx h] at htimer'
        cases htimer'
  | stage c => exact hok.elim
  | exit => exact hok.elim
  | save t => exact hok.elim
  | commit t => exact hok.elim
  | revert t => exact hok.elim

/-- A rollback that succeeds has restored every entry and erased the flag. -/
theorem restore_done {f : Flash} {t : Fates Nat}
    (h : (restoreBackupToPrimary schema f t).1 = some (.ok ())) :
    Agree schema (restoreBackupToPrimary schema f t).2.1.primary f.backup ∧
      (restoreBackupToPrimary schema f t).2.1.backup =
        Function.update f.backup pendingKey none := by
  have hdoes := restoreBackupToPrimary_does schema
  have hne : Handle.backup ≠ Handle.primary := fun h => (by cases h)
  have hsrc := effects_copy_src hne schema f
  rw [hdoes.leaves, (hdoes.succeeds f t).mp h, List.take_length, effects_append]
  refine ⟨fun p hp => ?_, ?_⟩
  · have hdst := effects_copy_dst hne schema f p.key
    rw [if_pos (List.mem_map_of_mem hp)] at hdst
    exact hdst
  · exact congrArg (Function.update · pendingKey none) hsrc

/-- After the callback NVS is as the rollback leaves it. -/
theorem expire_flash (schema : List Param) {ctx : Ctx} (f : Flash) (t : Fates Nat)
    (htimer : ctx.commitTimer = true) :
    ∃ d', deviceStep schema ⟨some ctx, f⟩ (.expire t) = some d' ∧
      d'.flash = (restoreBackupToPrimary schema f t).2.1 := by
  have hstep : deviceStep schema ⟨some ctx, f⟩ (.expire t) =
      some ⟨(commitTimeoutCb schema ctx f t).1.join, (commitTimeoutCb schema ctx f t).2.1⟩ :=
    if_pos htimer
  exact ⟨_, hstep, congrArg Prod.fst (commitTimeoutCb_leaves ctx f t)⟩

/-- Everything is as the backup has it, and no rollback is wanted any more. -/
def Restored (schema : List Param) (saved : Namespace) (f : Flash) : Prop :=
  Agree schema f.primary saved ∧ Agree schema f.backup saved ∧ f.backup pendingKey = none

/-- Rollback is restartable. Whatever cuts off the rollbacks that restarts set off, and
however often: the backup keeps its entries; the flag is gone only when the primary
namespace has them too; a rollback that gets through has restored everything; and
while the flag is set, a restart starts the timer again, and the rollback then gets
through if all its calls are done. -/
theorem rollback_restartable (hkey : NoFlagKey schema) {f : Flash}
    (hfits : ∀ p ∈ schema, fits f.backup p.key) (hflag : f.backup pendingKey = some (.u8 1))
    {d : Device} (h : Reach (· = ⟨none, f⟩) (deviceStep schema) Rollback d) :
    Agree schema d.flash.backup f.backup ∧
    (d.flash.backup pendingKey = some (.u8 1) ∨
      d.flash.backup pendingKey = none ∧ Agree schema d.flash.primary d.flash.backup) ∧
    (∀ t, (restoreBackupToPrimary schema d.flash t).1 = some (.ok ()) →
      Restored schema f.backup (restoreBackupToPrimary schema d.flash t).2.1) ∧
    (d.flash.backup pendingKey = some (.u8 1) → ∀ t, Reaches t (2 * schema.length + 3) →
      ∃ d₁ d₂, deviceStep schema d (.reboot []) = some d₁ ∧
        deviceStep schema d₁ (.expire t) = some d₂ ∧ Restored schema f.backup d₂.flash) := by
  have hi : Restoring schema f.backup d := by
    refine h.invariant (fun d hd => ?_) fun d op d' hi hok hs => restoring_step hkey hi hok hs
    subst hd
    exact ⟨fun p _ => rfl, .inl hflag, fun ctx hctx => (by cases hctx)⟩
  have hdone : ∀ t, (restoreBackupToPrimary schema d.flash t).1 = some (.ok ()) →
      Restored schema f.backup (restoreBackupToPrimary schema d.flash t).2.1 := by
    intro t ht
    obtain ⟨hprimary, hbackup⟩ := restore_done ht
    refine ⟨fun p hp => (hprimary p hp).trans (hi.backup p hp), fun p hp => ?_, ?_⟩
    · rw [hbackup, Function.update_of_ne (hkey p hp)]
      exact hi.backup p hp
    · rw [hbackup, Function.update_self]
  refine ⟨hi.backup, ?_, hdone, fun hset t ht => ?_⟩
  · obtain hset | ⟨hnone, hagree⟩ := hi.flag
    · exact .inl hset
    · exact .inr ⟨hnone, fun p hp => (hagree p hp).trans (hi.backup p hp).symm⟩
  · have htimer : ({ commitPending := true, commitTimer := true } : Ctx).commitTimer = true := rfl
    obtain ⟨d₂, hstep, hflash⟩ := expire_flash schema d.flash t htimer
    refine ⟨_, d₂, congrArg some (boot_flag hset), hstep, ?_⟩
    rw [hflash]
    refine hdone t ((restore_succeeds_iff d.flash t).mpr ⟨fun p hp => ?_, ht⟩)
    unfold fits
    rw [hi.backup p hp]
    exact hfits p hp

/-- A device whose last save was not committed: the call sign was `N1XYZ` before it. -/
def uncommitted : Flash where
  primary := Function.update (fun _ => none) (bytes "call") (some (.str (bytes "W1AW")))
  backup := Function.update (Function.update (fun _ => none) (bytes "call")
    (some (.str (bytes "N1XYZ")))) pendingKey (some (.u8 1))

/-- The power goes after the first call of the rollback; the next one restores the call sign. -/
theorem rollback_restartable_cut :
    Restored callSchema uncommitted.backup (restoreBackupToPrimary callSchema
      (commitTimeoutCb callSchema { commitPending := true, commitTimer := true } uncommitted
        [.done, .lost]).2.1 []).2.1 := by
  have hflag : uncommitted.backup pendingKey = some (.u8 1) := by decide +kernel
  have hboot : deviceStep callSchema ⟨none, uncommitted⟩ (.reboot []) =
      some ⟨some { commitPending := true, commitTimer := true }, uncommitted⟩ :=
    congrArg some (boot_flag hflag)
  have hboot : Reach (· = ⟨none, uncommitted⟩) (deviceStep callSchema) Rollback
      ⟨some { commitPending := true, commitTimer := true }, uncommitted⟩ :=
    .next (.reboot []) (.start rfl) trivial hboot
  have hkey : NoFlagKey callSchema := by decide +kernel
  exact (rollback_restartable hkey (by decide +kernel) hflag
    (hboot.next (.expire [.done, .lost]) trivial rfl)).2.2.1 [] (by decide +kernel)

/-! ### Save -/

/-- The atoms of a save after the copy: the writes, and the flag. -/
def changeAtoms (schema : List Param) (ctx : Ctx) : List (Atom Flash) :=
  (pendingWrites schema (List.ofFn ctx.pending)).map pendingAtom ++
    [commitAtom, writeAtom .backup pendingKey (some (.u8 1)), commitAtom]

theorem changeAtoms_single {ctx : Ctx} : ∀ a ∈ changeAtoms schema ctx,
    a.calls = 1 ∧ ∀ f, a.ready f = true := by
  intro a ha
  obtain ha | ha := List.mem_append.mp ha
  · obtain ⟨w, -, rfl⟩ := List.mem_map.mp ha
    exact ⟨rfl, fun _ => rfl⟩
  · simp only [List.mem_cons, List.not_mem_nil, or_false] at ha
    obtain rfl | rfl | rfl := ha
    · exact ⟨rfl, fun _ => rfl⟩
    · exact ⟨rfl, fun _ => rfl⟩
    · exact ⟨rfl, fun _ => rfl⟩

theorem length_copyAtoms : (copyAtoms schema).length = schema.length + 1 := by
  simp [copyAtoms]

/-- A save gets through its copy and `j` calls more when everything can be read and these
calls are done. -/
theorem save_progress_iff (ctx : Ctx) (f : Flash) (t : Fates Nat) {j : Nat}
    (hj : j ≤ (changeAtoms schema ctx).length) :
    schema.length + 1 + j ≤ progress (copyAtoms schema ++ changeAtoms schema ctx) f t ↔
      (∀ p ∈ schema, fits f.primary p.key) ∧ Reaches t (2 * schema.length + 1 + j) := by
  have htake : ∀ a ∈ (changeAtoms schema ctx).take j, a.calls = 1 ∧ ∀ f, a.ready f = true :=
    fun a ha => changeAtoms_single a (List.mem_of_mem_take ha)
  have hcopy : AllReady (copyAtoms schema) f ↔ ∀ p ∈ schema, fits f.primary p.key := by
    unfold copyAtoms
    rw [allReady_append, allReady_copy (fun h => (by cases h))]
    exact ⟨fun h => h.1, fun h => ⟨h, rfl, trivial⟩⟩
  have hcalls : totalCalls (copyAtoms schema) = 2 * schema.length + 1 := by
    unfold copyAtoms
    rw [totalCalls_append, totalCalls_copy]
    rfl
  rw [le_progress_iff (by rw [List.length_append, length_copyAtoms]; omega), ← length_copyAtoms,
    List.take_length_add_append, allReady_append, totalCalls_append, hcopy, hcalls,
    totalCalls_single fun a ha => (htake a ha).1, List.length_take_of_le hj]
  exact ⟨fun h => ⟨h.1.1, h.2⟩,
    fun h => ⟨⟨h.1, allReady_of_forall (fun a ha => (htake a ha).2) _⟩, h.2⟩⟩

/-- What the copy of a save leaves. -/
def copied (schema : List Param) (f : Flash) : Flash := effects (copyAtoms schema) f

theorem copied_primary (f : Flash) : (copied schema f).primary = f.primary := by
  have h := effects_copy_src (show Handle.primary ≠ .backup from fun h => by cases h) schema f
  unfold copied copyAtoms
  rw [effects_append]
  exact h

theorem copied_backup (f : Flash) (key : List Byte) :
    (copied schema f).backup key =
      if key ∈ schema.map Param.key then f.primary key else f.backup key := by
  have h := effects_copy_dst (show Handle.primary ≠ .backup from fun h => by cases h) schema f key
  unfold copied copyAtoms
  rw [effects_append]
  exact h

/-- A save that does not get through its copy leaves the primary namespace alone. -/
theorem save_before (ctx : Ctx) (f : Flash) (t : Fates Nat)
    (h : progress (copyAtoms schema ++ changeAtoms schema ctx) f t ≤ schema.length + 1) :
    (saveCalls schema ctx f t).2.1.primary = f.primary := by
  have hdoes : Does (saveCalls schema ctx) (copyAtoms schema ++ changeAtoms schema ctx) :=
    saveCalls_does schema ctx
  rw [hdoes.leaves, List.take_append_of_le_length (by rw [length_copyAtoms]; exact h)]
  exact copyAtoms_primary _ f

/-- One that gets through it, and `j` calls more, leaves its first `j` writes, and the flag
when it gets so far. -/
theorem save_after (ctx : Ctx) (f : Flash) (t : Fates Nat) {j : Nat}
    (h : progress (copyAtoms schema ++ changeAtoms schema ctx) f t = schema.length + 1 + j) :
    (saveCalls schema ctx f t).2.1.primary =
        writeAll ((pendingWrites schema (List.ofFn ctx.pending)).take j) f.primary ∧
      (saveCalls schema ctx f t).2.1.backup =
        if (pendingWrites schema (List.ofFn ctx.pending)).length + 2 ≤ j then
          Function.update (copied schema f).backup pendingKey (some (.u8 1))
        else (copied schema f).backup := by
  have hdoes : Does (saveCalls schema ctx) (copyAtoms schema ++ changeAtoms schema ctx) :=
    saveCalls_does schema ctx
  set ws := pendingWrites schema (List.ofFn ctx.pending) with hws
  rw [hdoes.leaves, h, ← length_copyAtoms, List.take_length_add_append, effects_append]
  change (effects ((changeAtoms schema ctx).take j) (copied schema f)).primary = _ ∧
    (effects ((changeAtoms schema ctx).take j) (copied schema f)).backup = _
  unfold changeAtoms
  rw [← hws, List.take_append, effects_append, ← List.map_take, effects_pendingAtoms,
    List.length_map, copied_primary]
  -- of the last three atoms, the second one sets the flag
  rcases hm : j - ws.length with _ | _ | m
  · exact ⟨rfl, by rw [if_neg (by omega)]; rfl⟩
  · exact ⟨rfl, by rw [if_neg (by omega)]; rfl⟩
  · rw [if_pos (by omega)]
    rcases m with _ | m
    · exact ⟨rfl, rfl⟩
    · simp only [List.take_succ_cons, List.take_nil]
      exact ⟨rfl, rfl⟩

/-- A configuration can be restored: it is still there, or the flag is set and the backup has
it. -/
def Recoverable (schema : List Param) (config : Namespace) (f : Flash) : Prop :=
  f.primary = config ∨
    f.backup pendingKey = some (.u8 1) ∧ Agree schema f.backup config

/-- When a save is safe: it cannot read everything, and stops in its copy; or the writes that
it gets to change nothing; or it gets to the flag, whose key is not that of an entry. -/
def SaveSafe (schema : List Param) (ctx : Ctx) (f : Flash) (t : Fates Nat) : Prop :=
  (∃ p ∈ schema, ¬ fits f.primary p.key) ∨
  (∀ j w, (pendingWrites schema (List.ofFn ctx.pending))[j]? = some w →
    Reaches t (2 * schema.length + 1 + (j + 1)) → f.primary w.1 = w.2) ∨
  NoFlagKey schema ∧
    Reaches t (2 * schema.length + 1 + ((pendingWrites schema (List.ofFn ctx.pending)).length + 2))

theorem forall_mem_take_iff {α : Type} {P : α → Prop} (l : List α) (n : Nat) :
    (∀ a ∈ l.take n, P a) ↔ ∀ j a, l[j]? = some a → j + 1 ≤ n → P a := by
  constructor
  · intro h j a hj hlt
    refine h a (List.mem_of_getElem? (i := j) ?_)
    rw [List.getElem?_take_of_lt hlt, hj]
  · intro h a ha
    obtain ⟨j, hj⟩ := List.mem_iff_getElem?.mp ha
    rw [List.getElem?_take] at hj
    split_ifs at hj with hlt
    exact h j a hj hlt

/-- The copy does not set the flag. -/
theorem copied_flag {f : Flash} (hfits : ∀ p ∈ schema, fits f.primary p.key)
    (hflag : f.backup pendingKey ≠ some (.u8 1)) :
    (copied schema f).backup pendingKey ≠ some (.u8 1) := by
  rw [copied_backup]
  split_ifs with hmem
  · obtain ⟨p, hp, hkey⟩ := List.mem_map.mp hmem
    intro hset
    have := hfits p hp
    rw [hkey, fits, hset] at this
    cases this
  · exact hflag

/-- With the flag set over the copy, the configuration can be restored unless the flag has
taken the place of an entry. -/
theorem recoverable_flag_iff {f f' : Flash} (hfits : ∀ p ∈ schema, fits f.primary p.key)
    (hbackup : f'.backup = Function.update (copied schema f).backup pendingKey (some (.u8 1))) :
    Recoverable schema f.primary f' ↔ f'.primary = f.primary ∨ NoFlagKey schema := by
  refine or_congr_right ⟨fun ⟨_, hagree⟩ p hp hkey => ?_, fun hkey => ⟨?_, fun p hp => ?_⟩⟩
  · have hset := hagree p hp
    rw [hbackup, hkey, Function.update_self] at hset
    have := hfits p hp
    rw [hkey, fits, ← hset] at this
    cases this
  · rw [hbackup, Function.update_self]
  · rw [hbackup, Function.update_of_ne (hkey p hp), copied_backup,
      if_pos (List.mem_map_of_mem hp)]

theorem saveCalls_recoverable_iff (hacc : Accepted schema) {ctx : Ctx} (hone : OneSlotEach ctx)
    {f : Flash} (hflag : f.backup pendingKey ≠ some (.u8 1)) (t : Fates Nat) :
    Recoverable schema f.primary (saveCalls schema ctx f t).2.1 ↔ SaveSafe schema ctx f t := by
  have hnd := pendingWrites_nodup hacc hone
  unfold SaveSafe
  set ws := pendingWrites schema (List.ofFn ctx.pending) with hws
  have hlen : (changeAtoms schema ctx).length = ws.length + 3 := by
    simp [changeAtoms, ← hws]
  set p := progress (copyAtoms schema ++ changeAtoms schema ctx) f t with hp
  have hreach := fun j (hj : j ≤ ws.length + 3) => save_progress_iff ctx f t (hlen.symm ▸ hj)
  have hmax : p ≤ schema.length + 1 + (ws.length + 3) := by
    have := progress_le (copyAtoms schema ++ changeAtoms schema ctx) f t
    rwa [List.length_append, length_copyAtoms, hlen] at this
  by_cases hcopy : (∀ p ∈ schema, fits f.primary p.key) ∧ Reaches t (2 * schema.length + 1 + 0)
  · have hfits : ¬ ∃ p ∈ schema, ¬ fits f.primary p.key := fun ⟨q, hq, hnot⟩ => hnot (hcopy.1 q hq)
    obtain ⟨j, hj⟩ : ∃ j, p = schema.length + 1 + j :=
      ⟨p - (schema.length + 1), by have := (hreach 0 (by omega)).mpr hcopy; omega⟩
    have hle : ∀ i, i ≤ ws.length + 3 →
        (Reaches t (2 * schema.length + 1 + i) ↔ i ≤ j) := by
      intro i hi
      have := hreach i hi
      rw [← hp, hj] at this
      exact ⟨fun h => by have := this.mpr ⟨hcopy.1, h⟩; omega, fun h => (this.mp (by omega)).2⟩
    obtain ⟨hprimary, hbackup⟩ := save_after ctx f t (hp.symm.trans hj)
    rw [← hws] at hprimary hbackup
    have hsame : (saveCalls schema ctx f t).2.1.primary = f.primary ↔
        ∀ i w, ws[i]? = some w → Reaches t (2 * schema.length + 1 + (i + 1)) →
          f.primary w.1 = w.2 := by
      have hnd' : ((ws.take j).map Prod.fst).Nodup := by
        rw [List.map_take]
        exact hnd.sublist (List.take_sublist ..)
      rw [hprimary, writeAll_eq_self_iff hnd', forall_mem_take_iff]
      refine forall_congr' fun i => forall_congr' fun w => forall_congr' fun hi => ?_
      have hlt := (List.getElem?_eq_some_iff.mp hi).1
      rw [hle (i + 1) (by omega)]
    rw [hle (ws.length + 2) (by omega), ← hsame]
    by_cases hset : ws.length + 2 ≤ j
    · -- the flag is set
      rw [if_pos hset] at hbackup
      rw [recoverable_flag_iff hcopy.1 hbackup]
      exact ⟨fun h => .inr (h.imp id fun h => ⟨h, hset⟩),
        fun h => (h.resolve_left hfits).imp id fun h => h.1⟩
    · -- it is not, so the configuration has to be there
      rw [if_neg hset] at hbackup
      refine ⟨fun h => ?_, fun h => ?_⟩
      · obtain hsame | ⟨hflag', -⟩ := h
        · exact .inr (.inl hsame)
        · rw [hbackup] at hflag'
          exact absurd hflag' (copied_flag hcopy.1 hflag)
      · obtain h | h | h := h
        · exact absurd h hfits
        · exact .inl h
        · exact absurd h.2 hset
  · -- the save stops in its copy
    have hbefore : p ≤ schema.length + 1 := by
      by_contra hnot
      exact hcopy ((hreach 0 (by omega)).mp (by omega))
    refine ⟨fun _ => ?_, fun _ => .inl (save_before ctx f t hbefore)⟩
    by_cases hfits : ∀ p ∈ schema, fits f.primary p.key
    · refine .inr (.inl fun j w _ hj => ?_)
      exact absurd ⟨hfits, hj.mono (by omega)⟩ hcopy
    · exact .inl (by simpa using hfits)

/-- A save of a committed configuration, in any run of the module, cut off or refused at any
call: the configuration can be restored exactly when the save is safe. -/
theorem save_recoverable_iff {defaults : List Param} {localSchema : Option (List Param)}
    {localSchemaCount : Nat} {schema : List Param}
    (hschema : buildMergedSchema defaults localSchema localSchemaCount = .ok schema) {d : Device}
    (h : Reach (fun d => d.ctx = none) (deviceStep schema) Always d) {ctx : Ctx}
    (hctx : d.ctx = some ctx) (hflag : d.flash.backup pendingKey ≠ some (.u8 1)) (t : Fates Nat) :
    Recoverable schema d.flash.primary (cfgSave schema ctx d.flash t).2.1 ↔
      SaveSafe schema ctx d.flash t := by
  have hacc := buildMergedSchema_ok hschema
  rw [cfgSave_leaves]
  exact saveCalls_recoverable_iff hacc (slotsOk_reach hacc h hctx).one hflag t

/-- A device on erased flash, with a call sign staged. -/
def staged : Device :=
  ⟨some (cfgSet callSchema {} (bytes "call") (bytes "W1AW")).2, erased⟩

theorem staged_reach : Reach (fun d => d.ctx = none) (deviceStep callSchema) Always staged :=
  .next (s := ⟨some {}, erased⟩) (.stage (.set (bytes "call") (bytes "W1AW")))
    (.next (s := ⟨none, erased⟩) (.reboot []) (.start rfl) trivial rfl) trivial rfl

/-- A save that is not cut off is safe. -/
theorem save_recoverable_through :
    Recoverable callSchema erased.primary
      (cfgSave callSchema (cfgSet callSchema {} (bytes "call") (bytes "W1AW")).2 erased []).2.1 := by
  have hschema : buildMergedSchema [] (some callSchema) 1 = .ok callSchema := by decide +kernel
  exact (save_recoverable_iff hschema staged_reach rfl (by decide +kernel) []).mpr
    (.inr (.inr ⟨by decide +kernel, reaches_nil _⟩))

/-- The power goes after the new call sign has been written and before the flag is set: the old
configuration is gone, and nothing says so. -/
theorem save_cut_before_flag :
    Reach (fun d => d.ctx = none) (deviceStep callSchema) Always staged ∧
      staged.flash.backup pendingKey = none ∧
      ∃ ctx, staged.ctx = some ctx ∧
        ¬ Recoverable callSchema staged.flash.primary
          (cfgSave callSchema ctx staged.flash [.done, .done, .done, .done, .lost]).2.1 := by
  refine ⟨staged_reach, rfl, _, rfl, fun h => ?_⟩
  obtain hsame | ⟨hset, -⟩ := h
  · have hkey := congrFun hsame (bytes "call")
    revert hkey
    decide +kernel
  · revert hset
    decide +kernel

end EspAx25.Config
