import EspAx25.Config.View

/-!
# EspAx25.Config.Device

The module on a device: its operations, restarts, and the rollback timer, with
whatever becomes of the calls to NVS. When the power goes the memory is lost and the
module is off until `ax25_cfg_init` has run again.

The last part says what the atoms of a save and of a restore leave, however far they
get.
-/

namespace EspAx25.Config

open Crash Transition

/-- The memory of the module, none while it is off, and its namespaces. -/
structure Device where
  ctx : Option Ctx
  flash : Flash

/-- What happens to a device. The fates are those of the calls that it makes to NVS. -/
inductive DeviceOp
  | stage (c : Change)
  | exit
  | save (fates : Fates Nat)
  | commit (fates : Fates Nat)
  | revert (fates : Fates Nat)
  | reboot (fates : Fates Nat)
  | expire (fates : Fates Nat)

section Operations

variable (schema : List Param)

/-- The device after an operation that returns a context, or is cut off. -/
def settle (r : Option (Except Failure Unit × Ctx) × Flash × Fates Nat) : Device :=
  ⟨r.1.map Prod.snd, r.2.1⟩

/-- `ax25_cfg_init` after a restart. -/
def boot (flash : Flash) (fates : Fates Nat) : Device :=
  match cfgInit flash fates with
  | (some (.ok ctx), flash, _) => ⟨some ctx, flash⟩
  | (_, flash, _) => ⟨none, flash⟩

/-- One operation. All but a restart need a module that is on, and the timer one that is
running. -/
def deviceStep (d : Device) : DeviceOp → Option Device
  | .reboot t => some (boot d.flash t)
  | .stage c => d.ctx.map fun ctx => { d with ctx := some (c.run schema ctx).2 }
  | .exit => d.ctx.map fun ctx => { d with ctx := some ctx.clearPending }
  | .save t => d.ctx.map fun ctx => settle (cfgSave schema ctx d.flash t)
  | .commit t => d.ctx.map fun ctx => settle (cfgCommit ctx d.flash t)
  | .revert t => d.ctx.map fun ctx => settle (cfgRevert schema ctx d.flash t)
  | .expire t => d.ctx.bind fun ctx =>
    if ctx.commitTimer then
      let r := commitTimeoutCb schema ctx d.flash t
      some ⟨r.1.join, r.2.1⟩
    else none

end Operations

variable {schema : List Param}

/-! ### What the operations leave in NVS -/

theorem cfgSave_leaves (ctx : Ctx) (f : Flash) (t : Fates Nat) :
    (cfgSave schema ctx f t).2 = (saveCalls schema ctx f t).2 :=
  bind_leaves (fun r _ _ => by rcases r with _ | _ <;> rfl) f t

theorem cfgRevert_leaves (ctx : Ctx) (f : Flash) (t : Fates Nat) :
    (cfgRevert schema ctx f t).2 = (restoreBackupToPrimary schema f t).2 :=
  bind_leaves (fun r _ _ => by rcases r with _ | _ <;> rfl) f t

theorem commitTimeoutCb_leaves (ctx : Ctx) (f : Flash) (t : Fates Nat) :
    (commitTimeoutCb schema ctx f t).2 = (restoreBackupToPrimary schema f t).2 :=
  bind_leaves (fun r _ _ => by rcases r with _ | _ <;> rfl) f t

/-- `ax25_cfg_init` writes nothing, and starts the timer only when the flag is set. -/
theorem boot_cases (f : Flash) (t : Fates Nat) :
    (boot f t).flash = f ∧ ∀ ctx, (boot f t).ctx = some ctx →
      ctx.pending = (fun _ => {}) ∧
        (ctx.commitTimer = true → f.backup pendingKey = some (.u8 1)) := by
  unfold boot
  by_cases ht : Reaches t 1
  · unfold cfgInit nvsGetU8
    rw [bind_run_some (call_done _ _ f ht)]
    simp only [Flash.open_backup]
    cases hk : f.backup pendingKey with
    | none =>
        refine ⟨rfl, fun ctx hctx => ?_⟩
        cases hctx
        exact ⟨rfl, fun h => (by cases h)⟩
    | some item =>
        cases item with
        | str value => exact ⟨rfl, fun ctx hctx => (by cases hctx)⟩
        | u8 value =>
            by_cases hv : value = 1
            · simp only [if_pos hv]
              refine ⟨rfl, fun ctx hctx => ?_⟩
              cases hctx
              exact ⟨rfl, fun _ => by rw [hv]⟩
            · simp only [if_neg hv]
              refine ⟨rfl, fun ctx hctx => ?_⟩
              cases hctx
              exact ⟨rfl, fun h => (by cases h)⟩
  · have hstop : (∃ e, cfgInit f t = (some (.error e), f, t.drop 1)) ∨
        cfgInit f t = (none, f, t.drop 1) := by
      obtain ⟨e, h⟩ | h := call_bind_not_done _ _ _ f ht
      · exact .inl ⟨_, h⟩
      · exact .inr h
    obtain ⟨e, h⟩ | h := hstop
    · rw [h]
      exact ⟨rfl, fun ctx hctx => (by cases hctx)⟩
    · rw [h]
      exact ⟨rfl, fun ctx hctx => (by cases hctx)⟩

/-- With the flag set and NVS at work, it starts the timer. -/
theorem boot_flag {f : Flash} (hflag : f.backup pendingKey = some (.u8 1)) :
    boot f [] = ⟨some { commitPending := true, commitTimer := true }, f⟩ := by
  unfold boot cfgInit nvsGetU8
  rw [bind_run_some (call_done _ _ f (reaches_nil 1))]
  simp only [Flash.open_backup, hflag]
  rfl

/-! ### The slots in every run -/

/-- The slots of a context that an operation ends with are those before it, or empty. -/
def PendingKept (ctx ctx' : Ctx) : Prop :=
  ctx'.pending = ctx.pending ∨ ctx'.pending = fun _ => {}

theorem SlotsOk.kept {ctx ctx' : Ctx} (h : SlotsOk schema ctx) (hk : PendingKept ctx ctx') :
    SlotsOk schema ctx' := by
  obtain heq | hfresh := hk
  · refine ⟨fun i j hi hj hidx => ?_, fun k hk => ?_, fun k => ?_⟩
    · rw [heq] at hi hj hidx
      exact h.one i j hi hj hidx
    · rw [heq] at hk ⊢
      exact h.known k hk
    · rw [heq]
      exact h.short k
  · exact slotsOk_fresh hfresh

theorem cfgSave_pending {ctx : Ctx} {f : Flash} {t : Fates Nat} {r : Except Failure Unit × Ctx}
    (h : (cfgSave schema ctx f t).1 = some r) : PendingKept ctx r.2 := by
  obtain ⟨e | u, f', t', -, hr⟩ := bind_result h
  · cases hr
    exact .inl rfl
  · cases hr
    exact .inr rfl

theorem cfgCommit_pending {ctx : Ctx} {f : Flash} {t : Fates Nat} {r : Except Failure Unit × Ctx}
    (h : (cfgCommit ctx f t).1 = some r) : PendingKept ctx r.2 := by
  obtain ⟨e | u, f', t', -, hr⟩ := bind_result h
  · cases hr
    exact .inl rfl
  · cases hr
    exact .inl rfl

theorem cfgRevert_pending {ctx : Ctx} {f : Flash} {t : Fates Nat} {r : Except Failure Unit × Ctx}
    (h : (cfgRevert schema ctx f t).1 = some r) : PendingKept ctx r.2 := by
  obtain ⟨e | u, f', t', -, hr⟩ := bind_result h
  · cases hr
    exact .inr rfl
  · cases hr
    exact .inr rfl

theorem commitTimeoutCb_pending {ctx : Ctx} {f : Flash} {t : Fates Nat} {r : Option Ctx}
    (h : (commitTimeoutCb schema ctx f t).1 = some r) : ∀ ctx', r = some ctx' →
      PendingKept ctx ctx' := by
  obtain ⟨e | u, f', t', -, hr⟩ := bind_result h
  · cases hr
    intro ctx' h
    cases h
    exact .inl rfl
  · cases hr
    intro ctx' h
    cases h

/-- The slots of a module that is on. -/
def DeviceOk (schema : List Param) (d : Device) : Prop :=
  ∀ ctx, d.ctx = some ctx → SlotsOk schema ctx

theorem deviceOk_step (hacc : Accepted schema) {d d' : Device} {op : DeviceOp}
    (hi : DeviceOk schema d) (hs : deviceStep schema d op = some d') : DeviceOk schema d' := by
  intro ctx' hctx'
  cases op with
  | reboot t =>
      cases hs
      exact slotsOk_fresh ((boot_cases d.flash t).2 ctx' hctx').1
  | stage c =>
      obtain ⟨ctx, hctx, rfl⟩ := Option.map_eq_some_iff.mp hs
      cases hctx'
      exact (hi ctx hctx).run hacc c
  | exit =>
      obtain ⟨ctx, hctx, rfl⟩ := Option.map_eq_some_iff.mp hs
      cases hctx'
      exact slotsOk_fresh rfl
  | save t =>
      obtain ⟨ctx, hctx, rfl⟩ := Option.map_eq_some_iff.mp hs
      obtain ⟨r, hr, rfl⟩ := Option.map_eq_some_iff.mp hctx'
      exact (hi ctx hctx).kept (cfgSave_pending hr)
  | commit t =>
      obtain ⟨ctx, hctx, rfl⟩ := Option.map_eq_some_iff.mp hs
      obtain ⟨r, hr, rfl⟩ := Option.map_eq_some_iff.mp hctx'
      exact (hi ctx hctx).kept (cfgCommit_pending hr)
  | revert t =>
      obtain ⟨ctx, hctx, rfl⟩ := Option.map_eq_some_iff.mp hs
      obtain ⟨r, hr, rfl⟩ := Option.map_eq_some_iff.mp hctx'
      exact (hi ctx hctx).kept (cfgRevert_pending hr)
  | expire t =>
      obtain ⟨ctx, hctx, hs⟩ := Option.bind_eq_some_iff.mp hs
      split_ifs at hs
      cases hs
      have hr := Option.join_eq_some_iff.mp hctx'
      exact (hi ctx hctx).kept (commitTimeoutCb_pending hr ctx' rfl)

/-- In every run, from a device that is off. -/
theorem slotsOk_reach (hacc : Accepted schema) {d : Device}
    (h : Reach (fun d => d.ctx = none) (deviceStep schema) Always d) {ctx : Ctx}
    (hctx : d.ctx = some ctx) : SlotsOk schema ctx := by
  have hi : DeviceOk schema d := by
    refine h.invariant (fun d hd => ?_) fun d op d' hi _ hs => deviceOk_step hacc hi hs
    intro ctx hctx
    rw [hd] at hctx
    cases hctx
  exact hi ctx hctx

/-! ### What the atoms leave -/

/-- No entry of the schema has the key of the flag. -/
def NoFlagKey (schema : List Param) : Prop := ∀ p ∈ schema, p.key ≠ pendingKey

instance (schema : List Param) : Decidable (NoFlagKey schema) :=
  inferInstanceAs (Decidable (∀ p ∈ schema, p.key ≠ pendingKey))

/-- Every entry of the schema has the same in both. -/
def Agree (schema : List Param) (ns ns' : Namespace) : Prop := ∀ p ∈ schema, ns p.key = ns' p.key

/-- Copying is ready when everything can be read. -/
theorem allReady_copy {src dst : Handle} (hne : src ≠ dst) (ps : List Param) (f : Flash) :
    AllReady (ps.map (copyAtom src dst)) f ↔ ∀ p ∈ ps, fits (f.open src) p.key := by
  induction ps generalizing f with
  | nil => simp [AllReady]
  | cons p ps ih =>
      have hsrc : ((copyAtom src dst p).effect f).open src = f.open src :=
        Flash.open_put_of_ne f hne _
      rw [List.map_cons, AllReady, ih, hsrc, List.forall_mem_cons]
      rfl

theorem totalCalls_copy (src dst : Handle) (ps : List Param) :
    totalCalls (ps.map (copyAtom src dst)) = 2 * ps.length := by
  induction ps with
  | nil => rfl
  | cons p ps ih =>
      simp only [totalCalls, List.map_cons, List.sum_cons, List.length_cons] at ih ⊢
      rw [ih]
      simp only [copyAtom]
      omega

/-- What `restore_backup_to_primary` leaves, however far it gets: the backup but for the flag,
and the flag too, unless it is through with the entries. -/
theorem restore_leaves (hkey : NoFlagKey schema) (f : Flash) (t : Fates Nat) :
    Agree schema (restoreBackupToPrimary schema f t).2.1.backup f.backup ∧
      ((restoreBackupToPrimary schema f t).2.1.backup = f.backup ∨
        (restoreBackupToPrimary schema f t).2.1.backup pendingKey = none ∧
          Agree schema (restoreBackupToPrimary schema f t).2.1.primary f.backup) := by
  have hdoes := restoreBackupToPrimary_does schema
  set copies := schema.map (copyAtom .backup .primary) with hcopies
  rw [hdoes.leaves, List.take_append, effects_append]
  generalize hn : progress (copies ++ [commitAtom, writeAtom .backup pendingKey none, commitAtom])
    f t = n
  set g := effects (copies.take n) f with hg
  have hbackup : g.backup = f.backup := by
    have h := effects_copy_src (show Handle.backup ≠ .primary from fun h => by cases h)
      (schema.take n) f
    rwa [List.map_take] at h
  -- the flag is erased only after the entries and the first `nvs_commit`
  rcases hm : n - copies.length with _ | _ | m
  · exact ⟨fun p _ => by rw [List.take_zero, effects_nil, hbackup], .inl hbackup⟩
  · exact ⟨fun p _ => congrFun hbackup p.key, .inl hbackup⟩
  · have hall : copies.take n = copies := List.take_of_length_le (by omega)
    have hrest : effects ([commitAtom, writeAtom .backup pendingKey none, commitAtom].take
        (m + 1 + 1)) g = g.write .backup pendingKey none := by
      rcases m with _ | m
      · rfl
      · simp only [List.take_succ_cons, List.take_nil]
        rfl
    rw [hrest, Flash.write_backup]
    refine ⟨fun p hp => ?_, .inr ⟨Function.update_self .., fun p hp => ?_⟩⟩
    · rw [Function.update_of_ne (hkey p hp), hbackup]
    · have hdst := effects_copy_dst (show Handle.backup ≠ .primary from fun h => by cases h)
        schema f p.key
      rw [if_pos (List.mem_map_of_mem hp), ← hcopies, ← hall, ← hg] at hdst
      exact hdst

/-- It succeeds when it can read the backup and all its calls are done, and then the flag is
gone. -/
theorem restore_succeeds_iff (f : Flash) (t : Fates Nat) :
    (restoreBackupToPrimary schema f t).1 = some (.ok ()) ↔
      (∀ p ∈ schema, fits f.backup p.key) ∧ Reaches t (2 * schema.length + 3) := by
  rw [(restoreBackupToPrimary_does schema).succeeds, progress_eq_length_iff, allReady_append,
    allReady_copy (fun h => (by cases h))]
  rw [totalCalls_append, totalCalls_copy]
  exact and_congr_left fun _ => ⟨fun h => h.1, fun h => ⟨h, rfl, rfl, rfl, trivial⟩⟩

end EspAx25.Config
