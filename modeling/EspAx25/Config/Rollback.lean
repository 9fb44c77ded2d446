import EspAx25.Config.Recovery

/-!
# EspAx25.Config.Rollback

Histories of saves, commits and rollbacks with NVS at work, and what a rollback goes
back to: the values of the last commit, or those of the initialisation when there has
been none.

The backup holds the values from before the last save. It is the committed
configuration only while every save starts from that configuration, and only from
the first save after a commit on.
-/

namespace EspAx25.Config

open Crash Transition

/-- A device, the primary namespace at its last commit, and whether there has been a save
since. -/
structure History where
  dev : Device
  committed : Namespace
  saved : Bool

section Histories

variable (schema : List Param)

/-- After an operation. -/
def historyStep (s : History) (op : DeviceOp) : Option History :=
  (deviceStep schema s.dev op).map fun d => match op with
    | .commit _ => ⟨d, d.flash.primary, false⟩
    | .save _ => ⟨d, s.committed, true⟩
    | _ => ⟨d, s.committed, s.saved⟩

/-- After `ax25_cfg_init`. -/
def Initialised (f : Flash) (s : History) : Prop := s = ⟨boot f [], f.primary, false⟩

/-- No call to NVS fails or is cut off. -/
def NvsWorks : DeviceOp → Prop
  | .stage _ => True
  | .exit => True
  | .save t => t = []
  | .commit t => t = []
  | .revert t => t = []
  | .reboot t => t = []
  | .expire t => t = []

/-- A rollback: `revert`, or the timer running out. -/
def IsRollback : DeviceOp → Prop
  | .revert _ => True
  | .expire _ => True
  | _ => False

/-- A save from the committed values, and a rollback with a save since the last commit, or
with a backup that changes nothing. -/
def Careful (s : History) (op : DeviceOp) : Prop :=
  NvsWorks op ∧ match op with
    | .save _ => Agree schema s.dev.flash.primary s.committed
    | .revert _ => s.saved = true ∨ Agree schema s.dev.flash.backup s.dev.flash.primary
    | .expire _ => s.saved = true ∨ Agree schema s.dev.flash.backup s.dev.flash.primary
    | _ => True

instance : (op : DeviceOp) → Decidable (NvsWorks op)
  | .stage _ => .isTrue trivial
  | .exit => .isTrue trivial
  | .save t => inferInstanceAs (Decidable (t = []))
  | .commit t => inferInstanceAs (Decidable (t = []))
  | .revert t => inferInstanceAs (Decidable (t = []))
  | .reboot t => inferInstanceAs (Decidable (t = []))
  | .expire t => inferInstanceAs (Decidable (t = []))

instance (ns ns' : Namespace) : Decidable (Agree schema ns ns') :=
  inferInstanceAs (Decidable (∀ p ∈ schema, ns p.key = ns' p.key))

instance (s : History) (op : DeviceOp) : Decidable (Careful schema s op) :=
  match op with
  | .save t => inferInstanceAs (Decidable (NvsWorks (.save t) ∧ Agree ..))
  | .revert t => inferInstanceAs (Decidable (NvsWorks (.revert t) ∧ (_ ∨ Agree ..)))
  | .expire t => inferInstanceAs (Decidable (NvsWorks (.expire t) ∧ (_ ∨ Agree ..)))
  | .commit t => inferInstanceAs (Decidable (NvsWorks (.commit t) ∧ True))
  | .reboot t => inferInstanceAs (Decidable (NvsWorks (.reboot t) ∧ True))
  | .stage c => inferInstanceAs (Decidable (NvsWorks (.stage c) ∧ True))
  | .exit => inferInstanceAs (Decidable (NvsWorks .exit ∧ True))

end Histories

variable {schema : List Param}

/-! ### The operations with NVS at work -/

theorem Agree.fits {ns ns' : Namespace} (h : Agree schema ns ns')
    (hfits : ∀ p ∈ schema, fits ns' p.key) : ∀ p ∈ schema, fits ns p.key := by
  intro p hp
  unfold Config.fits
  rw [h p hp]
  exact hfits p hp

/-- A save with NVS at work: the entries as they were go to the backup. -/
theorem save_works (hkey : NoFlagKey schema) {ctx : Ctx} (hslots : SlotsOk schema ctx) {f : Flash}
    (hfits : ∀ p ∈ schema, fits f.primary p.key) :
    Agree schema (cfgSave schema ctx f []).2.1.backup f.primary ∧
      (∀ p ∈ schema, fits (cfgSave schema ctx f []).2.1.primary p.key) ∧
      ∃ r, (cfgSave schema ctx f []).1 = some r := by
  set ws := pendingWrites schema (List.ofFn ctx.pending) with hws
  have hlen : (changeAtoms schema ctx).length = ws.length + 3 := by simp [changeAtoms, ← hws]
  have hall : progress (copyAtoms schema ++ changeAtoms schema ctx) f ([] : Fates Nat) =
      schema.length + 1 + (ws.length + 3) := by
    have hge := (save_progress_iff ctx f ([] : Fates Nat) (Nat.le_refl _)).mpr
      ⟨hfits, reaches_nil _⟩
    have hle := progress_le (copyAtoms schema ++ changeAtoms schema ctx) f ([] : Fates Nat)
    rw [List.length_append, length_copyAtoms] at hle
    omega
  obtain ⟨hprimary, hbackup⟩ := save_after ctx f [] hall
  rw [← hws] at hprimary hbackup
  rw [if_pos (by omega)] at hbackup
  rw [cfgSave_leaves, hprimary, hbackup, List.take_of_length_le (by omega)]
  refine ⟨fun p hp => ?_, fun p hp => fits_writeAll (fun w hw => ?_) (hfits p hp), ?_⟩
  · rw [Function.update_of_ne (hkey p hp), copied_backup, if_pos (List.mem_map_of_mem hp)]
  · obtain ⟨k, param, -, -, rfl⟩ := mem_pendingWrites.mp hw
    unfold Slot.item
    split_ifs
    · rfl
    · exact decide_eq_true (hslots.short k)
  · have hdoes := saveCalls_does schema ctx
    have hok := (hdoes.succeeds f []).mpr (by
      change progress (copyAtoms schema ++ changeAtoms schema ctx) f [] =
        (copyAtoms schema ++ changeAtoms schema ctx).length
      rw [hall, List.length_append, length_copyAtoms, hlen])
    obtain ⟨o, f', t', hrun⟩ : ∃ o f' t', saveCalls schema ctx f [] = (o, f', t') :=
      ⟨_, _, _, rfl⟩
    rw [hrun] at hok
    dsimp only at hok
    rw [hok] at hrun
    unfold cfgSave
    rw [bind_run_some hrun]
    exact ⟨_, rfl⟩

/-- A rollback with NVS at work: the entries of the backup come back. -/
theorem restore_works (hkey : NoFlagKey schema) {f : Flash}
    (hfits : ∀ p ∈ schema, fits f.backup p.key) :
    Agree schema (restoreBackupToPrimary schema f []).2.1.primary f.backup ∧
      Agree schema (restoreBackupToPrimary schema f []).2.1.backup f.backup := by
  obtain ⟨hprimary, hbackup⟩ := restore_done ((restore_succeeds_iff f []).mpr
    ⟨hfits, reaches_nil _⟩)
  refine ⟨hprimary, fun p hp => ?_⟩
  rw [hbackup, Function.update_of_ne (hkey p hp)]

/-- A commit erases the flag and no more. -/
theorem commit_works (ctx : Ctx) (f : Flash) :
    (cfgCommit ctx f []).2.1 = f.write .backup pendingKey none := by
  have hdoes : Does (tryThen
      (mapError (fun e => Failure.mk (.nvs e) (bytes "erase pending flag failed: "))
        (eraseIfFound .backup pendingKey)) fun _ =>
      mapError (fun e => Failure.mk (.nvs e) (bytes "backup commit failed: ")) (nvsCommit .backup))
      ([writeAtom .backup pendingKey none] ++ [commitAtom]) :=
    .tryThen (.mapError (eraseIfFound_does ..)) (.mapError (nvsCommit_does .backup))
  unfold cfgCommit
  rw [bind_leaves (fun r _ _ => by rcases r with _ | _ <;> rfl), hdoes.leaves]
  rfl

/-- A flag in the place of an entry makes every rollback fail. -/
theorem restore_fails (hkey : ¬ NoFlagKey schema) {f : Flash}
    (hflag : f.backup pendingKey = some (.u8 1)) (t : Fates Nat) :
    (restoreBackupToPrimary schema f t).1 ≠ some (.ok ()) := by
  intro hok
  obtain ⟨p, hp, heq⟩ : ∃ p ∈ schema, p.key = pendingKey := by simpa [NoFlagKey] using hkey
  have hread := ((restore_succeeds_iff f t).mp hok).1 p hp
  rw [fits, heq, hflag] at hread
  cases hread

/-! ### Histories -/

/-- What holds while the operations are careful: both namespaces can be read, and the
committed values are in the backup once there has been a save, and in the primary namespace
before that. -/
structure Kept (schema : List Param) (s : History) : Prop where
  slots : DeviceOk schema s.dev
  primary : ∀ p ∈ schema, fits s.dev.flash.primary p.key
  backup : ∀ p ∈ schema, fits s.dev.flash.backup p.key
  committed : if s.saved then Agree schema s.dev.flash.backup s.committed
    else Agree schema s.dev.flash.primary s.committed

theorem kept_starts {f : Flash} (hprimary : ∀ p ∈ schema, fits f.primary p.key)
    (hbackup : ∀ p ∈ schema, fits f.backup p.key) {s : History} (h : Initialised f s) :
    Kept schema s := by
  subst h
  obtain ⟨hflash, hctx⟩ := boot_cases f []
  refine ⟨fun ctx h => slotsOk_fresh (hctx ctx h).1, ?_, ?_, ?_⟩
  · rw [hflash]
    exact hprimary
  · rw [hflash]
    exact hbackup
  · rw [hflash]
    exact fun p _ => rfl

/-- The step of a rollback, with NVS at work. -/
theorem rollback_step {s s' : History} {op : DeviceOp} (hop : IsRollback op) (hnvs : NvsWorks op)
    (hs : historyStep schema s op = some s') :
    s'.dev.flash = (restoreBackupToPrimary schema s.dev.flash []).2.1 ∧
      s'.committed = s.committed ∧ s'.saved = s.saved := by
  obtain ⟨d, hd, rfl⟩ := Option.map_eq_some_iff.mp hs
  cases op with
  | revert t =>
      obtain rfl : t = [] := hnvs
      obtain ⟨ctx, -, rfl⟩ := Option.map_eq_some_iff.mp hd
      exact ⟨congrArg Prod.fst (cfgRevert_leaves ctx s.dev.flash []), rfl, rfl⟩
  | expire t =>
      obtain rfl : t = [] := hnvs
      obtain ⟨ctx, -, hd⟩ := Option.bind_eq_some_iff.mp hd
      split_ifs at hd
      cases hd
      exact ⟨congrArg Prod.fst (commitTimeoutCb_leaves ctx s.dev.flash []), rfl, rfl⟩
  | stage c => exact hop.elim
  | exit => exact hop.elim
  | save t => exact hop.elim
  | commit t => exact hop.elim
  | reboot t => exact hop.elim

/-- A rollback brings the entries of the backup back, and keeps them in the backup. -/
theorem rollback_agree (hkey : NoFlagKey schema) {s s' : History} (hi : Kept schema s)
    {op : DeviceOp} (hop : IsRollback op) (hnvs : NvsWorks op)
    (hs : historyStep schema s op = some s') :
    Agree schema s'.dev.flash.primary s.dev.flash.backup ∧
      Agree schema s'.dev.flash.backup s.dev.flash.backup := by
  obtain ⟨hflash, -, -⟩ := rollback_step hop hnvs hs
  rw [hflash]
  exact restore_works hkey hi.backup

/-- A careful rollback brings the committed values back. -/
theorem rollback_committed (hkey : NoFlagKey schema) {s s' : History} (hi : Kept schema s)
    {op : DeviceOp} (hop : IsRollback op) (hok : Careful schema s op)
    (hs : historyStep schema s op = some s') :
    Agree schema s'.dev.flash.primary s'.committed := by
  have hcareful : s.saved = true ∨ Agree schema s.dev.flash.backup s.dev.flash.primary := by
    cases op with
    | revert t => exact hok.2
    | expire t => exact hok.2
    | stage c => exact hop.elim
    | exit => exact hop.elim
    | save t => exact hop.elim
    | commit t => exact hop.elim
    | reboot t => exact hop.elim
  obtain ⟨-, hcommitted, -⟩ := rollback_step hop hok.1 hs
  have hrestored := (rollback_agree hkey hi hop hok.1 hs).1
  have hkept := hi.committed
  rw [hcommitted]
  intro p hp
  rw [hrestored p hp]
  obtain hsaved | hsame := hcareful
  · rw [if_pos hsaved] at hkept
    exact hkept p hp
  · split_ifs at hkept with hsaved
    · exact hkept p hp
    · exact (hsame p hp).trans (hkept p hp)

theorem kept_rollback (hacc : Accepted schema) (hkey : NoFlagKey schema) {s s' : History}
    (hi : Kept schema s) {op : DeviceOp} (hop : IsRollback op) (hok : Careful schema s op)
    (hs : historyStep schema s op = some s') : Kept schema s' := by
  have hdone := rollback_committed hkey hi hop hok hs
  obtain ⟨hprimary, hbackup⟩ := rollback_agree hkey hi hop hok.1 hs
  obtain ⟨-, hcommitted, hsaved⟩ := rollback_step hop hok.1 hs
  obtain ⟨d, hd, hd'⟩ := Option.map_eq_some_iff.mp hs
  have hdev : s'.dev = d := by
    rw [← hd']
    cases op <;> rfl
  refine ⟨hdev ▸ deviceOk_step hacc hi.slots hd, hprimary.fits hi.backup, hbackup.fits hi.backup, ?_⟩
  split_ifs
  · exact fun p hp => (hbackup p hp).trans ((hprimary p hp).symm.trans (hdone p hp))
  · exact hdone

theorem kept_save (hacc : Accepted schema) (hkey : NoFlagKey schema) {s s' : History}
    (hi : Kept schema s) (hok : Agree schema s.dev.flash.primary s.committed)
    (hs : historyStep schema s (.save []) = some s') : Kept schema s' := by
  obtain ⟨d, hd, rfl⟩ := Option.map_eq_some_iff.mp hs
  have hslots := deviceOk_step hacc hi.slots hd
  obtain ⟨ctx, hctx, rfl⟩ := Option.map_eq_some_iff.mp hd
  obtain ⟨hbackup, hprimary, -⟩ := save_works hkey (hi.slots ctx hctx) hi.primary
  exact ⟨hslots, hprimary, hbackup.fits hi.primary,
    fun p hp => (hbackup p hp).trans (hok p hp)⟩

theorem kept_step (hacc : Accepted schema) (hkey : NoFlagKey schema) {s s' : History}
    (hi : Kept schema s) {op : DeviceOp} (hok : Careful schema s op)
    (hs : historyStep schema s op = some s') : Kept schema s' := by
  cases op with
  | save t =>
      obtain rfl : t = [] := hok.1
      exact kept_save hacc hkey hi hok.2 hs
  | revert t =>
      have hop : IsRollback (.revert t) := trivial
      exact kept_rollback hacc hkey hi hop hok hs
  | expire t =>
      have hop : IsRollback (.expire t) := trivial
      exact kept_rollback hacc hkey hi hop hok hs
  | commit t =>
      obtain rfl : t = [] := hok.1
      obtain ⟨d, hd, rfl⟩ := Option.map_eq_some_iff.mp hs
      have hslots := deviceOk_step hacc hi.slots hd
      obtain ⟨ctx, -, rfl⟩ := Option.map_eq_some_iff.mp hd
      have hflash : (settle (cfgCommit ctx s.dev.flash [])).flash =
          s.dev.flash.write .backup pendingKey none := commit_works ctx s.dev.flash
      have hbackup : Agree schema (s.dev.flash.write .backup pendingKey none).backup
          s.dev.flash.backup := fun p hp => Function.update_of_ne (hkey p hp) ..
      refine ⟨hslots, ?_, ?_, fun p _ => rfl⟩
      · dsimp only
        rw [hflash]
        exact hi.primary
      · dsimp only
        rw [hflash]
        exact hbackup.fits hi.backup
  | reboot t =>
      obtain ⟨d, hd, rfl⟩ := Option.map_eq_some_iff.mp hs
      have hslots := deviceOk_step hacc hi.slots hd
      cases hd
      have hflash := (boot_cases s.dev.flash t).1
      refine ⟨hslots, ?_, ?_, ?_⟩
      · dsimp only
        rw [hflash]
        exact hi.primary
      · dsimp only
        rw [hflash]
        exact hi.backup
      · dsimp only
        rw [hflash]
        exact hi.committed
  | stage c =>
      obtain ⟨d, hd, rfl⟩ := Option.map_eq_some_iff.mp hs
      have hslots := deviceOk_step hacc hi.slots hd
      obtain ⟨ctx, -, rfl⟩ := Option.map_eq_some_iff.mp hd
      exact ⟨hslots, hi.primary, hi.backup, hi.committed⟩
  | exit =>
      obtain ⟨d, hd, rfl⟩ := Option.map_eq_some_iff.mp hs
      have hslots := deviceOk_step hacc hi.slots hd
      obtain ⟨ctx, -, rfl⟩ := Option.map_eq_some_iff.mp hd
      exact ⟨hslots, hi.primary, hi.backup, hi.committed⟩

/-! ### Steps that are not careful -/

/-- A rollback that is not careful does not bring the committed values back. -/
theorem careless_rollback (hkey : NoFlagKey schema) {s s' : History} (hi : Kept schema s)
    {op : DeviceOp} (hop : IsRollback op) (hnvs : NvsWorks op) (hbad : ¬ Careful schema s op)
    (hs : historyStep schema s op = some s') :
    ¬ Agree schema s'.dev.flash.primary s'.committed := by
  have hneither : ¬ (s.saved = true ∨ Agree schema s.dev.flash.backup s.dev.flash.primary) := by
    cases op with
    | revert t => exact fun h => hbad ⟨hnvs, h⟩
    | expire t => exact fun h => hbad ⟨hnvs, h⟩
    | stage c => exact hop.elim
    | exit => exact hop.elim
    | save t => exact hop.elim
    | commit t => exact hop.elim
    | reboot t => exact hop.elim
  obtain ⟨hsaved, hdiffer⟩ := not_or.mp hneither
  have hkept := hi.committed
  rw [if_neg hsaved] at hkept
  obtain ⟨-, hcommitted, -⟩ := rollback_step hop hnvs hs
  rw [hcommitted]
  intro hagree
  refine hdiffer fun p hp => ?_
  rw [hkept p hp, ← hagree p hp, (rollback_agree hkey hi hop hnvs hs).1 p hp]

/-- After a save from values that are not the committed ones, a `revert` does not bring these
back. -/
theorem careless_save (hkey : NoFlagKey schema) {s s' : History}
    (hi : Kept schema s) (hbad : ¬ Agree schema s.dev.flash.primary s.committed)
    (hs : historyStep schema s (.save []) = some s') :
    ∃ s'', historyStep schema s' (.revert []) = some s'' ∧
      ¬ Agree schema s''.dev.flash.primary s''.committed := by
  obtain ⟨d, hd, rfl⟩ := Option.map_eq_some_iff.mp hs
  obtain ⟨ctx, hctx, rfl⟩ := Option.map_eq_some_iff.mp hd
  obtain ⟨hbackup, -, r, hr⟩ := save_works hkey (hi.slots ctx hctx) hi.primary
  have hrevert : ∃ s'', historyStep schema
      ⟨settle (cfgSave schema ctx s.dev.flash []), s.committed, true⟩ (.revert []) = some s'' := by
    unfold historyStep deviceStep settle
    rw [hr]
    exact ⟨_, rfl⟩
  obtain ⟨s'', hs''⟩ := hrevert
  have hop : IsRollback (.revert []) := trivial
  have hnvs : NvsWorks (.revert []) := rfl
  obtain ⟨hflash, hcommitted, -⟩ := rollback_step hop hnvs hs''
  refine ⟨s'', hs'', fun hagree => hbad fun p hp => ?_⟩
  have hrestored := (restore_works hkey (hbackup.fits hi.primary)).1 p hp
  have hp' := hagree p hp
  rw [hflash, hcommitted] at hp'
  exact ((hbackup p hp).symm.trans hrestored.symm).trans hp'

/-- With NVS at work, in every history all of whose operations are careful, every rollback
brings the committed values back. An operation that is not careful either is a rollback that
does not, or is a save after which a `revert` does not. And when an entry has the key of
the flag, no rollback succeeds while the flag is set. -/
theorem rollback_exact {defaults : List Param} {localSchema : Option (List Param)}
    {localSchemaCount : Nat} {schema : List Param}
    (hschema : buildMergedSchema defaults localSchema localSchemaCount = .ok schema) {f : Flash}
    (hprimary : ∀ p ∈ schema, fits f.primary p.key) (hbackup : ∀ p ∈ schema, fits f.backup p.key) :
    (NoFlagKey schema → ∀ s, Reach (Initialised f) (historyStep schema) (Careful schema) s →
      ∀ op s', NvsWorks op → historyStep schema s op = some s' →
        (Careful schema s op → IsRollback op →
          Agree schema s'.dev.flash.primary s'.committed) ∧
        (¬ Careful schema s op →
          IsRollback op ∧ ¬ Agree schema s'.dev.flash.primary s'.committed ∨
          ∃ s'', historyStep schema s' (.revert []) = some s'' ∧
            ¬ Agree schema s''.dev.flash.primary s''.committed)) ∧
    (¬ NoFlagKey schema → ∀ f t, f.backup pendingKey = some (.u8 1) →
      (restoreBackupToPrimary schema f t).1 ≠ some (.ok ())) := by
  have hacc := buildMergedSchema_ok hschema
  refine ⟨fun hkey s h op s' hnvs hs => ?_, fun hkey f t hflag => restore_fails hkey hflag t⟩
  have hi : Kept schema s := h.invariant (fun s hs => kept_starts hprimary hbackup hs)
    fun s op s' hi hok hs => kept_step hacc hkey hi hok hs
  refine ⟨fun hok hop => rollback_committed hkey hi hop hok hs, fun hbad => ?_⟩
  cases op with
  | save t =>
      obtain rfl : t = [] := hnvs
      exact .inr (careless_save hkey hi (fun h => hbad ⟨rfl, h⟩) hs)
  | revert t =>
      have hop : IsRollback (.revert t) := trivial
      exact .inl ⟨hop, careless_rollback hkey hi hop hnvs hbad hs⟩
  | expire t =>
      have hop : IsRollback (.expire t) := trivial
      exact .inl ⟨hop, careless_rollback hkey hi hop hnvs hbad hs⟩
  | commit t => exact absurd ⟨hnvs, trivial⟩ hbad
  | reboot t => exact absurd ⟨hnvs, trivial⟩ hbad
  | stage c => exact absurd ⟨hnvs, trivial⟩ hbad
  | exit => exact absurd ⟨hnvs, trivial⟩ hbad

/-- The history of a device with erased flash, before its first operation. -/
def newHistory : History := ⟨boot erased [], erased.primary, false⟩

/-- Setting the call sign. -/
def setCall (value : String) : DeviceOp := .stage (.set (bytes "call") (bytes value))

/-- A save that is reverted. -/
theorem rollback_exact_save : ∃ s s',
    Reach (Initialised erased) (historyStep callSchema) (Careful callSchema) s ∧
      historyStep callSchema s (.revert []) = some s' ∧
      Agree callSchema s'.dev.flash.primary s'.committed := by
  have hreplay : (replay (historyStep callSchema) (Careful callSchema) newHistory
      [setCall "W1AW", .save []]).map (fun s => (s.saved, s.dev.ctx.isSome)) =
      some (true, true) := by decide +kernel
  obtain ⟨s, hs, hsaved⟩ := Option.map_eq_some_iff.mp hreplay
  have hreach : Reach (Initialised erased) (historyStep callSchema) (Careful callSchema) s :=
    .replay (.start rfl) hs
  obtain ⟨ctx, hctx⟩ := Option.isSome_iff_exists.mp (congrArg Prod.snd hsaved)
  have hstep : historyStep callSchema s (.revert []) = some
      ⟨settle (cfgRevert callSchema ctx s.dev.flash []), s.committed, s.saved⟩ := by
    unfold historyStep deviceStep
    rw [hctx]
    rfl
  have hschema : buildMergedSchema [] (some callSchema) 1 = .ok callSchema := by decide +kernel
  have hkey : NoFlagKey callSchema := by decide +kernel
  exact ⟨s, _, hreach, hstep, ((rollback_exact hschema (by decide +kernel)
    (by decide +kernel)).1 hkey s hreach (.revert []) _ rfl hstep).1
      ⟨rfl, .inl (congrArg Prod.fst hsaved)⟩ trivial⟩

/-- After two saves without a commit, `revert` undoes the second one only; and after a commit
it undoes what has been committed. -/
theorem revert_not_committed :
    (∃ s, Reach (Initialised erased) (historyStep callSchema) (fun _ => NvsWorks) s ∧
      s.committed (bytes "call") = none ∧
      (deviceStep callSchema s.dev (.revert [])).map (fun d => d.flash.primary (bytes "call")) =
        some (some (.str (bytes "W1AW")))) ∧
    ∃ s, Reach (Initialised erased) (historyStep callSchema) (fun _ => NvsWorks) s ∧
      s.committed (bytes "call") = some (.str (bytes "W1AW")) ∧
      (deviceStep callSchema s.dev (.revert [])).map (fun d => d.flash.primary (bytes "call")) =
        some none := by
  have htwo : (replay (historyStep callSchema) (fun _ => NvsWorks) newHistory
      [setCall "W1AW", .save [], setCall "N1XYZ", .save []]).map (fun s =>
        (s.committed (bytes "call"), (deviceStep callSchema s.dev (.revert [])).map
          (fun d => d.flash.primary (bytes "call")))) =
      some (none, some (some (.str (bytes "W1AW")))) := by decide +kernel
  have hcommit : (replay (historyStep callSchema) (fun _ => NvsWorks) newHistory
      [setCall "W1AW", .save [], .commit []]).map (fun s =>
        (s.committed (bytes "call"), (deviceStep callSchema s.dev (.revert [])).map
          (fun d => d.flash.primary (bytes "call")))) =
      some (some (.str (bytes "W1AW")), some none) := by decide +kernel
  obtain ⟨s, hs, hvalues⟩ := Option.map_eq_some_iff.mp htwo
  obtain ⟨s', hs', hvalues'⟩ := Option.map_eq_some_iff.mp hcommit
  exact ⟨⟨s, .replay (.start rfl) hs, congrArg Prod.fst hvalues, congrArg Prod.snd hvalues⟩,
    s', .replay (.start rfl) hs', congrArg Prod.fst hvalues', congrArg Prod.snd hvalues'⟩

end EspAx25.Config
