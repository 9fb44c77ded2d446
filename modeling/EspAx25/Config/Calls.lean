import Mathlib.Logic.Function.Basic
import EspAx25.Config.State

/-!
# EspAx25.Config.Calls

What the operations of the configuration do to NVS, as atoms: copying an entry takes
two calls, everything else takes one. An operation that fails or is cut off leaves
the effect of its first atoms.
-/

namespace EspAx25.Config

open Crash

@[simp] theorem Flash.open_primary (f : Flash) : f.open .primary = f.primary := rfl
@[simp] theorem Flash.open_backup (f : Flash) : f.open .backup = f.backup := rfl
@[simp] theorem Flash.put_primary (f : Flash) (ns : Namespace) :
    f.put .primary ns = { f with primary := ns } := rfl
@[simp] theorem Flash.put_backup (f : Flash) (ns : Namespace) :
    f.put .backup ns = { f with backup := ns } := rfl

@[simp] theorem Flash.open_put (f : Flash) (h : Handle) (ns : Namespace) :
    (f.put h ns).open h = ns := by
  cases h <;> rfl

theorem Flash.open_put_of_ne (f : Flash) {g h : Handle} (hne : g ≠ h) (ns : Namespace) :
    (f.put h ns).open g = f.open g := by
  cases g <;> cases h <;> first | rfl | exact absurd rfl hne

theorem Flash.put_open (f : Flash) (h : Handle) : f.put h (f.open h) = f := by
  cases h <;> rfl

/-! ### Atoms -/

/-- Nothing, or a string that fits in a buffer of the module. -/
def Item.fits : Option Item → Bool
  | none => true
  | some (.str value) => value.length < valueMaxLen
  | some (.u8 _) => false

/-- What the module can read of a key. -/
def fits (ns : Namespace) (key : List Byte) : Bool := Item.fits (ns key)

/-- The namespace with a key changed. -/
def Flash.write (f : Flash) (h : Handle) (key : List Byte) (item : Option Item) : Flash :=
  f.put h (Function.update (f.open h) key item)

theorem Flash.write_backup (f : Flash) (key : List Byte) (item : Option Item) :
    (f.write .backup key item).backup = Function.update f.backup key item := rfl

/-- Writing or erasing a key. -/
def writeAtom (h : Handle) (key : List Byte) (item : Option Item) : Atom Flash :=
  ⟨1, fun _ => true, fun f => f.write h key item⟩

/-- `nvs_commit`. -/
def commitAtom : Atom Flash := ⟨1, fun _ => true, id⟩

/-- Copying an entry. -/
def copyAtom (src dst : Handle) (p : Param) : Atom Flash :=
  ⟨2, fun f => fits (f.open src) p.key, fun f => f.write dst p.key (f.open src p.key)⟩

theorem nvsSetStr_does (h : Handle) (key value : List Byte) :
    Does (nvsSetStr h key value) [writeAtom h key (some (.str value))] := .call _ _

theorem nvsSetU8_does (h : Handle) (key : List Byte) (value : Byte) :
    Does (nvsSetU8 h key value) [writeAtom h key (some (.u8 value))] := .call _ _

theorem nvsCommit_does (h : Handle) : Does (nvsCommit h) [commitAtom] := .call _ _

theorem eraseIfFound_run (h : Handle) (key : List Byte) (f : Flash) (t : Fates Nat)
    (ht : Reaches t 1) :
    eraseIfFound h key f t = (some (.ok ()), f.write h key none, t.drop 1) := by
  unfold eraseIfFound nvsEraseKey
  rw [bind_run_some (call_done _ _ f ht)]
  unfold Flash.write
  cases hk : f.open h key with
  | none =>
      have hsame : Function.update (f.open h) key none = f.open h := by
        rw [← hk]
        exact Function.update_eq_self key (f.open h)
      rw [hsame, Flash.put_open]
      rfl
  | some item => rfl

theorem eraseIfFound_stops (h : Handle) (key : List Byte) (f : Flash) {t : Fates Nat}
    (ht : ¬ Reaches t 1) : Stops (eraseIfFound h key f t) f :=
  call_bind_stops ht fun _ => stops_error _ f _

theorem eraseIfFound_does (h : Handle) (key : List Byte) :
    Does (eraseIfFound h key) [writeAtom h key none] :=
  .single (fun f t _ ht => eraseIfFound_run h key f t ht) fun f _ hnot =>
    eraseIfFound_stops h key f fun ht => hnot ⟨rfl, ht⟩

/-- What `copy_primary_to_backup` and `restore_backup_to_primary` do for one entry is done as
a whole or not at all. -/
theorem copyEntry_does (src dst : Handle) (p : Param) :
    Does (copyEntry src dst p) [copyAtom src dst p] := by
  refine .single (fun f t hfits ht => ?_) fun f t hnot => ?_
  · obtain ⟨ht₁, ht₂⟩ := (reaches_add t 1 1).mp ht
    unfold copyEntry nvsGetStr
    rw [bind_run_some (call_done _ _ f ht₁)]
    simp only [copyAtom, fits, Item.fits] at hfits ⊢
    cases hk : f.open src p.key with
    | none => exact (eraseIfFound_run dst p.key f _ ht₂).trans (by rw [List.drop_drop])
    | some item =>
        rw [hk] at hfits
        cases item with
        | u8 value => cases hfits
        | str value =>
            simp only [if_pos (of_decide_eq_true hfits)]
            exact (call_done _ _ f ht₂).trans (by rw [List.drop_drop]; rfl)
  · by_cases ht₁ : Reaches t 1
    · -- the read was done: it did not fit, or the write was not done
      have hnot : ¬ (fits (f.open src) p.key = true ∧ Reaches (t.drop 1) 1) :=
        fun h => hnot ⟨h.1, (reaches_add t 1 1).mpr ⟨ht₁, h.2⟩⟩
      unfold copyEntry nvsGetStr
      rw [bind_run_some (call_done _ _ f ht₁)]
      simp only [fits, Item.fits] at hnot
      cases hk : f.open src p.key with
      | none =>
          rw [hk] at hnot
          exact eraseIfFound_stops dst p.key f fun h => hnot ⟨rfl, h⟩
      | some item =>
          rw [hk] at hnot
          cases item with
          | u8 value => exact stops_error _ f _
          | str value =>
              by_cases hlt : value.length < valueMaxLen
              · simp only [if_pos hlt]
                exact call_stops _ _ f fun h => hnot ⟨decide_eq_true hlt, h⟩
              · simp only [if_neg hlt]
                exact stops_error _ f _
    · exact call_bind_stops ht₁ fun _ => stops_error _ f _

/-! ### The operations -/

theorem copyEntries_does (src dst : Handle) (ps : List Param) :
    Does (copyEntries src dst ps) (ps.map (copyAtom src dst)) := by
  induction ps with
  | nil => exact .nil
  | cons p ps ih => exact .tryThen (copyEntry_does src dst p) ih

theorem restoreBackupToPrimary_does (schema : List Param) :
    Does (restoreBackupToPrimary schema) (schema.map (copyAtom .backup .primary) ++
      [commitAtom, writeAtom .backup pendingKey none, commitAtom]) :=
  .tryThen (copyEntries_does ..) <| .tryThen (nvsCommit_does .primary) <|
    .tryThen (eraseIfFound_does ..) (nvsCommit_does .backup)

/-- What a slot stages. -/
def Slot.item (slot : Slot) : Option Item := if slot.cleared then none else some (.str slot.value)

/-- What `ax25_cfg_save` writes to the primary namespace, in order: keys, and what they
are to hold. -/
def pendingWrites (schema : List Param) (slots : List Slot) : List (List Byte × Option Item) :=
  slots.filterMap fun slot =>
    if slot.inUse = false then none
    else (schema[slot.paramIndex.toNat]?).map fun param => (param.key, slot.item)

/-- One of these writes. -/
def pendingAtom (w : List Byte × Option Item) : Atom Flash := writeAtom .primary w.1 w.2

theorem writeSlot_does (slot : Slot) (param : Param) :
    Does (writeSlot slot param) [pendingAtom (param.key, slot.item)] := by
  unfold writeSlot pendingAtom Slot.item
  split_ifs
  · exact eraseIfFound_does .primary param.key
  · exact nvsSetStr_does .primary param.key slot.value

theorem writePending_does (schema : List Param) (slots : List Slot) :
    Does (writePending schema slots) ((pendingWrites schema slots).map pendingAtom) := by
  induction slots with
  | nil => exact .nil
  | cons slot slots ih =>
      unfold writePending pendingWrites
      rw [List.filterMap_cons]
      split_ifs with huse
      · exact ih
      · cases hp : schema[slot.paramIndex.toNat]? with
        | none => exact ih
        | some param => exact .tryThen (.mapError (writeSlot_does slot param)) ih

/-- The atoms of a save: the copy, the writes, and the flag. -/
def copyAtoms (schema : List Param) : List (Atom Flash) :=
  schema.map (copyAtom .primary .backup) ++ [commitAtom]

theorem saveCalls_does (schema : List Param) (ctx : Ctx) :
    Does (saveCalls schema ctx) (copyAtoms schema ++
      ((pendingWrites schema (List.ofFn ctx.pending)).map pendingAtom ++
        [commitAtom, writeAtom .backup pendingKey (some (.u8 1)), commitAtom])) :=
  .tryThen (.mapError (.tryThen (copyEntries_does ..) (nvsCommit_does .backup))) <|
    .tryThen (writePending_does schema _) <| .tryThen (.mapError (nvsCommit_does .primary)) <|
    .tryThen (.mapError (nvsSetU8_does ..)) (.mapError (nvsCommit_does .backup))

/-! ### Their effects -/

/-- Writes to a namespace, one after the other. -/
def writeAll (ws : List (List Byte × Option Item)) (ns : Namespace) : Namespace :=
  ws.foldl (fun ns w => Function.update ns w.1 w.2) ns

theorem effects_pendingAtoms (ws : List (List Byte × Option Item)) (f : Flash) :
    effects (ws.map pendingAtom) f = { f with primary := writeAll ws f.primary } := by
  induction ws generalizing f with
  | nil => rfl
  | cons w ws ih =>
      rw [List.map_cons, effects_cons, ih]
      rfl

theorem writeAll_of_not_mem {ws : List (List Byte × Option Item)} {key : List Byte}
    (h : key ∉ ws.map Prod.fst) (ns : Namespace) : writeAll ws ns key = ns key := by
  induction ws generalizing ns with
  | nil => rfl
  | cons w ws ih =>
      rw [List.map_cons, List.mem_cons, not_or] at h
      exact (ih h.2 _).trans (Function.update_of_ne h.1 ..)

/-- Of keys that differ, each ends up with what was written to it. -/
theorem writeAll_of_mem {ws : List (List Byte × Option Item)} (hnd : (ws.map Prod.fst).Nodup)
    {w : List Byte × Option Item} (h : w ∈ ws) (ns : Namespace) : writeAll ws ns w.1 = w.2 := by
  induction ws generalizing ns with
  | nil => cases h
  | cons v ws ih =>
      rw [List.map_cons, List.nodup_cons] at hnd
      obtain rfl | hmem := List.mem_cons.mp h
      · exact (writeAll_of_not_mem hnd.1 _).trans (Function.update_self ..)
      · exact ih hnd.2 hmem _

/-- Writes change nothing when every key has already what is written to it. -/
theorem writeAll_eq_self_iff {ws : List (List Byte × Option Item)}
    (hnd : (ws.map Prod.fst).Nodup) (ns : Namespace) :
    writeAll ws ns = ns ↔ ∀ w ∈ ws, ns w.1 = w.2 := by
  constructor
  · intro h w hw
    have hread := writeAll_of_mem hnd hw ns
    rwa [h] at hread
  · intro h
    funext key
    by_cases hmem : key ∈ ws.map Prod.fst
    · obtain ⟨w, hw, rfl⟩ := List.mem_map.mp hmem
      rw [writeAll_of_mem hnd hw, h w hw]
    · exact writeAll_of_not_mem hmem ns

theorem fits_writeAll {ws : List (List Byte × Option Item)}
    (h : ∀ w ∈ ws, Item.fits w.2 = true) {ns : Namespace} {key : List Byte}
    (hns : fits ns key = true) : fits (writeAll ws ns) key = true := by
  induction ws generalizing ns with
  | nil => exact hns
  | cons w ws ih =>
      rw [List.forall_mem_cons] at h
      refine ih h.2 ?_
      change Item.fits (Function.update ns w.1 w.2 key) = true
      by_cases hkey : key = w.1
      · rw [hkey, Function.update_self]
        exact h.1
      · rw [Function.update_of_ne hkey]
        exact hns

/-- Copying leaves what it copies from as it is. -/
theorem effects_copy_src {src dst : Handle} (hne : src ≠ dst) (ps : List Param) (f : Flash) :
    (effects (ps.map (copyAtom src dst)) f).open src = f.open src := by
  induction ps generalizing f with
  | nil => rfl
  | cons p ps ih =>
      rw [List.map_cons, effects_cons, ih]
      exact Flash.open_put_of_ne f hne _

/-- After copying, the copied keys hold what they hold there, and the others what they
held. -/
theorem effects_copy_dst {src dst : Handle} (hne : src ≠ dst) (ps : List Param) (f : Flash)
    (key : List Byte) :
    (effects (ps.map (copyAtom src dst)) f).open dst key =
      if key ∈ ps.map Param.key then f.open src key else f.open dst key := by
  induction ps generalizing f with
  | nil => rfl
  | cons p ps ih =>
      have heffect : (copyAtom src dst p).effect f =
          f.write dst p.key (f.open src p.key) := rfl
      rw [List.map_cons, effects_cons, ih, heffect, Flash.write, Flash.open_put,
        Flash.open_put_of_ne f hne]
      by_cases hkey : key = p.key
      · subst hkey
        simp
      · simp [hkey]

end EspAx25.Config
