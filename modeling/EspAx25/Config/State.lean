import Mathlib.Data.Fintype.Basic
import EspAx25.Config.Schema
import EspAx25.Crash

/-!
# EspAx25.Config.State

The configuration module at work (`ax25_config.c`): staged changes in memory, the
primary and the backup namespace of NVS, and the operations on them.

NVS is code of the platform. A namespace maps keys to items, every call is one
atomic step on it, and `nvs_commit` has nothing left to write. Any call may fail, and
the power may go between two calls. `s_ctx` is there from `ax25_cfg_init` on; its
schema does not change after that and is a parameter. Of the texts that end with the
name of an NVS error, the name is left out.
-/

namespace EspAx25.Config

open Crash

/-! ### NVS -/

/-- What a key of a namespace holds. -/
inductive Item
  | str (value : List Byte)
  | u8 (value : Byte)
  deriving Repr, DecidableEq

/-- The contents of a namespace. -/
abbrev Namespace := List Byte → Option Item

/-- The two namespaces of the module. -/
structure Flash where
  primary : Namespace
  backup : Namespace

/-- `nvs_primary` and `nvs_backup`. -/
inductive Handle
  | primary
  | backup
  deriving Repr, DecidableEq

/-- The namespace that a handle opens. -/
def Flash.open : Flash → Handle → Namespace
  | f, .primary => f.primary
  | f, .backup => f.backup

/-- A namespace put in the place of another. -/
def Flash.put (f : Flash) (h : Handle) (ns : Namespace) : Flash :=
  match h with
  | .primary => { f with primary := ns }
  | .backup => { f with backup := ns }

/-- A program that calls NVS. -/
abbrev Nvs (α : Type) := Prog Flash Nat α

/-- `nvs_get_str` into a buffer of `len` bytes. -/
def nvsGetStr (h : Handle) (key : List Byte) (len : Nat) : Nvs (Except NvsErr (List Byte)) :=
  call .failed fun f => match f.open h key with
    | none => (.error .notFound, f)
    | some (.u8 _) => (.error .typeMismatch, f)
    | some (.str value) =>
      if value.length < len then (.ok value, f) else (.error .invalidLength, f)

/-- `nvs_get_u8`. -/
def nvsGetU8 (h : Handle) (key : List Byte) : Nvs (Except NvsErr Byte) :=
  call .failed fun f => match f.open h key with
    | none => (.error .notFound, f)
    | some (.str _) => (.error .typeMismatch, f)
    | some (.u8 value) => (.ok value, f)

/-- `nvs_set_str`. -/
def nvsSetStr (h : Handle) (key value : List Byte) : Nvs (Except NvsErr Unit) :=
  call .failed fun f => (.ok (), f.put h (Function.update (f.open h) key (some (.str value))))

/-- `nvs_set_u8`. -/
def nvsSetU8 (h : Handle) (key : List Byte) (value : Byte) : Nvs (Except NvsErr Unit) :=
  call .failed fun f => (.ok (), f.put h (Function.update (f.open h) key (some (.u8 value))))

/-- `nvs_erase_key`. -/
def nvsEraseKey (h : Handle) (key : List Byte) : Nvs (Except NvsErr Unit) :=
  call .failed fun f => match f.open h key with
    | none => (.error .notFound, f)
    | some _ => (.ok (), f.put h (Function.update (f.open h) key none))

/-- `nvs_commit`. -/
def nvsCommit (_ : Handle) : Nvs (Except NvsErr Unit) := call .failed fun f => (.ok (), f)

/-- `nvs_erase_key`, with `ESP_ERR_NVS_NOT_FOUND` taken for success, as everywhere in the
module. -/
def eraseIfFound (h : Handle) (key : List Byte) : Nvs (Except NvsErr Unit) := do
  match ← nvsEraseKey h key with
  | .error .notFound => pure (.ok ())
  | r => pure r

/-- `NVS_PENDING_KEY`. -/
def pendingKey : List Byte := bytes "cfg_pending"

/-! ### The context -/

/-- `ax25_cfg_pending_t`. The default is the slot after `memset`. -/
structure Slot where
  paramIndex : UInt16 := 0
  inUse : Bool := false
  cleared : Bool := false
  value : List Byte := []
  deriving Repr, DecidableEq

/-- `ax25_cfg_ctx_t`: what of it is in memory. `commitTimer` says that there is a timer that
has not run out. -/
structure Ctx where
  pending : Fin maxPending → Slot := fun _ => {}
  commitPending : Bool := false
  commitTimer : Bool := false

/-- `clear_pending`. -/
def Ctx.clearPending (ctx : Ctx) : Ctx := { ctx with pending := fun _ => {} }

/-- A slot written. -/
def Ctx.setSlot (ctx : Ctx) (i : Fin maxPending) (slot : Slot) : Ctx :=
  { ctx with pending := Function.update ctx.pending i slot }

/-- `find_pending_slot`. -/
def findPendingSlot (ctx : Ctx) (paramIndex : UInt16) : Option (Fin maxPending) :=
  (List.finRange maxPending).find? fun i =>
    (ctx.pending i).inUse && (ctx.pending i).paramIndex = paramIndex

/-- `alloc_pending_slot`. -/
def allocPendingSlot (ctx : Ctx) : Option (Fin maxPending) :=
  (List.finRange maxPending).find? fun i => !(ctx.pending i).inUse

/-- What `mark_pending_set` and `mark_pending_clear` do with the slot of a parameter, or with
a free one: they write what is staged into it. -/
def markPending (ctx : Ctx) (paramIndex : UInt16) (cleared : Bool) (value : List Byte) :
    Except CfgErr Unit × Ctx :=
  match findPendingSlot ctx paramIndex with
  | some slot => (.ok (), ctx.setSlot slot { paramIndex, inUse := true, cleared, value })
  | none =>
    match allocPendingSlot ctx with
    | some slot => (.ok (), ctx.setSlot slot { paramIndex, inUse := true, cleared, value })
    | none => (.error (.esp .noMem), ctx)

/-- `mark_pending_set`. -/
def markPendingSet (ctx : Ctx) (paramIndex : UInt16) (value : List Byte) :
    Except CfgErr Unit × Ctx :=
  markPending ctx paramIndex false (strlcpy value valueMaxLen)

/-- `mark_pending_clear`. -/
def markPendingClear (ctx : Ctx) (paramIndex : UInt16) : Except CfgErr Unit × Ctx :=
  markPending ctx paramIndex true []

/-! ### Reading -/

/-- `get_stored_value`. -/
def getStoredValue (param : Param) (outLen : Nat) : Nvs (Except CfgErr (List Byte)) :=
  if outLen = 0 then pure (.error (.esp .invalidArg))
  else do
    match ← nvsGetStr .primary param.key outLen with
    | .ok value => pure (.ok value)
    | .error .notFound => pure (.ok (strlcpy param.default outLen))
    | .error e => pure (.error (.nvs e))

/-- `get_effective_value`. -/
def getEffectiveValue (ctx : Ctx) (param : Param) (paramIndex : UInt16) (outLen : Nat) :
    Nvs (Except CfgErr (List Byte)) :=
  match findPendingSlot ctx paramIndex with
  | some slot =>
    if (ctx.pending slot).cleared then pure (.ok (strlcpy param.default outLen))
    else pure (.ok (strlcpy (ctx.pending slot).value outLen))
  | none => getStoredValue param outLen

section Operations

variable (schema : List Param)

/-- `ax25_cfg_get`. -/
def cfgGet (ctx : Ctx) (parameter : List Byte) (outLen : Nat) :
    Nvs (Except CfgErr (List Byte)) :=
  match findParam schema parameter with
  | none => pure (.error (.esp .notFound))
  | some idx =>
    match schema[idx]? with
    | none => pure (.error (.esp .notFound))
    | some param => getEffectiveValue ctx param (UInt16.ofNat idx) outLen

/-! ### Staging -/

/-- The text of `ESP_ERR_NOT_FOUND` in both. -/
def unknownParameter (parameter : List Byte) : Failure :=
  ⟨.esp .notFound, bytes "unknown parameter '" ++ parameter ++ bytes "'"⟩

/-- The text of `ESP_ERR_NO_MEM` in both. -/
def pendingListFull (e : CfgErr) : Failure := ⟨e, bytes "pending list full"⟩

/-- `ax25_cfg_set`. -/
def cfgSet (ctx : Ctx) (parameter value : List Byte) : Except Failure Unit × Ctx :=
  match findParam schema parameter with
  | none => (.error (unknownParameter parameter), ctx)
  | some idx =>
    match schema[idx]? with
    | none => (.error (unknownParameter parameter), ctx)
    | some param =>
      match normalizeValue param value valueMaxLen with
      | .error e => (.error e, ctx)
      | .ok normalized =>
        let (setErr, ctx) := markPendingSet ctx (UInt16.ofNat idx) normalized
        (setErr.mapError pendingListFull, ctx)

/-- `ax25_cfg_clear`. -/
def cfgClear (ctx : Ctx) (parameter : List Byte) : Except Failure Unit × Ctx :=
  match findParam schema parameter with
  | none => (.error (unknownParameter parameter), ctx)
  | some idx =>
    let (clErr, ctx) := markPendingClear ctx (UInt16.ofNat idx)
    (clErr.mapError pendingListFull, ctx)

/-! ### Saving, committing, reverting -/

/-- What `copy_primary_to_backup` and `restore_backup_to_primary` do for one entry. -/
def copyEntry (src dst : Handle) (p : Param) : Nvs (Except NvsErr Unit) := do
  match ← nvsGetStr src p.key valueMaxLen with
  | .ok value => nvsSetStr dst p.key value
  | .error .notFound => eraseIfFound dst p.key
  | .error e => pure (.error e)

/-- The loop of both over the schema. -/
def copyEntries (src dst : Handle) : List Param → Nvs (Except NvsErr Unit)
  | [] => pure (.ok ())
  | p :: ps => tryThen (copyEntry src dst p) fun _ => copyEntries src dst ps

/-- `copy_primary_to_backup`. -/
def copyPrimaryToBackup : Nvs (Except NvsErr Unit) :=
  tryThen (copyEntries .primary .backup schema) fun _ => nvsCommit .backup

/-- `restore_backup_to_primary`, but for `commit_pending`. -/
def restoreBackupToPrimary : Nvs (Except NvsErr Unit) :=
  tryThen (copyEntries .backup .primary schema) fun _ =>
  tryThen (nvsCommit .primary) fun _ =>
  tryThen (eraseIfFound .backup pendingKey) fun _ =>
  nvsCommit .backup

/-- What a slot writes to the entry that it is for. -/
def writeSlot (slot : Slot) (param : Param) : Nvs (Except NvsErr Unit) :=
  if slot.cleared then eraseIfFound .primary param.key
  else nvsSetStr .primary param.key slot.value

/-- The loop of `ax25_cfg_save` over the pending slots. -/
def writePending : List Slot → Nvs (Except Failure Unit)
  | [] => pure (.ok ())
  | slot :: slots =>
    if slot.inUse = false then writePending slots
    else
      match schema[slot.paramIndex.toNat]? with
      | none => writePending slots
      | some param =>
        tryThen (mapError (fun e => ⟨.nvs e, bytes "save failed for " ++ param.parameter.getD [] ++
          bytes ": "⟩) (writeSlot slot param)) fun _ => writePending slots

/-- The calls of `ax25_cfg_save` to NVS. -/
def saveCalls (ctx : Ctx) : Nvs (Except Failure Unit) :=
  tryThen (mapError (fun e => ⟨.nvs e, bytes "backup failed: "⟩) (copyPrimaryToBackup schema))
    fun _ =>
  tryThen (writePending schema (List.ofFn ctx.pending)) fun _ =>
  tryThen (mapError (fun e => ⟨.nvs e, bytes "primary commit failed: "⟩) (nvsCommit .primary))
    fun _ =>
  tryThen (mapError (fun e => ⟨.nvs e, bytes "pending flag failed: "⟩)
    (nvsSetU8 .backup pendingKey 1)) fun _ =>
  mapError (fun e => ⟨.nvs e, bytes "backup commit failed: "⟩) (nvsCommit .backup)

/-- `ax25_cfg_save`. -/
def cfgSave (ctx : Ctx) : Nvs (Except Failure Unit × Ctx) := do
  match ← saveCalls schema ctx with
  | .ok () => pure (.ok (), { ctx with commitPending := true }.clearPending)
  | .error e => pure (.error e, ctx)

/-- `ax25_cfg_commit`. The timer is gone also when NVS fails. -/
def cfgCommit (ctx : Ctx) : Nvs (Except Failure Unit × Ctx) := do
  let stopped := { ctx with commitTimer := false }
  match ← tryThen (mapError (fun e => ⟨.nvs e, bytes "erase pending flag failed: "⟩)
      (eraseIfFound .backup pendingKey)) fun _ =>
    mapError (fun e => Failure.mk (.nvs e) (bytes "backup commit failed: ")) (nvsCommit .backup) with
  | .ok () => pure (.ok (), { stopped with commitPending := false })
  | .error e => pure (.error e, stopped)

/-- `ax25_cfg_revert`. -/
def cfgRevert (ctx : Ctx) : Nvs (Except Failure Unit × Ctx) := do
  let stopped := { ctx with commitTimer := false }.clearPending
  match ← restoreBackupToPrimary schema with
  | .ok () => pure (.ok (), { stopped with commitPending := false })
  | .error e => pure (.error ⟨.nvs e, bytes "revert failed: "⟩, stopped)

/-- `commit_timeout_cb`. The result is none after `esp_restart`. -/
def commitTimeoutCb (ctx : Ctx) : Nvs (Option Ctx) := do
  match ← restoreBackupToPrimary schema with
  | .ok () => pure none
  | .error _ => pure (some { ctx with commitTimer := false })

/-- `ax25_cfg_init`, from the opened namespaces on. The timer is there when it is wanted. -/
def cfgInit : Nvs (Except CfgErr Ctx) := do
  match ← nvsGetU8 .backup pendingKey with
  | .ok pending =>
    if pending = 1 then pure (.ok { commitPending := true, commitTimer := true }) else pure (.ok {})
  | .error .notFound => pure (.ok {})
  | .error e => pure (.error (.nvs e))

end Operations

end EspAx25.Config
