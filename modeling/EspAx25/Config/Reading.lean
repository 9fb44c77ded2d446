import EspAx25.Config.Device

/-!
# EspAx25.Config.Reading

Reading a value into a buffer of any size. A staged value and a default are cut to the buffer;
a stored one that does not fit is an error.
-/

namespace EspAx25.Config

open Crash Transition

/-- The text that `ax25_cfg_get_str` makes of a result of `ax25_cfg_get`. -/
def textOr : Except CfgErr (List Byte) → List Byte
  | .ok value => value
  | .error _ => []

/-- `ax25_cfg_get_str`. Nothing is written to a buffer without bytes. -/
def cfgGetStr (schema : List Param) (ctx : Ctx) (parameter : List Byte) (outLen : Nat) :
    Nvs (Option (List Byte)) :=
  if outLen = 0 then pure none
  else do
    let r ← cfgGet schema ctx parameter outLen
    pure (some (textOr r))

variable {schema : List Param} {param : Param} {name : List Byte} {i : UInt16} {ctx ctx' : Ctx}

/-! ### Where a value comes from -/

theorem Accepted.exists_index (hacc : Accepted schema) (hparam : param ∈ schema) :
    ∃ i : UInt16, schema[i.toNat]? = some param := by
  obtain ⟨k, hget⟩ := List.mem_iff_getElem?.mp hparam
  refine ⟨UInt16.ofNat k, ?_⟩
  rw [hacc.ofNat_toNat hget, hget]

theorem cfgGet_entry (hacc : Accepted schema) (hi : schema[i.toNat]? = some param)
    (hname : param.parameter = some name) (ctx : Ctx) (outLen : Nat) :
    cfgGet schema ctx name outLen = getEffectiveValue ctx param i outLen := by
  unfold cfgGet
  rw [hacc.findParam hi hname]
  simp only [hi, UInt16.ofNat_toNat]

/-- What is staged is read from the slot, or is the default. -/
theorem getEffectiveValue_staged {c : Option (List Byte)} (h : slotOf ctx i = some c)
    (param : Param) (outLen : Nat) :
    getEffectiveValue ctx param i outLen =
      pure (.ok (strlcpy (c.getD param.default) outLen)) := by
  obtain ⟨k, hk, hc⟩ := Option.map_eq_some_iff.mp h
  subst hc
  unfold getEffectiveValue
  rw [hk]
  dsimp only
  split_ifs <;> rfl

theorem getEffectiveValue_unstaged (h : slotOf ctx i = none) (param : Param) (outLen : Nat) :
    getEffectiveValue ctx param i outLen = getStoredValue param outLen := by
  unfold getEffectiveValue
  rw [Option.map_eq_none_iff.mp h]

/-- A stored value is read if it fits. -/
theorem getStoredValue_str {f : Flash} {v : List Byte} (hk : f.primary param.key = some (.str v))
    {outLen : Nat} (hout : 0 < outLen) :
    (getStoredValue param outLen f []).1 =
      some (if v.length < outLen then .ok v else .error (.nvs .invalidLength)) := by
  unfold getStoredValue nvsGetStr
  rw [if_neg (by omega), bind_run_some (call_done _ _ f (reaches_nil 1))]
  simp only [Flash.open_primary, hk]
  split_ifs <;> rfl

theorem cfgGetStr_run {outLen : Nat} (hout : 0 < outLen) {f : Flash}
    {r : Except CfgErr (List Byte)} (h : (cfgGet schema ctx name outLen f []).1 = some r) :
    (cfgGetStr schema ctx name outLen f []).1 = some (some (textOr r)) := by
  unfold cfgGetStr
  rw [if_neg (by omega)]
  rcases hget : cfgGet schema ctx name outLen f [] with ⟨o, f', t'⟩
  rw [hget] at h
  cases h
  rw [bind_run_some hget]
  rfl

/-! ### After a set, and after a save -/

/-- Without slots nothing is staged. -/
theorem slotOf_fresh (h : ctx.pending = fun _ => {}) (i : UInt16) : slotOf ctx i = none := by
  rw [slotOf]
  cases hfind : findPendingSlot ctx i with
  | none => rfl
  | some k =>
      have huse := (findPendingSlot_some hfind).1
      rw [h] at huse
      cases huse

/-- A change is refused and changes nothing, or it is staged for its entry and leaves the others
as they are. -/
theorem Change.run_slotOf (hacc : Accepted schema) (hslots : SlotsOk schema ctx) (c : Change) :
    (∃ e, c.run schema ctx = (.error e, ctx)) ∨
      ∃ i v, c.target schema = some (i, v) ∧ (c.run schema ctx).1 = .ok () ∧
        SlotsOk schema (c.run schema ctx).2 ∧
        ∀ j, slotOf (c.run schema ctx).2 j = if i = j then some v else slotOf ctx j := by
  have hslots' := hslots.run hacc c
  obtain ⟨-, e, he⟩ | ⟨i, v, htarget, -, -, hmark⟩ := c.run_cases hacc ctx
  · exact .inl ⟨e, he⟩
  · obtain ⟨k, hk, hcase⟩ | ⟨-, -, hcase⟩ := markPending_cases ctx i v.isNone (v.getD [])
    · rw [hcase] at hmark
      rw [hmark] at hslots' ⊢
      refine .inr ⟨i, v, htarget, rfl, hslots', fun j => ?_⟩
      rw [mark_slotOf hslots.one hk rfl]
      cases v <;> rfl
    · rw [hcase] at hmark
      exact .inl ⟨_, hmark⟩

theorem target_set (hacc : Accepted schema) {value : List Byte} {v : Option (List Byte)}
    (h : (Change.set name value).target schema = some (i, v)) :
    ∃ param u, schema[i.toNat]? = some param ∧ param.parameter = some name ∧
      normalizeValue param value valueMaxLen = .ok u ∧ v = some u := by
  simp only [Change.target, Option.bind_eq_bind] at h
  obtain ⟨idx, hidx, h⟩ := Option.bind_eq_some_iff.mp h
  obtain ⟨param, hparam, h⟩ := Option.bind_eq_some_iff.mp h
  obtain ⟨u, hu, h⟩ := Option.bind_eq_some_iff.mp h
  obtain ⟨param', hparam', hname⟩ := findParam_some hidx
  cases hparam.symm.trans hparam'
  cases h
  rw [(index_toNat hacc hidx).1]
  refine ⟨param, u, hparam, hname, ?_, rfl⟩
  cases hnorm : normalizeValue param value valueMaxLen with
  | error e =>
      rw [hnorm] at hu
      cases hu
  | ok u' =>
      rw [hnorm] at hu
      cases hu
      rfl

theorem target_clear (hacc : Accepted schema) {v : Option (List Byte)}
    (h : (Change.clear name).target schema = some (i, v)) :
    (∃ param, schema[i.toNat]? = some param ∧ param.parameter = some name) ∧ v = none := by
  obtain ⟨idx, hidx, h⟩ := Option.map_eq_some_iff.mp h
  cases h
  rw [(index_toNat hacc hidx).1]
  exact ⟨findParam_some hidx, rfl⟩

/-- An entry is known by its name. -/
theorem Accepted.eq_of_name (hacc : Accepted schema) {j : UInt16} {param' : Param}
    (hi : schema[i.toNat]? = some param) (hj : schema[j.toNat]? = some param')
    (hname : param.parameter = some name) (hname' : param'.parameter = some name) :
    i = j ∧ param = param' := by
  have hidx := (hacc.findParam hi hname).symm.trans (hacc.findParam hj hname')
  have hij : i = j := UInt16.toNat_inj.mp (Option.some.inj hidx)
  subst hij
  exact ⟨rfl, Option.some.inj (hi.symm.trans hj)⟩

/-- A `set` that succeeds stages the normalised value. -/
theorem cfgSet_ok (hacc : Accepted schema) (hslots : SlotsOk schema ctx)
    (hi : schema[i.toNat]? = some param) (hname : param.parameter = some name)
    {value : List Byte} (hset : cfgSet schema ctx name value = (.ok (), ctx')) :
    SlotsOk schema ctx' ∧ ∃ v, normalizeValue param value valueMaxLen = .ok v ∧
      ∀ j, slotOf ctx' j = if i = j then some (some v) else slotOf ctx j := by
  have hrun : Change.run schema ctx (.set name value) = (.ok (), ctx') := hset
  obtain ⟨e, he⟩ | ⟨j, c, htarget, -, hslots', hslot⟩ :=
    Change.run_slotOf hacc hslots (.set name value)
  · rw [he] at hrun
    cases hrun
  · rw [hrun] at hslots' hslot
    obtain ⟨param', v, hj, hname', hv, rfl⟩ := target_set hacc htarget
    obtain ⟨rfl, rfl⟩ := hacc.eq_of_name hi hj hname hname'
    exact ⟨hslots', v, hv, hslot⟩

/-- A `clear` that succeeds stages the default. -/
theorem cfgClear_ok (hacc : Accepted schema) (hslots : SlotsOk schema ctx)
    (hi : schema[i.toNat]? = some param) (hname : param.parameter = some name)
    (hclear : cfgClear schema ctx name = (.ok (), ctx')) : slotOf ctx' i = some none := by
  have hrun : Change.run schema ctx (.clear name) = (.ok (), ctx') := hclear
  obtain ⟨e, he⟩ | ⟨j, c, htarget, -, -, hslot⟩ :=
    Change.run_slotOf hacc hslots (.clear name)
  · rw [he] at hrun
    cases hrun
  · rw [hrun] at hslot
    obtain ⟨⟨param', hj, hname'⟩, rfl⟩ := target_clear hacc htarget
    obtain ⟨rfl, -⟩ := hacc.eq_of_name hi hj hname hname'
    rw [hslot, if_pos rfl]

/-- A save that succeeds leaves nothing staged, and stores what was. -/
theorem cfgSave_ok (hacc : Accepted schema) (hslots : SlotsOk schema ctx) {f f' : Flash}
    {t t' : Fates Nat} (hsave : cfgSave schema ctx f t = (some (.ok (), ctx'), f', t')) :
    ctx'.pending = (fun _ => {}) ∧
      ∀ i c, slotOf ctx i = some c → storedOf schema f'.primary i = c := by
  obtain ⟨j, hprimary, hall⟩ := @saveCalls_primary schema ctx f t
  unfold cfgSave at hsave
  rcases hcalls : saveCalls schema ctx f t with ⟨_ | e | u, f₁, t₁⟩
  · rw [bind_run_none hcalls] at hsave
    cases hsave
  · rw [bind_run_some hcalls] at hsave
    cases hsave
  · rw [bind_run_some hcalls] at hsave
    cases hsave
    refine ⟨rfl, fun i c hc => ?_⟩
    rw [hcalls] at hprimary hall
    rw [hprimary, List.take_of_length_le (hall rfl)]
    exact written_all hacc hslots.one hslots.known _ hc

theorem stored_of_storedOf {ns : Namespace} (hi : schema[i.toNat]? = some param) {v : List Byte}
    (h : storedOf schema ns i = some v) : ns param.key = some (.str v) := by
  rw [storedOf_of_get hi] at h
  split at h
  · cases h
    assumption
  · cases h

/-! ### The same text -/

/-- The module in memory and in flash. -/
abbrev Situation := Ctx × Flash

/-- What is wanted of the readers of a parameter that has been set to `v`: they return the same
while the value is staged and when it is saved, and where `v` is the default, the same as the
default. -/
structure ReadsAlike (schema : List Param) (param : Param) (name v : List Byte) (outLen : Nat)
    (staged saved : Situation) : Prop where
  get : (cfgGet schema staged.1 name outLen staged.2 []).1 =
    (cfgGet schema saved.1 name outLen saved.2 []).1
  getStr : (cfgGetStr schema staged.1 name outLen staged.2 []).1 =
    (cfgGetStr schema saved.1 name outLen saved.2 []).1
  default : param.default = v → ∀ cleared, cfgClear schema staged.1 name = (.ok (), cleared) →
    (cfgGet schema cleared name outLen staged.2 []).1 =
        (cfgGet schema staged.1 name outLen staged.2 []).1 ∧
      (cfgGetStr schema cleared name outLen staged.2 []).1 =
        (cfgGetStr schema staged.1 name outLen staged.2 []).1

/-- In every run of the module, for every string parameter, every value and every buffer: what is
read after a `set` is the same before and after a save exactly when the value fits in the
buffer together with its NUL. -/
theorem staged_saved_alike_iff {defaults : List Param} {localSchema : Option (List Param)}
    {localSchemaCount : Nat}
    (hschema : buildMergedSchema defaults localSchema localSchemaCount = .ok schema) {d : Device}
    (h : Reach (fun d => d.ctx = none) (deviceStep schema) Always d) (hctx : d.ctx = some ctx)
    (hparam : param ∈ schema) (hstring : param.type = .string)
    (hname : param.parameter = some name) {v : List Byte} (hv : v.length ≤ 159) {outLen : Nat}
    (hout : 1 ≤ outLen) {staged saved : Ctx} {flash : Flash} {t t' : Fates Nat}
    (hset : cfgSet schema ctx name v = (.ok (), staged))
    (hsave : cfgSave schema staged d.flash t = (some (.ok (), saved), flash, t')) :
    ReadsAlike schema param name v outLen (staged, d.flash) (saved, flash) ↔
      v.length < outLen := by
  have hacc := buildMergedSchema_ok hschema
  have hslots := slotsOk_reach hacc h hctx
  obtain ⟨i, hi⟩ := hacc.exists_index hparam
  obtain ⟨hslots', v', hnorm, hslot⟩ := cfgSet_ok hacc hslots hi hname hset
  have hstaged := (hslot i).trans (if_pos rfl)
  obtain rfl : v' = v := by
    simp only [normalizeValue, hstring, Except.ok.injEq] at hnorm
    rw [← hnorm]
    exact List.take_of_length_le hv
  obtain ⟨hfresh, hstored⟩ := cfgSave_ok hacc hslots' hsave
  have hbefore : (cfgGet schema staged name outLen d.flash []).1 =
      some (.ok (strlcpy v' outLen)) := by
    rw [cfgGet_entry hacc hi hname, getEffectiveValue_staged hstaged]
    rfl
  have hafter : (cfgGet schema saved name outLen flash []).1 =
      some (if v'.length < outLen then .ok v' else .error (.nvs .invalidLength)) := by
    rw [cfgGet_entry hacc hi hname, getEffectiveValue_unstaged (slotOf_fresh hfresh i)]
    exact getStoredValue_str (stored_of_storedOf hi (hstored i _ hstaged)) hout
  constructor
  · intro halike
    by_contra hlong
    have hget := halike.get
    dsimp only at hget
    rw [hbefore, hafter, if_neg hlong] at hget
    cases hget
  · intro hfits
    have hcut : strlcpy v' outLen = v' := List.take_of_length_le (by omega)
    rw [hcut] at hbefore
    rw [if_pos hfits] at hafter
    refine ⟨hbefore.trans hafter.symm,
      (cfgGetStr_run hout hbefore).trans (cfgGetStr_run hout hafter).symm,
      fun hdefault cleared hclear => ?_⟩
    have hcleared : (cfgGet schema cleared name outLen d.flash []).1 = some (.ok v') := by
      rw [cfgGet_entry hacc hi hname,
        getEffectiveValue_staged (cfgClear_ok hacc hslots' hi hname hclear), Option.getD_none,
        hdefault, hcut]
      rfl
    exact ⟨hcleared.trans hbefore.symm,
      (cfgGetStr_run hout hcleared).trans (cfgGetStr_run hout hbefore).symm⟩

/-! ### A call sign in short buffers -/

/-- "W1AW" staged on a new device. -/
def callStaged : Ctx := (cfgSet callSchema {} (bytes "call") (bytes "W1AW")).2

/-- The same saved. -/
def callSaved : Situation :=
  (((cfgSave callSchema callStaged erased []).1.map Prod.snd).getD {},
    (cfgSave callSchema callStaged erased []).2.1)

theorem callStaged_set :
    cfgSet callSchema {} (bytes "call") (bytes "W1AW") = (.ok (), callStaged) :=
  Prod.ext (by decide +kernel) rfl

theorem callSaved_save : cfgSave callSchema callStaged erased [] =
    (some (.ok (), callSaved.1), callSaved.2, (cfgSave callSchema callStaged erased []).2.2) := by
  have hok : (cfgSave callSchema callStaged erased []).1.map Prod.fst = some (.ok ()) := by
    decide +kernel
  obtain ⟨⟨r, ctx⟩, hr, hfst⟩ := Option.map_eq_some_iff.mp hok
  dsimp only at hfst
  subst hfst
  exact Prod.ext (by simp [callSaved, hr]) rfl

theorem booted_reach :
    Reach (fun d => d.ctx = none) (deviceStep callSchema) Always ⟨some {}, erased⟩ :=
  .next (s := ⟨none, erased⟩) (.reboot []) (.start rfl) trivial rfl

theorem staged_saved_alike_call :
    ReadsAlike callSchema (stringParam "call" (bytes "N0CALL")) (bytes "call") (bytes "W1AW") 8
      (callStaged, erased) callSaved :=
  (staged_saved_alike_iff (show buildMergedSchema [] (some callSchema) 1 = .ok callSchema by
      decide +kernel) booted_reach rfl (List.mem_singleton.mpr rfl) rfl rfl (by decide +kernel)
    (by decide) callStaged_set callSaved_save).mpr (by decide +kernel)

/-- In a buffer of four bytes the staged call sign is "W1A", and the saved one is not read. -/
theorem short_buffer_differs :
    ¬ ∀ (schema : List Param) (d : Device) (ctx : Ctx) (param : Param) (name v : List Byte)
      (outLen : Nat) (staged saved : Ctx) (flash : Flash) (t t' : Fates Nat),
      buildMergedSchema [] (some schema) schema.length = .ok schema →
      Reach (fun d => d.ctx = none) (deviceStep schema) Always d → d.ctx = some ctx →
      param ∈ schema → param.type = .string → param.parameter = some name → v.length ≤ 159 →
      1 ≤ outLen → cfgSet schema ctx name v = (.ok (), staged) →
      cfgSave schema staged d.flash t = (some (.ok (), saved), flash, t') →
      ReadsAlike schema param name v outLen (staged, d.flash) (saved, flash) := by
  intro h
  have hget := (h callSchema ⟨some {}, erased⟩ {} _ (bytes "call") (bytes "W1AW") 4 _ _ _ [] _
    (by decide +kernel) booted_reach rfl (List.mem_singleton.mpr rfl) rfl rfl (by decide +kernel)
    (by decide) callStaged_set callSaved_save).getStr
  revert hget
  decide +kernel

end EspAx25.Config
