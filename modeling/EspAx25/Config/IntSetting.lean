import EspAx25.Config.IntegerText
import EspAx25.Config.Reading

/-!
# EspAx25.Config.IntSetting

Integer parameters, from the text that is set to the number that is read. `normalize_value`
takes what `strtol` takes: also the empty text, as 0, and numbers that do not fit in a `long`,
as the nearest one that does. Of the text of a range `parse_int_range` reads 63 characters.
-/

namespace EspAx25.Config

open Crash Transition

/-- The number that `ax25_cfg_get_int` makes of a result of `ax25_cfg_get`. -/
def intOf : Except CfgErr (List Byte) → Int
  | .error _ => 0
  | .ok buf =>
    -- `end == buf` when there are no digits
    if (strtol buf).2 = buf ∨ (strtol buf).2 ≠ [] then 0 else (strtol buf).1

/-- `ax25_cfg_get_int`. -/
def cfgGetInt (schema : List Param) (ctx : Ctx) (parameter : List Byte) : Nvs Int := do
  let r ← cfgGet schema ctx parameter 32
  pure (intOf r)

variable {schema : List Param} {param : Param} {name s : List Byte} {lo hi : Int} {i : UInt16}
  {ctx ctx' : Ctx}

/-- There is a slot for the entry: its own, or a free one. -/
def Room (ctx : Ctx) (i : UInt16) : Prop :=
  slotOf ctx i ≠ none ∨ ∃ k, (ctx.pending k).inUse = false

/-- A text that is taken for a `long` of the range, and is not the text of one. -/
def Misread (s range : List Byte) : Prop :=
  (s = [] ∧ InRange range 0) ∨
    ∃ v, IntegerText s v ∧ (2147483647 < v ∧ InRange range 2147483647 ∨
      v < - 2147483648 ∧ InRange range (- 2147483648))

/-- The text of a `long` that lies in what is read of the range and not in the range, or the other
way round. -/
def Miscut (s range : List Byte) (lo hi : Int) : Prop :=
  ∃ v, IntegerText s v ∧ - 2147483648 ≤ v ∧ v ≤ 2147483647 ∧ ¬ (InRange range v ↔ lo ≤ v ∧ v ≤ hi)

/-- A range that `tmp` has room for is read as it is. -/
theorem RangeText.not_miscut {range : List Byte} (h : RangeText range lo hi)
    (hshort : range.length < 64) : ¬ Miscut s range lo hi :=
  fun ⟨v, _, _, _, hne⟩ => hne (h.inRange_iff hshort v)

/-! ### Normalising -/

/-- A text denotes one integer. -/
theorem IntegerText.value {v : Int} (h : IntegerText s v) :
    signedValue (s.dropWhile isSpace) = v := by
  obtain ⟨blanks, t, rfl, hblanks, ht⟩ := h
  rw [dropWhile_blanks hblanks, ht.reads.1]
  exact ht.reads.2.1

theorem IntegerText.unique {v w : Int} (hv : IntegerText s v) (hw : IntegerText s w) : v = w :=
  hv.value.symm.trans hw.value

theorem RangeText.ne_nil {range : List Byte} (h : RangeText range lo hi) : range ≠ [] := by
  obtain ⟨a, gap, b, rfl, hne, -⟩ := h.splits
  intro hnil
  exact hne (List.append_eq_nil_iff.mp (List.append_eq_nil_iff.mp hnil).1).2

/-- The value that `strtol` finds is printed back when it lies in the range. -/
theorem normalize_int (htype : param.type = .int) {range : List Byte}
    (hrange : param.range = some range) (hne : range ≠ []) (s : List Byte) :
    (∃ u, normalizeValue param s valueMaxLen = .ok u) ↔
      (strtol s).2 = [] ∧ InRange range (strtol s).1 := by
  have hgiven : param.givenRange.bind parseIntRange = parseIntRange range := by
    rw [Param.givenRange, hrange, Option.filter_some_pos (by simpa using hne)]
    rfl
  constructor
  · rintro ⟨u, hu⟩
    cases normalizeValue_ok_iff.mp hu with
    | int _ hrest hbounds => exact ⟨hrest, fun b hb => hbounds b (hgiven.trans hb)⟩
    | yes hbool => cases htype.symm.trans hbool
    | no hbool => cases htype.symm.trans hbool
    | enum henum => cases htype.symm.trans henum
    | string hstring => cases htype.symm.trans hstring
  · rintro ⟨hrest, hin⟩
    exact ⟨_, normalizeValue_ok_iff.mpr
      (.int htype hrest fun b hb => hin b (hgiven.symm.trans hb))⟩

theorem normalize_int_ok (htype : param.type = .int) {u : List Byte}
    (h : normalizeValue param s valueMaxLen = .ok u) :
    u = strlcpy (decimalInt (strtol s).1) valueMaxLen := by
  cases normalizeValue_ok_iff.mp h with
  | int => rfl
  | yes hbool => cases htype.symm.trans hbool
  | no hbool => cases htype.symm.trans hbool
  | enum henum => cases htype.symm.trans henum
  | string hstring => cases htype.symm.trans hstring

/-! ### Setting -/

/-- A `set` succeeds exactly when the value is accepted and there is a slot for it. -/
theorem cfgSet_succeeds_iff (hacc : Accepted schema) (hi : schema[i.toNat]? = some param)
    (hname : param.parameter = some name) (s : List Byte) :
    (∃ ctx', cfgSet schema ctx name s = (.ok (), ctx')) ↔
      (∃ u, normalizeValue param s valueMaxLen = .ok u) ∧ Room ctx i := by
  unfold cfgSet
  rw [hacc.findParam hi hname]
  dsimp only
  rw [hi, UInt16.ofNat_toNat]
  dsimp only
  cases normalizeValue param s valueMaxLen with
  | error e =>
      refine iff_of_false ?_ ?_
      · rintro ⟨ctx', h⟩
        cases h
      · rintro ⟨⟨u, h⟩, -⟩
        cases h
  | ok u =>
      dsimp only [markPendingSet]
      obtain ⟨k, hk, hmark⟩ | ⟨hnone, hfull, hmark⟩ :=
        markPending_cases ctx i false (strlcpy u valueMaxLen)
      · rw [hmark]
        refine ⟨fun _ => ⟨⟨u, rfl⟩, ?_⟩, fun _ => ⟨_, rfl⟩⟩
        obtain ⟨hfree, -⟩ | hsome := hk
        · exact .inr ⟨k, hfree⟩
        · exact .inl (by simp [slotOf, hsome])
      · rw [hmark]
        refine iff_of_false ?_ ?_
        · rintro ⟨ctx', h⟩
          cases h
        rintro ⟨-, hown | ⟨k, hfree⟩⟩
        · exact absurd (by simp [slotOf, hnone]) hown
        · rw [hfull k] at hfree
          cases hfree

/-- A `set` that is refused changes nothing. -/
theorem cfgSet_error (hacc : Accepted schema) {e : Failure}
    (hset : cfgSet schema ctx name s = (.error e, ctx')) : ctx' = ctx := by
  have herr := Change.run_error (c := .set name s) hacc (congrArg Prod.fst hset)
  exact (congrArg Prod.snd hset).symm.trans herr

/-- A save that fails keeps what is staged. -/
theorem cfgSave_error {f f' : Flash} {t t' : Fates Nat} {e : Failure}
    (hsave : cfgSave schema ctx f t = (some (.error e, ctx'), f', t')) : ctx' = ctx := by
  obtain ⟨r | u, f₁, t₁, -, hr⟩ := bind_result (congrArg Prod.fst hsave)
  · cases hr
    rfl
  · cases hr

theorem cfgGetInt_run {f : Flash} {r : Except CfgErr (List Byte)}
    (h : (cfgGet schema ctx name 32 f []).1 = some r) :
    (cfgGetInt schema ctx name f []).1 = some (intOf r) := by
  unfold cfgGetInt
  rcases hget : cfgGet schema ctx name 32 f [] with ⟨o, f', t'⟩
  rw [hget] at h
  cases h
  rw [bind_run_some hget]
  rfl

/-- `ax25_cfg_get_int` reads what `normalize_value` has printed. -/
theorem intOf_decimalInt {v : Int} (hlo : - 2147483648 ≤ v) (hhi : v ≤ 2147483647) :
    intOf (.ok (decimalInt v)) = v := by
  rw [intOf, strtol_decimalInt hlo hhi]
  exact if_neg (not_or.mpr ⟨(signedText_decimalInt v).ne_nil.symm, fun h => h rfl⟩)

/-- An integer that has been set is read back, staged or saved, or still staged after a save
that failed. -/
theorem int_read_back (hacc : Accepted schema) (hslots : SlotsOk schema ctx)
    (hi : schema[i.toNat]? = some param) (hname : param.parameter = some name)
    (htype : param.type = .int) {v : Int} (hv : strtol s = (v, [])) (hlo : - 2147483648 ≤ v)
    (hhi : v ≤ 2147483647) {staged : Ctx} (hset : cfgSet schema ctx name s = (.ok (), staged))
    (flash : Flash) :
    (cfgGetInt schema staged name flash []).1 = some v ∧
      ∀ r saved flash' t t', cfgSave schema staged flash t = (some (r, saved), flash', t') →
        (cfgGetInt schema saved name flash' []).1 = some v := by
  have hlen := decimalInt_length hlo hhi
  obtain ⟨hslots', u, hnorm, hslot⟩ := cfgSet_ok hacc hslots hi hname hset
  have hstaged := (hslot i).trans (if_pos rfl)
  obtain rfl : u = decimalInt v := by
    rw [normalize_int_ok htype hnorm, hv]
    exact List.take_of_length_le (by simp only [valueMaxLen]; omega)
  have hread : ∀ f : Flash, (cfgGetInt schema staged name f []).1 = some v := by
    intro f
    have hget : (cfgGet schema staged name 32 f []).1 = some (.ok (decimalInt v)) := by
      have hcut : strlcpy (decimalInt v) 32 = decimalInt v := List.take_of_length_le (by omega)
      rw [cfgGet_entry hacc hi hname, getEffectiveValue_staged hstaged, Option.getD_some, hcut]
      rfl
    rw [cfgGetInt_run hget, intOf_decimalInt hlo hhi]
  refine ⟨hread flash, fun r saved flash' t t' hsave => ?_⟩
  cases r with
  | error e =>
      rw [cfgSave_error hsave]
      exact hread flash'
  | ok _ =>
      obtain ⟨hfresh, hstored⟩ := cfgSave_ok hacc hslots' hsave
      have hget : (cfgGet schema saved name 32 flash' []).1 = some (.ok (decimalInt v)) := by
        rw [cfgGet_entry hacc hi hname, getEffectiveValue_unstaged (slotOf_fresh hfresh i),
          getStoredValue_str (stored_of_storedOf hi (hstored i _ hstaged)) (by decide),
          if_pos (by omega)]
      rw [cfgGetInt_run hget, intOf_decimalInt hlo hhi]

/-! ### What is accepted -/

/-- What is wanted of an integer parameter with the range `lo` to `hi`: `set` takes the texts of
the integers of the range and no others, an integer that it has taken is read back before
and after a save, and a text that it does not take changes nothing. -/
structure IntSetting (schema : List Param) (ctx : Ctx) (flash : Flash) (name s : List Byte)
    (lo hi : Int) : Prop where
  accepts : (∃ ctx', cfgSet schema ctx name s = (.ok (), ctx')) ↔
    ∃ v, IntegerText s v ∧ lo ≤ v ∧ v ≤ hi
  reads : ∀ staged v, cfgSet schema ctx name s = (.ok (), staged) → IntegerText s v →
    (cfgGetInt schema staged name flash []).1 = some v ∧
      ∀ r saved flash' t t', cfgSave schema staged flash t = (some (r, saved), flash', t') →
        (cfgGetInt schema saved name flash' []).1 = some v
  rejects : ∀ e ctx', cfgSet schema ctx name s = (.error e, ctx') → ctx' = ctx

/-- What `strtol` reads to the end passes the bounds exactly when the text is that of a `long` that
does, or is misread. -/
theorem strtol_inRange_iff {range : List Byte} :
    ((strtol s).2 = [] ∧ InRange range (strtol s).1) ↔
      (∃ v, IntegerText s v ∧ (- 2147483648 ≤ v ∧ v ≤ 2147483647) ∧ InRange range v) ∨
        Misread s range := by
  constructor
  · rintro ⟨hend, hin⟩
    obtain rfl | ⟨v, hv⟩ := strtol_end hend
    · exact .inr (.inl ⟨rfl, hin⟩)
    · rw [strtol_integer hv] at hin
      by_cases hbig : 2147483647 < v
      · rw [clampLong, min_eq_right (le_of_lt hbig)] at hin
        exact .inr (.inr ⟨v, hv, .inl ⟨hbig, hin⟩⟩)
      · by_cases hsmall : v < - 2147483648
        · rw [clampLong, min_eq_left (by omega), max_eq_left (le_of_lt hsmall)] at hin
          exact .inr (.inr ⟨v, hv, .inr ⟨hsmall, hin⟩⟩)
        · rw [clampLong_eq (by omega) (by omega)] at hin
          exact .inl ⟨v, hv, by omega, hin⟩
  · rintro (⟨v, hv, hlong, hin⟩ | ⟨rfl, hin⟩ | ⟨v, hv, ⟨hbig, hin⟩ | ⟨hsmall, hin⟩⟩)
    · rw [strtol_integer hv, clampLong_eq hlong.1 hlong.2]
      exact ⟨rfl, hin⟩
    · exact ⟨rfl, hin⟩
    · rw [strtol_integer hv, clampLong, min_eq_right (le_of_lt hbig)]
      exact ⟨rfl, hin⟩
    · rw [strtol_integer hv, clampLong, min_eq_left (by omega), max_eq_left (le_of_lt hsmall)]
      exact ⟨rfl, hin⟩

/-- A misread text is not the text of a `long`. -/
theorem Misread.not_long {range : List Byte} (h : Misread s range) {v : Int}
    (hv : IntegerText s v) (hlong : - 2147483648 ≤ v ∧ v ≤ 2147483647) : False := by
  obtain ⟨rfl, -⟩ | ⟨w, hw, hout⟩ := h
  · exact not_integerText_nil v hv
  · obtain rfl := hv.unique hw
    omega

/-- What is taken, if no text of a `long` is miscut and the text is not misread. -/
theorem taken_iff {range : List Byte} (hr : RangeText range lo hi) :
    ((∃ v, IntegerText s v ∧ (- 2147483648 ≤ v ∧ v ≤ 2147483647) ∧ InRange range v) ∨
        Misread s range ↔ ∃ v, IntegerText s v ∧ lo ≤ v ∧ v ≤ hi) ↔
      ¬ Misread s range ∧ ¬ Miscut s range lo hi := by
  have hlo := hr.lo
  have hhi := hr.hi
  constructor
  · intro htaken
    have hmis : ¬ Misread s range := by
      intro hmis
      obtain ⟨v, hv, hle, hge⟩ := htaken.mp (.inr hmis)
      exact hmis.not_long hv (by omega)
    refine ⟨hmis, fun ⟨v, hv, hlo', hhi', hne⟩ => hne ⟨fun hin => ?_, fun hin => ?_⟩⟩
    · obtain ⟨w, hw, hle⟩ := htaken.mp (.inl ⟨v, hv, ⟨hlo', hhi'⟩, hin⟩)
      exact hv.unique hw ▸ hle
    · obtain ⟨w, hw, -, hin'⟩ := (htaken.mpr ⟨v, hv, hin⟩).resolve_right hmis
      exact hv.unique hw ▸ hin'
  · rintro ⟨hmis, hcut⟩
    have hsame : ∀ v, IntegerText s v → - 2147483648 ≤ v ∧ v ≤ 2147483647 →
        (InRange range v ↔ lo ≤ v ∧ v ≤ hi) := by
      intro v hv hlong
      by_contra hne
      exact hcut ⟨v, hv, hlong.1, hlong.2, hne⟩
    constructor
    · rintro (⟨v, hv, hlong, hin⟩ | hbad)
      · exact ⟨v, hv, (hsame v hv hlong).mp hin⟩
      · exact absurd hbad hmis
    · rintro ⟨v, hv, hle, hge⟩
      have hlong : - 2147483648 ≤ v ∧ v ≤ 2147483647 := by omega
      exact .inl ⟨v, hv, hlong, (hsame v hv hlong).mpr ⟨hle, hge⟩⟩

/-- In every run of the module, for every integer parameter with a range and every text: the
parameter behaves as it should exactly when, as long as there is a slot for it, the text is
neither misread nor one that a cut range misjudges, and when there is none, the text is not one
that should be taken. -/
theorem int_setting_iff {defaults : List Param} {localSchema : Option (List Param)}
    {localSchemaCount : Nat}
    (hschema : buildMergedSchema defaults localSchema localSchemaCount = .ok schema) {d : Device}
    (h : Reach (fun d => d.ctx = none) (deviceStep schema) Always d) (hctx : d.ctx = some ctx)
    (hi : schema[i.toNat]? = some param) (hint : param.type = .int)
    (hname : param.parameter = some name) {range : List Byte}
    (hrange : param.range = some range) {min max : Int} (hr : RangeText range min max)
    (s : List Byte) :
    IntSetting schema ctx d.flash name s min max ↔
      (Room ctx i → ¬ Misread s range ∧ ¬ Miscut s range min max) ∧
        (Room ctx i ∨ ¬ ∃ v, IntegerText s v ∧ min ≤ v ∧ v ≤ max) := by
  have hacc := buildMergedSchema_ok hschema
  have hslots := slotsOk_reach hacc h hctx
  have hlo := hr.lo
  have hhi := hr.hi
  have hset : (∃ ctx', cfgSet schema ctx name s = (.ok (), ctx')) ↔
      ((∃ v, IntegerText s v ∧ (- 2147483648 ≤ v ∧ v ≤ 2147483647) ∧ InRange range v) ∨
        Misread s range) ∧ Room ctx i := by
    rw [cfgSet_succeeds_iff hacc hi hname, normalize_int hint hrange hr.ne_nil, strtol_inRange_iff]
  constructor
  · intro hsetting
    refine ⟨fun hroom => (taken_iff hr).mp ?_, ?_⟩
    · rw [← hsetting.accepts, hset, and_iff_left hroom]
    · by_cases htext : ∃ v, IntegerText s v ∧ min ≤ v ∧ v ≤ max
      · exact .inl (hset.mp (hsetting.accepts.mpr htext)).2
      · exact .inr htext
  · rintro ⟨hgood, hfull⟩
    have haccepts : (∃ ctx', cfgSet schema ctx name s = (.ok (), ctx')) ↔
        ∃ v, IntegerText s v ∧ min ≤ v ∧ v ≤ max := by
      rw [hset]
      constructor
      · rintro ⟨htaken, hroom⟩
        exact ((taken_iff hr).mpr (hgood hroom)).mp htaken
      · intro htext
        have hroom := hfull.resolve_right fun hno => hno htext
        exact ⟨((taken_iff hr).mpr (hgood hroom)).mpr htext, hroom⟩
    refine ⟨haccepts, fun staged v hstaged hv => ?_, fun e ctx' he => cfgSet_error hacc he⟩
    -- the set has succeeded, so the integer lies in the range
    obtain ⟨w, hw, hle, hge⟩ := haccepts.mp ⟨staged, hstaged⟩
    obtain rfl := hv.unique hw
    have hread : strtol s = (v, []) := by
      rw [strtol_integer hv, clampLong_eq (by omega) (by omega)]
    exact int_read_back hacc hslots hi hname hint hread (by omega) (by omega) hstaged d.flash

/-! ### The empty text -/

/-- The interval of the beacon, in minutes. -/
def everyParam : Param where
  parameter := some (bytes "beacon.every")
  nvsKey := some (bytes "beac_ev_2f51")
  defaultValue := some (bytes "0")
  range := some (bytes "0 10080")
  type := .int
  hide := false

theorem everyParam_range : RangeText (bytes "0 10080") 0 10080 where
  splits := ⟨decimalInt 0, [0x20], decimalInt 10080, by decide +kernel, by decide,
    fun _ hc => .inl (List.mem_singleton.mp hc), signedText_decimalInt 0,
    signedText_decimalInt 10080⟩
  lo := by decide
  hi := by decide

/-- A new device with the beacon's interval. -/
theorem every_reach :
    Reach (fun d => d.ctx = none) (deviceStep [everyParam]) Always ⟨some {}, erased⟩ :=
  .next (s := ⟨none, erased⟩) (.reboot []) (.start rfl) trivial rfl

theorem int_setting_every :
    IntSetting [everyParam] {} erased (bytes "beacon.every") (bytes "15") 0 10080 := by
  have hschema : buildMergedSchema [] (some [everyParam]) 1 = .ok [everyParam] := by
    decide +kernel
  have hshort : (bytes "0 10080").length < 64 := by decide +kernel
  refine (int_setting_iff (i := 0) hschema every_reach rfl rfl rfl rfl rfl everyParam_range _).mpr
    ⟨fun _ => ⟨fun hmis => ?_, everyParam_range.not_miscut hshort⟩,
      .inl (.inr ⟨⟨0, by decide⟩, rfl⟩)⟩
  obtain ⟨hnil, -⟩ | ⟨v, -, ⟨-, hhi⟩ | ⟨-, hlo⟩⟩ := hmis
  · revert hnil
    decide +kernel
  · have hout := (everyParam_range.inRange_iff hshort _).mp hhi
    omega
  · have hout := (everyParam_range.inRange_iff hshort _).mp hlo
    omega

/-- `set beacon.every=` sets the interval to 0. -/
theorem empty_text_accepted :
    ¬ ∀ (schema : List Param) (d : Device) (ctx : Ctx) (param : Param) (name range : List Byte)
      (min max : Int) (s : List Byte),
      buildMergedSchema [] (some schema) schema.length = .ok schema →
      Reach (fun d => d.ctx = none) (deviceStep schema) Always d → d.ctx = some ctx →
      param ∈ schema → param.type = .int → param.parameter = some name →
      param.range = some range → RangeText range min max → s.length < 160 →
      IntSetting schema ctx d.flash name s min max := by
  intro h
  have haccepts := (h [everyParam] ⟨some {}, erased⟩ {} everyParam (bytes "beacon.every")
    (bytes "0 10080") 0 10080 [] (by decide +kernel) every_reach rfl (List.mem_singleton.mpr rfl)
    rfl rfl rfl everyParam_range (by decide)).accepts
  have hset : (cfgSet [everyParam] {} (bytes "beacon.every") []).1 = .ok () := by decide +kernel
  obtain ⟨v, hv, -⟩ := haccepts.mp ⟨_, Prod.ext hset rfl⟩
  exact not_integerText_nil v hv

/-- The range 0 to 9, with so many zeros in front of the 9 that only zeros are read. -/
def longRange : List Byte := bytes "0," ++ (List.replicate 70 0x30 ++ bytes "9")

theorem longRange_text : RangeText longRange 0 9 := by
  have hnine : Numeral (List.replicate 70 0x30 ++ bytes "9") 9 := by
    obtain ⟨n, hn⟩ := numeral_of_digits (t := List.replicate 70 0x30 ++ bytes "9")
      (by decide +kernel) (by decide +kernel)
    have hvalue : digitsValue (List.replicate 70 0x30 ++ bytes "9") = 9 := by decide +kernel
    obtain rfl : n = 9 := Int.ofNat.inj (hn.digitsValue.symm.trans hvalue)
    exact hn
  exact ⟨⟨bytes "0", bytes ",", _, by decide +kernel, by decide +kernel,
    fun _ hc => .inr (List.mem_singleton.mp hc), signedText_decimalInt 0, .plain hnine⟩,
    by decide, by decide⟩

/-- `set beacon.every=5` is refused. -/
theorem long_range_cut : ¬ IntSetting [{ everyParam with range := some longRange }] {} erased
    (bytes "beacon.every") (bytes "5") 0 9 := by
  intro h
  have hset : (cfgSet [{ everyParam with range := some longRange }] {} (bytes "beacon.every")
      (bytes "5")).1.toOption = none := by decide +kernel
  obtain ⟨ctx', hok⟩ :=
    h.accepts.mpr ⟨5, (signedText_decimalInt 5).integerText, by decide, by decide⟩
  have hfst : (cfgSet [{ everyParam with range := some longRange }] {} (bytes "beacon.every")
      (bytes "5")).1 = .ok () := congrArg Prod.fst hok
  rw [hfst] at hset
  cases hset

end EspAx25.Config
