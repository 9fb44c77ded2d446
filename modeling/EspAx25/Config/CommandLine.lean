import EspAx25.Config.Console
import EspAx25.Config.IntSetting

/-!
# EspAx25.Config.CommandLine

Runs of command lines. Everything that is set by a line can be set by a line again: the names
that lines can set, and the values that they leave (`Resettable`), in every state that lines
reach.
-/

namespace EspAx25.Config

open Crash Transition

/-! ### Lines that set a parameter -/

/-- "set name=value". -/
def setLine (name value : List Byte) : List Byte :=
  bytes "set " ++ name ++ bytes "=" ++ value

/-- No end of a line. -/
def OneLine (s : List Byte) : Prop := ∀ c ∈ s, c ≠ 0x0D ∧ c ≠ 0x0A

/-- A name that can stand behind a command. -/
structure TypedName (name : List Byte) : Prop where
  starts : ∀ c, name.head? = some c → isSpace c = false
  oneLine : OneLine name

/-- A value that can stand behind an '='. -/
structure TypedValue (value : List Byte) : Prop where
  starts : value.head? ≠ some 0x20
  oneLine : OneLine value
  short : value.length < valueMaxLen

/-- A name as short and plain as names are meant to be. -/
structure PlainName (name : List Byte) : Prop where
  short : name.length ≤ 30
  noAssign : 0x3D ∉ name
  noBlank : 0x20 ∉ name

variable {name value : List Byte}

theorem skipBlanks_of_head {s : List Byte} (h : s.head? ≠ some 0x20) : skipBlanks s = s := by
  cases s with
  | nil => rfl
  | cons c s =>
      refine List.dropWhile_cons_of_neg ?_
      rw [decide_eq_true_eq]
      rintro rfl
      exact h rfl

theorem head_skipBlanks (s : List Byte) : (skipBlanks s).head? ≠ some 0x20 := by
  intro h
  have hnot := List.head?_dropWhile_not (fun c : Byte => decide (c = 0x20)) s
  rw [← skipBlanks, h] at hnot
  simp at hnot

theorem bytes_set : bytes "set " = bytes "set" ++ [0x20] := by decide +kernel

theorem bytes_assign : bytes "=" = [0x3D] := by decide +kernel

theorem word_set : bytes "set" = [0x73, 0x65, 0x74] := by decide +kernel

theorem upper_set : (bytes "set").map toUpper = bytes "SET" := by decide +kernel

/-- Such a line is taken apart as it was put together, with or without an end of line. -/
theorem scanCommand_setLine (hname : TypedName name) (hplain : PlainName name)
    (hvalue : TypedValue value) {ending : List Byte}
    (hending : ∀ c, ending.head? = some c → c = 0x0D) :
    scanCommand (setLine name value ++ ending) = (bytes "set", name ++ bytes "=" ++ value) := by
  have hset : ∀ d ∈ bytes "set", isSpace d = false := by
    rw [word_set]
    simp only [List.mem_cons, List.not_mem_nil, or_false]
    rintro d (rfl | rfl | rfl) <;> rfl
  have hline : setLine name value ++ ending =
      bytes "set" ++ 0x20 :: (name ++ bytes "=" ++ value ++ ending) := by
    rw [setLine, bytes_set]
    simp
  have hword : Scanning.word isSpace 15 (bytes "set" ++ 0x20 :: (name ++ bytes "=" ++ value ++
      ending)) = (bytes "set", 0x20 :: (name ++ bytes "=" ++ value ++ ending)) :=
    Scanning.word_append (by rw [word_set]; decide) hset (by rw [word_set]; decide) (by decide)
  have hskip : Scanning.skip isSpace (0x20 :: (name ++ bytes "=" ++ value ++ ending)) =
      name ++ bytes "=" ++ value ++ ending := by
    rw [Scanning.skip, List.dropWhile_cons_of_pos (by decide)]
    refine Scanning.skip_of_head fun c hc => ?_
    cases hn : name with
    | nil =>
        rw [hn, bytes_assign] at hc
        cases hc
        decide
    | cons d rest =>
        rw [hn] at hc
        cases hc
        exact hname.starts _ (by rw [hn]; rfl)
  have hupTo : Scanning.upTo (fun c => decide (c = (0x0D : Byte))) 191
      (name ++ bytes "=" ++ value ++ ending) = name ++ bytes "=" ++ value := by
    refine Scanning.upTo_append (fun c hc => ?_) ?_ fun c hc => decide_eq_true (hending c hc)
    · rw [bytes_assign] at hc
      simp only [List.mem_append, List.mem_singleton] at hc
      obtain (hc | rfl) | hc := hc
      · exact decide_eq_false (hname.oneLine c hc).1
      · rfl
      · exact decide_eq_false (hvalue.oneLine c hc).1
    · have := hplain.short
      have := hvalue.short
      simp only [valueMaxLen] at this
      rw [bytes_assign]
      simp only [List.length_append, List.length_singleton]
      omega
  rw [hline]
  unfold scanCommand
  rw [hword]
  dsimp only
  rw [if_neg (by simp [bytes_eq_nil]), hskip, hupTo]

theorem splitAssignment_setLine (hplain : PlainName name) (hvalue : TypedValue value) :
    splitAssignment (name ++ bytes "=" ++ value) = some (name, value) := by
  have hall : ∀ c ∈ name, decide (c ≠ 0x3D) = true := by
    intro c hc
    exact decide_eq_true fun heq => hplain.noAssign (heq ▸ hc)
  have hname : skipBlanks name = name := by
    refine skipBlanks_of_head fun h => hplain.noBlank ?_
    exact List.mem_of_mem_head? h
  unfold splitAssignment
  rw [bytes_assign, List.append_assoc, List.singleton_append, List.dropWhile_append_of_pos hall,
    List.takeWhile_append_of_pos hall, List.dropWhile_cons_of_neg (by decide),
    List.takeWhile_cons_of_neg (by decide)]
  dsimp only
  rw [List.append_nil, hname, skipBlanks_of_head hvalue.starts]

/-! ### Values that can be set again -/

section Again

variable {p : Param} {v : List Byte}

/-- A value of an enumeration that is accepted is still one when it has been cut to the size of
the arrays. -/
def KeptByCut (p : Param) (value : List Byte) : Prop :=
  p.type = .enum → ∀ range, p.givenRange = some range → valueInEnumRange value range = true →
    valueInEnumRange (strlcpy value valueMaxLen) range = true

theorem strlcpy_strlcpy (s : List Byte) (n : Nat) : strlcpy (strlcpy s n) n = strlcpy s n := by
  rw [strlcpy, strlcpy, List.take_take, Nat.min_self]

theorem strlcpy_decimalInt {k : Int} (hlo : - 2147483648 ≤ k) (hhi : k ≤ 2147483647) :
    strlcpy (decimalInt k) valueMaxLen = decimalInt k := by
  have := decimalInt_length hlo hhi
  exact List.take_of_length_le (by simp only [valueMaxLen]; omega)

/-- A normalised value is accepted again, and is normalised to itself. -/
theorem normalize_again (h : normalizeValue p value valueMaxLen = .ok v)
    (hcut : KeptByCut p value) : normalizeValue p v valueMaxLen = .ok v := by
  rw [normalizeValue_ok_iff]
  cases normalizeValue_ok_iff.mp h with
  | int htype _ hbounds =>
      -- `strtol` reads back what was printed, and the range is the same
      obtain ⟨hlo, hhi⟩ := strtol_bounds value
      rw [strlcpy_decimalInt hlo hhi]
      have hagain := @Normalized.int p (decimalInt (strtol value).1) valueMaxLen htype
      rw [strtol_decimalInt hlo hhi, strlcpy_decimalInt hlo hhi] at hagain
      exact hagain rfl hbounds
  | yes htype _ => exact .yes htype (by decide +kernel)
  | no htype _ _ => exact .no htype (by decide +kernel) (by decide +kernel)
  | enum htype hrange hin =>
      have hagain := Normalized.enum (n := valueMaxLen) htype hrange (hcut htype _ hrange hin)
      rwa [strlcpy_strlcpy] at hagain
  | string htype =>
      have hagain := @Normalized.string p (strlcpy value valueMaxLen) valueMaxLen htype
      rwa [strlcpy_strlcpy] at hagain

/-- The beginning of a typed text is one. -/
theorem typedValue_strlcpy (hstarts : value.head? ≠ some 0x20) (hline : OneLine value) :
    TypedValue (strlcpy value valueMaxLen) := by
  refine ⟨?_, fun c hc => hline c (List.mem_of_mem_take hc), strlcpy_length value (by decide)⟩
  cases value with
  | nil => exact hstarts
  | cons c rest => exact hstarts

/-- So is a text without white space. -/
theorem typedValue_of_not_space {t : List Byte} (h : ∀ c ∈ t, isSpace c = false) :
    TypedValue (strlcpy t valueMaxLen) := by
  have hne : ∀ c ∈ t, ∀ d, isSpace d = true → c ≠ d := by
    rintro c hc d hd rfl
    exact absurd hd (by simp [h c hc])
  refine typedValue_strlcpy (fun hhead => ?_) fun c hc => ?_
  · exact hne _ (List.mem_of_mem_head? hhead) 0x20 (by decide) rfl
  · exact ⟨hne c hc 0x0D (by decide), hne c hc 0x0A (by decide)⟩

theorem normalize_typed (h : normalizeValue p value valueMaxLen = .ok v)
    (hstarts : value.head? ≠ some 0x20) (hline : OneLine value) : TypedValue v := by
  cases normalizeValue_ok_iff.mp h with
  | int => exact typedValue_of_not_space (signedText_decimalInt _).not_space
  | yes => exact typedValue_of_not_space (signedText_decimalInt 1).not_space
  | no => exact typedValue_of_not_space (signedText_decimalInt 0).not_space
  | enum => exact typedValue_strlcpy hstarts hline
  | string => exact typedValue_strlcpy hstarts hline

end Again

/-- What an entry shows when it has been set by a line: it has a name that can be typed, and when
it is not hidden, a value that a line can set again. -/
structure Resettable (p : Param) (v : List Byte) : Prop where
  named : ∀ name, p.parameter = some name → TypedName name
  again : p.hide = false → TypedValue v ∧ normalizeValue p v valueMaxLen = .ok v

/-! ### What a line sets -/

/-- What stands behind the command of a line. -/
theorem scanCommand_rest (line : List Byte) :
    (∀ c, (scanCommand line).2.head? = some c → isSpace c = false) ∧
      ∀ c ∈ (scanCommand line).2, c ∈ line := by
  unfold scanCommand
  dsimp only
  split_ifs with hword
  · exact ⟨fun c hc => (by cases hc), fun c hc => absurd hc List.not_mem_nil⟩
  · set after := (Scanning.word isSpace 15 line).2 with hafter
    have hpre := @Scanning.upTo_prefix Byte (fun c => decide (c = 0x0D)) 191
      (Scanning.skip isSpace after)
    refine ⟨fun c hc => ?_, fun c hc => ?_⟩
    · -- the first character is the first one behind the white space
      refine Scanning.head_skip (s := after) ?_
      obtain ⟨rest, hrest⟩ := hpre
      rw [← hrest, List.head?_append, hc]
      rfl
    · have hskip := (List.dropWhile_suffix _).subset (hpre.subset hc)
      have hdrop : after <:+ Scanning.skip isSpace line := List.drop_suffix _ _
      exact (List.dropWhile_suffix _).subset (hdrop.subset hskip)

/-- The parts of an assignment behind a command. -/
theorem splitAssignment_typed {rest : List Byte} (hline : OneLine rest)
    (hstarts : ∀ c, rest.head? = some c → isSpace c = false)
    (h : splitAssignment rest = some (name, value)) :
    TypedName name ∧ value.head? ≠ some 0x20 ∧ OneLine value := by
  unfold splitAssignment at h
  cases hdrop : rest.dropWhile (· ≠ 0x3D) with
  | nil =>
      rw [hdrop] at h
      cases h
  | cons e tail =>
      rw [hdrop] at h
      cases h
      have htake : ∀ c, (rest.takeWhile (· ≠ 0x3D)).head? = some c → isSpace c = false := by
        intro c hc
        refine hstarts c ?_
        obtain ⟨t, ht⟩ := List.takeWhile_prefix (l := rest) (fun c : Byte => decide (c ≠ 0x3D))
        rw [← ht, List.head?_append, hc]
        rfl
      have hname : skipBlanks (rest.takeWhile (· ≠ 0x3D)) = rest.takeWhile (· ≠ 0x3D) :=
        skipBlanks_of_head fun hc => absurd (htake _ hc) (by decide)
      refine ⟨⟨?_, ?_⟩, head_skipBlanks tail, ?_⟩
      · rw [hname]
        exact htake
      · rw [hname]
        exact fun c hc => hline c ((List.takeWhile_prefix _).subset hc)
      · intro c hc
        have htail : c ∈ e :: tail := List.mem_cons_of_mem e ((List.dropWhile_suffix _).subset hc)
        rw [← hdrop] at htail
        exact hline c ((List.dropWhile_suffix _).subset htail)

/-! ### Runs of lines -/

/-- A line that is entered, and the fates of its calls to NVS. -/
structure Entered where
  line : List Byte
  fates : Fates Nat

/-- The module after a line. A line that the power cuts off is none. -/
def lineStep (schema : List Param) (errName : ErrName) (stack : Nat → Stack) (s : Situation)
    (e : Entered) : Option Situation :=
  match handleCommand schema errName stack s.1 e.line s.2 e.fates with
  | (some (_, ctx), flash, _) => some (ctx, flash)
  | (none, _, _) => none

/-- The module on an empty store. -/
def newSituation : Situation := ({}, erased)

/-- The command of a line, in capitals. -/
def commandOf (line : List Byte) : List Byte := (scanCommand line).1.map toUpper

/-- A line without an end of line inside, with one of four commands. -/
structure IsChange (line : List Byte) : Prop where
  oneLine : OneLine line
  command : commandOf line = bytes "SET" ∨ commandOf line = bytes "CLEAR" ∨
    commandOf line = bytes "SAVE" ∨ commandOf line = bytes "EXIT"

/-- The line does not set a parameter, other than a hidden one, to a value of its enumeration that
is none any more when it has been cut; unless there is no slot for it. -/
def CutsNoEnum (schema : List Param) (ctx : Ctx) (line : List Byte) : Prop :=
  commandOf line = bytes "SET" → ∀ name value,
    splitAssignment (scanCommand line).2 = some (name, value) →
      ∀ (i : UInt16) p, schema[i.toNat]? = some p → p.parameter = some name → p.hide = false →
        Room ctx i → KeptByCut p value

/-- What a key may hold for an entry. -/
def StoredOk (p : Param) : Option Item → Prop
  | none => True
  | some (.str v) => v.length < valueMaxLen ∧ Resettable p v
  | some (.u8 _) => False

/-- What lines leave: every value that is staged or stored can be set again. -/
structure AllResettable (schema : List Param) (s : Situation) : Prop where
  slots : SlotsOk schema s.1
  staged : ∀ (i : UInt16) p v, schema[i.toNat]? = some p → slotOf s.1 i = some (some v) →
    Resettable p v
  stored : ∀ p ∈ schema, StoredOk p (s.2.primary p.key)

section Steps

variable {schema : List Param} {errName : ErrName} {stack : Nat → Stack} {s s' : Situation}

theorem allResettable_new : AllResettable schema newSituation := by
  refine ⟨slotsOk_fresh rfl, fun i p v _ hslot => ?_, fun p _ => trivial⟩
  rw [slotOf_fresh rfl i] at hslot
  cases hslot

/-- Without anything staged. -/
theorem AllResettable.fresh (h : AllResettable schema s) {ctx : Ctx}
    (hctx : ctx.pending = fun _ => {}) : AllResettable schema (ctx, s.2) := by
  refine ⟨slotsOk_fresh hctx, fun i p v _ hslot => ?_, h.stored⟩
  rw [slotOf_fresh hctx i] at hslot
  cases hslot

/-- A change that stages what can be set again, or the default. -/
theorem AllResettable.change (hacc : Accepted schema) (h : AllResettable schema s) (c : Change)
    (hc : (c.run schema s.1).1 = .ok () → ∀ i p v, c.target schema = some (i, some v) →
      schema[i.toNat]? = some p → Resettable p v) :
    AllResettable schema ((c.run schema s.1).2, s.2) := by
  obtain ⟨e, he⟩ | ⟨i, v, htarget, hok, hslots, hslot⟩ := Change.run_slotOf hacc h.slots c
  · rw [he]
    exact h
  · refine ⟨hslots, fun j p u hp hu => ?_, h.stored⟩
    rw [hslot] at hu
    split_ifs at hu with hij
    · cases hu
      exact hc hok i p u htarget (hij ▸ hp)
    · exact h.staged j p u hp hu

theorem AllResettable.set (hacc : Accepted schema) (h : AllResettable schema s)
    {line : List Byte} (hline : OneLine line) (hset : commandOf line = bytes "SET")
    (hcut : CutsNoEnum schema s.1 line) :
    AllResettable schema ((commandSet schema errName s.1 (scanCommand line).2).2, s.2) := by
  unfold commandSet
  cases hsplit : splitAssignment (scanCommand line).2 with
  | none => exact h
  | some parts =>
      obtain ⟨name, value⟩ := parts
      obtain ⟨hstarts, hmem⟩ := scanCommand_rest line
      obtain ⟨hname, hhead, hvalue⟩ :=
        splitAssignment_typed (fun c hc => hline c (hmem c hc)) hstarts hsplit
      refine h.change hacc (.set name value) fun hok i p v htarget hp => ?_
      obtain ⟨p', u, hp', hnamed, hnorm, hu⟩ := target_set hacc htarget
      cases hp.symm.trans hp'
      cases hu
      refine ⟨fun name' hname' => ?_, fun hhide => ⟨normalize_typed hnorm hhead hvalue, ?_⟩⟩
      · cases hnamed.symm.trans hname'
        exact hname
      · have hroom := ((cfgSet_succeeds_iff hacc hp hnamed value).mp ⟨_, Prod.ext hok rfl⟩).2
        exact normalize_again hnorm (hcut hset name value hsplit i p hp hnamed hhide hroom)

theorem AllResettable.clear (hacc : Accepted schema) (h : AllResettable schema s)
    (rest : List Byte) :
    AllResettable schema ((commandClear schema errName s.1 rest).2, s.2) := by
  unfold commandClear
  dsimp only
  split_ifs with hnil
  · exact h
  · refine h.change hacc (.clear (skipBlanks rest)) fun _ i p v htarget _ => ?_
    cases (target_clear hacc htarget).2

/-- What is staged does not depend on anything but the slots. -/
theorem slotOf_congr {ctx ctx' : Ctx} (h : ctx'.pending = ctx.pending) (i : UInt16) :
    slotOf ctx' i = slotOf ctx i := by
  unfold slotOf findPendingSlot
  rw [h]

/-- A save, whatever becomes of its calls, stores what was staged or leaves what was stored. -/
theorem AllResettable.save (hacc : Accepted schema) (h : AllResettable schema s)
    {t t' : Fates Nat} {r : Except Failure Unit × Ctx} {flash : Flash}
    (hsave : cfgSave schema s.1 s.2 t = (some r, flash, t')) :
    AllResettable schema (r.2, flash) := by
  obtain ⟨j, hprimary, -⟩ := @saveCalls_primary schema s.1 s.2 t
  have hleaves := congrArg Prod.fst (@cfgSave_leaves schema s.1 s.2 t)
  rw [hsave] at hleaves
  dsimp only at hleaves
  rw [← hleaves] at hprimary
  have hkept := cfgSave_pending (congrArg Prod.fst hsave)
  refine ⟨h.slots.kept hkept, fun i p v hp hslot => ?_, fun p hp => ?_⟩
  · obtain hsame | hfresh := hkept
    · rw [slotOf_congr hsame] at hslot
      exact h.staged i p v hp hslot
    · rw [slotOf_fresh hfresh i] at hslot
      cases hslot
  · dsimp only
    rw [hprimary]
    set ws := (pendingWrites schema (List.ofFn s.1.pending)).take j with hws
    by_cases hmem : p.key ∈ ws.map Prod.fst
    · -- the key was written, from the slot of the entry
      obtain ⟨w, hw, hkey⟩ := List.mem_map.mp hmem
      have hnodup : (ws.map Prod.fst).Nodup := by
        rw [hws, List.map_take]
        exact (pendingWrites_nodup hacc h.slots.one).sublist (List.take_sublist ..)
      obtain ⟨k, q, huse, hq, rfl⟩ := mem_pendingWrites.mp (List.mem_of_mem_take hw)
      obtain ⟨i, hi⟩ := hacc.exists_index hp
      have hidx : (s.1.pending k).paramIndex = i :=
        UInt16.toNat_inj.mp (hacc.eq_of_key hq hi hkey)
      have hslot := findPendingSlot_eq h.slots.one huse
      rw [hidx] at hslot
      rw [← hkey, writeAll_of_mem hnodup hw]
      unfold Slot.item
      split_ifs with hclr
      · trivial
      · refine ⟨h.slots.short k, h.staged i p _ hi ?_⟩
        rw [slotOf, hslot, Option.map_some, if_neg hclr]
    · rw [writeAll_of_not_mem hmem]
      exact h.stored p hp

/-- One line. -/
theorem allResettable_step (hacc : Accepted schema) (h : AllResettable schema s) {e : Entered}
    (he : IsChange e.line) (hcut : CutsNoEnum schema s.1 e.line)
    (hstep : lineStep schema errName stack s e = some s') : AllResettable schema s' := by
  unfold lineStep at hstep
  obtain hset | hclear | hsave | hexit := he.command
  · rw [handleCommand_set hset] at hstep
    cases hstep
    exact h.set hacc he.oneLine hset hcut
  · rw [handleCommand_clear hclear] at hstep
    cases hstep
    exact h.clear hacc _
  · rw [handleCommand_save hsave] at hstep
    unfold commandSave at hstep
    rcases hrun : cfgSave schema s.1 s.2 e.fates with ⟨_ | r, flash, t'⟩
    · rw [bind_run_none hrun] at hstep
      cases hstep
    · rw [bind_run_some hrun] at hstep
      cases hstep
      exact h.save hacc hrun
  · rw [handleCommand_exit hexit] at hstep
    cases hstep
    exact h.fresh rfl

/-- In every run of such lines from an empty store. -/
theorem allResettable_reach (hacc : Accepted schema)
    (h : Reach (· = newSituation) (lineStep schema errName stack)
      (fun s e => IsChange e.line ∧ CutsNoEnum schema s.1 e.line) s) : AllResettable schema s := by
  refine h.invariant (fun s hs => hs ▸ allResettable_new) fun s e s' hi he hs => ?_
  exact allResettable_step hacc hi he.1 he.2 hs

end Steps

end EspAx25.Config
