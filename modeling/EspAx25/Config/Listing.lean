import EspAx25.Config.Console
import EspAx25.Config.Reading

/-!
# EspAx25.Config.Listing

What the listings `SHOW` and `CONFIG` print, as functions of the values that they read, and what
they do not print: the values of hidden parameters. These only decide, by being equal or not,
which parts of a line there are.
-/

namespace EspAx25.Config

open Crash Printing Buffered

/-! ### The values of an entry -/

/-- What is read of an entry in a listing. -/
structure Texts where
  current : List Byte
  committed : List Byte

/-- What `get_stored_value` reads into an array of the module. -/
def committedText (flash : Flash) (p : Param) : List Byte :=
  match flash.primary p.key with
  | some (.str value) => value
  | _ => strlcpy p.default valueMaxLen

/-- What `get_effective_value` reads into an array of the module. -/
def currentText (s : Situation) (p : Param) (i : Nat) : List Byte :=
  match slotOf s.1 (UInt16.ofNat i) with
  | some c => strlcpy (c.getD p.default) valueMaxLen
  | none => committedText s.2 p

/-- Both. -/
def textsOf (s : Situation) (i : Nat) (p : Param) : Texts :=
  ⟨currentText s p i, committedText s.2 p⟩

/-- The texts of `cmd_show`, from what is read of the entries. -/
def showTexts (line : Nat → Fin 480 → Byte) (showAll : Bool) (pre : List Byte)
    (read : Nat → Param → Texts) : Nat → List Param → Option (List (List Byte))
  | _, [] => some []
  | i, p :: ps =>
    if skipped pre p then showTexts line showAll pre read (i + 1) ps
    else
      match showEntry showAll pre p (line i) (read i p).current (read i p).committed with
      | none => none
      | some texts => (showTexts line showAll pre read (i + 1) ps).map (texts ++ ·)

/-- The texts of `cmd_dump_config`, from what is read of the entries. -/
def dumpTexts (read : Nat → Param → Texts) : Nat → List Param → List (List Byte)
  | _, [] => []
  | i, p :: ps => dumpEntry p (read i p).current ++ dumpTexts read (i + 1) ps

section Read

variable {ctx : Ctx} {f : Flash} {p : Param} {ps : List Param}

/-- A stored value that fits in an array of the module is read. -/
theorem getStoredValue_text (hfits : fits f.primary p.key) :
    getStoredValue p valueMaxLen f [] = (some (.ok (committedText f p)), f, []) :=
  getStoredValue_run p (Nat.le_refl _) f hfits

theorem getEffectiveValue_text (hfits : fits f.primary p.key) (i : Nat) :
    getEffectiveValue ctx p (UInt16.ofNat i) valueMaxLen f [] =
      (some (.ok (currentText (ctx, f) p i)), f, []) := by
  unfold currentText
  cases hslot : slotOf ctx (UInt16.ofNat i) with
  | none =>
      rw [getEffectiveValue_unstaged hslot]
      exact getStoredValue_text hfits
  | some c =>
      rw [getEffectiveValue_staged hslot]
      rfl

/-- `cmd_show` reads, and prints what it has read. -/
theorem cmdShow_run (hfits : ∀ p ∈ ps, fits f.primary p.key) (stack : Nat → Stack)
    (showAll : Bool) (pre : List Byte) (i : Nat) :
    cmdShow stack ctx showAll pre i ps f [] =
      (some (showTexts (fun i => (stack i).line) showAll pre (textsOf (ctx, f)) i ps), f, []) := by
  induction ps generalizing i with
  | nil => rfl
  | cons p ps ih =>
      rw [List.forall_mem_cons] at hfits
      unfold cmdShow showTexts
      by_cases hskip : skipped pre p
      · rw [if_pos hskip, if_pos hskip]
        exact ih hfits.2 (i + 1)
      · rw [if_neg hskip, if_neg hskip, bind_run_some (getEffectiveValue_text hfits.1 i),
          bind_run_some (getStoredValue_text hfits.1)]
        simp only [readInto, textsOf]
        cases showEntry showAll pre p (stack i).line (currentText (ctx, f) p i)
            (committedText f p) with
        | none => rfl
        | some texts =>
            dsimp only
            rw [bind_run_some (ih hfits.2 (i + 1))]
            rfl

/-- `cmd_dump_config` reads, and prints what it has read. -/
theorem cmdDumpConfig_run (hfits : ∀ p ∈ ps, fits f.primary p.key) (stack : Nat → Stack)
    (i : Nat) :
    cmdDumpConfig stack ctx i ps f [] = (some (dumpTexts (textsOf (ctx, f)) i ps), f, []) := by
  induction ps generalizing i with
  | nil => rfl
  | cons p ps ih =>
      rw [List.forall_mem_cons] at hfits
      unfold cmdDumpConfig dumpTexts
      rw [bind_run_some (getEffectiveValue_text hfits.1 i), bind_run_some (ih hfits.2 (i + 1))]
      rfl

end Read

/-! ### A line -/

/-- Two lines that print the same. -/
def LineAlike : Option (Sheet Byte 480) → Option (Sheet Byte 480) → Prop
  | none, none => True
  | some s, some s' => s.Alike s' ∧ s'.string 0 = s.string 0
  | _, _ => False

theorem showPiece_alike {line line' : Option (Sheet Byte 480)} (h : LineAlike line line')
    (piece : List Byte) : LineAlike (showPiece line piece) (showPiece line' piece) := by
  cases line with
  | none =>
      cases line' with
      | none => trivial
      | some s' => exact h.elim
  | some s =>
      cases line' with
      | none => exact h.elim
      | some s' =>
          obtain ⟨halike, hstring⟩ := h
          simp only [showPiece, Option.bind_some, halike.pos]
          obtain hlt | heq | hgt := Nat.lt_trichotomy s.pos 480
          · rw [if_neg (by omega), if_neg (by omega)]
            exact halike.print (by decide) hlt piece
          · obtain ⟨hprint, hs, hs'⟩ : (s.print (2 ^ 32) 0 piece).Alike (s'.print (2 ^ 32) 0 piece) ∧
                (s.print (2 ^ 32) 0 piece).string 0 = s.string 0 ∧
                (s'.print (2 ^ 32) 0 piece).string 0 = s'.string 0 :=
              halike.print_full (by decide) heq piece
            rw [if_neg (by omega), if_neg (by omega)]
            exact ⟨hprint, by rw [hs, hs', hstring]⟩
          · rw [if_pos hgt, if_pos hgt]
            trivial

theorem LineAlike.map_string {line line' : Option (Sheet Byte 480)} (h : LineAlike line line') :
    line'.map (fun line => line.string 0 ++ crlf) = line.map fun line => line.string 0 ++ crlf := by
  cases line with
  | none =>
      cases line' with
      | none => rfl
      | some s' => exact h.elim
  | some s =>
      cases line' with
      | none => exact h.elim
      | some s' => exact congrArg (fun t => some (t ++ crlf)) h.2

/-- What is in `line` before it is written does not matter. -/
theorem showText_stack (p : Param) (stack stack' : Fin 480 → Byte) (current committed : List Byte) :
    showText p stack' current committed = showText p stack current committed := by
  unfold showText
  dsimp only
  have hblank : LineAlike
      (some (({ cells := stack } : Sheet Byte 480).print (2 ^ 32) 0 (p.parameter.getD [])))
      (some (({ cells := stack' } : Sheet Byte 480).print (2 ^ 32) 0 (p.parameter.getD []))) :=
    (Sheet.alike_blank stack stack').print (by decide) (Nat.zero_lt_succ _) _
  rw [hblank.1.pos]
  split_ifs
  · rfl
  all_goals
    refine LineAlike.map_string ?_
    repeat refine showPiece_alike ?_ _
    exact hblank

/-- Of the values of a hidden entry, a line shows whether they are the same. -/
theorem showText_hidden {p : Param} (hhide : p.hide = true) (stack : Fin 480 → Byte)
    {current committed current' committed' : List Byte}
    (hcur : current = committed ↔ current' = committed')
    (hcom : committed = p.default ↔ committed' = p.default) :
    showText p stack current committed = showText p stack current' committed' := by
  unfold showText masked
  simp only [hhide, if_true, ne_eq, hcur, hcom]

theorem showEntry_hidden {p : Param} (hhide : p.hide = true) (showAll : Bool) (pre : List Byte)
    (stack stack' : Fin 480 → Byte) {current committed current' committed' : List Byte}
    (hcur : current = committed ↔ current' = committed')
    (hdef : current = p.default ↔ current' = p.default)
    (hcom : committed = p.default ↔ committed' = p.default) :
    showEntry showAll pre p stack current committed =
      showEntry showAll pre p stack' current' committed' := by
  unfold showEntry
  rw [showText_hidden hhide stack hcur hcom, showText_stack p stack' stack]
  simp only [hdef, hcom]

theorem dumpEntry_hidden {p : Param} (hhide : p.hide = true) {current current' : List Byte}
    (hdef : current = p.default ↔ current' = p.default) :
    dumpEntry p current = dumpEntry p current' := by
  unfold dumpEntry masked
  simp only [hhide, if_true, hdef]

/-! ### Two states -/

/-- The stored value of an entry, or its default. -/
def storedValue (s : Situation) (p : Param) : List Byte :=
  match s.2.primary p.key with
  | some (.str value) => value
  | _ => p.default

/-- The pending value of an entry. With nothing pending it is the stored one. -/
def pendingValue (s : Situation) (p : Param) (i : Nat) : List Byte :=
  match slotOf s.1 (UInt16.ofNat i) with
  | some c => c.getD p.default
  | none => storedValue s p

/-- All values are strings shorter than 160 bytes. -/
structure ShortValues (schema : List Param) (s : Situation) : Prop where
  pending : ∀ i v, slotOf s.1 i = some (some v) → v.length < valueMaxLen
  stored : ∀ p ∈ schema, fits s.2.primary p.key
  default : ∀ p ∈ schema, p.default.length < valueMaxLen

/-- The states agree on the entries that are not hidden, and of a hidden one, on which of its
pending, its stored and its default value are equal. -/
structure Indistinct (schema : List Param) (s s' : Situation) : Prop where
  shown : ∀ i p, schema[i]? = some p → p.hide = false →
    pendingValue s p i = pendingValue s' p i ∧ storedValue s p = storedValue s' p
  hidden : ∀ i p, schema[i]? = some p → p.hide = true →
    (pendingValue s p i = storedValue s p ↔ pendingValue s' p i = storedValue s' p) ∧
      (pendingValue s p i = p.default ↔ pendingValue s' p i = p.default) ∧
      (storedValue s p = p.default ↔ storedValue s' p = p.default)

/-- What a listing reads of short values are the values. -/
theorem ShortValues.texts {schema : List Param} {s : Situation} (h : ShortValues schema s)
    {p : Param} (hp : p ∈ schema) (i : Nat) :
    textsOf s i p = ⟨pendingValue s p i, storedValue s p⟩ := by
  have hdefault : strlcpy p.default valueMaxLen = p.default :=
    List.take_of_length_le (Nat.le_pred_of_lt (h.default p hp))
  have hstored : committedText s.2 p = storedValue s p := by
    unfold committedText storedValue
    rw [hdefault]
  unfold textsOf currentText pendingValue
  rw [hstored]
  cases hslot : slotOf s.1 (UInt16.ofNat i) with
  | none => rfl
  | some c =>
      cases c with
      | none => exact congrArg (Texts.mk · _) hdefault
      | some v =>
          exact congrArg (Texts.mk · _)
            (List.take_of_length_le (Nat.le_pred_of_lt (h.pending _ v hslot)))

section TwoRuns

variable {schema : List Param} {read read' : Nat → Param → Texts}

/-- Listings with the same entries are the same. -/
theorem showTexts_congr {line line' : Nat → Fin 480 → Byte} {showAll : Bool} {pre : List Byte}
    (i : Nat) (ps : List Param) (h : ∀ k p, ps[k]? = some p →
      showEntry showAll pre p (line (i + k)) (read (i + k) p).current (read (i + k) p).committed =
        showEntry showAll pre p (line' (i + k)) (read' (i + k) p).current
          (read' (i + k) p).committed) :
    showTexts line showAll pre read i ps = showTexts line' showAll pre read' i ps := by
  induction ps generalizing i with
  | nil => rfl
  | cons p ps ih =>
      have hrest := ih (i + 1) fun k q hq => by
        rw [Nat.add_right_comm, Nat.add_assoc]
        exact h (k + 1) q hq
      have hfirst := h 0 p rfl
      rw [Nat.add_zero] at hfirst
      rw [showTexts, showTexts, hrest, hfirst]

theorem dumpTexts_congr (i : Nat) (ps : List Param) (h : ∀ k p, ps[k]? = some p →
      dumpEntry p (read (i + k) p).current = dumpEntry p (read' (i + k) p).current) :
    dumpTexts read i ps = dumpTexts read' i ps := by
  induction ps generalizing i with
  | nil => rfl
  | cons p ps ih =>
      have hrest := ih (i + 1) fun k q hq => by
        rw [Nat.add_right_comm, Nat.add_assoc]
        exact h (k + 1) q hq
      have hfirst := h 0 p rfl
      rw [Nat.add_zero] at hfirst
      rw [dumpTexts, dumpTexts, hrest, hfirst]

variable {s s' : Situation}

theorem showTexts_indistinct (hs : ShortValues schema s) (hs' : ShortValues schema s')
    (h : Indistinct schema s s') (line line' : Nat → Fin 480 → Byte) (showAll : Bool)
    (pre : List Byte) :
    showTexts line showAll pre (textsOf s) 0 schema =
      showTexts line' showAll pre (textsOf s') 0 schema := by
  refine showTexts_congr 0 schema fun i p hp => ?_
  have hmem := List.mem_of_getElem? hp
  rw [hs.texts hmem, hs'.texts hmem, Nat.zero_add]
  cases hhide : p.hide with
  | false =>
      obtain ⟨hpending, hstored⟩ := h.shown i p hp hhide
      rw [hpending, hstored]
      unfold showEntry
      rw [showText_stack p (line' i) (line i)]
  | true =>
      obtain ⟨hsame, hpending, hstored⟩ := h.hidden i p hp hhide
      exact showEntry_hidden hhide showAll pre _ _ hsame hpending hstored

theorem dumpTexts_indistinct (hs : ShortValues schema s) (hs' : ShortValues schema s')
    (h : Indistinct schema s s') :
    dumpTexts (textsOf s) 0 schema = dumpTexts (textsOf s') 0 schema := by
  refine dumpTexts_congr 0 schema fun i p hp => ?_
  have hmem := List.mem_of_getElem? hp
  rw [hs.texts hmem, hs'.texts hmem, Nat.zero_add]
  cases hhide : p.hide with
  | false => rw [(h.shown i p hp hhide).1]
  | true => exact dumpEntry_hidden hhide (h.hidden i p hp hhide).2.1

end TwoRuns

/-! ### Nothing hidden is shown -/

/-- The command of a line is `SHOW` or `CONFIG`. -/
def IsListing (line : List Byte) : Prop :=
  (scanCommand line).1.map toUpper = bytes "SHOW" ∨
    (scanCommand line).1.map toUpper = bytes "CONFIG"

/-- What the output function is handed by a command line, and how the command ends. -/
def shown (schema : List Param) (errName : ErrName) (stack : Nat → Stack) (out : Buffer Byte)
    (line : List Byte) (s : Situation) : Option (Outcome × List (List Byte)) :=
  (handleCommand schema errName stack s.1 line s.2 []).1.map fun r =>
    (r.1.outcome, (deliver out r.1.texts).sent)

/-- For any two states that agree on everything that is not hidden, and on which of the values of
a hidden entry are equal: `SHOW`, with any argument, and `CONFIG` print the same, whatever the
stack holds. -/
theorem listings_hide (schema : List Param) {s s' : Situation} (hs : ShortValues schema s)
    (hs' : ShortValues schema s') (h : Indistinct schema s s') (errName : ErrName)
    (stack stack' : Nat → Stack) :
    (∀ showAll pre, (cmdShow stack s.1 showAll pre 0 schema s.2 []).1 =
      (cmdShow stack' s'.1 showAll pre 0 schema s'.2 []).1) ∧
    (cmdDumpConfig stack s.1 0 schema s.2 []).1 = (cmdDumpConfig stack' s'.1 0 schema s'.2 []).1 ∧
    ∀ out line, IsListing line →
      shown schema errName stack out line s = shown schema errName stack' out line s' := by
  have hshow := fun showAll pre => showTexts_indistinct hs hs' h (fun i => (stack i).line)
    (fun i => (stack' i).line) showAll pre
  have hdump := dumpTexts_indistinct hs hs' h
  refine ⟨fun showAll pre => ?_, ?_, fun out line hline => ?_⟩
  · rw [cmdShow_run hs.stored, cmdShow_run hs'.stored, hshow]
  · rw [cmdDumpConfig_run hs.stored, cmdDumpConfig_run hs'.stored, hdump]
  · unfold shown
    obtain hcmd | hcmd := hline
    · rw [handleCommand_show hcmd, handleCommand_show hcmd]
      unfold commandShow
      rw [bind_run_some (cmdShow_run hs.stored stack _ _ 0),
        bind_run_some (cmdShow_run hs'.stored stack' _ _ 0), hshow]
      cases showTexts (fun i => (stack' i).line) _ _ (textsOf s') 0 schema <;> rfl
    · rw [handleCommand_config hcmd, handleCommand_config hcmd]
      unfold commandConfig
      rw [bind_run_some (cmdDumpConfig_run hs.stored stack 0),
        bind_run_some (cmdDumpConfig_run hs'.stored stack' 0), hdump]
      rfl

/-! ### A password -/

/-- The password of an access point. -/
def passwordParam : Param where
  parameter := some (bytes "wifi.sta.password")
  nvsKey := none
  defaultValue := none
  range := none
  type := .string
  hide := true

/-- A new device on which a password is pending. -/
def passwordPending (value : List Byte) : Situation :=
  (({} : Ctx).setSlot ⟨0, by decide⟩ { inUse := true, value }, erased)

theorem passwordPending_slotOf (value : List Byte) (i : UInt16) :
    slotOf (passwordPending value).1 i = if 0 = i then some (some value) else none := by
  have hfresh := slotOf_fresh (show ({} : Ctx).pending = fun _ => {} from rfl)
  have hnone : findPendingSlot ({} : Ctx) 0 = none := Option.map_eq_none_iff.mp (hfresh 0)
  have hslots : SlotsOk [passwordParam] {} := slotsOk_fresh rfl
  have hfree : SlotFor {} 0 ⟨0, by decide⟩ := .inl ⟨rfl, hnone⟩
  have hset := @mark_slotOf {} { inUse := true, value } _ hslots.one hfree rfl i
  rwa [hfresh i] at hset

theorem passwordPending_short {value : List Byte} (h : value.length < valueMaxLen) :
    ShortValues [passwordParam] (passwordPending value) := by
  refine ⟨fun i v hv => ?_, fun p _ => rfl, fun p hp => ?_⟩
  · rw [passwordPending_slotOf] at hv
    split_ifs at hv
    cases hv
    exact h
  · rw [List.mem_singleton.mp hp]
    decide

theorem passwordPending_indistinct {value value' : List Byte} (h : value ≠ []) (h' : value' ≠ []) :
    Indistinct [passwordParam] (passwordPending value) (passwordPending value') := by
  have hpending : ∀ v : List Byte, pendingValue (passwordPending v) passwordParam 0 = v := by
    intro v
    unfold pendingValue
    rw [passwordPending_slotOf]
    rfl
  have hentry : ∀ i p, [passwordParam][i]? = some p → i = 0 ∧ p = passwordParam := by
    intro i p hp
    cases i with
    | zero => exact ⟨rfl, (Option.some.inj hp).symm⟩
    | succ i => cases hp
  refine ⟨fun i p hp hhide => ?_, fun i p hp _ => ?_⟩
  · rw [(hentry i p hp).2] at hhide
    cases hhide
  · obtain ⟨rfl, rfl⟩ := hentry i p hp
    rw [hpending, hpending]
    exact ⟨iff_of_false h h', iff_of_false h h', Iff.rfl⟩

theorem listings_hide_password :
    (cmdDumpConfig (fun _ => ⟨[], [], fun _ => 0⟩) (passwordPending (bytes "secret")).1 0
        [passwordParam] erased []).1 =
      (cmdDumpConfig (fun _ => ⟨[], [], fun _ => 0⟩) (passwordPending (bytes "hunter2")).1 0
        [passwordParam] erased []).1 :=
  (listings_hide [passwordParam] (passwordPending_short (by decide +kernel))
    (passwordPending_short (by decide +kernel))
    (passwordPending_indistinct (by decide +kernel) (by decide +kernel)) (fun _ => [])
    (fun _ => ⟨[], [], fun _ => 0⟩) (fun _ => ⟨[], [], fun _ => 0⟩)).2.1

end EspAx25.Config
