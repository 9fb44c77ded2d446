import EspAx25.Config.CommandLine
import EspAx25.Config.Listing

/-!
# EspAx25.Config.Dump

A dump of the configuration as a list of commands. The lines that `CONFIG` prints are fed back to
a module on an empty store: each sets its entry to what it was, and leaves the others alone. For
this the values that are dumped must be ones that can be set again, which a text that has been
cut to the size of the arrays need not be.
-/

namespace EspAx25.Config

open Crash Printing Buffered Transition

/-! ### What is printed -/

/-- The entries of a dump, with their indices. -/
def differing (s : Situation) (schema : List Param) : List (Param × Nat) :=
  schema.zipIdx.filter fun e => currentText s e.1 e.2 ≠ e.1.default

/-- The line of an entry. -/
def dumpLine (s : Situation) (e : Param × Nat) : List Byte :=
  setLine (e.1.parameter.getD []) (masked e.1 (currentText s e.1 e.2))

/-- The lines of a text, without "\r\n". -/
def linesOf (text : List Byte) : List (List Byte) :=
  (Scanning.lines (· = 0x0A) text).map fun line => line.takeWhile (· ≠ 0x0D)

/-- What may be left of the end of a line when it is read. -/
def lineEnds : List (List Byte) := [[], [0x0D], crlf]

/-- Lines that are given to `ax25_cfg_handle_command` one after the other. -/
def feed (schema : List Param) (errName : ErrName) (stack : Nat → Stack) :
    Ctx → List (List Byte) → Nvs (List Reply × Ctx)
  | ctx, [] => pure ([], ctx)
  | ctx, line :: lines => do
    let (reply, ctx) ← handleCommand schema errName stack ctx line
    let (replies, ctx) ← feed schema errName stack ctx lines
    pure (reply :: replies, ctx)

/-- The default of an entry is as short as values are, or what is left of it can be set. -/
def DefaultOk (p : Param) : Prop :=
  p.default.length < valueMaxLen ∨ Resettable p (strlcpy p.default valueMaxLen)

/-- What is wanted of a dump: its lines are those of the entries that differ, and on an empty
store each of them that is not masked is answered "OK", and all of them together bring back what
is read of every entry that is not hidden. -/
def Replays (schema : List Param) (errName : ErrName) (stack : Nat → Stack) (s : Situation)
    (text : List Byte) : Prop :=
  linesOf text = (differing s schema).map (dumpLine s) ∧
    ∀ ending ∈ lineEnds, ∃ replies ctx,
      feed schema errName stack {} ((linesOf text).map (· ++ ending)) erased [] =
        (some (replies, ctx), erased, []) ∧
      List.Forall₂ (fun e reply => e.1.hide = false → reply = say [bytes "OK\r\n"])
        (differing s schema) replies ∧
      ∀ p ∈ schema, p.hide = false → ∀ name, p.parameter = some name →
        (cfgGet schema ctx name valueMaxLen erased []).1 =
          (cfgGet schema s.1 name valueMaxLen s.2 []).1

variable {schema : List Param} {errName : ErrName} {stack : Nat → Stack} {s : Situation}
  {e : Param × Nat} {name : List Byte}

theorem mem_differing :
    e ∈ differing s schema ↔ schema[e.2]? = some e.1 ∧ currentText s e.1 e.2 ≠ e.1.default := by
  rw [differing, List.mem_filter, List.mem_zipIdx_iff_getElem?, decide_eq_true_eq]

/-- The entries have different indices. -/
theorem differing_nodup : ((differing s schema).map Prod.snd).Nodup := by
  have hindices : (schema.zipIdx.map Prod.snd).Nodup := by
    rw [List.zipIdx_map_snd]
    exact List.nodup_range'
  exact hindices.sublist (List.filter_sublist.map Prod.snd)

/-- `cmd_dump_config` prints the lines of these entries. -/
theorem dumpTexts_eq (s : Situation) (schema : List Param) :
    dumpTexts (textsOf s) 0 schema = (differing s schema).map fun e => dumpLine s e ++ crlf := by
  suffices h : ∀ i, dumpTexts (textsOf s) i schema =
      ((schema.zipIdx i).filter fun e => currentText s e.1 e.2 ≠ e.1.default).map
        fun e => dumpLine s e ++ crlf from h 0
  induction schema with
  | nil => exact fun _ => rfl
  | cons p ps ih =>
      intro i
      rw [dumpTexts, ih (i + 1), List.zipIdx_cons, List.filter_cons]
      unfold dumpEntry textsOf
      by_cases hdefault : currentText s p i = p.default
      · simp [hdefault]
      · simp [hdefault, dumpLine, setLine]

theorem typedValue_stars : TypedValue (bytes "***") := by
  refine ⟨by decide +kernel, fun c hc => ?_, by decide +kernel⟩
  have hstars : bytes "***" = List.replicate 3 0x2A := by decide +kernel
  rw [hstars] at hc
  rw [List.eq_of_mem_replicate hc]
  decide

/-- An entry that can be set by its line. -/
structure Typable (s : Situation) (e : Param × Nat) (name : List Byte) : Prop where
  named : e.1.parameter = some name
  typed : TypedName name
  plain : PlainName name
  value : TypedValue (masked e.1 (currentText s e.1 e.2))
  again : e.1.hide = false →
    normalizeValue e.1 (currentText s e.1 e.2) valueMaxLen = .ok (currentText s e.1 e.2)

theorem SlotsOk.slotOf_length {ctx : Ctx} (h : SlotsOk schema ctx) {i : UInt16} {v : List Byte}
    (hslot : slotOf ctx i = some (some v)) : v.length < valueMaxLen := by
  obtain ⟨k, -, hv⟩ := Option.map_eq_some_iff.mp hslot
  split_ifs at hv
  cases hv
  exact h.short k

/-- What is read of an entry has been set by a line, or is the default. -/
theorem currentText_cases (hacc : Accepted schema) (hs : AllResettable schema s) {p : Param}
    {i : Nat} (hget : schema[i]? = some p) :
    (Resettable p (currentText s p i) ∧ (currentText s p i).length < valueMaxLen) ∨
      currentText s p i = strlcpy p.default valueMaxLen := by
  unfold currentText
  cases hslot : slotOf s.1 (UInt16.ofNat i) with
  | some c =>
      cases c with
      | none => exact .inr rfl
      | some v =>
          refine .inl ⟨?_, strlcpy_length _ (by decide)⟩
          have hshort := hs.slots.slotOf_length hslot
          have hcut : strlcpy v valueMaxLen = v :=
            List.take_of_length_le (Nat.le_pred_of_lt hshort)
          dsimp only [Option.getD_some]
          rw [hcut]
          exact hs.staged (UInt16.ofNat i) p v (by rwa [hacc.ofNat_toNat hget]) hslot
  | none =>
      have hstored := hs.stored p (List.mem_of_getElem? hget)
      unfold committedText
      cases hk : s.2.primary p.key with
      | none => exact .inr rfl
      | some item =>
          rw [hk] at hstored
          cases item with
          | u8 value => exact hstored.elim
          | str v => exact .inl ⟨hstored.2, hstored.1⟩

/-- What differs from the default is what was set, or a default that was cut. -/
theorem currentText_resettable (hacc : Accepted schema) (hs : AllResettable schema s)
    (hdefaults : ∀ p ∈ schema, DefaultOk p) (he : e ∈ differing s schema) :
    Resettable e.1 (currentText s e.1 e.2) := by
  obtain ⟨hget, hne⟩ := mem_differing.mp he
  obtain ⟨hset, -⟩ | hdefault := currentText_cases hacc hs hget
  · exact hset
  · rw [hdefault] at hne ⊢
    obtain hshort | hagain := hdefaults e.1 (List.mem_of_getElem? hget)
    · exact absurd (List.take_of_length_le (Nat.le_pred_of_lt hshort)) hne
    · exact hagain

theorem typable (hacc : Accepted schema) (hs : AllResettable schema s)
    (hnames : ∀ p ∈ schema, ∀ name, p.parameter = some name → PlainName name)
    (hdefaults : ∀ p ∈ schema, DefaultOk p) (he : e ∈ differing s schema) :
    ∃ name, Typable s e name := by
  have hp := List.mem_of_getElem? (mem_differing.mp he).1
  obtain ⟨name, hname⟩ := hacc.named e.1 hp
  have hagain := currentText_resettable hacc hs hdefaults he
  refine ⟨name, hname, hagain.named name hname, hnames e.1 hp name hname, ?_, fun hhide =>
    (hagain.again hhide).2⟩
  unfold masked
  split_ifs with hhide
  · exact typedValue_stars
  · exact (hagain.again (Bool.eq_false_of_not_eq_true hhide)).1

/-! ### Feeding the lines -/

/-- After the lines of some entries: the slots are those of these entries, and the ones that are
not hidden hold what was dumped. -/
structure Replayed (schema : List Param) (s : Situation) (done : List (Param × Nat)) (ctx : Ctx) :
    Prop where
  slots : SlotsOk schema ctx
  only : ∀ i, slotOf ctx i ≠ none → i.toNat ∈ done.map Prod.snd
  values : ∀ e ∈ done, e.1.hide = false → ∀ i : UInt16, i.toNat = e.2 →
    slotOf ctx i = some (some (currentText s e.1 e.2))

variable {ctx : Ctx} {done entries : List (Param × Nat)}

theorem replayed_nil : Replayed schema s [] {} :=
  ⟨slotsOk_fresh rfl, fun i hi => absurd (slotOf_fresh rfl i) hi,
    fun _ he => absurd he List.not_mem_nil⟩

/-- As long as fewer than 32 entries have been set, there is a slot for the next one. -/
theorem Replayed.room (h : Replayed schema s done ctx) (hdone : done.length < maxPending)
    (i : UInt16) : Room ctx i := by
  refine .inr ?_
  by_contra hfree
  have huse : ∀ k, (ctx.pending k).inUse = true := by
    intro k
    by_contra hk
    exact hfree ⟨k, Bool.eq_false_of_not_eq_true hk⟩
  -- the slots are for different entries, all of them done
  have hnodup : (List.ofFn fun k => (ctx.pending k).paramIndex.toNat).Nodup :=
    List.nodup_ofFn.mpr fun k l hkl =>
      h.slots.one k l (huse k) (huse l) (UInt16.toNat_inj.mp hkl)
  have hsub : (List.ofFn fun k => (ctx.pending k).paramIndex.toNat) ⊆ done.map Prod.snd := by
    intro j hj
    obtain ⟨k, rfl⟩ := List.mem_ofFn.mp hj
    refine h.only _ ?_
    rw [slotOf, findPendingSlot_eq h.slots.one (huse k)]
    exact fun hnone => (by cases hnone)
  have hlen := (List.subperm_of_subset hnodup hsub).length_le
  rw [List.length_ofFn, List.length_map] at hlen
  omega

/-- The line of an entry is a `set`. -/
theorem handleCommand_dumpLine (ht : Typable s e name) {ending : List Byte}
    (hending : ending ∈ lineEnds) :
    handleCommand schema errName stack ctx (dumpLine s e ++ ending) =
      pure (answer errName (bytes "OK\r\n")
          (cfgSet schema ctx name (masked e.1 (currentText s e.1 e.2))).1,
        (cfgSet schema ctx name (masked e.1 (currentText s e.1 e.2))).2) := by
  have hhead : ∀ c, ending.head? = some c → c = 0x0D := by
    intro c hc
    simp only [lineEnds, crlf, List.mem_cons, List.not_mem_nil, or_false] at hending
    obtain rfl | rfl | rfl := hending
    · cases hc
    · cases hc
      rfl
    · cases hc
      rfl
  have hscan : scanCommand (dumpLine s e ++ ending) =
      (bytes "set", name ++ bytes "=" ++ masked e.1 (currentText s e.1 e.2)) := by
    rw [dumpLine, ht.named, Option.getD_some]
    exact scanCommand_setLine ht.typed ht.plain ht.value hhead
  rw [handleCommand_set ((congrArg (fun r => r.1.map toUpper) hscan).trans upper_set), hscan]
  unfold commandSet
  rw [splitAssignment_setLine ht.plain ht.value]

/-- A change that is staged for the next entry leaves the entries before as they are. -/
theorem Replayed.staged (h : Replayed schema s done ctx) {i : UInt16}
    (hnew : i.toNat ∉ done.map Prod.snd) {ctx' : Ctx} {v : Option (List Byte)}
    (hslots : SlotsOk schema ctx')
    (hslot : ∀ j, slotOf ctx' j = if i = j then some v else slotOf ctx j) {p : Param}
    (hv : p.hide = false → v = some (currentText s p i.toNat)) :
    Replayed schema s ((p, i.toNat) :: done) ctx' := by
  refine ⟨hslots, fun j hj => ?_, fun d hd hhide j hjd => ?_⟩
  · rw [List.map_cons, List.mem_cons]
    by_cases hij : i = j
    · exact .inl (hij ▸ rfl)
    · rw [hslot, if_neg hij] at hj
      exact .inr (h.only j hj)
  · rw [hslot]
    obtain rfl | hd := List.mem_cons.mp hd
    · rw [if_pos (UInt16.toNat_inj.mp hjd.symm), hv hhide]
    · have hij : i ≠ j := by
        rintro rfl
        exact hnew (List.mem_map.mpr ⟨d, hd, hjd.symm⟩)
      rw [if_neg hij]
      exact h.values d hd hhide j hjd

/-- One line sets its entry, unless it is hidden, and leaves the others alone. -/
theorem Replayed.line (hacc : Accepted schema) (h : Replayed schema s done ctx)
    (hget : schema[e.2]? = some e.1) (hnew : e.2 ∉ done.map Prod.snd)
    (hdone : done.length < maxPending) (ht : Typable s e name) :
    (e.1.hide = false →
        (cfgSet schema ctx name (masked e.1 (currentText s e.1 e.2))).1 = .ok ()) ∧
      Replayed schema s (e :: done)
        (cfgSet schema ctx name (masked e.1 (currentText s e.1 e.2))).2 := by
  obtain ⟨p, n⟩ := e
  obtain ⟨i, rfl⟩ : ∃ i : UInt16, i.toNat = n := ⟨_, hacc.ofNat_toNat hget⟩
  obtain ⟨f, hf⟩ | ⟨j, v, htarget, hok, hslots, hslot⟩ :=
    Change.run_slotOf hacc h.slots (.set name (masked p (currentText s p i.toNat)))
  · -- an entry that is refused is a hidden one
    have hset : cfgSet schema ctx name (masked p (currentText s p i.toNat)) = (.error f, ctx) := hf
    have hhidden : p.hide ≠ false := by
      intro hhide
      obtain ⟨ctx', hctx'⟩ := (cfgSet_succeeds_iff hacc hget ht.named _).mpr
        ⟨⟨_, ht.again hhide⟩, h.room hdone i⟩
      rw [masked, if_neg (by simp [hhide]), hctx'] at hset
      cases hset
    rw [hset]
    refine ⟨fun hhide => absurd hhide hhidden, h.slots, fun j hj => ?_, fun d hd hhide => ?_⟩
    · exact List.mem_cons_of_mem _ (h.only j hj)
    · obtain rfl | hd := List.mem_cons.mp hd
      · exact absurd hhide hhidden
      · exact h.values d hd hhide
  · obtain ⟨q, u, hq, hname, hnorm, rfl⟩ := target_set hacc htarget
    obtain ⟨rfl, rfl⟩ := hacc.eq_of_name hget hq ht.named hname
    refine ⟨fun _ => hok, h.staged hnew hslots hslot fun hhide => ?_⟩
    rw [masked, if_neg (by simp [hhide])] at hnorm
    exact congrArg some (Except.ok.inj (hnorm.symm.trans (ht.again hhide)))

/-- All the lines. -/
theorem Replayed.feed (hacc : Accepted schema) {ending : List Byte} (hending : ending ∈ lineEnds)
    (h : Replayed schema s done ctx) (hget : ∀ e ∈ entries, schema[e.2]? = some e.1)
    (ht : ∀ e ∈ entries, ∃ name, Typable s e name)
    (hnew : ((entries ++ done).map Prod.snd).Nodup)
    (hlen : (entries ++ done).length ≤ maxPending) :
    ∃ replies ctx', (∀ f t, feed schema errName stack ctx
        (entries.map fun e => dumpLine s e ++ ending) f t = (some (replies, ctx'), f, t)) ∧
      List.Forall₂ (fun e reply => e.1.hide = false → reply = say [bytes "OK\r\n"]) entries
        replies ∧
      Replayed schema s (entries.reverse ++ done) ctx' := by
  induction entries generalizing done ctx with
  | nil => exact ⟨[], ctx, fun f t => rfl, .nil, h⟩
  | cons e entries ih =>
      rw [List.forall_mem_cons] at hget ht
      obtain ⟨name, htyped⟩ := ht.1
      have hperm : (e :: entries ++ done).Perm (entries ++ e :: done) := List.perm_middle.symm
      have hdone : done.length < maxPending := by
        rw [List.length_append, List.length_cons] at hlen
        omega
      have hfresh : e.2 ∉ done.map Prod.snd := by
        rw [List.cons_append, List.map_cons, List.nodup_cons, List.map_append,
          List.mem_append] at hnew
        exact fun hmem => hnew.1 (.inr hmem)
      obtain ⟨hok, hline⟩ := h.line hacc hget.1 hfresh hdone htyped
      obtain ⟨replies, ctx', hfeed, hreplies, hall⟩ := ih hline hget.2 ht.2
        ((hperm.map Prod.snd).nodup_iff.mp hnew) (hperm.length_eq ▸ hlen)
      set result := cfgSet schema ctx name (masked e.1 (currentText s e.1 e.2)) with hresult
      refine ⟨answer errName (bytes "OK\r\n") result.1 :: replies, ctx', fun f t => ?_,
        .cons (fun hhide => ?_) hreplies, ?_⟩
      · have hrun := congrFun (congrFun (@handleCommand_dumpLine schema errName stack s e name ctx
          htyped ending hending) f) t
        rw [List.map_cons, Config.feed, bind_run_some hrun]
        exact bind_run_some (hfeed f t)
      · rw [hok hhide]
        rfl
      · rwa [List.reverse_cons, List.append_assoc]

/-! ### What is read afterwards -/

/-- `ax25_cfg_get` reads what the listings show. -/
theorem cfgGet_text (hacc : Accepted schema) {p : Param} {i : UInt16}
    (hi : schema[i.toNat]? = some p) (hname : p.parameter = some name) (s : Situation)
    (hfits : fits s.2.primary p.key) :
    (cfgGet schema s.1 name valueMaxLen s.2 []).1 = some (.ok (currentText s p i.toNat)) := by
  have hread := congrArg Prod.fst (@getEffectiveValue_text s.1 s.2 p hfits i.toNat)
  rw [UInt16.ofNat_toNat] at hread
  rw [cfgGet_entry hacc hi hname, hread]

theorem AllResettable.fits (hs : AllResettable schema s) {p : Param} (hp : p ∈ schema) :
    fits s.2.primary p.key := by
  have hstored := hs.stored p hp
  unfold Config.fits
  cases hk : s.2.primary p.key with
  | none => rfl
  | some item =>
      rw [hk] at hstored
      cases item with
      | u8 value => exact hstored.elim
      | str v => exact decide_eq_true hstored.1

/-- When every line has been fed, the entries that are not hidden show what they did. -/
theorem Replayed.currentText (hacc : Accepted schema) (hs : AllResettable schema s)
    (h : Replayed schema s done ctx) (hdone : ∀ e, e ∈ done ↔ e ∈ differing s schema) {p : Param}
    {i : UInt16} (hi : schema[i.toNat]? = some p) (hhide : p.hide = false) :
    currentText (ctx, erased) p i.toNat = currentText s p i.toNat := by
  by_cases hdiffers : (p, i.toNat) ∈ differing s schema
  · have hslot := h.values _ ((hdone _).mpr hdiffers) hhide i rfl
    have hshort := h.slots.slotOf_length hslot
    rw [Config.currentText, UInt16.ofNat_toNat, hslot]
    exact List.take_of_length_le (Nat.le_pred_of_lt hshort)
  · have hdefault : Config.currentText s p i.toNat = p.default := by
      by_contra hne
      exact hdiffers (mem_differing.mpr ⟨hi, hne⟩)
    have hslot : slotOf ctx i = none := by
      by_contra hsome
      obtain ⟨⟨q, n⟩, hq, hn⟩ := List.mem_map.mp (h.only i hsome)
      have hmem := (hdone _).mp hq
      dsimp only at hn
      subst hn
      cases hi.symm.trans (mem_differing.mp hmem).1
      exact hdiffers hmem
    have hcut : strlcpy p.default valueMaxLen = p.default := by
      obtain ⟨-, hshort⟩ | hsame := currentText_cases hacc hs hi
      · rw [hdefault] at hshort
        exact List.take_of_length_le (Nat.le_pred_of_lt hshort)
      · exact hsame.symm.trans hdefault
    rw [hdefault, Config.currentText, UInt16.ofNat_toNat, hslot]
    exact hcut

/-! ### The text -/

theorem Typable.oneLine (ht : Typable s e name) : OneLine (dumpLine s e) := by
  have hset : ∀ c ∈ bytes "set ", c ≠ 0x0D ∧ c ≠ 0x0A := by simp [bytes_set, word_set]
  have hassign : ∀ c ∈ bytes "=", c ≠ 0x0D ∧ c ≠ 0x0A := by simp [bytes_assign]
  intro c hc
  simp only [dumpLine, setLine, ht.named, Option.getD_some, List.mem_append] at hc
  obtain ((hc | hc) | hc) | hc := hc
  · exact hset c hc
  · exact ht.typed.oneLine c hc
  · exact hassign c hc
  · exact ht.value.oneLine c hc

theorem Typable.length (ht : Typable s e name) : (dumpLine s e ++ crlf).length ≤ 255 := by
  have hname := ht.plain.short
  have hvalue := ht.value.short
  have hset : (bytes "set ").length = 4 := by rw [bytes_set, word_set]; rfl
  have hassign : (bytes "=").length = 1 := by rw [bytes_assign]; rfl
  simp only [dumpLine, setLine, ht.named, Option.getD_some, List.length_append, crlf,
    List.length_cons, List.length_nil, hset, hassign]
  simp only [valueMaxLen] at hvalue
  omega

/-- The lines that were printed are found again in the text. -/
theorem linesOf_flatten (h : ∀ e ∈ entries, OneLine (dumpLine s e)) :
    linesOf (entries.map fun e => dumpLine s e ++ crlf).flatten = entries.map (dumpLine s) := by
  have hsplit : (entries.map fun e => dumpLine s e ++ crlf).flatten =
      (entries.map fun e => dumpLine s e ++ [0x0D]).flatMap (· ++ [0x0A]) := by
    rw [List.flatMap_map, ← List.flatMap_def]
    simp only [crlf, List.append_assoc, List.singleton_append]
  have hlines : ∀ l ∈ entries.map fun e => dumpLine s e ++ [0x0D], ∀ c ∈ l,
      decide (c = (0x0A : Byte)) = false := by
    intro l hl c hc
    obtain ⟨e, he, rfl⟩ := List.mem_map.mp hl
    obtain hc | hc := List.mem_append.mp hc
    · exact decide_eq_false (h e he c hc).2
    · rw [List.mem_singleton.mp hc]
      rfl
  rw [linesOf, hsplit, Scanning.lines_flatMap (by decide) hlines, List.map_map]
  refine List.map_congr_left fun e he => ?_
  have hkeep : ∀ c ∈ dumpLine s e, decide (c ≠ 0x0D) = true :=
    fun c hc => decide_eq_true (h e he c hc).1
  rw [Function.comp_apply, List.takeWhile_append_of_pos hkeep,
    List.takeWhile_cons_of_neg (by decide), List.append_nil]

/-- `CONFIG` prints the lines of the entries that differ. -/
theorem config_prints (hs : AllResettable schema s)
    (ht : ∀ e ∈ differing s schema, ∃ name, Typable s e name) {line : List Byte}
    (hline : commandOf line = bytes "CONFIG") :
    ∃ chunks, shown schema errName stack {} line s = some (.returned false, chunks) ∧
      linesOf chunks.flatten = (differing s schema).map (dumpLine s) := by
  have hrun : (handleCommand schema errName stack s.1 line s.2 []).1 =
      some (say (dumpTexts (textsOf s) 0 schema), s.1) := by
    rw [handleCommand_config hline]
    unfold commandConfig
    rw [bind_run_some (cmdDumpConfig_run (fun p hp => hs.fits hp) stack 0)]
    rfl
  refine ⟨(deliver {} (dumpTexts (textsOf s) 0 schema)).sent, ?_, ?_⟩
  · rw [shown, hrun]
    rfl
  · have hshort : ∀ t ∈ (differing s schema).map fun e => dumpLine s e ++ crlf,
        t.length ≤ 255 := by
      intro t hmem
      obtain ⟨e, he, rfl⟩ := List.mem_map.mp hmem
      obtain ⟨name, htyped⟩ := ht e he
      exact htyped.length
    rw [dumpTexts_eq, deliver_sent hshort]
    refine linesOf_flatten fun e he => ?_
    obtain ⟨name, htyped⟩ := ht e he
    exact htyped.oneLine

/-- In every run of lines from an empty store in which no value of an enumeration is cut, with
plain names and defaults that are no longer than values: a dump of at most 32 entries replays. -/
theorem config_replays {defaults : List Param} {localSchema : Option (List Param)}
    {localSchemaCount : Nat}
    (hschema : buildMergedSchema defaults localSchema localSchemaCount = .ok schema)
    (hnames : ∀ p ∈ schema, ∀ name, p.parameter = some name → PlainName name)
    (hdefaults : ∀ p ∈ schema, DefaultOk p)
    (h : Reach (· = newSituation) (lineStep schema errName stack)
      (fun s e => IsChange e.line ∧ CutsNoEnum schema s.1 e.line) s)
    (hcount : (differing s schema).length ≤ 32) {line : List Byte}
    (hline : commandOf line = bytes "CONFIG") :
    ∃ chunks, shown schema errName stack {} line s = some (.returned false, chunks) ∧
      Replays schema errName stack s chunks.flatten := by
  have hacc := buildMergedSchema_ok hschema
  have hs := allResettable_reach hacc h
  have ht : ∀ e ∈ differing s schema, ∃ name, Typable s e name :=
    fun e he => typable hacc hs hnames hdefaults he
  obtain ⟨chunks, hshown, hlines⟩ := @config_prints schema errName stack s hs ht line hline
  refine ⟨chunks, hshown, hlines, fun ending hending => ?_⟩
  have hnodup : ((differing s schema ++ []).map Prod.snd).Nodup := by
    rw [List.append_nil]
    exact differing_nodup
  obtain ⟨replies, ctx, hfeed, hreplies, hall⟩ :=
    @Replayed.feed schema errName stack s {} [] (differing s schema) hacc ending hending
      replayed_nil (fun e he => (mem_differing.mp he).1) ht hnodup
      (by rw [List.append_nil]; exact hcount)
  refine ⟨replies, ctx, ?_, hreplies, fun p hp hhide name hname => ?_⟩
  · rw [hlines, List.map_map]
    exact hfeed erased []
  · obtain ⟨i, hi⟩ := hacc.exists_index hp
    have hread := @cfgGet_text schema name hacc p i hi hname (ctx, erased) rfl
    rw [cfgGet_text hacc hi hname s (hs.fits hp), ← hall.currentText hacc hs (fun e => by simp) hi
      hhide]
    exact hread

/-! ### A call sign, and a value that is too long -/

/-- A stack of empty arrays. -/
def blankStack : Nat → Stack := fun _ => ⟨[], [], fun _ => 0⟩

/-- A first line that sets the value of the first entry is a step. -/
theorem lineStep_first {schema : List Param} {name value : List Byte} {ctx : Ctx}
    (hscan : scanCommand (setLine name value) = (bytes "set", name ++ bytes "=" ++ value))
    (hsplit : splitAssignment (name ++ bytes "=" ++ value) = some (name, value))
    (hset : cfgSet schema {} name value = (.ok (), ctx)) :
    lineStep schema (fun _ => []) blankStack newSituation ⟨setLine name value, []⟩ =
      some (ctx, erased) := by
  unfold lineStep
  rw [handleCommand_set ((congrArg (fun r => r.1.map toUpper) hscan).trans upper_set), hscan]
  unfold commandSet
  rw [hsplit]
  simp only [newSituation, hset]
  rfl

theorem callStaged_reach :
    Reach (· = newSituation) (lineStep callSchema (fun _ => []) blankStack)
      (fun s e => IsChange e.line ∧ CutsNoEnum callSchema s.1 e.line) (callStaged, erased) := by
  have hline : (setLine (bytes "call") (bytes "W1AW")).all
      (fun c => c ≠ 0x0D && c ≠ 0x0A) = true := by decide +kernel
  have hstep := lineStep_first (by decide +kernel) (by decide +kernel) callStaged_set
  refine .next (s := newSituation) _ (.start rfl) ⟨⟨fun c hc => ?_, ?_⟩, ?_⟩ hstep
  · simpa using List.all_eq_true.mp hline c hc
  · exact .inl (by decide +kernel)
  · intro _ name value _ i p hp _ _ _ htype
    rw [List.mem_singleton.mp (List.mem_of_getElem? hp)] at htype
    cases htype

theorem config_replays_call :
    ∃ chunks, shown callSchema (fun _ => []) blankStack {} (bytes "config") (callStaged, erased) =
        some (.returned false, chunks) ∧
      Replays callSchema (fun _ => []) blankStack (callStaged, erased) chunks.flatten := by
  refine config_replays (show buildMergedSchema [] (some callSchema) 1 = .ok callSchema by
    decide +kernel) (fun p hp name hname => ?_) (fun p hp => ?_) callStaged_reach
    (by decide +kernel) (by decide +kernel)
  · rw [List.mem_singleton.mp hp] at hname
    cases hname
    exact ⟨by decide +kernel, by decide +kernel, by decide +kernel⟩
  · rw [List.mem_singleton.mp hp]
    exact .inl (by decide +kernel)

/-- 160 letters, one more than fit in the arrays. -/
def longValue : List Byte := List.replicate 160 0x61

/-- An enumeration of this value only. -/
def longSchema : List Param :=
  [{ parameter := some (bytes "e"), nvsKey := none, defaultValue := none,
     range := some longValue, type := .enum, hide := false }]

/-- The module after "set e=aa…". -/
def longStaged : Ctx := (cfgSet longSchema {} (bytes "e") longValue).2

theorem longStaged_reach :
    Reach (· = newSituation) (lineStep longSchema (fun _ => []) blankStack)
      (fun _ e => IsChange e.line) (longStaged, erased) := by
  have hline : (setLine (bytes "e") longValue).all (fun c => c ≠ 0x0D && c ≠ 0x0A) = true := by
    decide +kernel
  have hset : cfgSet longSchema {} (bytes "e") longValue = (.ok (), longStaged) :=
    Prod.ext (by decide +kernel) (by simp only [longStaged])
  have hstep := lineStep_first (by decide +kernel) (by decide +kernel) hset
  refine .next (s := newSituation) _ (.start rfl) ⟨fun c hc => ?_, ?_⟩ hstep
  · simpa using List.all_eq_true.mp hline c hc
  · exact .inl (by decide +kernel)

/-- The value of 160 letters is taken, and dumped with 159, which are refused. -/
theorem long_value_not_replayed :
    ¬ ∀ (schema : List Param) (s : Situation) (line : List Byte),
      buildMergedSchema [] (some schema) schema.length = .ok schema →
      (∀ p ∈ schema, ∀ name, p.parameter = some name → PlainName name) →
      Reach (· = newSituation) (lineStep schema (fun _ => []) blankStack)
        (fun _ e => IsChange e.line) s →
      (differing s schema).length ≤ 32 → commandOf line = bytes "CONFIG" →
      ∃ chunks, shown schema (fun _ => []) blankStack {} line s = some (.returned false, chunks) ∧
        Replays schema (fun _ => []) blankStack s chunks.flatten := by
  intro h
  have hnames : ∀ p ∈ longSchema, ∀ name, p.parameter = some name → PlainName name := by
    intro p hp name hname
    rw [List.mem_singleton.mp hp] at hname
    cases hname
    exact ⟨by decide +kernel, by decide +kernel, by decide +kernel⟩
  obtain ⟨chunks, -, hlines, hreplay⟩ := h longSchema (longStaged, erased) (bytes "config")
    (by decide +kernel) hnames longStaged_reach (by decide +kernel) (by decide +kernel)
  obtain ⟨replies, ctx, hfeed, hreplies, -⟩ := hreplay [] List.mem_cons_self
  have hone : differing (longStaged, erased) longSchema = longSchema.zipIdx := by decide +kernel
  rw [hone] at hreplies
  cases hreplies with
  | cons hreply hrest =>
      cases hrest
      rw [hlines, hreply rfl] at hfeed
      have hrefused : (feed longSchema (fun _ => []) blankStack {}
          (((differing (longStaged, erased) longSchema).map (dumpLine (longStaged, erased))).map
            (· ++ [])) erased []).1.map Prod.fst = some [say [bytes "OK\r\n"]] :=
        congrArg (fun r => r.1.map Prod.fst) hfeed
      revert hrefused
      decide +kernel

end EspAx25.Config
