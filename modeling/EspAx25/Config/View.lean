import Mathlib.Data.Finset.Card
import Mathlib.Data.Fintype.Card
import EspAx25.Config.Staging

/-!
# EspAx25.Config.View

Runs of `set`, `clear`, `save`, `exit` and `get` after `ax25_cfg_init`, and what `get`
returns in them. A run notes which changes were staged, and when they went.
-/

namespace EspAx25.Config

open Crash Transition Overlay

/-! ### Runs -/

/-- The module with what has happened to the staged changes, the newest event first. -/
structure World where
  ctx : Ctx
  flash : Flash
  log : List (Event UInt16 (List Byte))

/-- A change that is to be staged. -/
inductive Change
  | set (parameter value : List Byte)
  | clear (parameter : List Byte)

/-- An operation. The fates are those of the calls of `save` to NVS. -/
inductive Op
  | stage (c : Change)
  | save (fates : Fates Nat)
  | exit

section Runs

variable (schema : List Param)

/-- The call that is made for a change. -/
def Change.run (ctx : Ctx) : Change → Except Failure Unit × Ctx
  | .set parameter value => cfgSet schema ctx parameter value
  | .clear parameter => cfgClear schema ctx parameter

/-- The entry that a change is for, and what it stages: the normalised value, or none to go
back to the default. Unknown parameters and invalid values have none. -/
def Change.target : Change → Option (UInt16 × Option (List Byte))
  | .set parameter value => do
    let idx ← findParam schema parameter
    let param ← schema[idx]?
    let v ← (normalizeValue param value valueMaxLen).toOption
    pure (UInt16.ofNat idx, some v)
  | .clear parameter => (findParam schema parameter).map fun idx => (UInt16.ofNat idx, none)

/-- A change that was staged is noted. -/
def notedChange (c : Change) (result : Except Failure Unit)
    (log : List (Event UInt16 (List Byte))) : List (Event UInt16 (List Byte)) :=
  match result, c.target schema with
  | .ok (), some (i, v) => .stage i v :: log
  | _, _ => log

/-- A save that succeeded is noted. -/
def notedSave (result : Except Failure Unit) (log : List (Event UInt16 (List Byte))) :
    List (Event UInt16 (List Byte)) :=
  match result with
  | .ok () => .drop :: log
  | .error _ => log

/-- The module after an operation. A save that the power cuts off is none. -/
def step (w : World) : Op → Option World
  | .stage c =>
    let r := c.run schema w.ctx
    some { w with ctx := r.2, log := notedChange schema c r.1 w.log }
  | .save fates =>
    match cfgSave schema w.ctx w.flash fates with
    | (some (result, ctx), flash, _) => some ⟨ctx, flash, notedSave result w.log⟩
    | (none, _, _) => none
  | .exit => some { w with ctx := w.ctx.clearPending, log := .drop :: w.log }

/-- After `ax25_cfg_init`, with the contents of NVS that it finds. -/
def Starts (flash : Flash) (w : World) : Prop :=
  w.flash = flash ∧ w.ctx.pending = (fun _ => {}) ∧ w.log = []

end Runs

/-- The slots of a context: one each, for entries of the schema, with strings that fit. -/
structure SlotsOk (schema : List Param) (ctx : Ctx) : Prop where
  one : OneSlotEach ctx
  known : ∀ k, (ctx.pending k).inUse → (ctx.pending k).paramIndex.toNat < schema.length
  short : ∀ k, (ctx.pending k).value.length < valueMaxLen

/-- What holds in every run: the slots show what the history stages. -/
structure Staging (schema : List Param) (w : World) : Prop where
  slots : SlotsOk schema w.ctx
  shows : stagedBy w.log = slotOf w.ctx
  stored : ∀ p ∈ schema, fits w.flash.primary p.key

variable {schema : List Param} {w : World}

/-! ### Changes -/

theorem index_toNat (hacc : Accepted schema) {name : List Byte} {idx : Nat}
    (h : findParam schema name = some idx) :
    (UInt16.ofNat idx).toNat = idx ∧ idx < schema.length := by
  obtain ⟨hlt, -⟩ := List.findIdx?_eq_some_iff_getElem.mp h
  have := hacc.size
  exact ⟨UInt16.toNat_ofNat_of_lt (by simp only [UInt16.size]; omega), hlt⟩

/-- A change without a target is refused and changes nothing; one with a target is marked as
pending. -/
theorem Change.run_cases (hacc : Accepted schema) (ctx : Ctx) (c : Change) :
    (c.target schema = none ∧ ∃ e, c.run schema ctx = (.error e, ctx)) ∨
      ∃ i v, c.target schema = some (i, v) ∧ i.toNat < schema.length ∧
        (v.getD []).length < valueMaxLen ∧
        c.run schema ctx = ((markPending ctx i v.isNone (v.getD [])).1.mapError pendingListFull,
          (markPending ctx i v.isNone (v.getD [])).2) := by
  cases c with
  | set parameter value =>
      cases hfind : findParam schema parameter with
      | none =>
          refine .inl ⟨by simp [target, hfind], unknownParameter parameter, ?_⟩
          simp only [run, cfgSet, hfind]
      | some idx =>
          obtain ⟨hidx, hlt⟩ := index_toNat hacc hfind
          have hparam := List.getElem?_eq_getElem hlt
          cases hv : normalizeValue schema[idx] value valueMaxLen with
          | error e =>
              refine .inl ⟨?_, e, ?_⟩
              · simp only [target, hfind, hparam, hv, Option.bind_eq_bind, Option.bind_some]
                rfl
              · simp only [run, cfgSet, hfind, hparam, hv]
          | ok v =>
              have hlen := normalizeValue_length (by decide) hv
              refine .inr ⟨UInt16.ofNat idx, some v, ?_, by rwa [hidx], hlen, ?_⟩
              · simp only [target, hfind, hparam, hv, Option.bind_eq_bind, Option.bind_some]
                rfl
              · have hcut : strlcpy v valueMaxLen = v :=
                  List.take_of_length_le (by simp only [valueMaxLen] at hlen ⊢; omega)
                simp only [run, cfgSet, hfind, hparam, hv, markPendingSet, hcut]
                rfl
  | clear parameter =>
      cases hfind : findParam schema parameter with
      | none =>
          refine .inl ⟨by simp [target, hfind], unknownParameter parameter, ?_⟩
          simp only [run, cfgClear, hfind]
      | some idx =>
          obtain ⟨hidx, hlt⟩ := index_toNat hacc hfind
          refine .inr ⟨UInt16.ofNat idx, none, by simp [target, hfind], by rwa [hidx],
            by decide, ?_⟩
          simp only [run, cfgClear, hfind, markPendingClear]
          rfl

/-- The entries that have a slot are the staged ones; when all slots are taken they are 32. -/
theorem Staging.staged_iff (h : Staging schema w) (i : UInt16) :
    stagedBy w.log i ≠ none ↔ ∃ k, (w.ctx.pending k).inUse ∧ (w.ctx.pending k).paramIndex = i := by
  rw [h.shows, slotOf]
  constructor
  · intro hne
    cases hfind : findPendingSlot w.ctx i with
    | none => exact absurd (by rw [hfind]; rfl) hne
    | some k => exact ⟨k, findPendingSlot_some hfind⟩
  · rintro ⟨k, huse, hidx⟩
    rw [← hidx, findPendingSlot_eq h.slots.one huse]
    exact fun h => (by cases h)

/-- All slots are taken exactly when 32 entries are staged. -/
theorem Staging.full_iff (h : Staging schema w) :
    (∀ k, (w.ctx.pending k).inUse) ↔
      ∃ others : Finset UInt16, others.card = maxPending ∧ ∀ j ∈ others, stagedBy w.log j ≠ none := by
  constructor
  · intro hfull
    refine ⟨Finset.univ.image fun k => (w.ctx.pending k).paramIndex, ?_, fun j hj => ?_⟩
    · rw [Finset.card_image_of_injective _ fun k l heq => h.slots.one k l (hfull k) (hfull l) heq,
        Finset.card_univ, Fintype.card_fin]
    · obtain ⟨k, -, rfl⟩ := Finset.mem_image.mp hj
      exact (h.staged_iff _).mpr ⟨k, hfull k, rfl⟩
  · intro ⟨others, hcard, hothers⟩ k
    -- were `k` free, the 32 entries would be those of the 31 other slots
    by_contra hfree
    have hsub : others ⊆ (Finset.univ.erase k).image fun l => (w.ctx.pending l).paramIndex := by
      intro j hj
      obtain ⟨l, huse, hidx⟩ := (h.staged_iff j).mp (hothers j hj)
      exact Finset.mem_image.mpr ⟨l, Finset.mem_erase.mpr
        ⟨fun heq => hfree (heq ▸ huse), Finset.mem_univ l⟩, hidx⟩
    have hle := (Finset.card_le_card hsub).trans Finset.card_image_le
    rw [Finset.card_erase_of_mem (Finset.mem_univ k), Finset.card_univ, Fintype.card_fin,
      hcard] at hle
    simp [maxPending] at hle

/-! ### Reading -/

theorem getStoredValue_run (param : Param) {outLen : Nat} (hlen : valueMaxLen ≤ outLen) (f : Flash)
    (hfits : fits f.primary param.key) :
    getStoredValue param outLen f [] = (some (.ok (match f.primary param.key with
      | some (.str value) => value
      | _ => strlcpy param.default outLen)), f, []) := by
  have hpos : outLen ≠ 0 := by
    simp only [valueMaxLen] at hlen
    omega
  unfold getStoredValue nvsGetStr
  rw [if_neg hpos, bind_run_some (call_done _ _ f (reaches_nil 1))]
  simp only [Flash.open_primary]
  unfold fits at hfits
  cases hk : f.primary param.key with
  | none => rfl
  | some item =>
      rw [hk] at hfits
      cases item with
      | u8 value => cases hfits
      | str value =>
          have hlt : value.length < outLen := Nat.lt_of_lt_of_le (of_decide_eq_true hfits) hlen
          simp only [if_pos hlt]
          rfl

/-- `get` returns what shows of the primary namespace under the staged changes. -/
theorem Staging.get (hacc : Accepted schema) (h : Staging schema w) {i : UInt16} {param : Param}
    {name : List Byte} (hi : schema[i.toNat]? = some param) (hname : param.parameter = some name)
    {outLen : Nat} (hlen : valueMaxLen ≤ outLen) :
    (cfgGet schema w.ctx name outLen w.flash []).1 = some (.ok
      (view (fun _ => strlcpy param.default outLen) (storedOf schema w.flash.primary)
        (stagedBy w.log) i)) := by
  have hmem := List.mem_of_getElem? hi
  unfold cfgGet getEffectiveValue view
  rw [hacc.findParam hi hname]
  simp only [hi, UInt16.ofNat_toNat, h.shows, slotOf, storedOf_of_get hi]
  cases hfind : findPendingSlot w.ctx i with
  | none =>
      have hrun := getStoredValue_run param hlen w.flash (h.stored param hmem)
      refine (congrArg Prod.fst hrun).trans ?_
      cases hk : w.flash.primary param.key with
      | none => rfl
      | some item => cases item <;> rfl
  | some k =>
      have hcut : strlcpy (w.ctx.pending k).value outLen = (w.ctx.pending k).value :=
        List.take_of_length_le (by have := h.slots.short k; omega)
      by_cases hclr : (w.ctx.pending k).cleared
      · simp only [if_pos hclr, Option.map_some]
        rfl
      · simp only [if_neg hclr, Option.map_some, hcut]
        rfl

/-! ### The invariant -/

theorem slotsOk_fresh {ctx : Ctx} (hctx : ctx.pending = fun _ => {}) : SlotsOk schema ctx := by
  refine ⟨fun i j hi => ?_, fun k hk => ?_, fun k => ?_⟩
  · rw [hctx] at hi
    cases hi
  · rw [hctx] at hk
    cases hk
  · rw [hctx]
    exact Nat.zero_lt_succ _

theorem SlotsOk.set {ctx : Ctx} (h : SlotsOk schema ctx) {slot : Slot} {k : Fin maxPending}
    (hk : SlotFor ctx slot.paramIndex k) (hknown : slot.paramIndex.toNat < schema.length)
    (hshort : slot.value.length < valueMaxLen) : SlotsOk schema (ctx.setSlot k slot) := by
  refine ⟨mark_oneSlotEach h.one hk, fun l hl => ?_, fun l => ?_⟩
  · by_cases hlk : l = k
    · rwa [hlk, setSlot_pending_self]
    · rw [setSlot_pending_of_ne _ hlk] at hl ⊢
      exact h.known l hl
  · by_cases hlk : l = k
    · rwa [hlk, setSlot_pending_self]
    · rw [setSlot_pending_of_ne _ hlk]
      exact h.short l

theorem SlotsOk.run (hacc : Accepted schema) {ctx : Ctx} (h : SlotsOk schema ctx) (c : Change) :
    SlotsOk schema (c.run schema ctx).2 := by
  obtain ⟨-, e, hrun⟩ | ⟨i, v, -, hknown, hlen, hrun⟩ := c.run_cases hacc ctx
  · rw [hrun]
    exact h
  · rw [hrun]
    obtain ⟨k, hk, hmark⟩ | ⟨-, -, hmark⟩ := markPending_cases ctx i v.isNone (v.getD [])
    · rw [hmark]
      exact h.set hk hknown hlen
    · rw [hmark]
      exact h

theorem staging_starts {flash : Flash} (hflash : ∀ p ∈ schema, fits flash.primary p.key)
    (h : Starts flash w) : Staging schema w := by
  obtain ⟨hf, hp, hlog⟩ := h
  refine ⟨slotsOk_fresh hp, ?_, fun p hmem => hf ▸ hflash p hmem⟩
  funext i
  rw [hlog, slotOf]
  cases hfind : findPendingSlot w.ctx i with
  | none => rfl
  | some k =>
      have huse := (findPendingSlot_some hfind).1
      rw [hp] at huse
      cases huse

/-- Without pending slots nothing is staged. -/
theorem staging_dropped {ctx : Ctx} (hctx : ctx.pending = fun _ => {}) {flash : Flash}
    (hflash : ∀ p ∈ schema, fits flash.primary p.key)
    (log : List (Event UInt16 (List Byte))) : Staging schema ⟨ctx, flash, .drop :: log⟩ := by
  have hstart : Staging schema ⟨ctx, flash, []⟩ := staging_starts hflash ⟨rfl, hctx, rfl⟩
  exact ⟨hstart.slots, hstart.shows, hstart.stored⟩

theorem Staging.stage (hacc : Accepted schema) (h : Staging schema w) (c : Change) :
    Staging schema { w with
      ctx := (c.run schema w.ctx).2
      log := notedChange schema c (c.run schema w.ctx).1 w.log } := by
  refine ⟨h.slots.run hacc c, ?_, h.stored⟩
  obtain ⟨htarget, e, hrun⟩ | ⟨i, v, htarget, -, -, hrun⟩ := c.run_cases hacc w.ctx
  · rw [hrun]
    exact h.shows
  · rw [hrun]
    obtain ⟨k, hk, hmark⟩ | ⟨-, -, hmark⟩ := markPending_cases w.ctx i v.isNone (v.getD [])
    · rw [hmark]
      simp only [notedChange, Except.mapError, htarget]
      funext j
      rw [mark_slotOf h.slots.one hk rfl]
      unfold stagedBy
      rw [h.shows]
      cases v <;> rfl
    · rw [hmark]
      exact h.shows

theorem Staging.save (hacc : Accepted schema) (h : Staging schema w) {t t' : Fates Nat}
    {result : Except Failure Unit} {ctx : Ctx} {flash : Flash}
    (hsave : cfgSave schema w.ctx w.flash t = (some (result, ctx), flash, t')) :
    Staging schema ⟨ctx, flash, notedSave result w.log⟩ ∧
      ∀ (d : UInt16 → List Byte) i,
        view d (storedOf schema flash.primary) (stagedBy (notedSave result w.log)) i =
          view d (storedOf schema w.flash.primary) (stagedBy w.log) i := by
  obtain ⟨j, hprimary, hall⟩ := @saveCalls_primary schema w.ctx w.flash t
  set ws := pendingWrites schema (List.ofFn w.ctx.pending) with hws
  have hwritten := written_take hacc h.slots.one w.flash.primary j
  have hitems : ∀ u ∈ ws, Item.fits u.2 = true := by
    intro u hu
    obtain ⟨k, p, -, -, rfl⟩ := mem_pendingWrites.mp hu
    unfold Slot.item
    split_ifs
    · rfl
    · exact decide_eq_true (h.slots.short k)
  unfold cfgSave at hsave
  rcases hcalls : saveCalls schema w.ctx w.flash t with ⟨_ | e | u, f', t₁⟩
  · rw [bind_run_none hcalls] at hsave
    cases hsave
  · rw [bind_run_some hcalls] at hsave
    cases hsave
    rw [hcalls] at hprimary
    dsimp only at hprimary
    refine ⟨⟨h.slots, h.shows, fun p hp => ?_⟩, fun d i => ?_⟩
    · dsimp only
      rw [hprimary]
      exact fits_writeAll (fun u hu => hitems u (List.mem_of_mem_take hu)) (h.stored p hp)
    · rw [hprimary]
      change view d _ (stagedBy w.log) i = _
      rw [h.shows]
      exact view_of_written hwritten i
  · rw [bind_run_some hcalls] at hsave
    cases hsave
    rw [hcalls] at hprimary hall
    dsimp only at hprimary
    rw [List.take_of_length_le (hall rfl)] at hprimary hwritten
    refine ⟨staging_dropped rfl (fun p hp => ?_) _, fun d i => ?_⟩
    · rw [hprimary]
      exact fits_writeAll hitems (h.stored p hp)
    · rw [hprimary]
      change view d _ (fun _ => none) i = _
      rw [h.shows]
      exact view_drop hwritten (fun k c hc => written_all hacc h.slots.one h.slots.known _ hc) i

theorem staging_reach (hacc : Accepted schema) {flash : Flash}
    (hflash : ∀ p ∈ schema, fits flash.primary p.key)
    (h : Reach (Starts flash) (step schema) Always w) : Staging schema w := by
  refine h.invariant (fun w hw => staging_starts hflash hw) fun w op w' hi _ hs => ?_
  cases op with
  | stage c =>
      cases hs
      exact hi.stage hacc c
  | save t =>
      unfold step at hs
      dsimp only at hs
      split at hs
      · cases hs
        rename_i hsave
        exact (hi.save hacc hsave).1
      · cases hs
  | exit =>
      cases hs
      exact staging_dropped rfl hi.stored _

/-! ### Changes that fail -/

/-- A change that has a target fails when its entry is not staged and all slots are taken. -/
theorem Staging.run_error_iff (hacc : Accepted schema) (h : Staging schema w) {c : Change}
    {i : UInt16} {v : Option (List Byte)} (htarget : c.target schema = some (i, v)) (e : Failure) :
    (c.run schema w.ctx).1 = .error e ↔
      e = pendingListFull (.esp .noMem) ∧ stagedBy w.log i = none ∧
        ∀ k, (w.ctx.pending k).inUse := by
  obtain ⟨hnone, -⟩ | ⟨i', v', htarget', -, -, hrun⟩ := c.run_cases hacc w.ctx
  · rw [hnone] at htarget
    cases htarget
  · rw [htarget'] at htarget
    cases htarget
    rw [hrun]
    obtain ⟨k, hk, hmark⟩ | ⟨hnone, hfull, hmark⟩ := markPending_cases w.ctx i v.isNone (v.getD [])
    · -- with a slot to write, the entry is staged or a slot is free
      rw [hmark]
      refine ⟨fun he => (by cases he), fun ⟨_, hunstaged, hfull⟩ => ?_⟩
      obtain ⟨hfree, -⟩ | hsome := hk
      · rw [hfull k] at hfree
        cases hfree
      · exact absurd hunstaged ((h.staged_iff i).mpr ⟨k, findPendingSlot_some hsome⟩)
    · rw [hmark]
      refine ⟨fun he => ?_, fun ⟨he, _⟩ => by rw [he]; rfl⟩
      cases he
      refine ⟨rfl, ?_, hfull⟩
      rw [h.shows, slotOf, hnone]
      rfl

/-- A change that fails leaves the context as it is. -/
theorem Change.run_error (hacc : Accepted schema) {ctx : Ctx} {c : Change} {e : Failure}
    (he : (c.run schema ctx).1 = .error e) : (c.run schema ctx).2 = ctx := by
  obtain ⟨-, e', hrun⟩ | ⟨i, v, -, -, -, hrun⟩ := c.run_cases hacc ctx
  · rw [hrun]
  · rw [hrun] at he ⊢
    obtain ⟨k, -, hmark⟩ | ⟨-, -, hmark⟩ := markPending_cases ctx i v.isNone (v.getD [])
    · rw [hmark] at he
      cases he
    · rw [hmark]

/-! ### One map -/

/-- In every run, for every schema that `ax25_cfg_init` accepts and whatever refuses the calls
of the saves: `get` returns the value that is staged for the entry, or the stored one, or
as much of the default as fits in the buffer; no entry has two slots; a change of an entry
fails, with `ESP_ERR_NO_MEM`, exactly when the entry is not staged and 32 others are; a
change that fails changes nothing; and a save does not change what `get` returns. -/
theorem overlay_is_a_map {defaults : List Param} {localSchema : Option (List Param)}
    {localSchemaCount : Nat} {schema : List Param}
    (hschema : buildMergedSchema defaults localSchema localSchemaCount = .ok schema)
    {flash : Flash} (hflash : ∀ p ∈ schema, fits flash.primary p.key) {w : World}
    (h : Reach (Starts flash) (step schema) Always w) :
    (∀ (i : UInt16) param name outLen, schema[i.toNat]? = some param →
      param.parameter = some name → valueMaxLen ≤ outLen →
      (cfgGet schema w.ctx name outLen w.flash []).1 = some (.ok
        (view (fun _ => strlcpy param.default outLen) (storedOf schema w.flash.primary)
          (stagedBy w.log) i))) ∧
    OneSlotEach w.ctx ∧
    (∀ (c : Change) i v, c.target schema = some (i, v) →
      ((∃ e, (c.run schema w.ctx).1 = .error e) ↔
        stagedBy w.log i = none ∧ ∃ others : Finset UInt16, others.card = maxPending ∧
          ∀ j ∈ others, j ≠ i ∧ stagedBy w.log j ≠ none) ∧
      ∀ e, (c.run schema w.ctx).1 = .error e → e.code = .esp .noMem) ∧
    (∀ (c : Change) e, (c.run schema w.ctx).1 = .error e → step schema w (.stage c) = some w) ∧
    (∀ t result ctx flash' t', cfgSave schema w.ctx w.flash t = (some (result, ctx), flash', t') →
      ∀ name outLen, valueMaxLen ≤ outLen →
        (cfgGet schema ctx name outLen flash' []).1 =
          (cfgGet schema w.ctx name outLen w.flash []).1) := by
  have hacc := buildMergedSchema_ok hschema
  have hi := staging_reach hacc hflash h
  refine ⟨fun i param name outLen hp hname hlen => hi.get hacc hp hname hlen, hi.slots.one,
    fun c i v htarget => ⟨⟨fun ⟨e, he⟩ => ?_, fun ⟨hnone, others, hcard, hothers⟩ => ?_⟩,
      fun e he => ?_⟩, fun c e he => ?_,
    fun t result ctx flash' t' hsave name outLen hlen => ?_⟩
  · obtain ⟨-, hnone, hfull⟩ := (hi.run_error_iff hacc htarget e).mp he
    obtain ⟨others, hcard, hothers⟩ := hi.full_iff.mp hfull
    exact ⟨hnone, others, hcard, fun j hj =>
      ⟨fun heq => hothers j hj (heq ▸ hnone), hothers j hj⟩⟩
  · have hfull := hi.full_iff.mpr ⟨others, hcard, fun j hj => (hothers j hj).2⟩
    exact ⟨_, (hi.run_error_iff hacc htarget _).mpr ⟨rfl, hnone, hfull⟩⟩
  · rw [((hi.run_error_iff hacc htarget e).mp he).1]
    rfl
  · unfold step
    dsimp only
    rw [Change.run_error hacc he, he]
    rfl
  · have hsaved := hi.save hacc hsave
    cases hfind : findParam schema name with
    | none =>
        unfold cfgGet
        rw [hfind]
        rfl
    | some idx =>
        obtain ⟨param, hparam, hname⟩ := findParam_some hfind
        obtain ⟨hidx, -⟩ := index_toNat hacc hfind
        rw [← hidx] at hparam
        rw [hi.get hacc hparam hname hlen]
        exact (hsaved.1.get hacc hparam hname hlen).trans (by rw [hsaved.2])

/-- A string setting with a given default. -/
def stringParam (name : String) (default : List Byte) : Param where
  parameter := some (bytes name)
  nvsKey := none
  defaultValue := some default
  range := none
  type := .string
  hide := false

/-- Erased flash. -/
def erased : Flash := ⟨fun _ => none, fun _ => none⟩

/-- The schema of an application with one setting. -/
def callSchema : List Param := [stringParam "call" (bytes "N0CALL")]

/-- A value that has been set is read back. -/
theorem overlay_is_a_map_set :
    (cfgGet callSchema (cfgSet callSchema {} (bytes "call") (bytes "W1AW")).2 (bytes "call") 160
      erased []).1 = some (.ok (bytes "W1AW")) := by
  have hschema : buildMergedSchema [] (some callSchema) 1 = .ok callSchema := by decide +kernel
  have hreach : Reach (Starts erased) (step callSchema) Always
      ⟨(cfgSet callSchema {} (bytes "call") (bytes "W1AW")).2, erased,
        notedChange callSchema (.set (bytes "call") (bytes "W1AW"))
          (cfgSet callSchema {} (bytes "call") (bytes "W1AW")).1 []⟩ :=
    .next (s := ⟨{}, erased, []⟩) (.stage (.set (bytes "call") (bytes "W1AW")))
      (.start ⟨rfl, rfl, rfl⟩) trivial rfl
  have hmap := overlay_is_a_map hschema (by decide +kernel) hreach
  exact (hmap.1 0 _ (bytes "call") 160 rfl rfl (Nat.le_refl _)).trans (by decide +kernel)

/-- A default of 160 bytes does not fit in a buffer of 160 bytes with its NUL: already before
the first operation, `get` does not return the default of such an entry. -/
theorem long_default_is_cut :
    ¬ ∀ schema w, buildMergedSchema [] (some schema) schema.length = .ok schema →
      Starts erased w → ∀ (i : UInt16) param name, schema[i.toNat]? = some param →
        param.parameter = some name →
        (cfgGet schema w.ctx name 160 w.flash []).1 = some (.ok
          (view (fun _ => param.default) (storedOf schema w.flash.primary)
            (stagedBy w.log) i)) := by
  intro h
  have hget := h [stringParam "motd" (List.replicate 160 0x41)] ⟨{}, erased, []⟩
    (by decide +kernel) ⟨rfl, rfl, rfl⟩ 0 _ (bytes "motd") rfl rfl
  revert hget
  decide +kernel

end EspAx25.Config
