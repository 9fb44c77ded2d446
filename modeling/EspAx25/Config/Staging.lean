import Mathlib.Data.List.OfFn
import EspAx25.Config.Calls
import EspAx25.Overlay
import EspAx25.Transition

/-!
# EspAx25.Config.Staging

The pending slots, the primary namespace and the defaults of the schema, together, are
a map with changes staged over it. `set` and `clear` stage a change, `exit` drops
them, and `save` writes them, all or some, in the order of the slots.
-/

namespace EspAx25.Config

open Crash Transition Overlay

/-! ### Slots -/

/-- What is staged for an entry. -/
def slotOf (ctx : Ctx) (paramIndex : UInt16) : Option (Option (List Byte)) :=
  (findPendingSlot ctx paramIndex).map fun slot =>
    if (ctx.pending slot).cleared then none else some (ctx.pending slot).value

/-- No two slots are for the same entry. -/
def OneSlotEach (ctx : Ctx) : Prop :=
  ∀ i j, (ctx.pending i).inUse → (ctx.pending j).inUse →
    (ctx.pending i).paramIndex = (ctx.pending j).paramIndex → i = j

theorem findPendingSlot_some {ctx : Ctx} {paramIndex : UInt16} {i : Fin maxPending}
    (h : findPendingSlot ctx paramIndex = some i) :
    (ctx.pending i).inUse ∧ (ctx.pending i).paramIndex = paramIndex := by
  simpa using List.find?_some h

theorem findPendingSlot_none {ctx : Ctx} {paramIndex : UInt16}
    (h : findPendingSlot ctx paramIndex = none) (i : Fin maxPending)
    (huse : (ctx.pending i).inUse) : (ctx.pending i).paramIndex ≠ paramIndex := by
  simpa [huse] using List.find?_eq_none.mp h i (List.mem_finRange i)

/-- A slot in use is the one that is found. -/
theorem findPendingSlot_eq {ctx : Ctx} (hone : OneSlotEach ctx) {i : Fin maxPending}
    (huse : (ctx.pending i).inUse) :
    findPendingSlot ctx (ctx.pending i).paramIndex = some i := by
  cases h : findPendingSlot ctx (ctx.pending i).paramIndex with
  | none => exact absurd rfl (findPendingSlot_none h i huse)
  | some j =>
      obtain ⟨hj, hidx⟩ := findPendingSlot_some h
      rw [hone j i hj huse hidx]

/-- The slot that is written for an entry: its own, or a free one when it has none. -/
def SlotFor (ctx : Ctx) (paramIndex : UInt16) (k : Fin maxPending) : Prop :=
  (ctx.pending k).inUse = false ∧ findPendingSlot ctx paramIndex = none ∨
    findPendingSlot ctx paramIndex = some k

/-- What `mark_pending_set` and `mark_pending_clear` do: they write the slot of the entry,
or a free one if it has none, or find all slots taken by others and change nothing. -/
theorem markPending_cases (ctx : Ctx) (paramIndex : UInt16) (cleared : Bool)
    (value : List Byte) :
    (∃ slot, SlotFor ctx paramIndex slot ∧
      markPending ctx paramIndex cleared value =
        (.ok (), ctx.setSlot slot { paramIndex, inUse := true, cleared, value })) ∨
    (findPendingSlot ctx paramIndex = none ∧ (∀ slot, (ctx.pending slot).inUse) ∧
      markPending ctx paramIndex cleared value = (.error (.esp .noMem), ctx)) := by
  unfold markPending
  cases hfind : findPendingSlot ctx paramIndex with
  | some slot => exact .inl ⟨slot, .inr hfind, rfl⟩
  | none =>
      cases halloc : allocPendingSlot ctx with
      | some slot =>
          have hfree := List.find?_some halloc
          exact .inl ⟨slot, .inl ⟨by simpa using hfree, hfind⟩, rfl⟩
      | none =>
          refine .inr ⟨rfl, fun slot => ?_, rfl⟩
          simpa using List.find?_eq_none.mp halloc slot (List.mem_finRange slot)

@[simp] theorem setSlot_pending_self (ctx : Ctx) (i : Fin maxPending) (slot : Slot) :
    (ctx.setSlot i slot).pending i = slot := Function.update_self ..

theorem setSlot_pending_of_ne (ctx : Ctx) {i j : Fin maxPending} (hne : j ≠ i) (slot : Slot) :
    (ctx.setSlot i slot).pending j = ctx.pending j := Function.update_of_ne hne ..

section Mark

variable {ctx : Ctx} {slot : Slot} {k : Fin maxPending}

/-- A slot in use of the changed context is the written one, or was in use before, for another
entry. -/
theorem mark_inUse (hone : OneSlotEach ctx) (hk : SlotFor ctx slot.paramIndex k)
    {i : Fin maxPending} (huse : ((ctx.setSlot k slot).pending i).inUse) (hne : i ≠ k) :
    (ctx.pending i).inUse ∧ (ctx.pending i).paramIndex ≠ slot.paramIndex := by
  rw [setSlot_pending_of_ne ctx hne] at huse
  refine ⟨huse, fun hidx => ?_⟩
  obtain ⟨-, hnone⟩ | hsome := hk
  · exact findPendingSlot_none hnone i huse hidx
  · obtain ⟨hs, hsidx⟩ := findPendingSlot_some hsome
    exact hne (hone i k huse hs (hidx.trans hsidx.symm))

theorem mark_oneSlotEach (hone : OneSlotEach ctx) (hk : SlotFor ctx slot.paramIndex k) :
    OneSlotEach (ctx.setSlot k slot) := by
  intro i j hi hj heq
  by_cases hik : i = k
  · by_cases hjk : j = k
    · rw [hik, hjk]
    · refine absurd ?_ (mark_inUse hone hk hj hjk).2
      rw [hik, setSlot_pending_self, setSlot_pending_of_ne ctx hjk] at heq
      exact heq.symm
  · by_cases hjk : j = k
    · refine absurd ?_ (mark_inUse hone hk hi hik).2
      rwa [hjk, setSlot_pending_self, setSlot_pending_of_ne ctx hik] at heq
    · refine hone i j (mark_inUse hone hk hi hik).1 (mark_inUse hone hk hj hjk).1 ?_
      rwa [setSlot_pending_of_ne ctx hik, setSlot_pending_of_ne ctx hjk] at heq

/-- The entry shows what has been staged for it, the others what they showed. -/
theorem mark_slotOf (hone : OneSlotEach ctx) (hk : SlotFor ctx slot.paramIndex k)
    (huse : slot.inUse) (i : UInt16) :
    slotOf (ctx.setSlot k slot) i =
      if slot.paramIndex = i then some (if slot.cleared then none else some slot.value)
      else slotOf ctx i := by
  have hone' := mark_oneSlotEach hone hk
  unfold slotOf
  by_cases hi : slot.paramIndex = i
  · have hfind := findPendingSlot_eq hone' (i := k) (by rwa [setSlot_pending_self])
    rw [setSlot_pending_self, hi] at hfind
    rw [if_pos hi, hfind, Option.map_some, setSlot_pending_self]
  · -- another entry: its slot, if it has one, is not the written one
    rw [if_neg hi]
    cases hfind : findPendingSlot ctx i with
    | some j =>
        obtain ⟨hj, hjidx⟩ := findPendingSlot_some hfind
        have hne : j ≠ k := by
          intro heq
          subst heq
          obtain ⟨hfree, -⟩ | hsome := hk
          · rw [hj] at hfree
            cases hfree
          · exact hi ((findPendingSlot_some hsome).2.symm.trans hjidx)
        have hfind' := findPendingSlot_eq hone' (i := j)
          (by rwa [setSlot_pending_of_ne ctx hne])
        rw [setSlot_pending_of_ne ctx hne, hjidx] at hfind'
        rw [hfind', Option.map_some, Option.map_some, setSlot_pending_of_ne ctx hne]
    | none =>
        cases hfind' : findPendingSlot (ctx.setSlot k slot) i with
        | none => rfl
        | some j =>
            obtain ⟨hj, hjidx⟩ := findPendingSlot_some hfind'
            by_cases hne : j = k
            · rw [hne, setSlot_pending_self] at hjidx
              exact absurd hjidx hi
            · rw [setSlot_pending_of_ne ctx hne] at hj hjidx
              exact absurd hjidx (findPendingSlot_none hfind j hj)

end Mark

/-! ### What a save writes -/

section Save

variable {schema : List Param} {ctx : Ctx}

theorem mem_pendingWrites {w : List Byte × Option Item} :
    w ∈ pendingWrites schema (List.ofFn ctx.pending) ↔
      ∃ k param, (ctx.pending k).inUse ∧
        schema[(ctx.pending k).paramIndex.toNat]? = some param ∧
        w = (param.key, (ctx.pending k).item) := by
  unfold pendingWrites
  rw [List.mem_filterMap]
  constructor
  · intro ⟨slot, hslot, hw⟩
    obtain ⟨k, rfl⟩ := List.mem_ofFn.mp hslot
    split_ifs at hw with huse
    obtain ⟨param, hparam, rfl⟩ := Option.map_eq_some_iff.mp hw
    exact ⟨k, param, by simpa using huse, hparam, rfl⟩
  · intro ⟨k, param, huse, hparam, hw⟩
    refine ⟨ctx.pending k, List.mem_ofFn.mpr ⟨k, rfl⟩, ?_⟩
    rw [if_neg (by simp [huse]), hparam, hw]
    rfl

/-- A save writes no key twice. -/
theorem pendingWrites_nodup (hacc : Accepted schema) (hone : OneSlotEach ctx) :
    ((pendingWrites schema (List.ofFn ctx.pending)).map Prod.fst).Nodup := by
  have hslots : (List.ofFn ctx.pending).Pairwise fun s s' =>
      s.inUse → s'.inUse → s.paramIndex ≠ s'.paramIndex := by
    rw [List.pairwise_ofFn]
    intro i j hij hi hj heq
    exact absurd (hone i j hi hj heq) (Fin.ne_of_lt hij)
  refine List.pairwise_map.mpr (hslots.filterMap _ fun s s' hne w hw w' hw' => ?_)
  split_ifs at hw hw' with huse huse'
  obtain ⟨p, hp, rfl⟩ := Option.map_eq_some_iff.mp hw
  obtain ⟨p', hp', rfl⟩ := Option.map_eq_some_iff.mp hw'
  intro hkey
  exact hne (by simpa using huse) (by simpa using huse')
    (UInt16.toNat_inj.mp (hacc.eq_of_key hp hp' hkey))

/-- The copy of a save, as far as it gets, leaves the primary namespace alone. -/
theorem copyAtoms_primary (n : Nat) (f : Flash) :
    (effects ((copyAtoms schema).take n) f).primary = f.primary := by
  refine effects_invariant (I := fun f' : Flash => f'.primary = f.primary)
    (fun a ha f' hf' => ?_) rfl
  obtain ha | ha := List.mem_append.mp (List.mem_of_mem_take ha)
  · obtain ⟨param, -, rfl⟩ := List.mem_map.mp ha
    exact hf'
  · rw [List.mem_singleton.mp ha]
    exact hf'

/-- A save leaves the primary namespace with its first writes, and with all of them when it
succeeds. -/
theorem saveCalls_primary (f : Flash) (t : Fates Nat) :
    ∃ j, (saveCalls schema ctx f t).2.1.primary =
        writeAll ((pendingWrites schema (List.ofFn ctx.pending)).take j) f.primary ∧
      ((saveCalls schema ctx f t).1 = some (.ok ()) →
        (pendingWrites schema (List.ofFn ctx.pending)).length ≤ j) := by
  have hdoes := saveCalls_does schema ctx
  set ws := pendingWrites schema (List.ofFn ctx.pending)
  set p := progress (copyAtoms schema ++ (ws.map pendingAtom ++
    [commitAtom, writeAtom .backup pendingKey (some (.u8 1)), commitAtom])) f t with hp
  refine ⟨p - (copyAtoms schema).length, ?_, fun hok => ?_⟩
  · have htail : ∀ n (g : Flash), (effects ([commitAtom, writeAtom .backup pendingKey
        (some (.u8 1)), commitAtom].take n) g).primary = g.primary := by
      intro n g
      refine effects_invariant (I := fun f' : Flash => f'.primary = g.primary)
        (fun a ha f' hf' => ?_) rfl
      have ha := List.mem_of_mem_take ha
      simp only [List.mem_cons, List.not_mem_nil, or_false] at ha
      obtain rfl | rfl | rfl := ha
      · exact hf'
      · exact hf'
      · exact hf'
    rw [hdoes.leaves, ← hp, List.take_append, List.take_append, effects_append, effects_append,
      htail, ← List.map_take, effects_pendingAtoms]
    exact congrArg (writeAll _) (copyAtoms_primary _ f)
  · have hall := (hdoes.succeeds f t).mp hok
    rw [← hp, List.length_append, List.length_append, List.length_map] at hall
    omega

/-- What the primary namespace has for an entry. -/
def storedOf (schema : List Param) (ns : Namespace) (i : UInt16) : Option (List Byte) :=
  match (schema[i.toNat]?).bind fun p => ns p.key with
  | some (.str value) => some value
  | _ => none

theorem storedOf_of_get {ns : Namespace} {i : UInt16} {param : Param}
    (h : schema[i.toNat]? = some param) : storedOf schema ns i = match ns param.key with
      | some (.str value) => some value
      | _ => none := by
  rw [storedOf, h]
  rfl

/-- What has been written of the staged changes, in the order of the slots. -/
theorem written_take (hacc : Accepted schema) (hone : OneSlotEach ctx) (ns : Namespace)
    (j : Nat) : Written (slotOf ctx) (storedOf schema ns) (storedOf schema
      (writeAll ((pendingWrites schema (List.ofFn ctx.pending)).take j) ns)) := by
  intro i
  cases hi : schema[i.toNat]? with
  | none => exact .inl (by simp [storedOf, hi])
  | some param =>
      rw [storedOf_of_get hi, storedOf_of_get hi]
      set ws := pendingWrites schema (List.ofFn ctx.pending) with hws
      by_cases hmem : param.key ∈ (ws.take j).map Prod.fst
      · obtain ⟨w, hw, hkey⟩ := List.mem_map.mp hmem
        have hnd : ((ws.take j).map Prod.fst).Nodup := by
          rw [List.map_take]
          exact (pendingWrites_nodup hacc hone).sublist (List.take_sublist ..)
        obtain ⟨k, p, huse, hp, rfl⟩ := mem_pendingWrites.mp (List.mem_of_mem_take hw)
        have hidx : (ctx.pending k).paramIndex = i :=
          UInt16.toNat_inj.mp (hacc.eq_of_key hp hi hkey)
        refine .inr ?_
        rw [← hkey, writeAll_of_mem hnd hw, slotOf, ← hidx, findPendingSlot_eq hone huse]
        unfold Slot.item
        rw [Option.map_some]
        split_ifs <;> rfl
      · exact .inl (by rw [writeAll_of_not_mem hmem])

/-- After a save that succeeds, every staged change is in the primary namespace. -/
theorem written_all (hacc : Accepted schema) (hone : OneSlotEach ctx)
    (hknown : ∀ k, (ctx.pending k).inUse → (ctx.pending k).paramIndex.toNat < schema.length)
    (ns : Namespace) {i : UInt16} {c : Option (List Byte)} (hc : slotOf ctx i = some c) :
    storedOf schema (writeAll (pendingWrites schema (List.ofFn ctx.pending)) ns) i = c := by
  obtain ⟨k, hk, rfl⟩ := Option.map_eq_some_iff.mp hc
  obtain ⟨huse, hidx⟩ := findPendingSlot_some hk
  obtain ⟨p, hp⟩ : ∃ p, schema[i.toNat]? = some p :=
    ⟨_, List.getElem?_eq_getElem (hidx ▸ hknown k huse)⟩
  have hmem := mem_pendingWrites.mpr ⟨k, p, huse, by rwa [hidx], rfl⟩
  have hwrite := writeAll_of_mem (pendingWrites_nodup hacc hone) hmem ns
  dsimp only at hwrite
  rw [storedOf_of_get hp, hwrite]
  unfold Slot.item
  split_ifs <;> rfl

end Save

end EspAx25.Config
