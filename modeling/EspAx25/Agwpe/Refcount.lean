import EspAx25.Agwpe.Manager

/-!
# EspAx25.Agwpe.Refcount

The references that dispatches take to the clients of the manager.

`manager_router_on_frame` counts a reference for every slot whose client it is going to
call, and the section after the call gives it back. `client_refcnt` is a `uint16_t`, so it
equals the number of dispatches that hold the slot as long as these are fewer than 65536
(`refcnt_wraps`). Under that condition a client leaves the table only when no dispatch
holds it, and `conserved_step` says that it leaves it once (`managed_clients_freed_once`).
-/

namespace EspAx25.Manager

open Tally Transition

variable {n : Nat} {π : Type}

/-- The dispatch still holds slot `i`. -/
def holds (i : Fin n) (d : List (Target n π)) : Bool := d.any (fun t => t.idx == i)

/-- The number of dispatches in progress that still hold slot `i`. -/
def State.holders (s : State n π) (i : Fin n) : Nat := s.dispatches.countP (holds i)

/-- A dispatch in progress still holds the client `x`. -/
def State.Held (s : State n π) (x : Nat) : Prop := ∃ d ∈ s.dispatches, ∃ t ∈ d, t.client.id = x

/-- **The condition**: no more than 65535 dispatches hold a slot at once. -/
def Bounded (s : State n π) : Event n π → Prop
  | .collect => ∀ i, s.holders i < 65535
  | _ => True

instance (s : State n π) (e : Event n π) : Decidable (Bounded s e) := by
  cases e <;> unfold Bounded <;> infer_instance

/-! ### What holds a slot -/

theorem holds_iff {i : Fin n} {d : List (Target n π)} : holds i d = true ↔ ∃ t ∈ d, t.idx = i := by
  simp [holds]

theorem State.holders_eq_zero {s : State n π} {i : Fin n} :
    s.holders i = 0 ↔ ∀ d ∈ s.dispatches, ∀ t ∈ d, t.idx ≠ i := by
  unfold State.holders
  rw [List.countP_eq_zero]
  constructor
  · intro h d hd t ht heq
    exact h d hd (holds_iff.2 ⟨t, ht, heq⟩)
  · intro h d hd hholds
    obtain ⟨t, ht, heq⟩ := holds_iff.1 hholds
    exact h d hd t ht heq

/-- A target names the client of its slot. -/
theorem State.target_some {s : State n π} {i : Fin n} {t : Target n π} (h : s.target i = some t) :
    t.idx = i ∧ s.clients i = some t.client ∧ s.clientPendingRemove i = false := by
  unfold State.target at h
  cases hc : s.clients i with
  | none =>
      rw [hc] at h
      cases h
  | some c =>
      rw [hc] at h
      dsimp only at h
      split_ifs at h with hguard
      cases h
      exact ⟨rfl, rfl, hguard.2⟩

theorem State.mem_targets {s : State n π} {t : Target n π}
    (h : t ∈ (List.finRange n).filterMap s.target) : s.target t.idx = some t := by
  obtain ⟨i, -, hi⟩ := List.mem_filterMap.1 h
  exact (s.target_some hi).1 ▸ hi

theorem State.holds_targets (s : State n π) (i : Fin n) :
    holds i ((List.finRange n).filterMap s.target) = (s.target i).isSome := by
  cases ht : s.target i with
  | none =>
      refine Bool.eq_false_iff.2 fun hholds => ?_
      obtain ⟨t, hmem, heq⟩ := holds_iff.1 hholds
      have hsome := State.mem_targets hmem
      rw [heq, ht] at hsome
      cases hsome
  | some t =>
      exact holds_iff.2 ⟨t, List.mem_filterMap.2 ⟨i, List.mem_finRange i, ht⟩, (s.target_some ht).1⟩

/-- A dispatch takes one reference to a slot. -/
theorem State.nodup_targets (s : State n π) :
    (((List.finRange n).filterMap s.target).map Target.idx).Nodup := by
  have hidx : ∀ is : List (Fin n), (is.filterMap s.target).map Target.idx =
      is.filter fun i => (s.target i).isSome := by
    intro is
    induction is with
    | nil => rfl
    | cons i is ih =>
        rw [List.filterMap_cons, List.filter_cons]
        cases ht : s.target i with
        | none => exact ih
        | some t =>
            dsimp only [Option.isSome_some, if_true]
            rw [List.map_cons, ih, (s.target_some ht).1]
            rfl
  rw [hidx]
  exact (List.nodup_finRange n).filter _

/-! ### The invariant -/

/-- The counters count the dispatches, and what a dispatch holds is in the table. -/
structure Counted (s : State n π) : Prop where
  held : ∀ d ∈ s.dispatches, ∀ t ∈ d, s.clients t.idx = some t.client
  nodup : ∀ d ∈ s.dispatches, (d.map Target.idx).Nodup
  refcnt : ∀ i, (s.clientRefcnt i).toNat = s.holders i
  removed : ∀ x ∈ s.removed, x < s.allocated ∧ count Client.id x s.adding = 0 ∧
    ∀ i c, s.clients i = some c → c.id = x → s.clientPendingRemove i = true

/-- A removal waits for a dispatch. -/
def Settled (s : State n π) : Prop := ∀ i, s.clientPendingRemove i = true → s.clientRefcnt i ≠ 0

theorem counted_init {s : State n π} (h : IsInit s) : Counted s ∧ Settled s := by
  subst h
  refine ⟨⟨fun d hd => absurd hd List.not_mem_nil, fun d hd => absurd hd List.not_mem_nil,
    fun i => rfl, fun x hx => absurd hx List.not_mem_nil⟩, fun i hi => ?_⟩
  cases hi

theorem Counted.holders_of_none {s : State n π} (h : Counted s) {i : Fin n}
    (hi : s.clients i = none) : s.holders i = 0 := by
  refine State.holders_eq_zero.2 fun d hd t ht heq => ?_
  have hsome := h.held d hd t ht
  rw [heq, hi] at hsome
  cases hsome

theorem Counted.not_held {s : State n π} (h : Counted s) {i : Fin n} (hi : s.clientRefcnt i = 0) :
    ∀ d ∈ s.dispatches, ∀ t ∈ d, t.idx ≠ i := by
  refine State.holders_eq_zero.1 ?_
  rw [← h.refcnt i, hi]
  rfl

theorem Counted.takeOut {s : State n π} (h : Counted s) {i : Fin n} {c : Client π}
    (hi : s.clientRefcnt i = 0) : Counted (s.takeOut i c) := by
  refine ⟨fun d hd t ht => ?_, h.nodup, h.refcnt, fun x hx => ?_⟩
  · simp only [State.takeOut, Function.update_of_ne (h.not_held hi d hd t ht)]
    exact h.held d hd t ht
  · obtain ⟨hlt, hadding, hpending⟩ := h.removed x hx
    refine ⟨hlt, hadding, fun j d hj hd => ?_⟩
    simp only [State.takeOut] at hj ⊢
    by_cases hji : j = i
    · rw [hji, Function.update_self] at hj
      cases hj
    · rw [Function.update_of_ne hji] at hj ⊢
      exact hpending j d hj hd

theorem Counted.collect {s : State n π} (h : Counted s) (hbound : ∀ i, s.holders i < 65535) :
    Counted s.collect := by
  refine ⟨fun d hd t ht => ?_, fun d hd => ?_, fun i => ?_, h.removed⟩
  · rcases List.mem_cons.1 hd with rfl | hd
    · exact (s.target_some (State.mem_targets ht)).2.1
    · exact h.held d hd t ht
  · rcases List.mem_cons.1 hd with rfl | hd
    · exact s.nodup_targets
    · exact h.nodup d hd
  · have hcount : s.collect.holders i =
        s.holders i + if (s.target i).isSome = true then 1 else 0 := by
      unfold State.holders State.collect
      dsimp only
      rw [List.countP_cons, s.holds_targets i]
    have hi := h.refcnt i
    have hlt := hbound i
    rw [hcount]
    unfold State.collect
    dsimp only
    split_ifs
    · rw [UInt16.toNat_add, hi]
      exact Nat.mod_eq_of_lt (by simpa using Nat.succ_lt_succ hlt)
    · exact hi

theorem Counted.deinitRound {s : State n π} (h : Counted s) : Counted s.deinitRound := by
  refine ⟨fun d hd t ht => ?_, h.nodup, h.refcnt, fun x hx => ?_⟩
  · have hheld : s.clientRefcnt t.idx ≠ 0 := fun hzero => h.not_held hzero d hd t ht rfl
    simp only [State.deinitRound, if_neg hheld]
    exact h.held d hd t ht
  · obtain ⟨hlt, hadding, -⟩ := h.removed x hx
    refine ⟨hlt, hadding, fun i c hi _ => ?_⟩
    simp only [State.deinitRound] at hi ⊢
    split_ifs at hi with hzero
    rw [if_pos (by rw [hi]; rfl)]
    exact bne_iff_ne.2 hzero

theorem Settled.deinitRound {s : State n π} (h : Settled s) : Settled s.deinitRound := by
  intro i hi
  simp only [State.deinitRound] at hi ⊢
  split_ifs at hi
  · exact bne_iff_ne.1 hi
  · exact h i hi

variable [DecidableEq π]

theorem Counted.place {s : State n π} (h : Counted s) {c : Client π} (hc : c ∈ s.adding) :
    Counted (s.place c) := by
  have hadding : ∀ x ∈ s.removed,
      x < s.allocated ∧ count Client.id x (s.adding.erase c) = 0 ∧ c.id ≠ x := by
    intro x hx
    obtain ⟨hlt, hzero, -⟩ := h.removed x hx
    have herase := count_erase Client.id x hc
    refine ⟨hlt, by omega, fun hcx => ?_⟩
    rw [if_pos hcx] at herase
    omega
  unfold State.place
  dsimp only
  split
  · rename_i i hi
    have hfree : s.clients i = none := by simpa using List.find?_some hi
    refine ⟨fun d hd t ht => ?_, h.nodup, fun j => ?_, fun x hx => ?_⟩
    · have hne : t.idx ≠ i :=
        fun heq => State.holders_eq_zero.1 (h.holders_of_none hfree) d hd t ht heq
      dsimp only
      rw [Function.update_of_ne hne]
      exact h.held d hd t ht
    · by_cases hji : j = i
      · subst hji
        dsimp only
        rw [Function.update_self]
        exact (h.holders_of_none hfree).symm
      · dsimp only
        rw [Function.update_of_ne hji]
        exact h.refcnt j
    · obtain ⟨hlt, hzero, hcx⟩ := hadding x hx
      refine ⟨hlt, hzero, fun j d hj hd => ?_⟩
      dsimp only at hj ⊢
      by_cases hji : j = i
      · rw [hji, Function.update_self] at hj
        rw [← Option.some.inj hj] at hd
        exact absurd hd hcx
      · rw [Function.update_of_ne hji] at hj ⊢
        exact (h.removed x hx).2.2 j d hj hd
  · refine ⟨h.held, h.nodup, h.refcnt, fun x hx => ?_⟩
    obtain ⟨hlt, hzero, -⟩ := hadding x hx
    exact ⟨hlt, hzero, (h.removed x hx).2.2⟩

theorem Settled.place {s : State n π} (h : Settled s) (c : Client π) : Settled (s.place c) := by
  unfold State.place
  dsimp only
  split
  · rename_i i hi
    intro j hj
    dsimp only at hj ⊢
    by_cases hji : j = i
    · rw [hji, Function.update_self] at hj
      cases hj
    · rw [Function.update_of_ne hji] at hj ⊢
      exact h j hj
  · exact h

theorem Counted.remove {s : State n π} (h : Counted s) (hcons : Conserved s) (p : π) :
    Counted (s.remove p) := by
  unfold State.remove
  split
  · exact h
  · rename_i i c hfind
    obtain ⟨hi, -⟩ := State.find_some hfind
    obtain ⟨hlt, honce, hadding, -⟩ := hcons.of_table hi
    have hmarked : Counted
        { s with
          clientPendingRemove := Function.update s.clientPendingRemove i true
          removed := c.id :: s.removed } := by
      refine ⟨h.held, h.nodup, h.refcnt, fun x hx => ?_⟩
      dsimp only at hx ⊢
      rcases List.mem_cons.1 hx with rfl | hx
      · refine ⟨hlt, hadding, fun j d hj hd => ?_⟩
        rw [place_unique Client.id honce.le hi hj hd, Function.update_self]
      · obtain ⟨hlt', hadding', hpending⟩ := h.removed x hx
        refine ⟨hlt', hadding', fun j d hj hd => ?_⟩
        by_cases hji : j = i
        · rw [hji, Function.update_self]
        · rw [Function.update_of_ne hji]
          exact hpending j d hj hd
    dsimp only
    split_ifs with hzero
    · exact hmarked.takeOut hzero
    · exact hmarked

theorem Settled.remove {s : State n π} (h : Settled s) (p : π) : Settled (s.remove p) := by
  unfold State.remove
  split
  · exact h
  · rename_i i c hfind
    dsimp only
    split_ifs with hzero
    · intro j hj
      simp only [State.takeOut] at hj ⊢
      by_cases hji : j = i
      · rw [hji, Function.update_self] at hj
        cases hj
      · rw [Function.update_of_ne hji, Function.update_of_ne hji] at hj
        exact h j hj
    · intro j hj
      dsimp only at hj ⊢
      by_cases hji : j = i
      · rw [hji]
        exact hzero
      · rw [Function.update_of_ne hji] at hj
        exact h j hj

/-- A dispatch gives back one reference. -/
theorem Counted.holders_release {s : State n π} (h : Counted s) {t : Target n π}
    {ts : List (Target n π)} (hmem : t :: ts ∈ s.dispatches) (j : Fin n) :
    (ts :: s.dispatches.erase (t :: ts)).countP (holds j) + (if t.idx = j then 1 else 0) =
      s.holders j := by
  have hperm : s.holders j = (((t :: ts) :: s.dispatches.erase (t :: ts)).countP (holds j)) :=
    (List.perm_cons_erase hmem).countP_eq _
  have hnodup := h.nodup _ hmem
  rw [List.map_cons, List.nodup_cons] at hnodup
  have hcons : holds j (t :: ts) = (t.idx == j || holds j ts) := rfl
  rw [hperm, List.countP_cons, List.countP_cons, hcons]
  by_cases hj : t.idx = j
  · -- the rest of the dispatch holds other slots
    have hrest : holds j ts = false := by
      refine Bool.eq_false_iff.2 fun hholds => ?_
      obtain ⟨u, hu, heq⟩ := holds_iff.1 hholds
      exact hnodup.1 (List.mem_map.2 ⟨u, hu, heq.trans hj.symm⟩)
    rw [hrest, hj]
    simp
  · rw [beq_eq_false_iff_ne.2 hj, Bool.false_or, if_neg hj]
    rfl

theorem Counted.release {s : State n π} (h : Counted s) {t : Target n π} {ts : List (Target n π)}
    (hmem : t :: ts ∈ s.dispatches) :
    Counted (s.release t ts) ∧ (Settled s → Settled (s.release t ts)) := by
  have hheld : s.clients t.idx = some t.client := h.held _ hmem t List.mem_cons_self
  have hholders := h.holders_release hmem
  have hself := hholders t.idx
  rw [if_pos rfl, ← h.refcnt t.idx] at hself
  have hpos : 0 < s.clientRefcnt t.idx :=
    UInt16.lt_iff_toNat_lt.2 (by rw [← hself]; exact Nat.succ_pos _)
  have hgiven : (s.clientRefcnt t.idx - 1).toNat + 1 = (s.clientRefcnt t.idx).toNat := by
    have hone : (1 : UInt16) ≤ s.clientRefcnt t.idx :=
      UInt16.le_iff_toNat_le.2 (by rw [← hself]; exact Nat.le_add_left _ _)
    rw [UInt16.toNat_sub_of_le _ _ hone, ← hself]
    rfl
  have hcounted : Counted
      { s with
        dispatches := ts :: s.dispatches.erase (t :: ts)
        clientRefcnt := Function.update s.clientRefcnt t.idx (s.clientRefcnt t.idx - 1) } := by
    refine ⟨fun d hd u hu => ?_, fun d hd => ?_, fun j => ?_, h.removed⟩
    · rcases List.mem_cons.1 hd with rfl | hd
      · exact h.held _ hmem u (List.mem_cons_of_mem t hu)
      · exact h.held d (List.mem_of_mem_erase hd) u hu
    · rcases List.mem_cons.1 hd with rfl | hd
      · exact (List.nodup_cons.1 (h.nodup _ hmem)).2
      · exact h.nodup d (List.mem_of_mem_erase hd)
    · have hj := hholders j
      unfold State.holders
      dsimp only
      by_cases hjt : j = t.idx
      · subst hjt
        rw [Function.update_self]
        omega
      · rw [if_neg (Ne.symm hjt)] at hj
        rw [Function.update_of_ne hjt, h.refcnt j, ← hj, Nat.add_zero]
  unfold State.release
  rw [if_pos hpos]
  dsimp only
  rw [hheld]
  dsimp only
  split_ifs with hlast
  · have hzero := hcounted.takeOut (i := t.idx) (c := t.client)
      (by simpa only [Function.update_self] using hlast.1)
    refine ⟨hzero, fun hs j hj => ?_⟩
    simp only [State.takeOut] at hj ⊢
    by_cases hjt : j = t.idx
    · rw [hjt, Function.update_self] at hj
      cases hj
    · rw [Function.update_of_ne hjt] at hj ⊢
      exact hs j hj
  · refine ⟨hcounted, fun hs j hj => ?_⟩
    dsimp only at hj ⊢
    by_cases hjt : j = t.idx
    · subst hjt
      rw [Function.update_self]
      exact fun hzero => hlast ⟨hzero, hj, rfl⟩
    · rw [Function.update_of_ne hjt]
      exact hs j hj

/-! ### Every run -/

/-- **One step.** -/
theorem counted_step {s s' : State n π} {e : Event n π} (hcons : Conserved s)
    (h : Counted s ∧ Settled s) (hbound : Bounded s e) (hs : step s e = some s') :
    Counted s' ∧ Settled s' := by
  obtain ⟨h, hsettled⟩ := h
  cases e with
  | add p =>
      simp only [step] at hs
      split_ifs at hs
      cases hs
      refine ⟨⟨h.held, h.nodup, h.refcnt, fun x hx => ?_⟩, hsettled⟩
      obtain ⟨hlt, hadding, hpending⟩ := h.removed x hx
      refine ⟨Nat.lt_succ_of_lt hlt, ?_, hpending⟩
      rw [count_cons, hadding, if_neg (Nat.ne_of_gt hlt)]
  | place c =>
      simp only [step] at hs
      split_ifs at hs with hguard
      cases hs
      exact ⟨h.place hguard.2, hsettled.place c⟩
  | remove p =>
      simp only [step] at hs
      split_ifs at hs
      cases hs
      exact ⟨h.remove hcons p, hsettled.remove p⟩
  | collect =>
      simp only [step] at hs
      split_ifs at hs
      cases hs
      refine ⟨h.collect hbound, fun i hi => ?_⟩
      -- a dispatch takes no reference to a client that is being removed
      have hno : s.target i = none := by
        cases ht : s.target i with
        | none => rfl
        | some t =>
            have hfalse := (s.target_some ht).2.2
            rw [show s.clientPendingRemove i = true from hi] at hfalse
            cases hfalse
      simp only [State.collect, hno]
      exact hsettled i hi
  | release t ts =>
      simp only [step] at hs
      split_ifs at hs with hmem
      cases hs
      exact ⟨(h.release hmem).1, (h.release hmem).2 hsettled⟩
  | deinitRound =>
      simp only [step] at hs
      split_ifs at hs
      cases hs
      exact ⟨h.deinitRound, hsettled.deinitRound⟩
  | deinitEnd =>
      simp only [step] at hs
      split_ifs at hs with hphase
      cases hs
      have hempty := hcons.drained (.inl hphase)
      refine ⟨⟨fun d hd t ht => ?_, h.nodup, fun i => ?_, fun x hx => ?_⟩, fun i hi => ?_⟩
      · have hheld := h.held d hd t ht
        rw [hempty] at hheld
        cases hheld
      · exact (h.holders_of_none (hempty i)).symm
      · obtain ⟨hlt, hadding, -⟩ := h.removed x hx
        exact ⟨hlt, hadding, fun i c hi => by cases hi⟩
      · cases hi
  | lookUp p =>
      simp only [step] at hs
      split_ifs at hs
      · cases hs
        exact ⟨h, hsettled⟩
      · split at hs <;> cases hs
        · exact ⟨⟨h.held, h.nodup, h.refcnt, h.removed⟩, hsettled⟩
        · exact ⟨h, hsettled⟩
  | callback | deinitStart | deinit _ | free _ | operate _ | leave _ =>
      simp only [step] at hs
      split_ifs at hs
      cases hs
      exact ⟨⟨h.held, h.nodup, h.refcnt, h.removed⟩, hsettled⟩

theorem counted {s : State n π} (h : Reach IsInit step Bounded s) :
    Conserved s ∧ Counted s ∧ Settled s :=
  h.invariant (I := fun s => Conserved s ∧ Counted s ∧ Settled s)
    (fun _ hs => ⟨conserved_init hs, counted_init hs⟩)
    fun _ _ _ hs hbound hstep => ⟨conserved_step hs.1 hstep, counted_step hs.1 hs.2 hbound hstep⟩

/-- **Managed clients are freed once, and never under a dispatch.** As long as no more
than 65535 dispatches hold a slot at once: the counter of a slot is the number of the
dispatches that hold it; a client is deinitialised and freed at most once, and not while a
dispatch holds it; a client that has been removed and that no dispatch holds has been taken
out of the table to be freed; and a client is put only into a slot whose counter is 0. -/
theorem managed_clients_freed_once (s : State n π) (h : Reach IsInit step Bounded s) :
    (∀ i, (s.clientRefcnt i).toNat = s.holders i) ∧
    (∀ x, s.deinits x ≤ 1 ∧ s.frees x ≤ 1) ∧
    (∀ x, s.Held x → count Client.id x s.toFree = 0 ∧ s.deinits x = 0 ∧ s.frees x = 0) ∧
    (∀ x ∈ s.removed, ¬ s.Held x →
      count Client.id x s.toFree + count Client.id x s.deinited + s.frees x = 1) ∧
    ∀ e s' i c, step s e = some s' → s'.clients i = some c → s.clients i ≠ some c →
      s.clientRefcnt i = 0 := by
  obtain ⟨hcons, hcounted, hsettled⟩ := counted h
  refine ⟨hcounted.refcnt, fun x => ?_, fun x hheld => ?_, fun x hx hno => ?_,
    fun e s' i c hs hi hne => ?_⟩
  · have honce := hcons.once x
    have hdeinits := hcons.deinits x
    have howed := owed_le_one s.allocated x
    rw [count_live] at honce
    constructor <;> omega
  · obtain ⟨d, hd, t, ht, rfl⟩ := hheld
    exact (hcons.of_table (hcounted.held d hd t ht)).2.2.2
  · obtain ⟨hlt, hadding, hpending⟩ := hcounted.removed x hx
    -- in the table, it would wait for a dispatch that holds it
    have htable : count Client.id x (entries s.clients) = 0 := by
      refine Nat.eq_zero_of_not_pos fun hpos => ?_
      obtain ⟨c, hc, hid⟩ := List.countP_pos_iff.1 hpos
      obtain ⟨i, hi⟩ := mem_entries.1 hc
      have hid : c.id = x := beq_iff_eq.1 hid
      have hnonzero := hsettled i (hpending i c hi hid)
      refine hnonzero (UInt16.toNat_inj.1 ?_)
      rw [hcounted.refcnt i]
      refine State.holders_eq_zero.2 fun d hd t ht hidx => hno ⟨d, hd, t, ht, ?_⟩
      have hheld := hcounted.held d hd t ht
      rw [hidx, hi] at hheld
      rw [← Option.some.inj hheld, hid]
    have honce := hcons.once x
    rw [count_live, owed, if_pos hlt] at honce
    omega
  · rcases clients_cases hcons hs i with hsame | hnone | ⟨-, -, hout, -⟩
    · exact absurd (hsame ▸ hi) hne
    · refine UInt16.toNat_inj.1 ?_
      rw [hcounted.refcnt i, hcounted.holders_of_none hnone]
      rfl
    · rw [hout] at hi
      cases hi

/-! ### A counter that wraps -/

/-- A client, and `k` dispatches that hold it. -/
theorem reach_dispatches (k : Nat) : ∃ s : State 1 Unit, Reach IsInit step Always s ∧
    s.phase = .running ∧ s.clients = (fun _ => some ⟨(), 0⟩) ∧ s.initialized ⟨(), 0⟩ = true ∧
    s.clientPendingRemove = (fun _ => false) ∧ s.clientRefcnt 0 = UInt16.ofNat k ∧
    s.dispatches = List.replicate k [⟨⟨(), 0⟩, 0⟩] := by
  induction k with
  | zero =>
      obtain ⟨s, hs⟩ : ∃ s, replay step Always (State.init : State 1 Unit)
          [.add (), .place ⟨(), 0⟩] = some s := ⟨_, rfl⟩
      refine ⟨s, Reach.replay (.start rfl) hs, ?_⟩
      obtain rfl := Option.some.inj hs
      refine ⟨rfl, funext fun i => ?_, rfl, funext fun i => ?_, rfl, rfl⟩
      · rw [Subsingleton.elim i 0]
        rfl
      · rw [Subsingleton.elim i 0]
        rfl
  | succ k ih =>
      obtain ⟨s, hreach, hphase, hclients, hinit, hpending, hrefcnt, hdispatches⟩ := ih
      let s₁ : State 1 Unit := { s with callbacks := s.callbacks + 1 }
      have htarget : ∀ i, s₁.target i = some ⟨⟨(), 0⟩, i⟩ := by
        intro i
        unfold State.target
        rw [show s₁.clients i = some ⟨(), 0⟩ from congrFun hclients i,
          show s₁.clientPendingRemove i = false from congrFun hpending i]
        exact if_pos ⟨hinit, rfl⟩
      have hcallback : step s .callback = some s₁ := if_pos hphase
      have hcollect : step s₁ .collect = some s₁.collect := by
        simp only [step]
        exact if_pos (Nat.succ_pos s.callbacks)
      refine ⟨s₁.collect, (hreach.next .callback trivial hcallback).next .collect trivial hcollect,
        hphase, hclients, hinit, hpending, ?_, ?_⟩
      · have hnext : s₁.collect.clientRefcnt 0 = s.clientRefcnt 0 + 1 := by
          unfold State.collect
          dsimp only
          rw [htarget 0]
          rfl
        rw [hnext, hrefcnt, UInt16.ofNat_add]
        rfl
      · have hone : (List.finRange 1).filterMap s₁.target = [⟨⟨(), 0⟩, 0⟩] := by
          rw [show List.finRange 1 = [0] from rfl, List.filterMap_cons, htarget 0]
          rfl
        have hnext : s₁.collect.dispatches =
            (List.finRange 1).filterMap s₁.target :: s.dispatches := rfl
        rw [hnext, hone, hdispatches, List.replicate_succ]

/-- With 65536 dispatches the counter is 0 again. -/
theorem refcnt_wraps :
    ¬ ∀ (s : State 1 Unit), Reach IsInit step Always s →
      ∀ i, (s.clientRefcnt i).toNat = s.holders i := by
  intro hall
  obtain ⟨s, hreach, -, -, -, -, hrefcnt, hdispatches⟩ := reach_dispatches 65536
  have hcount : s.holders 0 = 65536 := by
    unfold State.holders
    rw [hdispatches, List.countP_replicate]
    rfl
  have heq := hall s hreach 0
  rw [hcount, hrefcnt] at heq
  exact absurd heq (by decide)

/-- Two dispatches that hold a client, and its removal: the second one frees it. -/
theorem managed_clients_freed_once_pair :
    ∃ s : State 1 Unit,
      replay step Bounded State.init
        [.add (), .place ⟨(), 0⟩, .callback, .collect, .callback, .collect, .remove (),
          .release ⟨⟨(), 0⟩, 0⟩ [], .remove (), .release ⟨⟨(), 0⟩, 0⟩ [], .deinit ⟨(), 0⟩,
          .free ⟨(), 0⟩] = some s ∧
      s.frees 0 = 1 ∧ (s.clientRefcnt 0).toNat = s.holders 0 := by
  obtain ⟨s, hs⟩ : ∃ s, replay step Bounded (State.init : State 1 Unit)
      [.add (), .place ⟨(), 0⟩, .callback, .collect, .callback, .collect, .remove (),
        .release ⟨⟨(), 0⟩, 0⟩ [], .remove (), .release ⟨⟨(), 0⟩, 0⟩ [], .deinit ⟨(), 0⟩,
        .free ⟨(), 0⟩] = some s := Option.isSome_iff_exists.1 (by decide +kernel)
  refine ⟨s, hs, ?_, (managed_clients_freed_once s (Reach.replay (.start rfl) hs)).1 0⟩
  have hfrees : (some s).map (fun s => s.frees 0) = some 1 := by
    rw [← hs]
    decide +kernel
  exact Option.some.inj hfrees

end EspAx25.Manager
