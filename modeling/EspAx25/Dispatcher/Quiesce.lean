import EspAx25.Dispatcher.Book

/-!
# EspAx25.Dispatcher.Quiesce

Order and quiescence: the items wait in the order in which they were enqueued, and a
connection that has been quiesced hears nothing of what was enqueued before.

The generation of a connection is 1 again after every `ax25_conn_init`, so it does not
tell an item of an earlier life from one of the present life. What keeps the old items
apart is that `ax25_conn_dispatcher_quiesce` has cancelled every one of them: an item of
the connection that is not cancelled was enqueued after the last return (`Since`).

Main results:

* `dispatcher_bookkeeping`: after every run, whichever tasks enqueue and quiesce, the
  counters count, an item in use is in one place, no guard has skipped a decrement, the
  actions are invoked at most once and in the order in which they were enqueued, and
  nothing that was enqueued before `ax25_conn_dispatcher_quiesce` returned is invoked
  after it.
-/

namespace EspAx25.Dispatcher

open Transition

variable {κ : Type}

/-! ### The order of the items -/

section Order

variable {spiram : Bool} {s s' : Disp κ} {i : Nat} {c : κ}

theorem mem_held_of_todo (h : i ∈ s.todo) : i ∈ s.held := by
  rw [Disp.todo, List.mem_append] at h
  rw [Disp.held, List.mem_append]
  refine h.imp_left fun hi => ?_
  cases hw : s.worker <;> rw [hw] at hi <;> first | exact hi | cases hi

theorem Tidy.serial_lt (h : Tidy spiram s) (hi : i ∈ s.todo) :
    (s.item i).serial < s.accepted.length := by
  obtain ⟨c, -, -, hacc⟩ := h.owned i ((h.inUse i).mp (mem_held_of_todo hi))
  exact (List.getElem?_eq_some_iff.mp hacc).1

theorem Tidy.not_mem_queue (h : Tidy spiram s) (hw : s.worker.index = [i]) : i ∉ s.queue := by
  have hheld : s.held = i :: s.queue := by rw [Disp.held, hw]; rfl
  exact (List.nodup_cons.mp (hheld ▸ h.nodup)).1

/-- A step that enqueues and invokes nothing. -/
theorem Ordered.of_sublist (h : Ordered s) (hinv : s'.invoked = s.invoked)
    (hacc : s'.accepted = s.accepted) (htodo : s'.todo.Sublist s.todo)
    (hserial : ∀ i ∈ s'.todo, (s'.item i).serial = (s.item i).serial) : Ordered s' := by
  constructor
  · rw [hinv]
    exact h.invoked
  · rw [hinv, hacc]
    exact h.genuine
  · refine (h.waiting.sublist htodo).imp_of_mem ?_
    intro i j hi hj hij
    rw [hserial i hi, hserial j hj]
    exact hij
  · intro v hv i hi
    rw [hinv] at hv
    rw [hserial i hi]
    exact h.next v hv i (htodo.subset hi)

theorem Ordered.fill {a : Action} (ht : Tidy spiram s) (h : Ordered s)
    (hpool : s'.pool = s.pool.set i (s.newItem c a)) (htodo : s'.todo = s.todo ++ [i])
    (hinv : s'.invoked = s.invoked) (haccepted : s'.accepted = s.accepted ++ [(c, a)])
    (hlt : i < s.pool.length) (hfree : (s.item i).inUse = false) : Ordered s' := by
  have hnew : (s'.item i).serial = s.accepted.length := by
    rw [item_of_set hpool hlt, if_pos rfl]
    rfl
  have hold : ∀ j ∈ s.todo, (s'.item j).serial = (s.item j).serial := by
    intro j hj
    have hne : j ≠ i := by
      intro hji
      rw [hji] at hj
      rw [(ht.inUse i).mp (mem_held_of_todo hj)] at hfree
      cases hfree
    rw [item_of_set hpool hlt, if_neg hne]
  constructor
  · rw [hinv]
    exact h.invoked
  · intro v hv
    rw [hinv] at hv
    rw [haccepted]
    have hg := h.genuine v hv
    exact List.getElem?_append_left (List.getElem?_eq_some_iff.mp hg).1 ▸ hg
  · rw [htodo, List.pairwise_append]
    refine ⟨h.waiting.imp_of_mem ?_, List.pairwise_singleton _ _, ?_⟩
    · intro j k hj hk hjk
      rw [hold j hj, hold k hk]
      exact hjk
    · intro j hj k hk
      rw [List.mem_singleton.mp hk, hnew, hold j hj]
      exact ht.serial_lt hj
  · intro v hv j hj
    rw [hinv] at hv
    rw [htodo, List.mem_append] at hj
    rcases hj with hj | hj
    · rw [hold j hj]
      exact h.next v hv j hj
    · rw [List.mem_singleton.mp hj, hnew]
      exact (List.getElem?_eq_some_iff.mp (h.genuine v hv)).1

theorem Ordered.invoke (ht : Tidy spiram s) (h : Ordered s) (hw : s.worker = .claimed i c) :
    Ordered (s.invokeAction i c) := by
  have htodo : s.todo = i :: s.queue := by rw [Disp.todo, hw]; rfl
  have hi : i ∈ s.todo := by rw [htodo]; exact List.mem_cons_self
  obtain ⟨hhead, htail⟩ := List.pairwise_cons.mp (htodo ▸ h.waiting)
  obtain ⟨c', hctx, -, hacc⟩ := ht.owned i ((ht.inUse i).mp (mem_held_of_todo hi))
  have hc : c' = c := by
    obtain ⟨-, -, hctx'⟩ := ht.serving i c (by rw [hw]; rfl)
    exact Option.some.inj (hctx.symm.trans hctx')
  constructor
  · rw [Disp.invokeAction, List.pairwise_append]
    refine ⟨h.invoked, List.pairwise_singleton _ _, ?_⟩
    intro v hv u hu
    rw [List.mem_singleton.mp hu]
    exact h.next v hv i hi
  · intro v hv
    rw [Disp.invokeAction, List.mem_append] at hv
    rcases hv with hv | hv
    · exact h.genuine v hv
    · rw [List.mem_singleton.mp hv]
      exact hc ▸ hacc
  · exact htail
  · intro v hv j hj
    rw [Disp.invokeAction, List.mem_append] at hv
    have hj' : j ∈ s.queue := hj
    rcases hv with hv | hv
    · exact h.next v hv j (by rw [htodo]; exact List.mem_cons_of_mem i hj')
    · rw [List.mem_singleton.mp hv]
      exact hhead j hj'

theorem Ordered.drop (ht : Tidy spiram s) (h : Ordered s) (hw : s.worker.index = [i]) :
    Ordered (s.drop i) := by
  refine h.of_sublist rfl rfl (List.sublist_append_right _ _) ?_
  intro j hj
  have hlt : i < s.pool.length := ht.lt (by simp [Disp.held, hw])
  have hne : j ≠ i := fun hji => ht.not_mem_queue hw (hji ▸ hj)
  have hitem : (s.drop i).item j = if j = i then (s.item i).free else s.item j :=
    item_of_set rfl hlt j
  rw [hitem, if_neg hne]

/-- At most one item is executing. -/
theorem Tidy.executing_le_one (h : Tidy spiram s) :
    s.pool.countP (fun it => it.inUse && it.executing) ≤ 1 := by
  cases hw : s.worker.serving with
  | none =>
      rw [countP_eq_zero]
      · exact Nat.zero_le 1
      · intro i
        by_contra he
        obtain ⟨hu, he⟩ : (s.item i).inUse = true ∧ (s.item i).executing = true := by simpa using he
        obtain ⟨c, hs⟩ := h.executing i hu he
        rw [hw] at hs
        cases hs
  | some p =>
      obtain ⟨i, c⟩ := p
      have hlt := h.lt (mem_held_of_serving hw)
      have hcount := countP_set (x := (s.item i).free) (fun it => it.inUse && it.executing) hlt
      have hrest : (s.drop i).pool.countP (fun it => it.inUse && it.executing) = 0 := by
        apply countP_eq_zero
        intro j
        by_contra he
        obtain ⟨hu, he⟩ : ((s.drop i).item j).inUse = true ∧ ((s.drop i).item j).executing = true := by
          simpa using he
        obtain ⟨c', hs⟩ := (h.drop (index_of_serving hw)).executing j hu he
        cases hs
      have hle := Bool.toNat_le ((s.item i).inUse && (s.item i).executing)
      rw [show (s.pool.set i (s.item i).free).countP (fun it => it.inUse && it.executing) = 0 from hrest]
        at hcount
      omega

end Order

/-! ### What is left of an earlier life -/

/-- What has happened since state `s₁`, in which connection `c` was quiesced. -/
structure Since (s₁ : Disp κ) (c : κ) (s : Disp κ) : Prop where
  invoked : ∃ later, s.invoked = s₁.invoked ++ later ∧
    ∀ v ∈ later, v.ctx = c → s₁.accepted.length ≤ v.serial
  accepted : s₁.accepted.length ≤ s.accepted.length
  items : ∀ i, (s.item i).inUse = true → (s.item i).cancelled = false → (s.item i).ctx = some c →
    s₁.accepted.length ≤ (s.item i).serial

section Items

variable {s s' s₁ : Disp κ} {i : Nat} {c : κ}

/-- A step that enqueues and invokes nothing, and revives no item. -/
theorem Since.of_items (h : Since s₁ c s) (hinv : s'.invoked = s.invoked)
    (hacc : s'.accepted = s.accepted)
    (hitems : ∀ i, (s'.item i).inUse = true → (s'.item i).cancelled = false →
      (s'.item i).ctx = some c → (s.item i).inUse = true ∧ (s.item i).cancelled = false ∧
        (s.item i).ctx = some c ∧ (s.item i).serial = (s'.item i).serial) : Since s₁ c s' := by
  refine ⟨?_, hacc ▸ h.accepted, ?_⟩
  · rw [hinv]
    exact h.invoked
  · intro i hu hcan hctx
    obtain ⟨hu', hcan', hctx', hserial⟩ := hitems i hu hcan hctx
    exact hserial ▸ h.items i hu' hcan' hctx'

theorem Since.of_set {x : Item κ} (h : Since s₁ c s) (hpool : s'.pool = s.pool.set i x)
    (hlt : i < s.pool.length) (hinv : s'.invoked = s.invoked) (hacc : s'.accepted = s.accepted)
    (hx : x.inUse = true → (s.item i).inUse = true ∧ (s.item i).cancelled = x.cancelled ∧
      (s.item i).ctx = x.ctx ∧ (s.item i).serial = x.serial) : Since s₁ c s' := by
  have hitem := item_of_set hpool hlt
  refine h.of_items hinv hacc ?_
  intro j hu hcan hctx
  rw [hitem] at hu hcan hctx
  rw [hitem]
  by_cases hji : j = i
  · rw [if_pos hji] at hu hcan hctx ⊢
    obtain ⟨hu', hcan', hctx', hserial⟩ := hx hu
    rw [hji]
    exact ⟨hu', hcan'.trans hcan, hctx'.trans hctx, hserial⟩
  · rw [if_neg hji] at hu hcan hctx ⊢
    exact ⟨hu, hcan, hctx, rfl⟩

theorem Since.drop (h : Since s₁ c s) (hlt : i < s.pool.length) : Since s₁ c (s.drop i) :=
  h.of_set rfl hlt rfl rfl fun hu => by cases hu

theorem Since.of_same (h : Since s₁ c s) (hpool : s'.pool = s.pool) (hinv : s'.invoked = s.invoked)
    (hacc : s'.accepted = s.accepted) : Since s₁ c s' := by
  refine h.of_items hinv hacc ?_
  intro i hu hcan hctx
  have hitem : s'.item i = s.item i := by rw [Disp.item, hpool, Disp.item]
  rw [hitem] at hu hcan hctx ⊢
  exact ⟨hu, hcan, hctx, rfl⟩

end Items

variable [DecidableEq κ]

/-! ### The invariant is kept -/

section Moves

variable {spiram : Bool} {s s' : Disp κ} {e : Event κ}

theorem Ordered.move (h : Sound spiram s) (hm : Move s e s') : Ordered s' := by
  have hord := h.ordered
  cases hm with
  | refuse c a => exact hord
  | fill c a i _ _ hlt hfree =>
      refine Ordered.fill h.tidy hord rfl ?_ rfl rfl hlt hfree
      simp [Disp.todo, Disp.setCtl]
  | receive i rest hw hq =>
      refine hord.of_sublist rfl rfl ?_ fun _ _ => rfl
      simp [Disp.todo, hw, hq, Worker.todo]
  | dropCancelled i hw _ => exact Ordered.drop h.tidy hord (by rw [hw]; rfl)
  | dropOutdated i c hw _ =>
      exact Ordered.drop (s := s.setCtl c _)
        (h.tidy.of_same rfl rfl rfl rfl fun _ hf => hf)
        (hord.of_sublist rfl rfl (List.Sublist.refl _) fun _ _ => rfl) (by rw [Disp.setCtl, hw]; rfl)
  | claim i c hw hp _ =>
      obtain ⟨hu, -, -, -⟩ := Item.pendingOf_iff.mp hp
      refine hord.of_sublist rfl rfl ?_ ?_
      · simp [Disp.todo, hw, Worker.todo, Disp.setCtl]
      · intro j _
        rw [item_of_set rfl (lt_of_inUse hu)]
        split
        · rename_i hji
          rw [hji]
        · rfl
  | invoke i c hw => exact Ordered.invoke h.tidy hord hw
  | finish i c hw =>
      exact Ordered.drop (s := s.setCtl c _)
        (h.tidy.of_same rfl rfl rfl rfl fun _ hf => hf)
        (hord.of_sublist rfl rfl (List.Sublist.refl _) fun _ _ => rfl) (by rw [Disp.setCtl, hw]; rfl)
  | quiesced e c w _ _ _ =>
      refine hord.of_sublist rfl rfl (List.Sublist.refl _) fun j _ => ?_
      rw [item_of_cancel rfl, Item.cancel_serial]
  | wait e c w ws hq _ _ _ =>
      have hw := hq.sameHands
      refine hord.of_sublist rfl rfl ?_ fun j _ => ?_
      · simp [Disp.todo, hw.todo, Disp.setLife, Disp.takeSem, Disp.quiet, Disp.setCtl]
      · rw [item_of_cancel rfl, Item.cancel_serial]
  | wake e c w ws hwake _ _ _ =>
      have hw := hwake.sameHands
      refine hord.of_sublist rfl rfl ?_ fun _ _ => rfl
      simp [Disp.todo, hw.todo, Disp.setLife, Disp.takeSem, Disp.setCtl]
  | deleteSem c _ => exact hord.of_sublist rfl rfl (List.Sublist.refl _) fun _ _ => rfl
  | initClear c _ => exact hord.of_sublist rfl rfl (List.Sublist.refl _) fun _ _ => rfl
  | initReady c _ => exact hord.of_sublist rfl rfl (List.Sublist.refl _) fun _ _ => rfl

/-- **The invariant is kept.** -/
theorem Sound.move (h : Sound spiram s) (hm : Move s e s') : Sound spiram s' :=
  ⟨h.tidy.move hm, Counted.move h hm, Calm.move h hm, Ordered.move h hm⟩

theorem sound_of_reach {ok : Disp κ → Event κ → Prop}
    (h : Reach (IsInit spiram) (step spiram) ok s) : Sound spiram s := by
  refine h.invariant (fun _ => sound_init) ?_
  intro s e s' hs _ hstep
  exact hs.move (step_move hs hstep)

end Moves

/-! ### Quiescence -/

section Quiescence

variable {spiram : Bool} {s s' s₁ : Disp κ} {c : κ} {e : Event κ}

theorem Since.start (h : Sound spiram s) (hlife : s.life c = .down) : Since s c s := by
  obtain ⟨hp, he⟩ := h.counts_zero (.inr hlife)
  refine ⟨⟨[], (List.append_nil _).symm, fun v hv => absurd hv List.not_mem_nil⟩, Nat.le_refl _, ?_⟩
  intro i hu hcan hctx
  exfalso
  cases hexec : (s.item i).executing with
  | true =>
      have hpos := countP_pos (lt_of_inUse hu) (Item.executingOf_iff.mpr ⟨hu, hexec, hctx⟩)
      omega
  | false =>
      have hpos := countP_pos (lt_of_inUse hu) (Item.pendingOf_iff.mpr ⟨hu, hexec, hcan, hctx⟩)
      omega

theorem Since.quiet (h : Since s₁ c s) (c' : κ) : Since s₁ c (s.quiet c') := by
  refine h.of_items rfl rfl ?_
  intro i hu hcan hctx
  have hitem : (s.quiet c').item i = (s.item i).cancel c' := item_of_cancel rfl i
  rw [hitem] at hu hcan hctx ⊢
  rw [Item.cancel_inUse] at hu
  rw [Item.cancel_ctx] at hctx
  rw [Item.cancel_serial]
  refine ⟨hu, ?_, hctx, rfl⟩
  -- cancelling does not take a mark back
  unfold Item.cancel at hcan
  split at hcan
  · cases hcan
  · exact hcan

theorem Since.move (hs : Sound spiram s) (h : Since s₁ c s) (hm : Move s e s') : Since s₁ c s' := by
  cases hm with
  | refuse c₁ a => exact h
  | fill c₁ a i _ _ hlt _ =>
      refine ⟨h.invoked, ?_, ?_⟩
      · rw [List.length_append]
        exact Nat.le_add_right_of_le h.accepted
      · intro j hu hcan hctx
        rw [item_of_set rfl hlt] at hu hcan hctx ⊢
        split at hu
        · rw [if_pos ‹j = i›]
          exact h.accepted
        · rename_i hne
          rw [if_neg hne] at hcan hctx ⊢
          exact h.items j hu hcan hctx
  | receive i rest _ _ => exact h.of_same rfl rfl rfl
  | dropCancelled i hw _ => exact h.drop (hs.tidy.lt (by simp [Disp.held, hw, Worker.index]))
  | dropOutdated i c₁ hw _ =>
      have hset : Since s₁ c (s.setCtl c₁ (maybeSignalQuiesced
          { s.ctl c₁ with pendingCount := (s.ctl c₁).pendingCount - 1 })) := h.of_same rfl rfl rfl
      exact hset.drop (hs.tidy.lt (by simp [Disp.held, hw, Worker.index]))
  | claim i c₁ hw hp _ =>
      obtain ⟨hu, -, -, -⟩ := Item.pendingOf_iff.mp hp
      exact h.of_set rfl (lt_of_inUse hu) rfl rfl fun _ => ⟨hu, rfl, rfl, rfl⟩
  | invoke i c₁ hw =>
      obtain ⟨later, hlog, hlater⟩ := h.invoked
      have hserving : s.worker.serving = some (i, c₁) := by rw [hw]; rfl
      obtain ⟨-, hcan, hctx⟩ := hs.tidy.serving i c₁ hserving
      have hu := (hs.tidy.inUse i).mp (mem_held_of_serving hserving)
      refine ⟨⟨later ++ [⟨(s.item i).serial, c₁, (s.item i).action⟩], ?_, ?_⟩, h.accepted, h.items⟩
      · rw [Disp.invokeAction, hlog, List.append_assoc]
      · intro v hv hvc
        rw [List.mem_append, List.mem_singleton] at hv
        rcases hv with hv | rfl
        · exact hlater v hv hvc
        · exact h.items i hu hcan (hvc ▸ hctx)
  | finish i c₁ hw =>
      have hset : Since s₁ c (s.setCtl c₁ (maybeSignalQuiesced
          { s.ctl c₁ with executingCount := (s.ctl c₁).executingCount - 1 })) := h.of_same rfl rfl rfl
      exact hset.drop (hs.tidy.lt (by simp [Disp.held, hw, Worker.index]))
  | quiesced e c₁ w _ _ _ => exact (h.quiet c₁).of_same rfl rfl rfl
  | wait e c₁ w ws _ _ _ _ => exact (h.quiet c₁).of_same rfl rfl rfl
  | wake e c₁ w ws _ _ _ _ => exact h.of_same rfl rfl rfl
  | deleteSem c₁ _ => exact h.of_same rfl rfl rfl
  | initClear c₁ _ => exact h.of_same rfl rfl rfl
  | initReady c₁ _ => exact h.of_same rfl rfl rfl

/-- A connection is down when `ax25_conn_dispatcher_quiesce` returns. -/
theorem life_of_returns (hr : Returns s c e = true)
    (hstep : step spiram s e = some s') : s'.life c = .down := by
  cases e <;> try cases hr
  case quiesce c₁ =>
    simp only [Returns, Bool.and_eq_true, beq_iff_eq, Bool.not_eq_true'] at hr
    obtain ⟨rfl, hwait⟩ := hr
    simp only [step, hwait, Bool.false_eq_true, if_false] at hstep
    split_ifs at hstep
    cases hstep
    exact Function.update_self ..
  case wake c₁ =>
    obtain rfl : c₁ = c := by simpa [Returns] using hr
    simp only [step] at hstep
    split_ifs at hstep
    cases hstep
    exact Function.update_self ..
  case quiesceSelf c₁ =>
    simp only [Returns, Bool.and_eq_true, beq_iff_eq, Bool.not_eq_true'] at hr
    obtain ⟨rfl, hwait⟩ := hr
    cases hw : s.worker <;> simp only [step, hw, hwait, Bool.false_eq_true, if_false] at hstep <;>
      try cases hstep
    split_ifs at hstep
    cases hstep
    exact Function.update_self ..
  case wakeSelf =>
    cases hw : s.worker <;> simp only [step, hw] at hstep <;> try cases hstep
    rename_i i c₁ c₂
    obtain rfl : c₂ = c := by simpa [Returns, hw, Worker.awaits] using hr
    split_ifs at hstep
    cases hstep
    exact Function.update_self ..

/-- From the return of `ax25_conn_dispatcher_quiesce` on. -/
theorem since_of_reach {ok : Disp κ → Event κ → Prop} (h : Sound spiram s₁)
    (hlife : s₁.life c = .down) (hreach : Reach (· = s₁) (step spiram) ok s) : Since s₁ c s := by
  have hinv : Sound spiram s ∧ Since s₁ c s := by
    refine hreach.invariant (I := fun s => Sound spiram s ∧ Since s₁ c s) ?_ ?_
    · intro s hs
      rw [hs]
      exact ⟨h, Since.start h hlife⟩
    · intro s e s' hs _ hstep
      have hm := step_move hs.1 hstep
      exact ⟨hs.1.move hm, Since.move hs.1 hs.2 hm⟩
  exact hinv.2

end Quiescence

/-- **The books of the dispatcher.** -/
theorem dispatcher_bookkeeping (spiram : Bool) {s : Disp κ}
    (h : Reach (IsInit spiram) (step spiram) Always s) :
    (∀ c, s.life c ≠ .fresh →
      (s.ctl c).pendingCount.toNat = s.pool.countP (Item.pendingOf c) ∧
      (s.ctl c).executingCount.toNat = s.pool.countP (Item.executingOf c)) ∧
    s.pool.countP (fun it => it.inUse && it.executing) ≤ 1 ∧
    (∀ i it, s.pool[i]? = some it → s.held.count i = if it.inUse then 1 else 0) ∧
    s.suppressed = false ∧
    s.invoked.Pairwise (·.serial < ·.serial) ∧
    (∀ v ∈ s.invoked, s.accepted[v.serial]? = some (v.ctx, v.action)) ∧
    ∀ e c s₁ s₂, step spiram s e = some s₁ → Returns s c e = true →
      Reach (· = s₁) (step spiram) Always s₂ →
      ∃ later, s₂.invoked = s₁.invoked ++ later ∧
        ∀ v ∈ later, v.ctx = c → s₁.accepted.length ≤ v.serial := by
  have hs := sound_of_reach h
  refine ⟨fun c hf => ⟨hs.counted.pending c hf, hs.counted.executing c hf⟩, hs.tidy.executing_le_one,
    ?_, hs.counted.unsuppressed, hs.ordered.invoked, hs.ordered.genuine, ?_⟩
  · intro i it hit
    have hlt := (List.getElem?_eq_some_iff.mp hit).1
    obtain rfl : s.item i = it := Option.some.inj ((getElem?_pool hlt).symm.trans hit)
    rw [hs.tidy.nodup.count]
    exact if_congr (hs.tidy.inUse i) rfl rfl
  · intro e c s₁ s₂ hstep hr hreach
    have hs₁ := hs.move (step_move hs hstep)
    exact (since_of_reach hs₁ (life_of_returns hr hstep) hreach).invoked


/-- The dispatcher at the start, for connections that are numbered. -/
def sampleDisp : Disp Nat :=
  { pool := List.replicate (depth false) {}, queue := [], ctl := fun _ => {}, worker := .idle
    life := fun _ => .fresh, waiters := fun _ => 0, accepted := [], invoked := []
    suppressed := false }

theorem sampleDisp_isInit : IsInit false sampleDisp := ⟨_, rfl⟩

/-- Connection 0 enqueues two actions and is quiesced while the first one executes. -/
def quiesceRun : List (Event Nat) :=
  [.initClear 0, .initReady 0, .enqueue 0 .final, .enqueue 0 .disconnect, .receive, .takeUp, .invoke,
    .quiesce 0, .finish]

/-- It is initialised again, with the generation 1, while the second action is still
queued, and enqueues a third one. -/
def reinitRun : List (Event Nat) :=
  [.deleteSem 0, .initClear 0, .initReady 0, .enqueue 0 .linkReset, .receive, .takeUp, .receive,
    .takeUp, .invoke]

def quiescing : Disp Nat := (replay (step false) Always sampleDisp quiesceRun).getD sampleDisp

def quiesceReturned : Disp Nat := (step false quiescing (.wake 0)).getD sampleDisp

theorem dispatcher_bookkeeping_reinit :
    ∃ s₂ later, Reach (· = quiesceReturned) (step false) Always s₂ ∧
      (quiesceReturned.item 1).generation = (s₂.ctl 0).generation ∧
      later.map Invocation.serial = [2] ∧ s₂.invoked = quiesceReturned.invoked ++ later ∧
      quiesceReturned.invoked.map Invocation.serial = [0] := by
  have hreach : Reach (IsInit false) (step false) Always quiescing :=
    Reach.replay (.start sampleDisp_isInit)
      (show replay (step false) Always sampleDisp quiesceRun = some quiescing from rfl)
  have hstep : step false quiescing (.wake 0) = some quiesceReturned := rfl
  have hrun : replay (step false) Always quiesceReturned reinitRun = some _ := rfl
  have hstart : Reach (· = quiesceReturned) (step false) Always quiesceReturned := .start rfl
  have hlater := hstart.replay hrun
  obtain ⟨-, -, -, -, -, -, hquiet⟩ := dispatcher_bookkeeping false hreach
  obtain ⟨later, hlog, -⟩ := hquiet (.wake 0) 0 quiesceReturned _ hstep rfl hlater
  refine ⟨_, later, hlater, rfl, ?_, hlog, rfl⟩
  have hmap := congrArg (List.map Invocation.serial) hlog
  rw [List.map_append] at hmap
  exact List.append_cancel_left hmap.symm

end EspAx25.Dispatcher
