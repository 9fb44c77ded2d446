import EspAx25.Tcp.Control

/-!
# EspAx25.Tcp.Items

Where the transmit items of a slot are: as long as the condition holds, every item is in one
place.
-/

namespace EspAx25.Tcp

open Tally

variable {n : Nat} {τ : Type} [Fintype τ]

/-- In how many places an item is: in the free queue, in the tx queue, in the hands of a sender or
of the tx task, or received by a flush that is about to recycle it. -/
def copies (s : Slot n τ) (x : Fin n) : Nat :=
  s.free.count x + s.tx.count x + places (fun p : Sender n => p.item = some x) s.sender +
    (if s.txTask.item = some x then 1 else 0) + if s.phase.item = some x then 1 else 0

theorem copies_init (x : Fin n) : copies (Slot.init : Slot n τ) x = 1 := by
  have hnone : places (fun p : Sender n => p.item = some x) (fun _ : τ => Sender.outside) = 0 := by
    by_contra hpos
    obtain ⟨t, ht⟩ := (places_pos fun p : Sender n => p.item = some x).mp (Nat.pos_of_ne_zero hpos)
    cases ht
  have hfree : (List.finRange n).count x = 1 :=
    List.count_eq_one_of_mem (List.nodup_finRange n) (List.mem_finRange x)
  unfold copies Slot.init
  dsimp only
  rw [hnone, hfree]
  rfl

theorem copies_txTask {s : Slot n τ} {p : TxTask n} {a b : Option (Fin n)}
    (ha : s.txTask.item = a) (hb : p.item = b) (x : Fin n) :
    copies { s with txTask := p } x + (if a = some x then 1 else 0) =
      copies s x + if b = some x then 1 else 0 := by
  subst ha hb
  unfold copies
  dsimp only
  omega

theorem copies_phase {s : Slot n τ} {p : Phase n} {a b : Option (Fin n)}
    (ha : s.phase.item = a) (hb : p.item = b) (x : Fin n) :
    copies { s with phase := p } x + (if a = some x then 1 else 0) =
      copies s x + if b = some x then 1 else 0 := by
  subst ha hb
  unfold copies
  dsimp only
  omega

theorem copies_recycle (s : Slot n τ) (hroom : s.free.length < n) (x y : Fin n) :
    copies (s.recycle x) y = copies s y + if x = y then 1 else 0 := by
  unfold copies Slot.recycle
  dsimp only
  rw [if_pos hroom, List.count_append, List.count_singleton]
  simp only [beq_iff_eq]
  omega

theorem copies_tx_cons {s : Slot n τ} {x : Fin n} {rest : List (Fin n)} (h : s.tx = x :: rest)
    (y : Fin n) : copies { s with tx := rest } y + (if x = y then 1 else 0) = copies s y := by
  unfold copies
  rw [h, List.count_cons]
  simp only [beq_iff_eq]
  omega

theorem copies_free_cons {s : Slot n τ} {x : Fin n} {rest : List (Fin n)} (h : s.free = x :: rest)
    (y : Fin n) : copies { s with free := rest } y + (if x = y then 1 else 0) = copies s y := by
  unfold copies
  rw [h, List.count_cons]
  simp only [beq_iff_eq]
  omega

theorem copies_enqueue (s : Slot n τ) (x y : Fin n) :
    copies { s with tx := s.tx ++ [x] } y = copies s y + if x = y then 1 else 0 := by
  unfold copies
  dsimp only
  rw [List.count_append, List.count_singleton]
  simp only [beq_iff_eq]
  omega

theorem copies_goto [DecidableEq τ] {s : Slot n τ} {t : τ} {p : Sender n} {a b : Option (Fin n)}
    (ha : (s.sender t).item = a) (hb : p.item = b) (x : Fin n) :
    copies (s.goto t p) x + (if a = some x then 1 else 0) =
      copies s x + if b = some x then 1 else 0 := by
  subst ha hb
  have hmove := places_update (fun p : Sender n => p.item = some x) s.sender t p
  unfold copies Slot.goto
  dsimp only
  omega

/-- An item in a task's hands is counted. -/
theorem copies_of_sender {s : Slot n τ} {t : τ} {x : Fin n} (h : (s.sender t).item = some x) :
    s.free.count x + s.tx.count x + 1 + (if s.txTask.item = some x then 1 else 0) +
      (if s.phase.item = some x then 1 else 0) ≤ copies s x := by
  have hpos := (places_pos fun p : Sender n => p.item = some x).mpr ⟨t, h⟩
  unfold copies
  omega

/-- There is room in a queue for an item that is not in it. -/
theorem length_lt {q : List (Fin n)} (honce : ∀ y, q.count y ≤ 1) {x : Fin n}
    (hx : q.count x = 0) : q.length < n := by
  have hnodup : (x :: q).Nodup :=
    List.nodup_cons.mpr ⟨List.count_eq_zero.mp hx, List.nodup_iff_count_le_one.mpr honce⟩
  have hle := hnodup.length_le_card
  rw [List.length_cons, Fintype.card_fin] at hle
  exact hle

/-! ### The invariant -/

/-- Every item is in one place; while the free queue is rebuilt, those that are still to be
put back are in none. -/
structure Balanced (s : Slot n τ) : Prop where
  atMost : ∀ x, copies s x ≤ 1
  seeded : ∀ i, s.phase = .seed i → ∀ x : Fin n, copies s x = if x.val < i then 1 else 0
  settled : s.phase.rebuilding = false → ∀ x, copies s x = 1

theorem balanced_init : Balanced (Slot.init : Slot n τ) :=
  ⟨fun x => (copies_init x).le, fun _ h => (by cases h), fun _ => copies_init⟩

theorem Balanced.of_eq {s s' : Slot n τ} (h : Balanced s) (hphase : s'.phase = s.phase)
    (heq : ∀ x, copies s' x = copies s x) : Balanced s' :=
  ⟨fun x => (heq x).trans_le (h.atMost x), fun i hi x => (heq x).trans (h.seeded i (hphase ▸ hi) x),
    fun hsettled x => (heq x).trans (h.settled (hphase ▸ hsettled) x)⟩

theorem Balanced.of_one {s : Slot n τ} (hphase : s.phase.rebuilding = false)
    (hone : ∀ x, copies s x = 1) : Balanced s :=
  ⟨fun x => (hone x).le, fun i hi => (by rw [hi] at hphase; cases hphase), fun _ => hone⟩

theorem Balanced.of_le {s : Slot n τ} (hphase : s.phase = .drainTx ∨ s.phase = .drainFree)
    (hle : ∀ x, copies s x ≤ 1) : Balanced s := by
  refine ⟨hle, fun i hi => ?_, fun hsettled => ?_⟩
  · rcases hphase with hphase | hphase <;> rw [hi] at hphase <;> cases hphase
  · rcases hphase with hphase | hphase <;> rw [hphase] at hsettled <;> cases hsettled

/-- There is room in the free queue for an item that is not in it. -/
theorem Balanced.room {s : Slot n τ} (h : Balanced s) {x : Fin n} (hx : s.free.count x = 0) :
    s.free.length < n := by
  refine length_lt (fun y => ?_) hx
  have hmost := h.atMost y
  unfold copies at hmost
  omega

/-- There is room in the free queue for what is in some task's hands. -/
theorem Balanced.room_sender {s : Slot n τ} (h : Balanced s) {t : τ} {x : Fin n}
    (ht : (s.sender t).item = some x) : s.free.length < n := by
  have hle := copies_of_sender ht
  have hmost := h.atMost x
  exact h.room (x := x) (by omega)

theorem Balanced.room_txTask {s : Slot n τ} (h : Balanced s) {x : Fin n}
    (ht : s.txTask.item = some x) : s.free.length < n := by
  have hmost := h.atMost x
  unfold copies at hmost
  rw [if_pos ht] at hmost
  exact h.room (x := x) (by omega)

theorem Balanced.room_phase {s : Slot n τ} (h : Balanced s) {x : Fin n}
    (ht : s.phase.item = some x) : s.free.length < n := by
  have hmost := h.atMost x
  unfold copies at hmost
  rw [if_pos ht] at hmost
  exact h.room (x := x) (by omega)

/-- When all has been drained, no item is anywhere. -/
theorem copies_drained {s : Slot n τ} (htx : s.tx = []) (hfree : s.free = [])
    (hsender : ∀ t, (s.sender t).item = none) (htask : s.txTask = .none) (hphase : s.phase.item = none)
    (x : Fin n) : copies s x = 0 := by
  have hnone : places (fun p : Sender n => p.item = some x) s.sender = 0 := by
    by_contra hpos
    obtain ⟨t, ht⟩ := (places_pos fun p : Sender n => p.item = some x).mp (Nat.pos_of_ne_zero hpos)
    rw [hsender t] at ht
    cases ht
  unfold copies
  rw [htx, hfree, hnone, htask, hphase]
  rfl

/-- What a sender has is in no other task's hands. -/
theorem Balanced.apart {s : Slot n τ} (h : Balanced s) {t : τ} {x : Fin n}
    (ht : (s.sender t).item = some x) :
    x ∉ s.tx ∧ s.txTask.item ≠ some x ∧ s.phase.item ≠ some x := by
  have hcopies := copies_of_sender ht
  have hmost := h.atMost x
  refine ⟨fun hmem => ?_, fun htask => ?_, fun hphase => ?_⟩
  · have hpos : 0 < s.tx.count x := List.count_pos_iff.mpr hmem
    omega
  · rw [if_pos htask] at hcopies
    omega
  · rw [if_pos hphase] at hcopies
    omega

variable [DecidableEq τ]

theorem balanced_step {s s' : Slot n τ} {op : Op τ} (hc : Control s) (h : Balanced s)
    (hok : Undisturbed s op) (hs : step s op = some s') : Balanced s' := by
  -- a step of the accept task or the rx task that moves no item
  have hphase : ∀ {s' : Slot n τ}, s.phase.rebuilding = false → s.phase.item = none →
      s'.phase.rebuilding = false → s'.phase.item = none →
      (∀ x, copies s' x = copies { s with phase := s'.phase } x) → Balanced s' := by
    intro s' hbefore hitem hafter hitem' heq
    refine .of_one hafter fun x => ?_
    have hmove := copies_phase hitem hitem' x
    have hone := h.settled hbefore x
    rw [heq x]
    omega
  cases step_cases hs with
  | stay => exact h
  | @walk t p _ hitem =>
      refine h.of_eq rfl fun x => ?_
      have hmove := copies_goto (s := s) (t := t) rfl hitem x
      omega
  | @take t client data x rest ht hfree =>
      refine h.of_eq rfl fun y => ?_
      have hmove := copies_goto (s := { s with free := rest }) (t := t) (a := none)
        (b := some x) (p := .taken client data x) (by rw [ht]; rfl) rfl y
      have hcons := copies_free_cons hfree y
      simp only [reduceCtorEq, if_false, Option.some.injEq] at hmove
      omega
  | @fill t client data x rest ht =>
      refine h.of_eq rfl fun y => ?_
      have hmove := copies_goto (s := s) (t := t) (a := some x) (p := .filled client data x)
        (by rw [ht]; rfl) rfl y
      exact Nat.add_right_cancel hmove
  | @enqueue t client data x ht =>
      refine h.of_eq rfl fun y => ?_
      have hmove := copies_goto (s := { s with tx := s.tx ++ [x] }) (t := t) (a := some x)
        (b := none) (p := .outside) (by rw [ht]; rfl) rfl y
      have hput := copies_enqueue s x y
      simp only [reduceCtorEq, if_false, Option.some.injEq] at hmove
      omega
  | @giveBack t x ht =>
      have hitem : (s.sender t).item = some x := by rw [ht]; rfl
      refine h.of_eq rfl fun y => ?_
      have hmove := copies_goto (s := s.recycle x) (b := none) (p := .outside) hitem rfl y
      have hput := copies_recycle s (h.room_sender hitem) x y
      simp only [reduceCtorEq, if_false, Option.some.injEq] at hmove
      omega
  | @txWalk p _ htx hitem =>
      refine h.of_eq rfl fun x => ?_
      have hmove := copies_txTask (s := s) rfl hitem x
      omega
  | @txReceive x rest htask htx =>
      refine h.of_eq rfl fun y => ?_
      have hmove := copies_txTask (s := { s with tx := rest }) (a := none) (b := some x)
        (p := .received x) (by rw [htask]; rfl) rfl y
      have hcons := copies_tx_cons htx y
      simp only [reduceCtorEq, if_false, Option.some.injEq] at hmove
      omega
  | @txCheck x htask =>
      refine h.of_eq rfl fun y => ?_
      have hmove := copies_txTask (s := s) (p := .locking x) (by rw [htask]) rfl y
      exact Nat.add_right_cancel hmove
  | @txLock x htask =>
      refine h.of_eq rfl fun y => ?_
      have hmove := copies_txTask (s := s) (p := .sending x 0) (by rw [htask]) rfl y
      exact Nat.add_right_cancel hmove
  | @txSend x offset written c htask =>
      refine h.of_eq rfl fun y => ?_
      have hmove := copies_txTask (s := s) (p := .sending x (offset + written)) (by rw [htask])
        rfl y
      exact Nat.add_right_cancel hmove
  | @txUnlock x offset htask =>
      refine h.of_eq rfl fun y => ?_
      have hmove := copies_txTask (s := s) (p := .sent x) (by rw [htask]) rfl y
      exact Nat.add_right_cancel hmove
  | @txRecycle x p htask =>
      have hitem : s.txTask.item = some x := by
        rcases htask with ⟨htask, -⟩ | ⟨htask, -⟩ <;> rw [htask] <;> rfl
      have hleft : p.item = none := by rcases htask with ⟨-, hp⟩ | ⟨-, hp⟩ <;> rw [hp] <;> rfl
      refine h.of_eq rfl fun y => ?_
      have hmove := copies_txTask (s := s.recycle x) hitem hleft y
      have hput := copies_recycle s (h.room_txTask hitem) x y
      simp only [reduceCtorEq, if_false, Option.some.injEq] at hmove
      dsimp only at hmove ⊢
      omega
  | accept hp | setSock hp | accepted hp | undone hp | disconnected hp | noTx hp | createRx hp
  | noRx hp | disconnect hp | join hp =>
      exact hphase (by rw [hp]; rfl) (by rw [hp]; rfl) rfl rfl fun _ => rfl
  | setRunning hp =>
      refine .of_le (.inl rfl) fun x => ?_
      have hmove := copies_phase (s := s) (a := none) (p := .drainTx) (by rw [hp]; rfl) rfl x
      exact (Nat.add_right_cancel hmove).trans_le (h.atMost x)
  | @drainTx x rest hp htx =>
      refine .of_le (.inl hp) fun y => ?_
      have hcons := copies_tx_cons htx y
      have hmost := h.atMost y
      omega
  | drainedTx hp =>
      refine .of_le (.inr rfl) fun x => ?_
      have hmove := copies_phase (s := s) (a := none) (p := .drainFree) (by rw [hp]; rfl) rfl x
      exact (Nat.add_right_cancel hmove).trans_le (h.atMost x)
  | @drainFree x rest hp hfree =>
      refine .of_le (.inr hp) fun y => ?_
      have hcons := copies_free_cons hfree y
      have hmost := h.atMost y
      omega
  | drained hp hfree =>
      obtain ⟨htx, hsender⟩ := hok hp hfree
      have hnone := hc.none (by rw [hp]; rfl)
      have hzero : ∀ x, copies { s with phase := .seed 0 } x = 0 :=
        copies_drained htx hfree hsender hnone rfl
      refine ⟨fun x => (hzero x).trans_le (Nat.zero_le 1), fun i hi x => ?_, fun hsettled => ?_⟩
      · cases hi
        exact hzero x
      · cases hsettled
  | @seed i hlt hp =>
      have hbefore := h.seeded i hp
      have hzero : copies s ⟨i, hlt⟩ = 0 := (hbefore _).trans (if_neg (Nat.lt_irrefl i))
      have hroom : s.free.length < n := by
        refine h.room (x := ⟨i, hlt⟩) ?_
        unfold copies at hzero
        omega
      have hafter : ∀ y, copies { s.recycle ⟨i, hlt⟩ with phase := .seed (i + 1) } y =
          if y.val < i + 1 then 1 else 0 := by
        intro y
        have hmove := copies_phase (s := s.recycle ⟨i, hlt⟩) (a := none) (b := none)
          (p := .seed (i + 1)) (congrArg Phase.item hp) rfl y
        have hput := copies_recycle s hroom ⟨i, hlt⟩ y
        have hy := hbefore y
        simp only [reduceCtorEq, if_false, Fin.ext_iff] at hmove hput
        dsimp only at hmove ⊢
        split_ifs at * <;> omega
      rw [if_pos hroom]
      refine ⟨fun y => ?_, fun j hj y => ?_, fun hsettled => (by cases hsettled)⟩
      · rw [hafter y]
        split_ifs <;> omega
      · cases hj
        exact hafter y
  | @seeded i hle hp =>
      refine .of_one rfl fun x => ?_
      have hmove := copies_phase (s := s) (a := none) (p := .flush .accept) (by rw [hp]; rfl) rfl x
      rw [Nat.add_right_cancel hmove, h.seeded i hp x, if_pos (Nat.lt_of_lt_of_le x.isLt hle)]
  | @flush why x rest hp htx =>
      refine .of_one rfl fun y => ?_
      have hmove := copies_phase (s := { s with tx := rest }) (a := none) (b := some x)
        (p := .flushed why x) (by rw [hp]; rfl) rfl y
      have hcons := copies_tx_cons htx y
      have hone := h.settled (by rw [hp]; rfl) y
      simp only [reduceCtorEq, if_false, Option.some.injEq] at hmove
      omega
  | @flushed why x hp =>
      have hitem : s.phase.item = some x := by rw [hp]; rfl
      refine .of_one rfl fun y => ?_
      have hmove := copies_phase (s := s.recycle x) (b := none) (p := .flush why) hitem rfl y
      have hput := copies_recycle s (h.room_phase hitem) x y
      have hone := h.settled (by rw [hp]; rfl) y
      simp only [reduceCtorEq, if_false, Option.some.injEq] at hmove
      dsimp only at hmove ⊢
      omega
  | createTx hp =>
      have hnone := hc.none (by rw [hp]; rfl)
      refine hphase (by rw [hp]; rfl) (by rw [hp]; rfl) rfl rfl fun x => ?_
      unfold copies
      rw [hnone]
      rfl
  | kill hp =>
      have hnone : s.txTask.item = none := hok
      refine hphase (by rw [hp]; rfl) (by rw [hp]; rfl) rfl rfl fun x => ?_
      unfold copies
      rw [hnone]
      rfl

/-- No two senders have one item. -/
theorem Balanced.sender_unique {s : Slot n τ} (h : Balanced s) {t u : τ} {x : Fin n}
    (ht : (s.sender t).item = some x) (hu : (s.sender u).item = some x) : u = t := by
  by_contra hne
  have hmove := copies_goto (s := s) (b := none) (p := .outside) ht rfl x
  have hleft := copies_of_sender (s := s.goto t .outside) (t := u) (x := x) (by
    unfold Slot.goto
    dsimp only
    rw [Function.update_of_ne hne]
    exact hu)
  have hmost := h.atMost x
  simp only [reduceCtorEq, if_false, if_true] at hmove
  omega

end EspAx25.Tcp
