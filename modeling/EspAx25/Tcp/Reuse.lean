import EspAx25.Tcp.Bytes

/-!
# EspAx25.Tcp.Reuse

A slot that is used by one client after the other.

`slot_reuse_exact` says that the condition of `EspAx25.Tcp.Control` is exact: in a run that keeps
to it every item is in one place and every client gets only what was sent while it was
connected, and a step that does not can be continued to a state where this is violated.
-/

namespace EspAx25.Tcp

open Transition

variable {n : Nat} {τ : Type} [DecidableEq τ]

/-! ### What the tasks can do next -/

theorem one_step {s s' : Slot n τ} (op : Op τ) (hok : Undisturbed s op)
    (hs : step s op = some s') : Reach (· = s) step Undisturbed s' := by
  have hstart : Reach (· = s) step Undisturbed s := .start rfl
  exact hstart.next op hok hs

/-- The accept task fills the free queue. -/
theorem seeds {s : Slot n τ} (hphase : s.phase = .seed 0) (hfree : s.free = []) {k : Nat}
    (hk : k ≤ n) : ∃ s', Reach (· = s) step Undisturbed s' ∧ s'.phase = .seed k ∧
      s'.free.length = k ∧ (∀ x : Fin n, x.val < k → x ∈ s'.free) ∧ s'.tx = s.tx ∧
      s'.sender = s.sender := by
  induction k with
  | zero => exact ⟨s, .start rfl, hphase, by rw [hfree]; rfl, fun _ hx => (by omega), rfl, rfl⟩
  | succ k ih =>
      obtain ⟨s₁, hreach, hseed, hlen, hmem, htx, hsender⟩ := ih (by omega)
      have hlt : k < n := hk
      have hfull : s₁.free.length < n := by omega
      have hput : (s₁.recycle ⟨k, hlt⟩).free = s₁.free ++ [⟨k, hlt⟩] := if_pos hfull
      have hstep : step s₁ .seed = some { s₁.recycle ⟨k, hlt⟩ with phase := .seed (k + 1) } := by
        dsimp only [step]
        rw [hseed]
        dsimp only
        rw [dif_pos hlt, if_pos hfull]
      refine ⟨_, hreach.next .seed trivial hstep, rfl, ?_, fun x hx => ?_, htx, hsender⟩
      · dsimp only
        rw [hput, List.length_append, hlen]
        rfl
      · dsimp only
        rw [hput, List.mem_append, List.mem_singleton]
        by_cases hxk : x.val < k
        · exact .inl (hmem x hxk)
        · exact .inr (Fin.ext (by dsimp only; omega))

/-- A tx task that works for the client `c` and has `q` in its queue. -/
structure Working (c : Nat) (q : List (Fin n)) (x : Fin n) (item : TxItem) (s : Slot n τ) :
    Prop where
  running : s.running = true
  sock : s.sock = some c
  mutex : s.mutexTaken = s.txTask.locks
  tx : s.tx = q
  item : s.items x = item

theorem waiting_of_loop {c : Nat} {q : List (Fin n)} {x : Fin n} {item : TxItem} {s : Slot n τ}
    (h : Working c q x item s) (htask : s.txTask = .loop) :
    ∃ s', Reach (· = s) step Undisturbed s' ∧ Working c q x item s' ∧ s'.txTask = .waiting := by
  have hstep : step s .txLoop = some { s with txTask := .waiting } := by
    dsimp only [step]
    rw [htask]
    dsimp only
    rw [if_pos h.running]
  exact ⟨{ s with txTask := .waiting }, one_step .txLoop trivial hstep,
    ⟨h.running, h.sock, h.mutex.trans (by rw [htask]; rfl), h.tx, h.item⟩, rfl⟩

theorem waiting_of_sent {c : Nat} {q : List (Fin n)} {x y : Fin n} {item : TxItem} {s : Slot n τ}
    (h : Working c q x item s) (htask : s.txTask = .sent y) (hne : x ≠ y) :
    ∃ s', Reach (· = s) step Undisturbed s' ∧ Working c q x item s' ∧ s'.txTask = .waiting := by
  have hstep : step s .txRecycle = some { s.recycle y with txTask := .loop } := by
    dsimp only [step]
    rw [htask]
  obtain ⟨s', hreach, hs'⟩ := waiting_of_loop (s := { s.recycle y with txTask := .loop })
    ⟨h.running, h.sock, h.mutex.trans (by rw [htask]; rfl), h.tx,
      (recycle_items_of_ne s hne).trans h.item⟩ rfl
  exact ⟨s', (one_step .txRecycle trivial hstep).trans hreach, hs'⟩

theorem waiting_of_sending {c : Nat} {q : List (Fin n)} {x y : Fin n} {offset : Nat} {item : TxItem}
    {s : Slot n τ} (h : Working c q x item s) (htask : s.txTask = .sending y offset) (hne : x ≠ y) :
    ∃ s', Reach (· = s) step Undisturbed s' ∧ Working c q x item s' ∧ s'.txTask = .waiting := by
  have hstep : step s .txUnlock = some { s with mutexTaken := false, txTask := .sent y } := by
    dsimp only [step]
    rw [htask]
  obtain ⟨s', hreach, hs'⟩ := waiting_of_sent (s := { s with mutexTaken := false, txTask := .sent y })
    ⟨h.running, h.sock, rfl, h.tx, h.item⟩ rfl hne
  exact ⟨s', (one_step .txUnlock trivial hstep).trans hreach, hs'⟩

/-- The tx task has the item and goes on to send it. -/
theorem sending_of_locking {c : Nat} {q : List (Fin n)} {x y : Fin n} {item : TxItem} {s : Slot n τ}
    (h : Working c q x item s) (htask : s.txTask = .locking y) :
    ∃ s', Reach (· = s) step Undisturbed s' ∧ Working c q x item s' ∧ s'.txTask = .sending y 0 := by
  have hstep : step s .txLock = some { s with mutexTaken := true, txTask := .sending y 0 } := by
    dsimp only [step]
    rw [htask]
    dsimp only
    rw [h.mutex, htask, h.sock]
    rfl
  exact ⟨{ s with mutexTaken := true, txTask := .sending y 0 }, one_step .txLock trivial hstep,
    ⟨h.running, h.sock, rfl, h.tx, h.item⟩, rfl⟩

theorem sending_of_received {c : Nat} {q : List (Fin n)} {x y : Fin n} {item : TxItem} {s : Slot n τ}
    (h : Working c q x item s) (htask : s.txTask = .received y) :
    ∃ s', Reach (· = s) step Undisturbed s' ∧ Working c q x item s' ∧ s'.txTask = .sending y 0 := by
  have hstep : step s .txCheck = some { s with txTask := .locking y } := by
    dsimp only [step]
    rw [htask]
    dsimp only
    rw [if_pos h.running]
  obtain ⟨s', hreach, hs'⟩ := sending_of_locking (s := { s with txTask := .locking y })
    ⟨h.running, h.sock, h.mutex.trans (by rw [htask]; rfl), h.tx, h.item⟩ rfl
  exact ⟨s', (one_step .txCheck trivial hstep).trans hreach, hs'⟩

/-- The tx task comes to the end of what it has in its hands. -/
theorem waits {c : Nat} {q : List (Fin n)} {x : Fin n} {item : TxItem} {s : Slot n τ}
    (h : Working c q x item s) (hwork : s.txTask.atWork = true) (hne : s.txTask.item ≠ some x) :
    ∃ s', Reach (· = s) step Undisturbed s' ∧ Working c q x item s' ∧ s'.txTask = .waiting := by
  cases htask : s.txTask with
  | none | stopped | leaving =>
      rw [htask] at hwork
      cases hwork
  | loop => exact waiting_of_loop h htask
  | waiting => exact ⟨s, .start rfl, h, htask⟩
  | sent y =>
      rw [htask] at hne
      exact waiting_of_sent h htask fun heq => hne (congrArg some heq.symm)
  | sending y offset =>
      rw [htask] at hne
      exact waiting_of_sending h htask fun heq => hne (congrArg some heq.symm)
  | locking y =>
      rw [htask] at hne
      obtain ⟨s₁, hreach, hwork, hsending⟩ := sending_of_locking h htask
      obtain ⟨s₂, hreach', hs₂⟩ := waiting_of_sending hwork hsending
        fun heq => hne (congrArg some heq.symm)
      exact ⟨s₂, hreach.trans hreach', hs₂⟩
  | received y =>
      rw [htask] at hne
      obtain ⟨s₁, hreach, hwork, hsending⟩ := sending_of_received h htask
      obtain ⟨s₂, hreach', hs₂⟩ := waiting_of_sending hwork hsending
        fun heq => hne (congrArg some heq.symm)
      exact ⟨s₂, hreach.trans hreach', hs₂⟩

/-- The tx task works through its queue up to the item. -/
theorem receives {c : Nat} {q : List (Fin n)} {x : Fin n} {item : TxItem} {s : Slot n τ}
    (h : Working c (q ++ [x]) x item s) (htask : s.txTask = .waiting) (hx : x ∉ q) :
    ∃ s', Reach (· = s) step Undisturbed s' ∧ Working c [] x item s' ∧ s'.txTask = .received x := by
  induction q generalizing s with
  | nil =>
      have hstep : step s .txReceive = some { s with tx := [], txTask := .received x } := by
        dsimp only [step]
        rw [htask, h.tx]
        rfl
      exact ⟨{ s with tx := [], txTask := .received x }, one_step .txReceive trivial hstep,
        ⟨h.running, h.sock, h.mutex.trans (by rw [htask]; rfl), rfl, h.item⟩, rfl⟩
  | cons y q ih =>
      rw [List.mem_cons, not_or] at hx
      have hstep : step s .txReceive = some { s with tx := q ++ [x], txTask := .received y } := by
        dsimp only [step]
        rw [htask, h.tx]
        rfl
      have hworking : Working c (q ++ [x]) x item { s with tx := q ++ [x], txTask := .received y } :=
        ⟨h.running, h.sock, h.mutex.trans (by rw [htask]; rfl), rfl, h.item⟩
      obtain ⟨s₁, hreach₁, hs₁, hwaiting⟩ := waits hworking rfl
        fun heq => hx.1 (Option.some.inj heq).symm
      obtain ⟨s₂, hreach₂, hs₂⟩ := ih hs₁ hwaiting hx.2
      exact ⟨s₂, ((one_step .txReceive trivial hstep).trans hreach₁).trans hreach₂, hs₂⟩

/-- What the item holds goes out on the socket. -/
theorem sends {c : Nat} {q : List (Fin n)} {x : Fin n} {item : TxItem} {s : Slot n τ}
    (h : Working c (q ++ [x]) x item s) (hwork : s.txTask.atWork = true)
    (hne : s.txTask.item ≠ some x) (hx : x ∉ q) (hlen : 0 < item.len) :
    ∃ s', Reach (· = s) step Undisturbed s' ∧ ∀ o ∈ item.content, (c, o) ∈ s'.sent := by
  obtain ⟨s₁, hreach₁, hs₁, hwaiting⟩ := waits h hwork hne
  obtain ⟨s₂, hreach₂, hs₂, hreceived⟩ := receives hs₁ hwaiting hx
  obtain ⟨s₃, hreach₃, hs₃, hsending⟩ := sending_of_received hs₂ hreceived
  have hstep : step s₃ (.txSend item.len) = some { s₃ with
      txTask := .sending x (0 + item.len)
      sent := (((item.content.drop 0).take item.len).map fun o => (c, o)).reverse ++ s₃.sent } := by
    dsimp only [step]
    rw [hsending, hs₃.sock]
    dsimp only
    rw [hs₃.item, if_pos ⟨hlen, by omega⟩]
  refine ⟨_, ((hreach₁.trans hreach₂).trans hreach₃).next (.txSend item.len) trivial hstep,
    fun o ho => ?_⟩
  have hall : (item.content.drop 0).take item.len = item.content := by
    rw [List.drop_zero, TxItem.content, List.take_take, Nat.min_self]
  refine List.mem_append_left _ (List.mem_reverse.mpr (List.mem_map.mpr ⟨o, ?_, rfl⟩))
  rwa [hall]

/-! ### The condition is exact -/

variable [Fintype τ]

/-- Every item is in exactly one place, or in at most one while the pool is rebuilt; and no byte
has gone to another client than the one that was connected when it was passed to `conn_send`. -/
def Separate (s : Slot n τ) : Prop :=
  (∀ x, copies s x ≤ 1 ∧ (s.phase.rebuilding = false → copies s x = 1)) ∧
    ∀ e ∈ s.sent, ∀ k, e.2.client = some k → k = e.1

/-- What holds in every run that keeps to the condition. -/
structure SlotOk (s : Slot n τ) : Prop where
  control : Control s
  balanced : Balanced s
  marked : Marked s

omit [DecidableEq τ] in
theorem SlotOk.separate {s : Slot n τ} (h : SlotOk s) : Separate s := by
  refine ⟨fun x => ⟨h.balanced.atMost x, fun hphase => h.balanced.settled hphase x⟩,
    fun e he k hk => ?_⟩
  rcases h.marked.sent e he with hnone | hsame
  · rw [hk] at hnone
    cases hnone
  · rw [hk] at hsame
    exact Option.some.inj hsame

theorem slotOk_run {s : Slot n τ} (h : Reach (· = Slot.init) step Undisturbed s) : SlotOk s := by
  refine h.invariant (fun s hs => ?_) fun s op s' hs hok hstep => ?_
  · subst hs
    exact ⟨control_init, balanced_init, marked_init⟩
  · exact ⟨control_step hs.control hok hstep, balanced_step hs.control hs.balanced hok hstep,
      marked_step hs.control hs.balanced hs.marked hok hstep⟩

theorem put_back_twice {s : Slot n τ} (hphase : s.phase = .seed 0) (hfree : s.free = []) {x : Fin n}
    (hx : x ∈ s.tx ∨ ∃ t, (s.sender t).item = some x) :
    ∃ s', Reach (· = s) step Undisturbed s' ∧ 2 ≤ copies s' x := by
  obtain ⟨s', hreach, -, -, hmem, htx, hsender⟩ := seeds hphase hfree (k := x.val + 1) x.isLt
  have hin : 0 < s'.free.count x := List.count_pos_iff.mpr (hmem x (Nat.lt_succ_self _))
  refine ⟨s', hreach, ?_⟩
  rcases hx with hx | ⟨t, ht⟩
  · have htx : 0 < s'.tx.count x := List.count_pos_iff.mpr (htx ▸ hx)
    unfold copies
    omega
  · have hpos := copies_of_sender (s := s') (t := t) (x := x) (by rw [hsender, ht])
    omega

theorem kill_loses {s s' : Slot n τ} (h : SlotOk s) (hs : step s .kill = some s')
    (hno : ¬ Undisturbed s .kill) : ¬ Separate s' := by
  obtain ⟨x, hx⟩ := Option.ne_none_iff_exists'.mp hno
  dsimp only [step] at hs
  split at hs
  · next why hp =>
      split_ifs at hs
      cases hs
      have hone := h.balanced.settled (by rw [hp]; rfl) x
      have hmove := copies_txTask (s := s) (b := none) (p := .none) hx rfl x
      have hmove' := copies_phase (s := { s with txTask := .none }) (a := none) (b := none)
        (p := .flush why) (congrArg Phase.item hp) rfl x
      simp only [reduceCtorEq, if_false, if_true] at hmove hmove'
      intro hsep
      have hnone := (hsep.1 x).2 rfl
      omega
  · cases hs

theorem drain_twice {s s' : Slot n τ} (hs : step s .drain = some s')
    (hno : ¬ Undisturbed s .drain) :
    ∃ s'', Reach (· = s') step Undisturbed s'' ∧ ¬ Separate s'' := by
  simp only [Undisturbed, not_forall] at hno
  obtain ⟨hp, hfree, hno⟩ := hno
  dsimp only [step] at hs
  rw [hp, hfree] at hs
  cases hs
  have hx : ∃ x, x ∈ s.tx ∨ ∃ t, (s.sender t).item = some x := by
    rw [not_and_or, not_forall] at hno
    rcases hno with htx | ⟨t, ht⟩
    · obtain ⟨x, hx⟩ := List.exists_mem_of_ne_nil _ htx
      exact ⟨x, .inl hx⟩
    · obtain ⟨x, hx⟩ := Option.ne_none_iff_exists'.mp ht
      exact ⟨x, .inr ⟨t, hx⟩⟩
  obtain ⟨x, hx⟩ := hx
  obtain ⟨s'', hreach, htwo⟩ := put_back_twice (s := { s with phase := .seed 0, free := [] }) rfl rfl hx
  refine ⟨s'', hreach, fun hsep => ?_⟩
  have hone := (hsep.1 x).1
  omega

theorem enqueue_misleads {s s' : Slot n τ} {t : τ} (h : SlotOk s)
    (hs : step s (.enqueue t) = some s') (hno : ¬ Undisturbed s (.enqueue t)) :
    ∃ s'', Reach (· = s') step Undisturbed s'' ∧ ¬ Separate s'' := by
  simp only [Undisturbed, not_forall, not_or] at hno
  obtain ⟨hlive, hclient, hsock⟩ := hno
  have hstarted : s.phase.started = true := by
    cases hp : s.phase with
    | createTx | createRx | serving => rfl
    | _ =>
        rw [hp] at hlive
        cases hlive
  obtain ⟨c, hc⟩ := Option.ne_none_iff_exists'.mp (h.control.opened (.inr hstarted))
  have hrun := h.control.started hstarted
  dsimp only [step] at hs
  split at hs
  · next client data x ht =>
      rw [ht] at hclient hsock
      obtain ⟨k, rfl⟩ := Option.ne_none_iff_exists'.mp hclient
      have hitem : (s.sender t).item = some x := by rw [ht]; rfl
      obtain ⟨htx, htask, -⟩ := h.balanced.apart hitem
      have hroom : s.tx.length < n := by
        refine length_lt (fun y => ?_) (List.count_eq_zero.mpr htx)
        have hmost := h.balanced.atMost y
        unfold copies at hmost
        omega
      rw [if_pos hroom] at hs
      cases hs
      obtain ⟨hlen, hcontent⟩ := h.marked.filled t _ data x ht
      have hdata := h.marked.data t
      rw [ht] at hdata
      obtain ⟨b, hb⟩ := List.exists_mem_of_ne_nil data fun heq => hdata (congrArg some heq)
      have hpos : 0 < (s.items x).len := by
        rw [hlen]
        exact List.length_pos_of_mem hb
      have hoctet : (⟨b, some k⟩ : Octet) ∈ (s.items x).content := by
        rw [hcontent]
        exact List.mem_map.mpr ⟨b, hb, rfl⟩
      have hwrong : ∀ s'' : Slot n τ, (∀ o ∈ (s.items x).content, (c, o) ∈ s''.sent) →
          ¬ Separate s'' := by
        intro s'' hsent hsep
        have hk : k = c := hsep.2 _ (hsent _ hoctet) k rfl
        exact hsock (by rw [hk, hc]; rfl)
      by_cases hcreate : s.phase = .createTx
      · -- the tx task is still to be created
        have hstep : step ({ s with tx := s.tx ++ [x] }.goto t .outside) (.createTx true) =
            some { { s with tx := s.tx ++ [x] }.goto t .outside with
              txTask := .loop, phase := .createRx } := if_pos hcreate
        have hnone := h.control.none (by rw [hcreate]; rfl)
        have hworking : Working c (s.tx ++ [x]) x (s.items x)
            { { s with tx := s.tx ++ [x] }.goto t .outside with
              txTask := .loop, phase := .createRx } :=
          ⟨hrun, hc, h.control.mutex.trans (by rw [hnone]; rfl), rfl, rfl⟩
        obtain ⟨s'', hreach, hsent⟩ := sends hworking rfl (fun heq => (by cases heq)) htx hpos
        exact ⟨s'', (one_step (.createTx true) trivial hstep).trans hreach, hwrong s'' hsent⟩
      · have hphase : s.phase = .createRx ∨ s.phase = .serving := by
          cases hp : s.phase with
          | createTx => exact absurd hp hcreate
          | createRx => exact .inl rfl
          | serving => exact .inr rfl
          | _ =>
              rw [hp] at hlive
              cases hlive
        have hworking : Working c (s.tx ++ [x]) x (s.items x)
            ({ s with tx := s.tx ++ [x] }.goto t .outside) :=
          ⟨hrun, hc, h.control.mutex, rfl, rfl⟩
        obtain ⟨s'', hreach, hsent⟩ := sends hworking (h.control.atWork hphase) htask htx hpos
        exact ⟨s'', hreach, hwrong s'' hsent⟩
  · cases hs

/-- **The items of a slot are kept apart exactly in the runs that keep to the condition.** In
such a run, whatever tasks send, every item is in exactly one place (in at most one while the
accept task rebuilds the pool), and no byte that was passed to `conn_send` while a client was
connected goes to another client. A step that breaks the condition can be continued, by steps
that keep to it, to a state where this is not so. -/
theorem slot_reuse_exact :
    (∀ s : Slot n τ, Reach (· = Slot.init) step Undisturbed s → Separate s) ∧
    ∀ (s s' : Slot n τ) (op : Op τ), Reach (· = Slot.init) step Undisturbed s →
      step s op = some s' → ¬ Undisturbed s op →
        ∃ s'', Reach (· = s') step Undisturbed s'' ∧ ¬ Separate s'' := by
  refine ⟨fun s h => (slotOk_run h).separate, fun s s' op h hs hno => ?_⟩
  have hinv := slotOk_run h
  cases op with
  | enqueue t => exact enqueue_misleads hinv hs hno
  | drain => exact drain_twice hs hno
  | kill => exact ⟨s', .start rfl, kill_loses hinv hs hno⟩
  | _ => exact absurd trivial hno

/-! ### One item, one task -/

/-- The accept task takes the slot for a client; the free queue holds `free` items. -/
def connecting (free : Nat) : List (Op Unit) :=
  [.accept, .setSock, .setRunning, .drain] ++ List.replicate (free + 1) .drain ++
    [.seed, .seed, .flush, .createTx true, .createRx true]

/-- The task calls `conn_send`, finds the client connected and takes the item. -/
def taking : List (Op Unit) := [.call () [65], .check (), .take ()]

/-- The task fills the item and enqueues it, and the tx task sends it. -/
def sending : List (Op Unit) :=
  [.fill (), .enqueue (), .txLoop, .txReceive, .txCheck, .txLock, .txSend 1]

/-- The client leaves. -/
def leaving : List (Op Unit) := [.disconnect, .txLoop, .txExit, .join, .flush]

/-- The task is suspended with the item in its hands while the client leaves and the next one comes:
the item is in two places, and the byte goes to the wrong client. -/
theorem next_client_gets_byte :
    ∃ s : Slot 1 Unit, Reach (· = Slot.init) step Always s ∧ ¬ Separate s ∧
      copies s 0 = 2 ∧ (2, ⟨65, some 1⟩) ∈ s.sent := by
  have hrun : (replay step Always (Slot.init : Slot 1 Unit) (connecting 1 ++ taking ++ leaving ++
      connecting 0 ++ sending)).map (fun s => (copies s 0, s.sent)) =
        some (2, [(2, ⟨65, some 1⟩)]) := by decide +kernel
  obtain ⟨s, hs, hpair⟩ := Option.map_eq_some_iff.1 hrun
  obtain ⟨hcopies, hsent⟩ := Prod.mk.injEq _ _ _ _ |>.mp hpair
  refine ⟨s, Reach.replay (.start rfl) hs, fun hsep => ?_, hcopies, ?_⟩
  · have hone := (hsep.1 0).1
    omega
  · rw [hsent]
    exact List.mem_singleton_self _

/-- The item is sent while the client is connected, and the next one comes after that. -/
theorem slot_reuse_exact_two_clients :
    ∃ s : Slot 1 Unit, s.sent = [(1, ⟨65, some 1⟩)] ∧ s.phase = .serving ∧ Separate s := by
  have hrun : (replay step Undisturbed (Slot.init : Slot 1 Unit) (connecting 1 ++ taking ++
      sending ++ [.txUnlock, .txRecycle] ++ leaving ++ connecting 1)).map
        (fun s => (s.sent, s.phase)) = some ([(1, ⟨65, some 1⟩)], .serving) := by decide +kernel
  obtain ⟨s, hs, hpair⟩ := Option.map_eq_some_iff.1 hrun
  obtain ⟨hsent, hphase⟩ := Prod.mk.injEq _ _ _ _ |>.mp hpair
  exact ⟨s, hsent, hphase, slot_reuse_exact.1 s (Reach.replay (.start rfl) hs)⟩

end EspAx25.Tcp
