import EspAx25.Tcp.Items

/-!
# EspAx25.Tcp.Bytes

Whose bytes go out on the socket of a slot.
-/

namespace EspAx25.Tcp

open Tally Transition

variable {n : Nat} {τ : Type}

theorem TxTask.item_of_due {p : TxTask n} {x : Fin n} (h : p.due = some x) : p.item = some x := by
  cases p with
  | received | locking | sending => exact h
  | _ => cases h

/-- What the item holds may be sent on the socket. -/
def Owed (s : Slot n τ) (x : Fin n) : Prop :=
  s.sock = none ∨ ∀ o ∈ (s.items x).content, o.client = none ∨ o.client = s.sock

/-- What a sender has filled in, which bytes may be on their way to the socket, and which have
been sent. -/
structure Marked (s : Slot n τ) : Prop where
  data : ∀ t, (s.sender t).data ≠ some []
  filled : ∀ t client data x, s.sender t = .filled client data x →
    (s.items x).len = data.length ∧ (s.items x).content = data.map (Octet.mk · client)
  queued : s.phase.live = true → ∀ x ∈ s.tx, Owed s x
  due : ∀ x, s.txTask.due = some x → (s.txTask = .received x → s.phase.live = true) → Owed s x
  sent : ∀ e ∈ s.sent, e.2.client = none ∨ e.2.client = some e.1

theorem marked_init : Marked (Slot.init : Slot n τ) :=
  ⟨fun _ h => (by cases h), fun _ _ _ _ h => (by cases h), fun h => (by cases h),
    fun _ h => (by cases h), fun _ h => (by cases h)⟩

theorem content_recycle (s : Slot n τ) (x y : Fin n) :
    ∀ o ∈ ((s.recycle x).items y).content, o ∈ (s.items y).content := by
  intro o ho
  unfold Slot.recycle at ho
  dsimp only at ho
  by_cases hy : y = x
  · rw [hy, Function.update_self] at ho
    cases ho
  · rwa [Function.update_of_ne hy] at ho

theorem recycle_items_of_ne (s : Slot n τ) {x y : Fin n} (h : y ≠ x) :
    (s.recycle x).items y = s.items y := Function.update_of_ne h _ _

/-- A step that fills no item and opens no socket. -/
theorem Marked.of_step {s s' : Slot n τ} (h : Marked s)
    (hsock : s'.sock = s.sock ∨ s'.sock = none)
    (hcontent : ∀ x, ∀ o ∈ (s'.items x).content, o ∈ (s.items x).content)
    (hdata : ∀ t, (s'.sender t).data ≠ some [])
    (hfilled : ∀ t client data x, s'.sender t = .filled client data x →
      s.sender t = .filled client data x ∧ s'.items x = s.items x)
    (hqueued : s'.phase.live = true → ∀ x ∈ s'.tx, Owed s x)
    (hdue : ∀ x, s'.txTask.due = some x → (s'.txTask = .received x → s'.phase.live = true) →
      Owed s x)
    (hsent : ∀ e ∈ s'.sent, e ∈ s.sent ∨ e.2.client = none ∨ e.2.client = some e.1) :
    Marked s' := by
  have howed : ∀ x, Owed s x → Owed s' x := by
    intro x hx
    rcases hsock with hsame | hnone
    · rcases hx with hnone | hx
      · exact .inl (hsame.trans hnone)
      · exact .inr fun o ho => hsame ▸ hx o (hcontent x o ho)
    · exact .inl hnone
  refine ⟨hdata, fun t client data x ht => ?_, fun hlive x hx => howed x (hqueued hlive x hx),
    fun x hx hlive => howed x (hdue x hx hlive), fun e he => ?_⟩
  · obtain ⟨hsender, hitem⟩ := hfilled t client data x ht
    rw [hitem]
    exact h.filled t client data x hsender
  · rcases hsent e he with hold | hnew
    · exact h.sent e hold
    · exact hnew

/-- A step that changes neither a sender nor an item. -/
theorem Marked.of_others {s s' : Slot n τ} (h : Marked s)
    (hsock : s'.sock = s.sock ∨ s'.sock = none) (hitems : s'.items = s.items)
    (hsender : s'.sender = s.sender)
    (hqueued : s'.phase.live = true → ∀ x ∈ s'.tx, Owed s x)
    (hdue : ∀ x, s'.txTask.due = some x → (s'.txTask = .received x → s'.phase.live = true) →
      Owed s x)
    (hsent : ∀ e ∈ s'.sent, e ∈ s.sent ∨ e.2.client = none ∨ e.2.client = some e.1) :
    Marked s' := by
  refine h.of_step hsock (fun x o ho => hitems ▸ ho) (fun t => hsender ▸ h.data t)
    (fun t client data x ht => ⟨hsender ▸ ht, congrFun hitems x⟩) hqueued hdue hsent

section Senders

variable [DecidableEq τ]

theorem goto_sender_self (s : Slot n τ) (t : τ) (p : Sender n) : (s.goto t p).sender t = p :=
  Function.update_self _ _ _

theorem goto_sender_of_ne (s : Slot n τ) {t u : τ} (h : u ≠ t) (p : Sender n) :
    (s.goto t p).sender u = s.sender u := Function.update_of_ne h _ _

/-- A task is somewhere else, and has filled nothing. -/
theorem filled_goto {s : Slot n τ} {t : τ} {p : Sender n}
    (hp : ∀ client data x, p ≠ .filled client data x) {u : τ} {client : Option Nat}
    {data : List Byte} {x : Fin n} (hu : (s.goto t p).sender u = .filled client data x) :
    u ≠ t ∧ s.sender u = .filled client data x := by
  by_cases htu : u = t
  · rw [htu, goto_sender_self] at hu
    exact absurd hu (hp client data x)
  · rw [goto_sender_of_ne s htu] at hu
    exact ⟨htu, hu⟩

theorem data_goto {s : Slot n τ} (h : ∀ t, (s.sender t).data ≠ some []) (t : τ) {p : Sender n}
    (hp : p.data ≠ some []) (u : τ) : ((s.goto t p).sender u).data ≠ some [] := by
  by_cases htu : u = t
  · rw [htu, goto_sender_self]
    exact hp
  · rw [goto_sender_of_ne s htu]
    exact h u

variable [Fintype τ]

theorem marked_fill {s : Slot n τ} {t : τ} {client : Option Nat} {data : List Byte} {x : Fin n}
    {rest : List Octet} (hb : Balanced s) (h : Marked s) (ht : s.sender t = .taken client data x) :
    Marked (({ s with items := Function.update s.items x {
      len := data.length
      data := data.map (Octet.mk · client) ++ rest } }).goto t (.filled client data x)) := by
  have hitem : (s.sender t).item = some x := by rw [ht]; rfl
  obtain ⟨htx, htask, -⟩ := hb.apart hitem
  generalize hs₁ : ({ s with items := Function.update s.items x {
    len := data.length, data := data.map (Octet.mk · client) ++ rest } } : Slot n τ) = s₁
  have hself : s₁.items x = ⟨data.length, data.map (Octet.mk · client) ++ rest⟩ := by
    rw [← hs₁]
    exact Function.update_self _ _ _
  have hother : ∀ y, y ≠ x → s₁.items y = s.items y := by
    intro y hy
    rw [← hs₁]
    exact Function.update_of_ne hy _ _
  have howed : ∀ y, y ≠ x → Owed s y → Owed (s₁.goto t (.filled client data x)) y := by
    intro y hy hy'
    unfold Owed Slot.goto
    dsimp only
    rw [hother y hy, ← hs₁]
    exact hy'
  refine ⟨data_goto (s := s₁) (fun u => ?_) t ?_, fun u c d y hu => ?_, fun hlive y hy => ?_,
    fun y hy hlive => ?_, ?_⟩
  · rw [← hs₁]
    exact h.data u
  · have hdata := h.data t
    rw [ht] at hdata
    exact hdata
  · by_cases htu : u = t
    · rw [htu, goto_sender_self] at hu
      cases hu
      refine ⟨congrArg TxItem.len hself, ?_⟩
      change (s₁.items x).content = _
      rw [hself, TxItem.content, List.take_left' (List.length_map _)]
    · rw [goto_sender_of_ne s₁ htu, ← hs₁] at hu
      have hne : y ≠ x := fun heq =>
        htu (hb.sender_unique hitem (by rw [show s.sender u = _ from hu, heq]; rfl))
      change (s₁.items y).len = _ ∧ (s₁.items y).content = _
      rw [hother y hne]
      exact h.filled u c d y hu
  · rw [← hs₁] at hlive hy
    exact howed y (fun heq => htx (heq ▸ hy)) (h.queued hlive y hy)
  · rw [← hs₁] at hy hlive
    refine howed y (fun heq => htask ?_) (h.due y hy hlive)
    rw [← heq]
    exact TxTask.item_of_due hy
  · rw [← hs₁]
    exact h.sent

theorem marked_step {s s' : Slot n τ} {op : Op τ} (hc : Control s) (hb : Balanced s)
    (h : Marked s) (hok : Undisturbed s op) (hs : step s op = some s') : Marked s' := by
  have hnone : s.phase.hasTx = false → ∀ x, s.txTask.due = some x → Owed s x := by
    intro hphase x hx
    rw [hc.none hphase] at hx
    cases hx
  -- nobody has filled the item that is recycled
  have hrecycle : ∀ {y : Fin n}, (∀ u, (s.sender u).item ≠ some y) →
      ∀ t client data x, s.sender t = .filled client data x →
        s.sender t = .filled client data x ∧ (s.recycle y).items x = s.items x := by
    intro y hy t client data x ht
    refine ⟨ht, recycle_items_of_ne s fun heq => hy t ?_⟩
    rw [ht, heq]
    rfl
  cases step_cases hs with
  | stay => exact h
  | @walk t p _ _ hp hdata =>
      exact h.of_step (.inl rfl) (fun _ _ ho => ho) (data_goto h.data t (hdata (h.data t)))
        (fun _ _ _ _ hu => ⟨(filled_goto hp hu).2, rfl⟩) h.queued h.due fun _ he => .inl he
  | @take t client data x rest ht =>
      have hdata := h.data t
      rw [ht] at hdata
      exact h.of_step (.inl rfl) (fun _ _ ho => ho)
        (data_goto (s := { s with free := rest }) h.data t hdata)
        (fun _ _ _ _ hu => ⟨(filled_goto (fun _ _ _ heq => (by cases heq)) hu).2, rfl⟩) h.queued
        h.due fun _ he => .inl he
  | fill ht => exact marked_fill hb h ht
  | @enqueue t client data x ht =>
      refine h.of_step (.inl rfl) (fun _ _ ho => ho)
        (data_goto (s := { s with tx := s.tx ++ [x] }) h.data t fun heq => (by cases heq))
        (fun _ _ _ _ hu => ⟨(filled_goto (fun _ _ _ heq => (by cases heq)) hu).2, rfl⟩)
        (fun hlive y hy => ?_) h.due fun _ he => .inl he
      rcases List.mem_append.mp hy with hold | hnew
      · exact h.queued hlive y hold
      · rw [List.mem_singleton] at hnew
        subst hnew
        have howner := hok hlive
        rw [ht] at howner
        refine .inr fun o ho => ?_
        rw [(h.filled t client data y ht).2] at ho
        obtain ⟨b, -, rfl⟩ := List.mem_map.mp ho
        exact howner
  | @giveBack t x ht =>
      have hitem : (s.sender t).item = some x := by rw [ht]; rfl
      refine h.of_step (.inl rfl) (content_recycle s x)
        (data_goto (s := s.recycle x) h.data t fun heq => (by cases heq))
        (fun u client data y hu => ?_) h.queued h.due fun _ he => .inl he
      obtain ⟨hne, hu⟩ := filled_goto (s := s.recycle x) (fun _ _ _ heq => (by cases heq)) hu
      have hu : s.sender u = .filled client data y := hu
      refine ⟨hu, recycle_items_of_ne s fun heq => hne (hb.sender_unique hitem ?_)⟩
      rw [hu, heq]
      rfl
  | txWalk _ _ _ _ hdue =>
      exact h.of_others (.inl rfl) rfl rfl h.queued (fun x hx => by rw [hdue] at hx; cases hx)
        fun _ he => .inl he
  | @txReceive x rest htask htx =>
      refine h.of_others (.inl rfl) rfl rfl
        (fun hlive y hy => h.queued hlive y (by rw [htx]; exact List.mem_cons_of_mem x hy))
        (fun y hy hlive => ?_) fun _ he => .inl he
      cases hy
      exact h.queued (hlive rfl) x (by rw [htx]; exact List.mem_cons_self)
  | @txCheck x htask hrun =>
      refine h.of_others (.inl rfl) rfl rfl h.queued (fun y hy _ => ?_) fun _ he => .inl he
      cases hy
      exact h.due x (by rw [htask]; rfl) fun _ => hc.live (by rw [htask]; simp) hrun
  | @txLock x htask =>
      refine h.of_others (.inl rfl) rfl rfl h.queued (fun y hy _ => ?_) fun _ he => .inl he
      cases hy
      exact h.due x (by rw [htask]; rfl) fun heq => by rw [htask] at heq; cases heq
  | @txSend x offset written c htask hsock =>
      have howed : Owed s x :=
        h.due x (by rw [htask]; rfl) fun heq => by rw [htask] at heq; cases heq
      refine h.of_others (.inl rfl) rfl rfl h.queued (fun y hy _ => ?_) fun e he => ?_
      · cases hy
        exact howed
      · rcases List.mem_append.mp he with hnew | hold
        · rw [List.mem_reverse, List.mem_map] at hnew
          obtain ⟨o, ho, rfl⟩ := hnew
          rcases howed with hnone | howed
          · rw [hsock] at hnone
            cases hnone
          · have hmem := howed o (List.mem_of_mem_drop (List.mem_of_mem_take ho))
            rw [hsock] at hmem
            exact .inr hmem
        · exact .inl hold
  | txUnlock =>
      exact h.of_others (.inl rfl) rfl rfl h.queued (fun _ hx => (by cases hx)) fun _ he => .inl he
  | @txRecycle x p htask =>
      have hitem : s.txTask.item = some x := by
        rcases htask with ⟨htask, -⟩ | ⟨htask, -⟩ <;> rw [htask] <;> rfl
      refine h.of_step (.inl rfl) (content_recycle s x) h.data
        (hrecycle fun u hu => (hb.apart hu).2.1 hitem) h.queued (fun _ hx => ?_)
        fun _ he => .inl he
      rcases htask with ⟨-, hp⟩ | ⟨-, hp⟩ <;> rw [hp] at hx <;> cases hx
  | setSock hp =>
      refine ⟨h.data, h.filled, fun hlive => (by cases hlive), fun x hx => ?_, h.sent⟩
      dsimp only at hx
      rw [hc.none (by rw [hp]; rfl)] at hx
      cases hx
  | accept hp | setRunning hp | drainedTx hp | drained hp | seeded _ hp | disconnected hp
  | flush hp =>
      exact h.of_others (.inl rfl) rfl rfl (fun hlive => (by cases hlive))
        (fun x hx _ => hnone (by rw [hp]; rfl) x hx) fun _ he => .inl he
  | drainTx hp htx =>
      exact h.of_others (.inl rfl) rfl rfl (fun hlive => by rw [hp] at hlive; cases hlive) h.due
        fun _ he => .inl he
  | drainFree => exact ⟨h.data, h.filled, h.queued, h.due, h.sent⟩
  | @seed i hlt hp =>
      have hzero : copies s ⟨i, hlt⟩ = 0 := (hb.seeded i hp _).trans (if_neg (Nat.lt_irrefl i))
      refine h.of_step (.inl rfl) (content_recycle s _) h.data (hrecycle fun u hu => ?_)
        (fun hlive => ?_) (fun x hx _ => hnone (by rw [hp]; rfl) x hx) fun _ he => .inl he
      · have hpos := copies_of_sender hu
        omega
      · dsimp only at hlive
        split_ifs at hlive <;> cases hlive
  | @flushed why x hp =>
      exact h.of_step (.inl rfl) (content_recycle s x) h.data
        (hrecycle fun u hu => (hb.apart hu).2.2 (by rw [hp]; rfl)) (fun hlive => (by cases hlive))
        (fun x hx _ => hnone (by rw [hp]; rfl) x hx) fun _ he => .inl he
  | accepted hp htx =>
      refine h.of_others (.inl rfl) rfl rfl (fun _ x hx => ?_)
        (fun x hx _ => hnone (by rw [hp]; rfl) x hx) fun _ he => .inl he
      dsimp only at hx
      rw [htx] at hx
      cases hx
  | undone hp | noTx hp =>
      exact h.of_others (.inr rfl) rfl rfl (fun hlive => (by cases hlive))
        (fun x hx _ => hnone (by rw [hp]; rfl) x hx) fun _ he => .inl he
  | createTx hp =>
      exact h.of_others (.inl rfl) rfl rfl (fun _ => h.queued (by rw [hp]; rfl))
        (fun _ hx => (by cases hx)) fun _ he => .inl he
  | createRx hp =>
      exact h.of_others (.inl rfl) rfl rfl (fun _ => h.queued (by rw [hp]; rfl))
        (fun x hx _ => h.due x hx fun _ => (by rw [hp]; rfl)) fun _ he => .inl he
  | noRx hp =>
      exact h.of_others (.inl rfl) rfl rfl (fun hlive => (by cases hlive))
        (fun x hx _ => h.due x hx fun _ => (by rw [hp]; rfl)) fun _ he => .inl he
  | disconnect hp =>
      exact h.of_others (.inr rfl) rfl rfl (fun hlive => (by cases hlive))
        (fun x hx _ => h.due x hx fun _ => (by rw [hp]; rfl)) fun _ he => .inl he
  | join hp htask =>
      refine h.of_others (.inl rfl) rfl rfl (fun hlive => (by cases hlive)) (fun x hx _ => ?_)
        fun _ he => .inl he
      dsimp only at hx
      rw [htask] at hx
      cases hx
  | kill =>
      exact h.of_others (.inl rfl) rfl rfl (fun hlive => (by cases hlive))
        (fun _ hx => (by cases hx)) fun _ he => .inl he

end Senders

end EspAx25.Tcp
