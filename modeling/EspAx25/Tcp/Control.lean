import EspAx25.Tcp.Slot

/-!
# EspAx25.Tcp.Control

What the phase of a slot says about its socket and its tx task.

`conn_send` gives `send_mutex` back after its look at `sock`, and goes on with an item of the
pool and the tx queue without it. A task may be suspended there while the client leaves and
another one gets the slot: `Undisturbed` is the condition that no such task spoils the pool
or the tx queue of the new client.
-/

namespace EspAx25.Tcp

variable {n : Nat} {τ : Type}

/-- A tx queue that the slot's tx task is going to send from. -/
def Phase.live : Phase n → Bool
  | .createTx | .createRx | .serving => true
  | _ => false

/-- `tcp_server_conn_reset_tx_item_pool` is running. -/
def Phase.rebuilding : Phase n → Bool
  | .drainTx | .drainFree | .seed _ => true
  | _ => false

/-- The accept task has set `running`, and nobody has cleared it. -/
def Phase.started : Phase n → Bool
  | .drainTx | .drainFree | .seed _ | .flush .accept | .flushed .accept _ | .createTx | .createRx
  | .serving => true
  | _ => false

/-- There may be a tx task. -/
def Phase.hasTx : Phase n → Bool
  | .createRx | .serving | .join _ => true
  | _ => false

/-- The client that was connected when the data was passed to `conn_send`. -/
def Sender.client : Sender n → Option Nat
  | .called client _ | .checked client _ | .taken client _ _ | .filled client _ _ => client
  | _ => Option.none

/-- **The condition.** What a sender enqueues for a connected client was passed to `conn_send`
while this client was connected; when the accept task begins to fill the free queue, all items
have been drained; and the tx task is not deleted with an item in its hands. -/
def Undisturbed (s : Slot n τ) : Op τ → Prop
  | .enqueue t =>
    s.phase.live = true → (s.sender t).client = none ∨ (s.sender t).client = s.sock
  | .drain => s.phase = .drainFree → s.free = [] → s.tx = [] ∧ ∀ t, (s.sender t).item = none
  | .kill => s.txTask.item = none
  | _ => True

instance [Fintype τ] (s : Slot n τ) (op : Op τ) : Decidable (Undisturbed s op) := by
  cases op <;> unfold Undisturbed <;> infer_instance

/-- What the phase says about `sock`, `running` and the tx task, and when that has the mutex. -/
structure Control (s : Slot n τ) : Prop where
  txTask : s.txTask ≠ .none → s.phase.hasTx = true
  joining : ∀ why, s.phase = .join why → s.running = false ∧ why ≠ .accept
  mutex : s.mutexTaken = s.txTask.locks
  started : s.phase.started = true → s.running = true
  opened : s.phase = .connected ∨ s.phase.started = true → s.sock ≠ none
  atWork : s.phase = .createRx ∨ s.phase = .serving → s.txTask.atWork = true

theorem control_init : Control (Slot.init : Slot n τ) :=
  ⟨fun h => absurd rfl h, fun _ h => (by cases h), rfl, fun h => (by cases h),
    fun h => (by rcases h with h | h <;> cases h), fun h => (by rcases h with h | h <;> cases h)⟩

theorem Control.none {s : Slot n τ} (h : Control s) (hphase : s.phase.hasTx = false) :
    s.txTask = .none := by
  by_contra htx
  rw [h.txTask htx] at hphase
  cases hphase

/-- A tx task that finds `running` set works for a connected client. -/
theorem Control.live {s : Slot n τ} (h : Control s) (htask : s.txTask ≠ .none)
    (hrun : s.running = true) : s.phase.live = true := by
  have htx := h.txTask htask
  cases hp : s.phase with
  | createRx | serving => rfl
  | join why =>
      rw [(h.joining why hp).1] at hrun
      cases hrun
  | _ =>
      rw [hp] at htx
      cases htx

/-- The tx task of a connected client looks after `running`. -/
theorem Control.atWork_of_running {s : Slot n τ} (h : Control s)
    (hphase : s.phase = .createRx ∨ s.phase = .serving) : s.running = true :=
  h.started (by rcases hphase with hp | hp <;> rw [hp] <;> rfl)

/-- A step of the tx task. -/
theorem Control.of_txTask {s s' : Slot n τ} (h : Control s) (hphase : s'.phase = s.phase)
    (hrun : s'.running = s.running) (hsock : s'.sock = s.sock) (htask : s.txTask ≠ .none)
    (hmutex : s'.mutexTaken = s'.txTask.locks)
    (hwork : s.running = true → s.txTask.atWork = true → s'.txTask.atWork = true) :
    Control s' := by
  refine ⟨fun _ => ?_, fun why => ?_, hmutex, ?_, ?_, fun hp => ?_⟩
  · rw [hphase]
    exact h.txTask htask
  · rw [hphase, hrun]
    exact h.joining why
  · rw [hphase, hrun]
    exact h.started
  · rw [hphase, hsock]
    exact h.opened
  · rw [hphase] at hp
    exact hwork (h.atWork_of_running hp) (h.atWork hp)

/-- A step of the accept task or the rx task before there is a tx task. -/
theorem Control.of_phase {s s' : Slot n τ} (h : Control s) (hbefore : s.phase.hasTx = false)
    (hafter : s'.phase.hasTx = false) (htask : s'.txTask = s.txTask)
    (hmutex : s'.mutexTaken = s.mutexTaken)
    (hstarted : s'.phase.started = true → s'.running = true)
    (hopened : s'.phase = .connected ∨ s'.phase.started = true → s'.sock ≠ Option.none) :
    Control s' := by
  refine ⟨fun hne => ?_, fun why hp => ?_, ?_, hstarted, hopened, fun hp => ?_⟩
  · rw [htask, h.none hbefore] at hne
    exact absurd rfl hne
  · rw [hp] at hafter
    cases hafter
  · rw [hmutex, htask, h.mutex]
  · rcases hp with hp | hp <;> rw [hp] at hafter <;> cases hafter

theorem control_step [DecidableEq τ] {s s' : Slot n τ} {op : Op τ} (h : Control s)
    (hok : Undisturbed s op) (hs : step s op = some s') : Control s' := by
  cases step_cases hs with
  | stay => exact h
  | walk | take | fill | enqueue | giveBack =>
      exact ⟨h.txTask, h.joining, h.mutex, h.started, h.opened, h.atWork⟩
  | @txWalk p _ htask hitem hlocks hdue hwork =>
      refine h.of_txTask rfl rfl rfl htask ?_ hwork
      refine (h.mutex.trans hlocks).trans ?_
      cases p with
      | sending => cases hdue
      | _ => rfl
  | txReceive htask =>
      exact h.of_txTask rfl rfl rfl (by simp [htask]) (by rw [h.mutex, htask]; rfl) fun _ _ => rfl
  | txCheck htask =>
      exact h.of_txTask rfl rfl rfl (by simp [htask]) (by rw [h.mutex, htask]; rfl) fun _ _ => rfl
  | txLock htask | txUnlock htask =>
      exact h.of_txTask rfl rfl rfl (by simp [htask]) rfl fun _ _ => rfl
  | txSend htask =>
      exact h.of_txTask rfl rfl rfl (by simp [htask]) (by rw [h.mutex, htask]; rfl) fun _ _ => rfl
  | txRecycle htask =>
      rcases htask with ⟨htask, hp⟩ | ⟨htask, hp⟩ <;> subst hp
      · exact h.of_txTask rfl rfl rfl (by simp [htask]) (h.mutex.trans (by rw [htask]; rfl))
          fun _ _ => rfl
      · exact h.of_txTask rfl rfl rfl (by simp [htask]) (h.mutex.trans (by rw [htask]; rfl))
          fun _ hwork => (by rw [htask] at hwork; cases hwork)
  | drainTx | drainFree =>
      exact ⟨h.txTask, h.joining, h.mutex, h.started, h.opened, h.atWork⟩
  | accept hp | disconnected hp =>
      exact h.of_phase (by rw [hp]; rfl) rfl rfl rfl (fun hst => (by cases hst))
        fun hst => (by rcases hst with hst | hst <;> cases hst)
  | setSock hp =>
      exact h.of_phase (by rw [hp]; rfl) rfl rfl rfl (fun hst => (by cases hst))
        fun _ hnone => by cases hnone
  | setRunning hp =>
      exact h.of_phase (by rw [hp]; rfl) rfl rfl rfl (fun _ => rfl) fun _ => h.opened (.inl hp)
  | drainedTx hp | drained hp | seeded _ hp | accepted hp =>
      have hst : s.phase.started = true := by rw [hp]; rfl
      exact h.of_phase (by rw [hp]; rfl) rfl rfl rfl (fun _ => h.started hst)
        fun _ => h.opened (.inr hst)
  | seed hlt hp =>
      have hst : s.phase.started = true := by rw [hp]; rfl
      refine h.of_phase (by rw [hp]; rfl) ?_ rfl rfl (fun _ => h.started hst)
        fun _ => h.opened (.inr hst)
      dsimp only
      split_ifs <;> rfl
  | @flush why _ _ hp | @flushed why _ hp =>
      refine h.of_phase (by rw [hp]; rfl) rfl rfl rfl (fun hst => h.started ?_) fun hst => h.opened ?_
      · rw [hp]
        cases why <;> exact hst
      · rw [hp]
        have hst := hst.resolve_left fun heq => (by cases heq)
        cases why <;> exact .inr hst
  | undone hp | noTx hp =>
      exact h.of_phase (by rw [hp]; rfl) rfl rfl rfl (fun hst => (by cases hst))
        fun hst => (by rcases hst with hst | hst <;> cases hst)
  | createTx hp =>
      have hst : s.phase.started = true := by rw [hp]; rfl
      refine ⟨fun _ => rfl, fun _ hjoin => (by cases hjoin), ?_, fun _ => h.started hst,
        fun _ => h.opened (.inr hst), fun _ => rfl⟩
      exact h.mutex.trans (by rw [h.none (by rw [hp]; rfl)]; rfl)
  | createRx hp =>
      have hst : s.phase.started = true := by rw [hp]; rfl
      exact ⟨fun _ => rfl, fun _ hjoin => (by cases hjoin), h.mutex, fun _ => h.started hst,
        fun _ => h.opened (.inr hst), fun _ => h.atWork (.inl hp)⟩
  | noRx | disconnect =>
      exact ⟨fun _ => rfl, fun _ hjoin => (by cases hjoin; exact ⟨rfl, fun heq => (by cases heq)⟩),
        h.mutex, fun hst => (by cases hst), fun hst => (by rcases hst with hst | hst <;> cases hst),
        fun hst => (by rcases hst with hst | hst <;> cases hst)⟩
  | @join why hp hnone =>
      have hwhy := (h.joining why hp).2
      refine ⟨fun htx => absurd hnone htx, fun _ hjoin => (by cases hjoin), h.mutex, fun hst => ?_,
        fun hst => ?_, fun hst => (by rcases hst with hst | hst <;> cases hst)⟩
      · cases why with
        | accept => exact absurd rfl hwhy
        | _ => cases hst
      · cases why with
        | accept => exact absurd rfl hwhy
        | _ => rcases hst with hst | hst <;> cases hst
  | @kill why hp =>
      have hwhy := (h.joining why hp).2
      have hitem : s.txTask.item = none := hok
      refine ⟨fun htx => absurd rfl htx, fun _ hjoin => (by cases hjoin), ?_, fun hst => ?_,
        fun hst => ?_, fun hst => (by rcases hst with hst | hst <;> cases hst)⟩
      · refine h.mutex.trans ?_
        cases htask : s.txTask with
        | sending =>
            rw [htask] at hitem
            cases hitem
        | _ => rfl
      · cases why with
        | accept => exact absurd rfl hwhy
        | _ => cases hst
      · cases why with
        | accept => exact absurd rfl hwhy
        | _ => rcases hst with hst | hst <;> cases hst

end EspAx25.Tcp
