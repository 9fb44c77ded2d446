import EspAx25.Agwpe.Wire
import EspAx25.Kiss
import EspAx25.Tally
import EspAx25.Transition

/-!
# EspAx25.Tcp.Slot

One connection slot of the TCP server (`ax25_phy_tcp_server.c`), while the server runs: the
tasks that call `conn_send`, the slot's tx task, and the task that the slot belongs to. This
is the accept task from `in_use = true` until it has created the rx task, and the rx task
until it sets `in_use` to false; `Phase` says how far they are.

A step ends where another task can see a difference: at every operation on a queue, at the
reads of `sock` and `running`, and where `send_mutex` is given. Only the tx task keeps the
mutex over several steps.

Clients are numbered in the order in which they are accepted, and a socket is the number of
its client. Every byte that is passed to `conn_send` is marked with the client whose socket the
slot had at that time.
-/

namespace EspAx25.Tcp

open Transition

/-- `AX25_PHY_TCP_SERVER_TX_ITEM_CAPACITY`. -/
def txItemCapacity : Nat := max kissMaxEncodedSize (agwpeHeaderSize + agwpeMaxDataLen)

/-- A byte passed to `conn_send` while `client` was connected. -/
structure Octet where
  value : Byte
  client : Option Nat
  deriving DecidableEq

/-- `ax25_phy_tcp_server_tx_item_t`. -/
structure TxItem where
  len : Nat := 0
  data : List Octet := []

/-- What is to be sent. -/
def TxItem.content (item : TxItem) : List Octet := item.data.take item.len

/-- Where a task is in `ax25_phy_tcp_server_conn_send`: it has been called with `data` while
`client` was connected. -/
inductive Sender (n : Nat)
  | outside
  | called (client : Option Nat) (data : List Byte)
  | checked (client : Option Nat) (data : List Byte)
  | taken (client : Option Nat) (data : List Byte) (item : Fin n)
  | filled (client : Option Nat) (data : List Byte) (item : Fin n)
  | refused (item : Fin n)
  deriving DecidableEq

/-- Where `tcp_server_conn_tx_task` is; `none` once `tcp_tx_task_handle` is NULL. -/
inductive TxTask (n : Nat)
  | none
  | loop
  | waiting
  | received (item : Fin n)
  | locking (item : Fin n)
  | sending (item : Fin n) (offset : Nat)
  | sent (item : Fin n)
  | stopped (item : Fin n)
  | leaving
  deriving DecidableEq

/-- Whose `flush_tx_queue` it is: of the accept task for a new client, of the accept task when
it could not create the rx task, of the rx task. -/
inductive Flush
  | accept
  | undo
  | disconnect
  deriving DecidableEq

/-- How far the accept task or the rx task is with the slot. -/
inductive Phase (n : Nat)
  | unused
  | found
  | connected
  | drainTx
  | drainFree
  | seed (i : Nat)
  | flush (why : Flush)
  | flushed (why : Flush) (item : Fin n)
  | createTx
  | createRx
  | serving
  | join (why : Flush)
  deriving DecidableEq

/-- The item in the task's hands. -/
def Sender.item {n : Nat} : Sender n → Option (Fin n)
  | .taken _ _ x | .filled _ _ x | .refused x => some x
  | _ => Option.none

/-- The data that the task still has to fill in or to enqueue. -/
def Sender.data {n : Nat} : Sender n → Option (List Byte)
  | .called _ data | .checked _ data | .taken _ data _ | .filled _ data _ => some data
  | _ => Option.none

/-- The item in the task's hands. -/
def TxTask.item {n : Nat} : TxTask n → Option (Fin n)
  | .received x | .locking x | .sending x _ | .sent x | .stopped x => some x
  | _ => Option.none

/-- The item that the task may still send. -/
def TxTask.due {n : Nat} : TxTask n → Option (Fin n)
  | .received x | .locking x | .sending x _ => some x
  | _ => Option.none

/-- The task has `send_mutex`. -/
def TxTask.locks {n : Nat} : TxTask n → Bool
  | .sending _ _ => true
  | _ => false

/-- The task goes on with the next item. -/
def TxTask.atWork {n : Nat} : TxTask n → Bool
  | .none | .stopped _ | .leaving => false
  | _ => true

/-- The item that a flush has received and not recycled yet. -/
def Phase.item {n : Nat} : Phase n → Option (Fin n)
  | .flushed _ x => some x
  | _ => Option.none

/-- `ax25_phy_tcp_server_conn_t` with `n = tx_queue_depth` items, the tasks, and what was
written on which socket, the newest first. -/
structure Slot (n : Nat) (τ : Type) where
  sock : Option Nat := none
  running : Bool := false
  mutexTaken : Bool := false
  free : List (Fin n)
  tx : List (Fin n) := []
  items : Fin n → TxItem := fun _ => {}
  sender : τ → Sender n := fun _ => .outside
  txTask : TxTask n := .none
  phase : Phase n := .unused
  clients : Nat := 0
  sent : List (Nat × Octet) := []

variable {n : Nat} {τ : Type}

/-- The slot after `ax25_phy_tcp_server_init`. -/
def Slot.init : Slot n τ := { free := List.finRange n }

/-- `tcp_server_conn_recycle_tx_item`: the item is lost if the free queue is full. -/
def Slot.recycle (s : Slot n τ) (x : Fin n) : Slot n τ :=
  { s with
    items := Function.update s.items x { s.items x with len := 0 }
    free := if s.free.length < n then s.free ++ [x] else s.free }

/-- Steps of the sending tasks, of the tx task, and of the accept task and the rx task. -/
inductive Op (τ : Type)
  | call (t : τ) (data : List Byte)
  | check (t : τ)
  | take (t : τ)
  | fill (t : τ)
  | enqueue (t : τ)
  | giveBack (t : τ)
  | txLoop
  | txReceive
  | txCheck
  | txLock
  | txSend (written : Nat)
  | txUnlock
  | txRecycle
  | txExit
  | accept
  | setSock
  | setRunning
  | drain
  | seed
  | flush
  | createTx (ok : Bool)
  | createRx (ok : Bool)
  | disconnect
  | join
  | kill

/-- A sending task goes on. -/
def Slot.goto [DecidableEq τ] (s : Slot n τ) (t : τ) (p : Sender n) : Slot n τ :=
  { s with sender := Function.update s.sender t p }

/-- One step. -/
def step [DecidableEq τ] (s : Slot n τ) : Op τ → Option (Slot n τ)
  | .call t data =>
    if s.sender t = .outside then
      if data = [] ∨ data.length > txItemCapacity then some s
      else some (s.goto t (.called s.sock data))
    else none
  | .check t =>
    match s.sender t with
    | .called client data =>
      if s.mutexTaken then none
      else if s.sock = none ∨ s.running = false then some (s.goto t .outside)
      else some (s.goto t (.checked client data))
    | _ => none
  | .take t =>
    match s.sender t with
    | .checked client data =>
      match s.free with
      | [] => some (s.goto t .outside)
      | x :: rest => some ({ s with free := rest }.goto t (.taken client data x))
    | _ => none
  | .fill t =>
    match s.sender t with
    | .taken client data x => some (({ s with items := Function.update s.items x {
        len := data.length
        data := data.map (Octet.mk · client) ++ (s.items x).data.drop data.length } }).goto t
          (.filled client data x))
    | _ => none
  | .enqueue t =>
    match s.sender t with
    | .filled _ _ x =>
      if s.tx.length < n then some ({ s with tx := s.tx ++ [x] }.goto t .outside)
      else some (s.goto t (.refused x))
    | _ => none
  | .giveBack t =>
    match s.sender t with
    | .refused x => some ((s.recycle x).goto t .outside)
    | _ => none
  | .txLoop =>
    match s.txTask with
    | .loop => some { s with txTask := if s.running then .waiting else .leaving }
    | _ => none
  | .txReceive =>
    match s.txTask with
    | .waiting =>
      match s.tx with
      | [] => some { s with txTask := .loop }
      | x :: rest => some { s with tx := rest, txTask := .received x }
    | _ => none
  | .txCheck =>
    match s.txTask with
    | .received x => some { s with txTask := if s.running then .locking x else .stopped x }
    | _ => none
  | .txLock =>
    match s.txTask with
    | .locking x =>
      if s.mutexTaken then none
      else if s.sock = none then some { s with txTask := .sent x }
      else some { s with mutexTaken := true, txTask := .sending x 0 }
    | _ => none
  -- `running` was true when the loop looked at it, and may have been cleared since
  | .txSend written =>
    match s.txTask, s.sock with
    | .sending x offset, some c =>
      if 0 < written ∧ offset + written ≤ (s.items x).len then
        some { s with
          txTask := .sending x (offset + written)
          sent := ((((s.items x).content.drop offset).take written).map fun o => (c, o)).reverse ++
            s.sent }
      else none
    | _, _ => none
  -- the loop ends when all is sent, when `running` is false, or at an error
  | .txUnlock =>
    match s.txTask with
    | .sending x _ => some { s with mutexTaken := false, txTask := .sent x }
    | _ => none
  | .txRecycle =>
    match s.txTask with
    | .sent x => some { s.recycle x with txTask := .loop }
    | .stopped x => some { s.recycle x with txTask := .leaving }
    | _ => none
  | .txExit => if s.txTask = .leaving then some { s with txTask := .none } else none
  | .accept =>
    if s.phase = .unused then some { s with phase := .found, clients := s.clients + 1 } else none
  | .setSock =>
    if s.phase = .found then some { s with phase := .connected, sock := some s.clients } else none
  | .setRunning =>
    if s.phase = .connected then some { s with phase := .drainTx, running := true } else none
  -- `tcp_server_conn_reset_tx_item_pool`: both queues are emptied, then the free queue is filled
  | .drain =>
    match s.phase with
    | .drainTx =>
      match s.tx with
      | [] => some { s with phase := .drainFree }
      | _ :: rest => some { s with tx := rest }
    | .drainFree =>
      match s.free with
      | [] => some { s with phase := .seed 0 }
      | _ :: rest => some { s with free := rest }
    | _ => none
  | .seed =>
    match s.phase with
    | .seed i =>
      if h : i < n then
        some { s.recycle ⟨i, h⟩ with
          phase := if s.free.length < n then .seed (i + 1) else .flush .accept }
      else some { s with phase := .flush .accept }
    | _ => none
  | .flush =>
    match s.phase with
    | .flush why =>
      match s.tx, why with
      | x :: rest, _ => some { s with tx := rest, phase := .flushed why x }
      | [], .accept => some { s with phase := .createTx }
      | [], .undo => some { s with sock := none, phase := .unused }
      | [], .disconnect => some { s with phase := .unused }
    | .flushed why x => some { s.recycle x with phase := .flush why }
    | _ => none
  | .createTx ok =>
    if s.phase = .createTx then
      if ok then some { s with txTask := .loop, phase := .createRx }
      else some { s with sock := none, running := false, phase := .unused }
    else none
  | .createRx ok =>
    if s.phase = .createRx then
      if ok then some { s with phase := .serving }
      else some { s with running := false, phase := .join .undo }
    else none
  | .disconnect =>
    if s.phase = .serving ∧ s.mutexTaken = false then
      some { s with sock := none, running := false, phase := .join .disconnect }
    else none
  | .join =>
    match s.phase with
    | .join why => if s.txTask = .none then some { s with phase := .flush why } else none
    | _ => none
  -- the tx task has not come to its end in time and is deleted
  | .kill =>
    match s.phase with
    | .join why =>
      if s.txTask = .none then none else some { s with txTask := .none, phase := .flush why }
    | _ => none

/-! ### What a step can do -/

/-- What a step can do. -/
inductive SlotStep [DecidableEq τ] (s : Slot n τ) : Op τ → Slot n τ → Prop
  | stay (op : Op τ) : SlotStep s op s
  | walk {t : τ} {p : Sender n} (op : Op τ) : p.item = (s.sender t).item →
      (∀ client data x, p ≠ .filled client data x) →
      ((s.sender t).data ≠ some [] → p.data ≠ some []) → SlotStep s op (s.goto t p)
  | take {t : τ} {client : Option Nat} {data : List Byte} {x : Fin n} {rest : List (Fin n)} :
      s.sender t = .checked client data → s.free = x :: rest →
      SlotStep s (.take t) ({ s with free := rest }.goto t (.taken client data x))
  | fill {t : τ} {client : Option Nat} {data : List Byte} {x : Fin n} {rest : List Octet} :
      s.sender t = .taken client data x →
      SlotStep s (.fill t) (({ s with items := Function.update s.items x {
        len := data.length
        data := data.map (Octet.mk · client) ++ rest } }).goto t (.filled client data x))
  | enqueue {t : τ} {client : Option Nat} {data : List Byte} {x : Fin n} :
      s.sender t = .filled client data x →
      SlotStep s (.enqueue t) ({ s with tx := s.tx ++ [x] }.goto t .outside)
  | giveBack {t : τ} {x : Fin n} : s.sender t = .refused x →
      SlotStep s (.giveBack t) ((s.recycle x).goto t .outside)
  | txWalk {p : TxTask n} (op : Op τ) : s.txTask ≠ .none → p.item = s.txTask.item →
      s.txTask.locks = false → p.due = none →
      (s.running = true → s.txTask.atWork = true → p.atWork = true) →
      SlotStep s op { s with txTask := p }
  | txReceive {x : Fin n} {rest : List (Fin n)} : s.txTask = .waiting → s.tx = x :: rest →
      SlotStep s .txReceive { s with tx := rest, txTask := .received x }
  | txCheck {x : Fin n} : s.txTask = .received x → s.running = true →
      SlotStep s .txCheck { s with txTask := .locking x }
  | txLock {x : Fin n} : s.txTask = .locking x → s.sock ≠ none →
      SlotStep s .txLock { s with mutexTaken := true, txTask := .sending x 0 }
  | txSend {x : Fin n} {offset written c : Nat} : s.txTask = .sending x offset →
      s.sock = some c → SlotStep s (.txSend written) { s with
        txTask := .sending x (offset + written)
        sent := ((((s.items x).content.drop offset).take written).map fun o => (c, o)).reverse ++
          s.sent }
  | txUnlock {x : Fin n} {offset : Nat} : s.txTask = .sending x offset →
      SlotStep s .txUnlock { s with mutexTaken := false, txTask := .sent x }
  | txRecycle {x : Fin n} {p : TxTask n} : s.txTask = .sent x ∧ p = .loop ∨
      s.txTask = .stopped x ∧ p = .leaving → SlotStep s .txRecycle { s.recycle x with txTask := p }
  | accept : s.phase = .unused →
      SlotStep s .accept { s with phase := .found, clients := s.clients + 1 }
  | setSock : s.phase = .found →
      SlotStep s .setSock { s with phase := .connected, sock := some s.clients }
  | setRunning : s.phase = .connected →
      SlotStep s .setRunning { s with phase := .drainTx, running := true }
  | drainTx {x : Fin n} {rest : List (Fin n)} : s.phase = .drainTx → s.tx = x :: rest →
      SlotStep s .drain { s with tx := rest }
  | drainedTx : s.phase = .drainTx → SlotStep s .drain { s with phase := .drainFree }
  | drainFree {x : Fin n} {rest : List (Fin n)} : s.phase = .drainFree → s.free = x :: rest →
      SlotStep s .drain { s with free := rest }
  | drained : s.phase = .drainFree → s.free = [] → SlotStep s .drain { s with phase := .seed 0 }
  | seed {i : Nat} (h : i < n) : s.phase = .seed i → SlotStep s .seed { s.recycle ⟨i, h⟩ with
      phase := if s.free.length < n then .seed (i + 1) else .flush .accept }
  | seeded {i : Nat} : n ≤ i → s.phase = .seed i → SlotStep s .seed { s with phase := .flush .accept }
  | flush {why : Flush} {x : Fin n} {rest : List (Fin n)} : s.phase = .flush why →
      s.tx = x :: rest → SlotStep s .flush { s with tx := rest, phase := .flushed why x }
  | flushed {why : Flush} {x : Fin n} : s.phase = .flushed why x →
      SlotStep s .flush { s.recycle x with phase := .flush why }
  | accepted : s.phase = .flush .accept → s.tx = [] → SlotStep s .flush { s with phase := .createTx }
  | undone : s.phase = .flush .undo → SlotStep s .flush { s with sock := none, phase := .unused }
  | disconnected : s.phase = .flush .disconnect → SlotStep s .flush { s with phase := .unused }
  | createTx : s.phase = .createTx →
      SlotStep s (.createTx true) { s with txTask := .loop, phase := .createRx }
  | noTx : s.phase = .createTx →
      SlotStep s (.createTx false) { s with sock := none, running := false, phase := .unused }
  | createRx : s.phase = .createRx → SlotStep s (.createRx true) { s with phase := .serving }
  | noRx : s.phase = .createRx →
      SlotStep s (.createRx false) { s with running := false, phase := .join .undo }
  | disconnect : s.phase = .serving → s.mutexTaken = false →
      SlotStep s .disconnect { s with sock := none, running := false, phase := .join .disconnect }
  | join {why : Flush} : s.phase = .join why → s.txTask = .none →
      SlotStep s .join { s with phase := .flush why }
  | kill {why : Flush} : s.phase = .join why →
      SlotStep s .kill { s with txTask := .none, phase := .flush why }

theorem step_cases [DecidableEq τ] {s s' : Slot n τ} {op : Op τ} (h : step s op = some s') :
    SlotStep s op s' := by
  cases op with
  | call t data =>
      dsimp only [step] at h
      split_ifs at h with hout <;> cases h
      · exact .stay _
      · next hdata =>
          refine .walk _ (by rw [hout]; rfl) (fun _ _ _ heq => (by cases heq)) fun _ heq => ?_
          exact hdata (.inl (Option.some.inj heq))
  | check t =>
      dsimp only [step] at h
      cases hp : s.sender t with
      | called client data =>
          rw [hp] at h
          dsimp only at h
          split_ifs at h <;> cases h
          · exact .walk _ (by rw [hp]; rfl) (fun _ _ _ heq => (by cases heq))
              fun _ heq => (by cases heq)
          · exact .walk _ (by rw [hp]; rfl) (fun _ _ _ heq => (by cases heq))
              fun hdata => by rw [hp] at hdata; exact hdata
      | _ => rw [hp] at h; cases h
  | take t =>
      dsimp only [step] at h
      cases hp : s.sender t with
      | checked client data =>
          rw [hp] at h
          cases hfree : s.free with
          | nil =>
              rw [hfree] at h
              cases h
              exact .walk _ (by rw [hp]; rfl) (fun _ _ _ heq => (by cases heq))
                fun _ heq => (by cases heq)
          | cons x rest =>
              rw [hfree] at h
              cases h
              exact .take hp hfree
      | _ => rw [hp] at h; cases h
  | fill t =>
      dsimp only [step] at h
      cases hp : s.sender t with
      | taken client data x =>
          rw [hp] at h
          cases h
          exact .fill hp
      | _ => rw [hp] at h; cases h
  | enqueue t =>
      dsimp only [step] at h
      cases hp : s.sender t with
      | filled client data x =>
          rw [hp] at h
          dsimp only at h
          split_ifs at h <;> cases h
          · exact .enqueue hp
          · exact .walk _ (by rw [hp]; rfl) (fun _ _ _ heq => (by cases heq))
              fun _ heq => (by cases heq)
      | _ => rw [hp] at h; cases h
  | giveBack t =>
      dsimp only [step] at h
      cases hp : s.sender t with
      | refused x =>
          rw [hp] at h
          cases h
          exact .giveBack hp
      | _ => rw [hp] at h; cases h
  | txLoop =>
      dsimp only [step] at h
      split at h
      · next hp =>
          cases h
          split_ifs with hrun
          · exact .txWalk _ (by simp [hp]) (by rw [hp]; rfl) (by rw [hp]; rfl) rfl fun _ _ => rfl
          · exact .txWalk _ (by simp [hp]) (by rw [hp]; rfl) (by rw [hp]; rfl) rfl
              fun h => absurd h hrun
      · cases h
  | txReceive =>
      dsimp only [step] at h
      split at h
      · next hp =>
          split at h
          · cases h
            exact .txWalk _ (by simp [hp]) (by rw [hp]; rfl) (by rw [hp]; rfl) rfl fun _ _ => rfl
          · next htx =>
              cases h
              exact .txReceive hp htx
      · cases h
  | txCheck =>
      dsimp only [step] at h
      split at h
      · next hp =>
          cases h
          by_cases hrun : s.running = true
          · rw [if_pos hrun]
            exact .txCheck hp hrun
          · rw [if_neg hrun]
            exact .txWalk _ (by simp [hp]) (by rw [hp]; rfl) (by rw [hp]; rfl) rfl
              fun h => absurd h hrun
      · cases h
  | txLock =>
      dsimp only [step] at h
      split at h
      · next hp =>
          split_ifs at h with hmutex hsock <;> cases h
          · exact .txWalk _ (by simp [hp]) (by rw [hp]; rfl) (by rw [hp]; rfl) rfl fun _ _ => rfl
          · exact .txLock hp hsock
      · cases h
  | txSend written =>
      dsimp only [step] at h
      split at h
      · next x offset c hp hsock =>
          split_ifs at h
          cases h
          exact .txSend hp hsock
      · cases h
  | txUnlock =>
      dsimp only [step] at h
      split at h
      · next hp =>
          cases h
          exact .txUnlock hp
      · cases h
  | txRecycle =>
      dsimp only [step] at h
      split at h
      · next hp =>
          cases h
          exact .txRecycle (.inl ⟨hp, rfl⟩)
      · next hp =>
          cases h
          exact .txRecycle (.inr ⟨hp, rfl⟩)
      · cases h
  | txExit =>
      dsimp only [step] at h
      split_ifs at h with hp
      cases h
      exact .txWalk _ (by simp [hp]) (by rw [hp]; rfl) (by rw [hp]; rfl) rfl
        fun _ h => by rw [hp] at h; cases h
  | accept =>
      dsimp only [step] at h
      split_ifs at h with hp
      cases h
      exact .accept hp
  | setSock =>
      dsimp only [step] at h
      split_ifs at h with hp
      cases h
      exact .setSock hp
  | setRunning =>
      dsimp only [step] at h
      split_ifs at h with hp
      cases h
      exact .setRunning hp
  | drain =>
      dsimp only [step] at h
      split at h
      · next hp =>
          split at h <;> cases h
          · exact .drainedTx hp
          · next htx => exact .drainTx hp htx
      · next hp =>
          split at h <;> cases h
          · next hfree => exact .drained hp hfree
          · next hfree => exact .drainFree hp hfree
      · cases h
  | seed =>
      dsimp only [step] at h
      split at h
      · next i hp =>
          by_cases hlt : i < n
          · rw [dif_pos hlt] at h
            cases h
            exact .seed hlt hp
          · rw [dif_neg hlt] at h
            cases h
            exact .seeded (Nat.le_of_not_lt hlt) hp
      · cases h
  | flush =>
      dsimp only [step] at h
      split at h
      · next hp =>
          split at h <;> cases h
          · next htx => exact .flush hp htx
          · next htx => exact .accepted hp htx
          · exact .undone hp
          · exact .disconnected hp
      · next hp =>
          cases h
          exact .flushed hp
      · cases h
  | createTx ok =>
      dsimp only [step] at h
      split_ifs at h with hp hok <;> cases h
      · rw [hok]
        exact .createTx hp
      · rw [Bool.eq_false_of_not_eq_true hok]
        exact .noTx hp
  | createRx ok =>
      dsimp only [step] at h
      split_ifs at h with hp hok <;> cases h
      · rw [hok]
        exact .createRx hp
      · rw [Bool.eq_false_of_not_eq_true hok]
        exact .noRx hp
  | disconnect =>
      dsimp only [step] at h
      split_ifs at h with hp
      cases h
      exact .disconnect hp.1 hp.2
  | join =>
      dsimp only [step] at h
      split at h
      · next hp =>
          split_ifs at h with hnone
          cases h
          exact .join hp hnone
      · cases h
  | kill =>
      dsimp only [step] at h
      split at h
      · next hp =>
          split_ifs at h
          cases h
          exact .kill hp
      · cases h

end EspAx25.Tcp
