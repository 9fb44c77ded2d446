import Mathlib.Data.Fintype.Basic
import Mathlib.Data.List.FinRange
import EspAx25.Transition

/-!
# EspAx25.LogSink.Table

The sink table of the log server (`ax25_log_tcp_server.c`), while the server runs: sink 0 is the
console, and each of the others serves one TCP client at a time.

The TCP server calls `on_tcp_connected` and, after it has returned, `on_tcp_disconnected` from
the rx task of the connection; calls for different connections overlap. A step ends at the end of
a critical section, at an operation on a queue, and where a field of the table is read without
the spinlock.

The queues are numbered in the order of their creation, and a sender task has the number of the
queue that was created for it. The reference counts of the lines and their pool are left out:
nothing here depends on when a line is freed.
-/

namespace EspAx25.LogSink

/-- `log_sink_t`. -/
structure Sink (κ : Type) where
  active : Bool := false
  queue : Option Nat := none
  task : Option Nat := none
  tcpConn : Option κ := none

/-- Where the rx task of a connection is. It has called `on_tcp_connected` and has not come back
from `on_tcp_disconnected`, unless it is `idle`; `rejected` and `connected` are in between, with
`user_data` NULL or the index of the sink. -/
inductive Client (n : Nat)
  | idle
  | called
  | found (idx : Fin (n + 1))
  | created (idx : Fin (n + 1)) (q : Nat)
  | assigned (idx : Fin (n + 1)) (q : Nat)
  | failed (idx : Fin (n + 1)) (q : Nat)
  | cleared (q : Nat)
  | rejected
  | spawned (idx : Fin (n + 1)) (q : Nat)
  | connected (idx : Fin (n + 1)) (q : Nat)
  | leaving (idx : Fin (n + 1))
  | stopping (idx : Fin (n + 1)) (q : Nat)
  deriving DecidableEq

/-- Where a `client_send_task` is; `none` before its creation and after its end. -/
inductive Sender (n : Nat)
  | none
  | start (idx : Fin (n + 1))
  | loop (idx : Fin (n + 1)) (queue : Nat)
  | writing (idx : Fin (n + 1)) (queue : Nat) (line : String)
  | draining (idx : Fin (n + 1)) (queue : Nat)
  | deleting (idx : Fin (n + 1)) (queue : Nat)
  | clearing (idx : Fin (n + 1))
  deriving DecidableEq

/-- The sink that a connection has, from the look-up on until `on_tcp_disconnected` returns. -/
def Client.idx {n : Nat} : Client n → Option (Fin (n + 1))
  | .found i | .created i _ | .assigned i _ | .failed i _ | .spawned i _ | .connected i _
  | .leaving i | .stopping i _ => some i
  | _ => Option.none

/-- The sink that a sender task still has to clear. -/
def Sender.idx {n : Nat} : Sender n → Option (Fin (n + 1))
  | .start i | .loop i _ | .writing i _ _ | .draining i _ | .deleting i _ | .clearing i => some i
  | .none => Option.none

/-- The sink table, the queues (`none` before their creation and after their deletion; in a
queue `none` is the sentinel), the connections, the sender tasks, and what was written on
which connection. -/
structure Server (n : Nat) (κ : Type) where
  sinks : Fin (n + 1) → Sink κ
  activeCount : Nat
  queues : Nat → Option (List (Option String))
  calls : Nat
  client : κ → Client n
  sender : Nat → Sender n
  written : List (κ × String)

variable {n : Nat} {κ : Type}

/-- After `ax25_log_tcp_server_init` with `s_sink_total = n + 1`: queue and task 0 are the
console's. -/
def Server.init : Server n κ where
  sinks := Function.update (fun _ => {}) 0 { active := true, queue := some 0, task := some 0 }
  activeCount := 1
  queues := Function.update (fun _ => none) 0 (some [])
  calls := 1
  client := fun _ => .idle
  sender := fun _ => .none
  written := []

/-- `find_free_sink_locked`. -/
def Server.findFreeSink (s : Server n κ) : Option (Fin (n + 1)) :=
  (List.finRange (n + 1)).find? fun i => decide (1 ≤ i.val) && !(s.sinks i).active

/-- `set_sink_active_locked`. -/
def Server.setSinkActive (s : Server n κ) (idx : Fin (n + 1)) (active : Bool) : Server n κ :=
  if (s.sinks idx).active = active then s
  else
    { s with
      sinks := Function.update s.sinks idx { s.sinks idx with active := active }
      activeCount := if active then s.activeCount + 1 else s.activeCount - 1 }

/-- `log_vprintf` posts a line to a sink, unless its queue is full. -/
def Server.post (depth : Nat) (line : String) (s : Server n κ)
    (queues : Nat → Option (List (Option String))) (i : Fin (n + 1)) :
    Nat → Option (List (Option String)) :=
  match (s.sinks i).active, (s.sinks i).queue with
  | true, some q =>
    match queues q with
    | some items =>
      if items.length < depth then Function.update queues q (some (items ++ [some line]))
      else queues
    | none => queues
  | _, _ => queues

/-- `log_vprintf`. -/
def Server.logVprintf (depth : Nat) (s : Server n κ) (line : String) : Server n κ :=
  if s.activeCount = 0 then s
  else { s with queues := (List.finRange (n + 1)).foldl (s.post depth line) s.queues }

/-- Steps of the connections' rx tasks, of the sender tasks and of any other task. -/
inductive Op (κ : Type)
  | connect (c : κ)
  | find (c : κ)
  | createQueue (c : κ) (ok : Bool)
  | assign (c : κ)
  | createTask (c : κ) (ok : Bool)
  | setTask (c : κ)
  | clear (c : κ)
  | drop (c : κ)
  | disconnect (c : κ)
  | readQueue (c : κ)
  | sentinel (c : κ)
  | log (line : String)
  | console
  | start (j : Nat)
  | receive (j : Nat)
  | write (j : Nat) (sockOpen : Bool)
  | drain (j : Nat)
  | delete (j : Nat)
  | remove (j : Nat)

/-- A connection's task goes on. -/
def Server.goto [DecidableEq κ] (s : Server n κ) (c : κ) (p : Client n) : Server n κ :=
  { s with client := Function.update s.client c p }

/-- A sender task goes on. -/
def Server.gotoSender (s : Server n κ) (j : Nat) (p : Sender n) : Server n κ :=
  { s with sender := Function.update s.sender j p }

/-- A sink gets other contents, apart from `active`. -/
def Server.setSink (s : Server n κ) (idx : Fin (n + 1)) (queue task : Option Nat)
    (tcpConn : Option κ) : Server n κ :=
  { s with sinks := Function.update s.sinks idx {
      active := (s.sinks idx).active, queue := queue, task := task, tcpConn := tcpConn } }

/-- A queue gets other contents, or is deleted. -/
def Server.setQueue (s : Server n κ) (q : Nat) (items : Option (List (Option String))) :
    Server n κ :=
  { s with queues := Function.update s.queues q items }

/-! ### What the changes change -/

section Changes

variable (s : Server n κ) (i j : Fin (n + 1)) (queue task : Option Nat) (tcpConn : Option κ) (b : Bool)

@[simp] theorem setSink_self : (s.setSink i queue task tcpConn).sinks i =
    ⟨(s.sinks i).active, queue, task, tcpConn⟩ := Function.update_self _ _ _

theorem setSink_of_ne (h : j ≠ i) : (s.setSink i queue task tcpConn).sinks j = s.sinks j :=
  Function.update_of_ne h _ _

@[simp] theorem setSinkActive_self : (s.setSinkActive i b).sinks i =
    { s.sinks i with active := b } := by
  unfold Server.setSinkActive
  by_cases h : (s.sinks i).active = b
  · rw [if_pos h, ← h]
  · rw [if_neg h]
    exact Function.update_self _ _ _

theorem setSinkActive_of_ne (h : j ≠ i) : (s.setSinkActive i b).sinks j = s.sinks j := by
  unfold Server.setSinkActive
  by_cases hb : (s.sinks i).active = b
  · rw [if_pos hb]
  · rw [if_neg hb]
    exact Function.update_of_ne h _ _

/-- Nothing but the sink and the count changes. -/
theorem setSinkActive_others : (s.setSinkActive i b).client = s.client ∧
    (s.setSinkActive i b).sender = s.sender ∧ (s.setSinkActive i b).queues = s.queues ∧
    (s.setSinkActive i b).calls = s.calls := by
  unfold Server.setSinkActive
  by_cases hb : (s.sinks i).active = b
  · rw [if_pos hb]
    exact ⟨rfl, rfl, rfl, rfl⟩
  · rw [if_neg hb]
    exact ⟨rfl, rfl, rfl, rfl⟩

end Changes

/-- One step. -/
def step [DecidableEq κ] (depth : Nat) (s : Server n κ) : Op κ → Option (Server n κ)
  | .connect c => if s.client c = .idle then some (s.goto c .called) else none
  | .find c =>
    if s.client c = .called then
      match s.findFreeSink with
      | some i => some (s.goto c (.found i))
      | none => some (s.goto c .rejected)
    else none
  | .createQueue c ok =>
    match s.client c with
    | .found i =>
      if ok then
        some (({ s with calls := s.calls + 1 }.setQueue s.calls (some [])).goto c
          (.created i s.calls))
      else some (s.goto c .rejected)
    | _ => none
  | .assign c =>
    match s.client c with
    | .created i q =>
      some (((s.setSink i (some q) none (some c)).setSinkActive i true).goto c (.assigned i q))
    | _ => none
  | .createTask c ok =>
    match s.client c with
    | .assigned i q =>
      if ok then some ((s.gotoSender q (.start i)).goto c (.spawned i q))
      else some (s.goto c (.failed i q))
    | _ => none
  | .setTask c =>
    match s.client c with
    | .spawned i q =>
      some ((s.setSink i (s.sinks i).queue (some q) (s.sinks i).tcpConn).goto c (.connected i q))
    | _ => none
  | .clear c =>
    match s.client c with
    | .failed i q =>
      some (((s.setSink i none (s.sinks i).task none).setSinkActive i false).goto c (.cleared q))
    | _ => none
  | .drop c =>
    match s.client c with
    | .cleared q => some ((s.setQueue q none).goto c .rejected)
    | _ => none
  -- with `user_data` NULL, `on_tcp_disconnected` returns at once
  | .disconnect c =>
    match s.client c with
    | .rejected => some (s.goto c .idle)
    | .connected i _ => some ((s.setSinkActive i false).goto c (.leaving i))
    | _ => none
  | .readQueue c =>
    match s.client c with
    | .leaving i =>
      match (s.sinks i).queue with
      | some q => some (s.goto c (.stopping i q))
      | none => none
    | _ => none
  | .sentinel c =>
    match s.client c with
    | .stopping _ q =>
      match s.queues q with
      | some items =>
        if items.length < depth then
          some ((s.setQueue q (some (items ++ [none]))).goto c .idle)
        else none
      | none => none
    | _ => none
  | .log line => some (s.logVprintf depth line)
  | .console =>
    match s.queues 0 with
    | some (_ :: items) => some (s.setQueue 0 (some items))
    | _ => none
  | .start j =>
    match s.sender j with
    | .start i =>
      match (s.sinks i).queue with
      | some q => some (s.gotoSender j (.loop i q))
      | none => none
    | _ => none
  | .receive j =>
    match s.sender j with
    | .loop i q =>
      match s.queues q with
      | some (none :: items) => some ((s.setQueue q (some items)).gotoSender j (.draining i q))
      | some (some line :: items) =>
        some ((s.setQueue q (some items)).gotoSender j (.writing i q line))
      | _ => none
    | _ => none
  | .write j sockOpen =>
    match s.sender j with
    | .writing i q line =>
      match (s.sinks i).tcpConn with
      | some c =>
        some ({ s with written := if sockOpen ∧ line ≠ "" then (c, line) :: s.written
          else s.written }.gotoSender j (.loop i q))
      | none => some (s.gotoSender j (.loop i q))
    | _ => none
  | .drain j =>
    match s.sender j with
    | .draining i q =>
      match s.queues q with
      | some (_ :: items) => some (s.setQueue q (some items))
      | some [] => some (s.gotoSender j (.deleting i q))
      | none => none
    | _ => none
  | .delete j =>
    match s.sender j with
    | .deleting i q => some ((s.setQueue q none).gotoSender j (.clearing i))
    | _ => none
  | .remove j =>
    match s.sender j with
    | .clearing i => some (((s.setSinkActive i false).setSink i none none none).gotoSender j .none)
    | _ => none

end EspAx25.LogSink
