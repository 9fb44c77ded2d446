import EspAx25.Framing
import EspAx25.Transition
import EspAx25.Types
import Mathlib.Logic.Function.Basic

/-!
# EspAx25.TcpClient.Machine

The TCP clients of `ax25_phy_kiss_tcp_client.c` and `ax25_agwpe_client.c`, from the end of
`..._init` on: the tasks that send frames, `tcp_tx_task` and `tcp_rx_task`. The two files have
the same tasks and the same `..._send`; what they differ in is a `Protocol`.

A step ends where another task can see a difference: at the reads of `running` and `sock`, at
the operations on the queue, and where `send_mutex` is given. Only the tx task keeps the mutex
over several steps. Sockets are numbered in the order in which they are connected.
-/

namespace EspAx25.TcpClient

open Transducer

/-- How a client encodes what it sends, and what its decoder makes of what it receives. -/
structure Protocol (φ ψ δ : Type) where
  encode : φ → Option (List Byte)
  decoder : δ
  process : δ → Byte → δ × List ψ
  reset : δ → δ
  /-- The decoder has its callback. -/
  wired : δ → Prop
  wired_decoder : wired decoder
  wired_process : ∀ d b, wired d → wired (process d b).1
  wired_reset : ∀ d, wired d → wired (reset d)
  /-- A decoder that has been reset is as good as new. -/
  reset_fresh : ∀ d bs, wired d → (run process (reset d) bs).2 = (run process decoder bs).2

/-- `..._tx_item_t`: the bytes, and the frame that they encode. -/
structure TxItem (φ : Type) where
  frame : φ
  data : List Byte
  deriving DecidableEq

/-- Where a task is in `..._send`. -/
inductive Sender (φ : Type)
  | outside
  | encoded (item : TxItem φ)
  | checked (item : TxItem φ)
  deriving DecidableEq

/-- Where `tcp_tx_task` is. -/
inductive TxTask (φ : Type)
  | loop
  | waiting
  | received (item : TxItem φ)
  | locking (item : TxItem φ)
  | sending (item : TxItem φ) (offset : Nat)
  | stopped
  deriving DecidableEq

/-- Where `tcp_rx_task` is. -/
inductive RxTask
  | loop
  | connecting
  | connected (socket : Nat)
  | published (socket : Nat)
  | receiving (socket : Nat)
  | leaving (socket : Nat)
  | retracted (socket : Nat)
  | delay
  | stopped
  deriving DecidableEq

/-- `ax25_phy_kiss_tcp_client_t` or `ax25_agwpe_client_t`, the tasks, and what they have done. -/
structure Client (τ φ ψ δ : Type) where
  running : Bool := true
  sock : Option Nat := none
  mutexTaken : Bool := false
  queue : List (TxItem φ) := []
  decoder : δ
  sender : τ → Sender φ := fun _ => .outside
  txTask : TxTask φ := .loop
  rxTask : RxTask := .loop
  /-- How many sockets have been connected. -/
  sockets : Nat := 0
  closed : Nat → Bool := fun _ => false
  /-- A `send` on the socket has failed. -/
  failed : Nat → Bool := fun _ => false
  /-- The frames for which `..._send` has returned `ESP_OK`. -/
  accepted : List φ := []
  /-- The frames that the tx task is done with or is sending, with the socket that it took. -/
  turns : List (φ × Option Nat) := []
  sent : Nat → List Byte := fun _ => []
  received : Nat → List Byte := fun _ => []
  /-- What `on_rx_frame` was called with. -/
  delivered : Nat → List ψ := fun _ => []

variable {τ φ ψ δ : Type}

/-- A client after `..._init`. -/
def Client.init (P : Protocol φ ψ δ) : Client τ φ ψ δ := { decoder := P.decoder }

/-- Steps of the tasks that send, of `tcp_tx_task` and of `tcp_rx_task`; `stop` is the first
thing that `..._deinit` does. -/
inductive Op (τ φ : Type)
  | call (t : τ) (frame : φ)
  | check (t : τ)
  | enqueue (t : τ)
  | txLoop
  | txReceive
  | txCheck
  | txLock
  | txSend (written : Nat)
  | txFail
  | txUnlock
  | rxLoop
  | connect (ok : Bool)
  | publish
  | resetDecoder
  | receive (bytes : List Byte)
  | hangUp
  | retract
  | close
  | delay
  | stop

/-- A sending task goes on. -/
def Client.goto [DecidableEq τ] (s : Client τ φ ψ δ) (t : τ) (p : Sender φ) : Client τ φ ψ δ :=
  { s with sender := Function.update s.sender t p }

/-- Bytes for the history of a socket. -/
def append {α : Type} (history : Nat → List α) (socket : Nat) (l : List α) : Nat → List α :=
  Function.update history socket (history socket ++ l)

@[simp] theorem append_self {α : Type} (history : Nat → List α) (n : Nat) (l : List α) :
    append history n l n = history n ++ l := Function.update_self _ _ _

theorem append_of_ne {α : Type} (history : Nat → List α) {m n : Nat} (h : m ≠ n) (l : List α) :
    append history n l m = history m := Function.update_of_ne h _ _

/-- One step of a client whose queue holds `depth` items. -/
def step [DecidableEq τ] (P : Protocol φ ψ δ) (depth : Nat) (s : Client τ φ ψ δ) :
    Op τ φ → Option (Client τ φ ψ δ)
  | .call t frame =>
    match s.sender t with
    | .outside =>
      match P.encode frame with
      | none => some s
      | some data => some (s.goto t (.encoded ⟨frame, data⟩))
    | _ => none
  | .check t =>
    match s.sender t with
    | .encoded item =>
      if s.mutexTaken then none
      else if s.sock = none then some (s.goto t .outside)
      else some (s.goto t (.checked item))
    | _ => none
  | .enqueue t =>
    match s.sender t with
    | .checked item =>
      if s.queue.length < depth then
        some ({ s with queue := s.queue ++ [item], accepted := s.accepted ++ [item.frame] }.goto t
          .outside)
      else some (s.goto t .outside)
    | _ => none
  | .txLoop =>
    match s.txTask with
    | .loop => some { s with txTask := if s.running then .waiting else .stopped }
    | _ => none
  | .txReceive =>
    match s.txTask with
    | .waiting =>
      match s.queue with
      | [] => some { s with txTask := .loop }
      | item :: rest => some { s with queue := rest, txTask := .received item }
    | _ => none
  | .txCheck =>
    match s.txTask with
    | .received item =>
      if s.running then some { s with txTask := .locking item }
      else some { s with txTask := .stopped, turns := s.turns ++ [(item.frame, none)] }
    | _ => none
  | .txLock =>
    match s.txTask with
    | .locking item =>
      if s.mutexTaken then none
      else if s.sock = none then
        some { s with txTask := .loop, turns := s.turns ++ [(item.frame, none)] }
      else
        some { s with
          mutexTaken := true
          txTask := .sending item 0
          turns := s.turns ++ [(item.frame, s.sock)] }
    | _ => none
  -- `running` was true when the loop looked at it, and may have been cleared since
  | .txSend written =>
    match s.txTask, s.sock with
    | .sending item offset, some n =>
      if 0 < written ∧ offset + written ≤ item.data.length then
        some { s with
          txTask := .sending item (offset + written)
          sent := append s.sent n ((item.data.drop offset).take written) }
      else none
    | _, _ => none
  | .txFail =>
    match s.txTask, s.sock with
    | .sending item offset, some n =>
      if offset < item.data.length then
        some { s with
          mutexTaken := false, txTask := .loop, failed := Function.update s.failed n true }
      else none
    | _, _ => none
  | .txUnlock =>
    match s.txTask with
    | .sending item offset =>
      if s.running = false ∨ item.data.length ≤ offset then
        some { s with mutexTaken := false, txTask := .loop }
      else none
    | _ => none
  | .rxLoop =>
    match s.rxTask with
    | .loop => some { s with rxTask := if s.running then .connecting else .stopped }
    | _ => none
  -- `getaddrinfo`, `socket` and `connect_with_timeout`
  | .connect ok =>
    match s.rxTask with
    | .connecting =>
      if ok then some { s with rxTask := .connected s.sockets, sockets := s.sockets + 1 }
      else some { s with rxTask := .delay }
    | _ => none
  | .publish =>
    match s.rxTask with
    | .connected n =>
      if s.mutexTaken then none else some { s with sock := some n, rxTask := .published n }
    | _ => none
  | .resetDecoder =>
    match s.rxTask with
    | .published n => some { s with decoder := P.reset s.decoder, rxTask := .receiving n }
    | _ => none
  | .receive bytes =>
    match s.rxTask with
    | .receiving n =>
      some { s with
        decoder := (run P.process s.decoder bytes).1
        received := append s.received n bytes
        delivered := append s.delivered n (run P.process s.decoder bytes).2 }
    | _ => none
  -- the peer has closed the connection, `recv` has failed, or `running` is false
  | .hangUp =>
    match s.rxTask with
    | .receiving n => some { s with rxTask := .leaving n }
    | _ => none
  | .retract =>
    match s.rxTask with
    | .leaving n =>
      if s.mutexTaken then none else some { s with sock := none, rxTask := .retracted n }
    | _ => none
  | .close =>
    match s.rxTask with
    | .retracted n => some { s with closed := Function.update s.closed n true, rxTask := .delay }
    | _ => none
  | .delay =>
    match s.rxTask with
    | .delay => some { s with rxTask := .loop }
    | _ => none
  | .stop => some { s with running := false }

/-- No `send` succeeds on a socket on which one has failed. -/
def Reliable (s : Client τ φ ψ δ) : Op τ φ → Prop
  | .txSend _ => ∀ n, s.sock = some n → s.failed n = false
  | _ => True

instance (s : Client τ φ ψ δ) (op : Op τ φ) : Decidable (Reliable s op) :=
  match op with
  | .txSend _ => inferInstanceAs (Decidable (∀ n ∈ s.sock, s.failed n = false))
  | .call _ _ | .check _ | .enqueue _ | .txLoop | .txReceive | .txCheck | .txLock | .txFail
  | .txUnlock | .rxLoop | .connect _ | .publish | .resetDecoder | .receive _ | .hangUp | .retract
  | .close | .delay | .stop => inferInstanceAs (Decidable True)

end EspAx25.TcpClient
