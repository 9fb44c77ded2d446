import EspAx25.TcpClient.Machine

/-!
# EspAx25.TcpClient.Streams

What a TCP client writes on its sockets, and what it makes of what it reads.

The tx task has `send_mutex` from its look at `sock` until it is done with a frame, and the rx
task needs the mutex to publish a socket and to take it back. So a frame goes out on one socket
only, and on one that is open. The rest is bookkeeping: which frame is where between
`..._send` and the socket.

Main results:

* `client_streams`: in every run the frames leave the client in the order in which they were
  accepted, each socket gets whole frames, nothing happens to a closed socket, and what is
  delivered depends on the bytes of one connection only.
-/

namespace EspAx25.TcpClient

open Transducer Transition

variable {τ φ ψ δ : Type}

/-! ### What a step can do -/

/-- The item that a task has encoded. -/
def Sender.item : Sender φ → Option (TxItem φ)
  | .outside => none
  | .encoded item | .checked item => some item

/-- The task has `send_mutex`. -/
def TxTask.locks : TxTask φ → Bool
  | .sending _ _ => true
  | _ => false

/-- The item in the task's hands. -/
def TxTask.item : TxTask φ → Option (TxItem φ)
  | .received item | .locking item | .sending item _ => some item
  | _ => none

/-- The item that has not had its turn yet. -/
def TxTask.pending : TxTask φ → List (TxItem φ)
  | .received item | .locking item => [item]
  | _ => []

theorem TxTask.pending_of_item {p : TxTask φ} (h : p.item = none) : p.pending = [] := by
  cases p with
  | received | locking => cases h
  | _ => rfl

theorem TxTask.item_of_pending {p : TxTask φ} {item : TxItem φ} (h : p.pending = [item]) :
    p.item = some item := by
  cases p with
  | received | locking =>
      cases h
      rfl
  | _ => cases h

/-- The task is past its last look at `running`. -/
def TxTask.atWork : TxTask φ → Bool
  | .loop | .stopped => false
  | _ => true

/-- The socket that the task has. -/
def RxTask.socket : RxTask → Option Nat
  | .connected n | .published n | .receiving n | .leaving n | .retracted n => some n
  | _ => none

/-- The socket that the task has published. -/
def RxTask.shown : RxTask → Option Nat
  | .published n | .receiving n | .leaving n => some n
  | _ => none

theorem RxTask.socket_of_shown {p : RxTask} {n : Nat} (h : p.shown = some n) :
    p.socket = some n := by
  cases p with
  | published | receiving | leaving => exact h
  | _ => cases h

/-- What a step can do. -/
inductive ClientStep [DecidableEq τ] (P : Protocol φ ψ δ) (s : Client τ φ ψ δ) :
    Op τ φ → Client τ φ ψ δ → Prop
  | stay (op : Op τ φ) : ClientStep P s op s
  | walk {t : τ} {p : Sender φ} (op : Op τ φ) :
      (∀ item, p.item = some item → P.encode item.frame = some item.data ∨
        (s.sender t).item = some item) → ClientStep P s op (s.goto t p)
  | enqueue {t : τ} {item : TxItem φ} : s.sender t = .checked item →
      ClientStep P s (.enqueue t) ({ s with
        queue := s.queue ++ [item], accepted := s.accepted ++ [item.frame] }.goto t .outside)
  | txWalk {p : TxTask φ} (op : Op τ φ) : s.txTask.locks = false → p.locks = false →
      p.item = s.txTask.item → p.pending = s.txTask.pending →
      (p.atWork = true → s.running = true ∨ s.txTask.atWork = true) →
      ClientStep P s op { s with txTask := p }
  | txReceive {item : TxItem φ} {rest : List (TxItem φ)} : s.txTask = .waiting →
      s.queue = item :: rest →
      ClientStep P s .txReceive { s with queue := rest, txTask := .received item }
  | txDrop {p : TxTask φ} {item : TxItem φ} (op : Op τ φ) : s.txTask.pending = [item] →
      s.txTask.locks = false → s.txTask.atWork = true → p.locks = false → p.item = none →
      ClientStep P s op { s with txTask := p, turns := s.turns ++ [(item.frame, none)] }
  | txLock {item : TxItem φ} {n : Nat} : s.txTask = .locking item → s.mutexTaken = false →
      s.sock = some n →
      ClientStep P s .txLock { s with
        mutexTaken := true
        txTask := .sending item 0
        turns := s.turns ++ [(item.frame, s.sock)] }
  | txSend {item : TxItem φ} {offset written n : Nat} : s.txTask = .sending item offset →
      s.sock = some n → offset + written ≤ item.data.length →
      ClientStep P s (.txSend written) { s with
        txTask := .sending item (offset + written)
        sent := append s.sent n ((item.data.drop offset).take written) }
  | txFail {item : TxItem φ} {offset n : Nat} : s.txTask = .sending item offset →
      s.sock = some n →
      ClientStep P s .txFail { s with
        mutexTaken := false, txTask := .loop, failed := Function.update s.failed n true }
  | txUnlock {item : TxItem φ} {offset : Nat} : s.txTask = .sending item offset →
      s.running = false ∨ item.data.length ≤ offset →
      ClientStep P s .txUnlock { s with mutexTaken := false, txTask := .loop }
  | rxWalk {p : RxTask} (op : Op τ φ) : p.socket = s.rxTask.socket → p.shown = s.rxTask.shown →
      (∀ n, p ≠ .receiving n) → (∀ n, p ≠ .connected n ∧ p ≠ .published n) →
      ClientStep P s op { s with rxTask := p }
  | connect : s.rxTask = .connecting →
      ClientStep P s (.connect true) { s with
        rxTask := .connected s.sockets, sockets := s.sockets + 1 }
  | publish {n : Nat} : s.rxTask = .connected n → s.mutexTaken = false →
      ClientStep P s .publish { s with sock := some n, rxTask := .published n }
  | resetDecoder {n : Nat} : s.rxTask = .published n →
      ClientStep P s .resetDecoder { s with
        decoder := P.reset s.decoder, rxTask := .receiving n }
  | receive {n : Nat} (bytes : List Byte) : s.rxTask = .receiving n →
      ClientStep P s (.receive bytes) { s with
        decoder := (run P.process s.decoder bytes).1
        received := append s.received n bytes
        delivered := append s.delivered n (run P.process s.decoder bytes).2 }
  | retract {n : Nat} : s.rxTask = .leaving n → s.mutexTaken = false →
      ClientStep P s .retract { s with sock := none, rxTask := .retracted n }
  | close {n : Nat} : s.rxTask = .retracted n →
      ClientStep P s .close { s with closed := Function.update s.closed n true, rxTask := .delay }
  | stop : ClientStep P s .stop { s with running := false }

theorem step_cases [DecidableEq τ] {P : Protocol φ ψ δ} {depth : Nat} {s s' : Client τ φ ψ δ}
    {op : Op τ φ} (hs : step P depth s op = some s') : ClientStep P s op s' := by
  cases op with
  | call t frame =>
      dsimp only [step] at hs
      split at hs
      · split at hs
        · cases hs
          exact .stay _
        · next data henc =>
          cases hs
          refine .walk _ fun item hitem => .inl ?_
          cases hitem
          exact henc
      · cases hs
  | check t =>
      dsimp only [step] at hs
      split at hs
      · next item ht =>
        split_ifs at hs
        · cases hs
          exact .walk _ fun _ h => (by cases h)
        · cases hs
          exact .walk _ fun _ h => .inr (by rw [ht]; exact h)
      · cases hs
  | enqueue t =>
      dsimp only [step] at hs
      split at hs
      · next item ht =>
        split_ifs at hs
        · cases hs
          exact .enqueue ht
        · cases hs
          exact .walk _ fun _ h => (by cases h)
      · cases hs
  | txLoop =>
      dsimp only [step] at hs
      split at hs
      · next ht =>
        cases hs
        refine .txWalk _ (by rw [ht]; rfl) (by split_ifs <;> rfl) (by rw [ht]; split_ifs <;> rfl)
          (by rw [ht]; split_ifs <;> rfl) fun hwork => ?_
        split_ifs at hwork with hrun
        · exact .inl hrun
        · cases hwork
      · cases hs
  | txReceive =>
      dsimp only [step] at hs
      split at hs
      · next ht =>
        split at hs
        · cases hs
          exact .txWalk _ (by rw [ht]; rfl) rfl (by rw [ht]; rfl) (by rw [ht]; rfl)
            fun h => (by cases h)
        · next item rest hqueue =>
          cases hs
          exact .txReceive ht hqueue
      · cases hs
  | txCheck =>
      dsimp only [step] at hs
      split at hs
      · next item ht =>
        split_ifs at hs
        · cases hs
          exact .txWalk _ (by rw [ht]; rfl) rfl (by rw [ht]; rfl) (by rw [ht]; rfl)
            fun _ => .inr (by rw [ht]; rfl)
        · cases hs
          exact .txDrop _ (by rw [ht]; rfl) (by rw [ht]; rfl) (by rw [ht]; rfl) rfl rfl
      · cases hs
  | txLock =>
      dsimp only [step] at hs
      split at hs
      · next item ht =>
        split_ifs at hs with hmutex hsock
        · cases hs
          exact .txDrop _ (by rw [ht]; rfl) (by rw [ht]; rfl) (by rw [ht]; rfl) rfl rfl
        · cases hs
          obtain ⟨n, hn⟩ := Option.ne_none_iff_exists'.mp hsock
          exact .txLock ht (Bool.eq_false_iff.mpr hmutex) hn
      · cases hs
  | txSend written =>
      dsimp only [step] at hs
      split at hs
      · next item offset n ht hn =>
        split_ifs at hs with hle
        · cases hs
          exact .txSend ht hn hle.2
      · cases hs
  | txFail =>
      dsimp only [step] at hs
      split at hs
      · next item offset n ht hn =>
        split_ifs at hs
        · cases hs
          exact .txFail ht hn
      · cases hs
  | txUnlock =>
      dsimp only [step] at hs
      split at hs
      · next item offset ht =>
        split_ifs at hs with hend
        · cases hs
          exact .txUnlock ht hend
      · cases hs
  | rxLoop =>
      dsimp only [step] at hs
      split at hs
      · next ht =>
        cases hs
        refine .rxWalk _ (by rw [ht]; split_ifs <;> rfl) (by rw [ht]; split_ifs <;> rfl)
          (fun _ => by split_ifs <;> simp) fun _ => by split_ifs <;> simp
      · cases hs
  | connect ok =>
      dsimp only [step] at hs
      split at hs
      · next ht =>
        split_ifs at hs with hok
        · cases hs
          subst hok
          exact .connect ht
        · cases hs
          exact .rxWalk _ (by rw [ht]; rfl) (by rw [ht]; rfl) (fun _ => by simp) fun _ => by simp
      · cases hs
  | publish =>
      dsimp only [step] at hs
      split at hs
      · next n ht =>
        split_ifs at hs with hmutex
        · cases hs
          exact .publish ht (Bool.eq_false_iff.mpr hmutex)
      · cases hs
  | resetDecoder =>
      dsimp only [step] at hs
      split at hs
      · next n ht =>
        cases hs
        exact .resetDecoder ht
      · cases hs
  | receive bytes =>
      dsimp only [step] at hs
      split at hs
      · next n ht =>
        cases hs
        exact .receive bytes ht
      · cases hs
  | hangUp =>
      dsimp only [step] at hs
      split at hs
      · next n ht =>
        cases hs
        exact .rxWalk _ (by rw [ht]; rfl) (by rw [ht]; rfl) (fun _ => by simp) fun _ => by simp
      · cases hs
  | retract =>
      dsimp only [step] at hs
      split at hs
      · next n ht =>
        split_ifs at hs with hmutex
        · cases hs
          exact .retract ht (Bool.eq_false_iff.mpr hmutex)
      · cases hs
  | close =>
      dsimp only [step] at hs
      split at hs
      · next n ht =>
        cases hs
        exact .close ht
      · cases hs
  | delay =>
      dsimp only [step] at hs
      split at hs
      · next ht =>
        cases hs
        exact .rxWalk _ (by rw [ht]; rfl) (by rw [ht]; rfl) (fun _ => by simp) fun _ => by simp
      · cases hs
  | stop =>
      cases hs
      exact .stop

/-! ### Who has which socket -/

/-- What the two tasks say about the mutex and the sockets. -/
structure Control (s : Client τ φ ψ δ) : Prop where
  mutex : s.mutexTaken = s.txTask.locks
  shown : s.sock = s.rxTask.shown
  socket : ∀ n, s.rxTask.socket = some n → n + 1 = s.sockets
  closed : ∀ n, s.closed n = true → n < s.sockets ∧ s.rxTask.socket ≠ some n
  sending : s.txTask.locks = true → s.sock ≠ none

theorem control_init (P : Protocol φ ψ δ) : Control (Client.init P : Client τ φ ψ δ) :=
  ⟨rfl, rfl, fun _ h => (by cases h), fun _ h => (by cases h), fun h => (by cases h)⟩

/-- A step of the rx task that keeps its socket. -/
theorem Control.of_rx {s : Client τ φ ψ δ} (h : Control s) {p : RxTask} {sock : Option Nat} {d : δ}
    (hsocket : p.socket = s.rxTask.socket) (hshown : sock = p.shown)
    (hsend : s.txTask.locks = true → sock = s.sock) :
    Control { s with sock, decoder := d, rxTask := p } := by
  refine ⟨h.mutex, hshown, fun n hn => h.socket n (hsocket ▸ hn), fun n hn => ?_, fun hlocks => ?_⟩
  · exact ⟨(h.closed n hn).1, hsocket ▸ (h.closed n hn).2⟩
  · dsimp only
    rw [hsend hlocks]
    exact h.sending hlocks

section Steps

variable [DecidableEq τ] {P : Protocol φ ψ δ} {depth : Nat} {s s' : Client τ φ ψ δ} {op : Op τ φ}

theorem control_step (h : Control s) (hs : step P depth s op = some s') : Control s' := by
  -- the socket is published and taken back while the tx task does not have the mutex
  have hfree : s.mutexTaken = false → s.txTask.locks = true → False := by
    intro hfalse hlocks
    rw [h.mutex, hlocks] at hfalse
    cases hfalse
  cases step_cases hs with
  | stay => exact h
  | walk | enqueue | receive | stop => exact ⟨h.mutex, h.shown, h.socket, h.closed, h.sending⟩
  | txWalk _ hlocks hlocks' =>
      exact ⟨h.mutex.trans (hlocks.trans hlocks'.symm), h.shown, h.socket, h.closed,
        fun hsend => (by rw [hlocks'] at hsend; cases hsend)⟩
  | txReceive ht =>
      exact ⟨h.mutex.trans (by rw [ht]; rfl), h.shown, h.socket, h.closed,
        fun hsend => (by cases hsend)⟩
  | txDrop _ _ hlocks _ hlocks' =>
      exact ⟨h.mutex.trans (hlocks.trans hlocks'.symm), h.shown, h.socket, h.closed,
        fun hsend => (by rw [hlocks'] at hsend; cases hsend)⟩
  | txLock _ _ hsock =>
      exact ⟨rfl, h.shown, h.socket, h.closed,
        fun _ => (by rw [hsock]; exact Option.some_ne_none _)⟩
  | txSend ht hsock =>
      exact ⟨h.mutex.trans (by rw [ht]; rfl), h.shown, h.socket, h.closed,
        fun _ => (by rw [hsock]; exact Option.some_ne_none _)⟩
  | txFail | txUnlock => exact ⟨rfl, h.shown, h.socket, h.closed, fun hsend => (by cases hsend)⟩
  | rxWalk _ hsocket hshown => exact h.of_rx hsocket (h.shown.trans hshown.symm) fun _ => rfl
  | connect ht =>
      refine ⟨h.mutex, ?_, fun n hn => (by cases hn; rfl), fun n hn => ?_, h.sending⟩
      · rw [h.shown, ht]
        rfl
      · have hlt := (h.closed n hn).1
        exact ⟨Nat.lt_succ_of_lt hlt, fun heq => Nat.lt_irrefl _ (Option.some.inj heq ▸ hlt)⟩
  | publish ht hmutex =>
      exact h.of_rx (d := s.decoder) (by rw [ht]; rfl) rfl fun hsend => (hfree hmutex hsend).elim
  | resetDecoder ht =>
      exact h.of_rx (by rw [ht]; rfl) (h.shown.trans (by rw [ht]; rfl)) fun _ => rfl
  | retract ht hmutex =>
      exact h.of_rx (d := s.decoder) (by rw [ht]; rfl) rfl fun hsend => (hfree hmutex hsend).elim
  | @close n ht =>
      have hn := h.socket n (by rw [ht]; rfl)
      refine ⟨h.mutex, h.shown.trans (by rw [ht]; rfl), fun _ hm => (by cases hm), fun m hm => ?_,
        h.sending⟩
      refine ⟨?_, fun heq => (by cases heq)⟩
      dsimp only at hm ⊢
      by_cases hmn : m = n
      · omega
      · rw [Function.update_of_ne hmn] at hm
        exact (h.closed m hm).1

/-- Nothing is written on a closed socket, and nothing is read from it. -/
theorem closed_step (h : Control s) (hs : step P depth s op = some s') {n : Nat}
    (hn : s.closed n = true) :
    s'.closed n = true ∧ s'.sent n = s.sent n ∧ s'.received n = s.received n := by
  have hopen : ∀ m, s.sock = some m → m ≠ n := by
    rintro m hm rfl
    exact (h.closed m hn).2 (RxTask.socket_of_shown (h.shown.symm.trans hm))
  cases step_cases hs with
  | txSend _ hsock =>
      exact ⟨hn, append_of_ne _ (hopen _ hsock).symm _, rfl⟩
  | receive _ ht =>
      have hne := hopen _ (h.shown.trans (by rw [ht]; rfl))
      exact ⟨hn, rfl, append_of_ne _ hne.symm _⟩
  | @close m =>
      refine ⟨?_, rfl, rfl⟩
      dsimp only
      by_cases hmn : n = m
      · rw [hmn, Function.update_self]
      · rw [Function.update_of_ne hmn]
        exact hn
  | _ => exact ⟨hn, rfl, rfl⟩

end Steps

/-! ### Which frame is where -/

/-- The bytes of a frame. -/
def Protocol.bytes (P : Protocol φ ψ δ) (frame : φ) : List Byte := (P.encode frame).getD []

/-- The item holds the bytes of its frame. -/
def Protocol.Fits (P : Protocol φ ψ δ) (item : TxItem φ) : Prop :=
  P.encode item.frame = some item.data

theorem Protocol.Fits.bytes {P : Protocol φ ψ δ} {item : TxItem φ} (h : P.Fits item) :
    P.bytes item.frame = item.data := by
  rw [Protocol.bytes, h]
  rfl

/-- Every accepted frame is in one place, and the places are in the order of acceptance. -/
structure Ordered (P : Protocol φ ψ δ) (s : Client τ φ ψ δ) : Prop where
  senders : ∀ t item, (s.sender t).item = some item → P.Fits item
  queued : ∀ item ∈ s.queue, P.Fits item
  hand : ∀ item, s.txTask.item = some item → P.Fits item
  order : s.turns.map Prod.fst ++ (s.txTask.pending ++ s.queue).map TxItem.frame = s.accepted
  encoded : ∀ turn ∈ s.turns, (P.encode turn.1).isSome = true
  sockets : ∀ turn ∈ s.turns, ∀ n, turn.2 = some n → n < s.sockets
  ascending : (s.turns.filterMap Prod.snd).Pairwise (· ≤ ·)

theorem ordered_init (P : Protocol φ ψ δ) : Ordered P (Client.init P : Client τ φ ψ δ) :=
  ⟨fun _ _ h => (by cases h), fun _ h => (by cases h), fun _ h => (by cases h), rfl,
    fun _ h => (by cases h), fun _ h => (by cases h), .nil⟩

/-- A step that touches neither the senders nor the queue nor the tx task. -/
theorem Ordered.of_others {P : Protocol φ ψ δ} {s s' : Client τ φ ψ δ} (h : Ordered P s)
    (hsender : s'.sender = s.sender) (hqueue : s'.queue = s.queue) (htx : s'.txTask = s.txTask)
    (hturns : s'.turns = s.turns) (haccepted : s'.accepted = s.accepted)
    (hsockets : s.sockets ≤ s'.sockets) : Ordered P s' := by
  refine ⟨?_, ?_, ?_, ?_, ?_, fun turn hturn n hn => ?_, ?_⟩
  · rw [hsender]
    exact h.senders
  · rw [hqueue]
    exact h.queued
  · rw [htx]
    exact h.hand
  · rw [hturns, htx, hqueue, haccepted]
    exact h.order
  · rw [hturns]
    exact h.encoded
  · rw [hturns] at hturn
    exact Nat.lt_of_lt_of_le (h.sockets turn hturn n hn) hsockets
  · rw [hturns]
    exact h.ascending

/-- A step of the tx task that gives no frame its turn. -/
theorem Ordered.of_txTask {P : Protocol φ ψ δ} {s : Client τ φ ψ δ} (h : Ordered P s)
    {p : TxTask φ} {mutexTaken : Bool} {failed : Nat → Bool} {sent : Nat → List Byte}
    (hitem : ∀ item, p.item = some item → s.txTask.item = some item)
    (hpending : p.pending = s.txTask.pending) :
    Ordered P { s with txTask := p, mutexTaken, failed, sent } :=
  ⟨h.senders, h.queued, fun item hi => h.hand item (hitem item hi), hpending ▸ h.order, h.encoded,
    h.sockets, h.ascending⟩

/-- A frame has its turn. -/
theorem Ordered.turn {P : Protocol φ ψ δ} {s : Client τ φ ψ δ} (h : Ordered P s)
    {p : TxTask φ} {mutexTaken : Bool} {item : TxItem φ} {socket : Option Nat}
    (hpending : s.txTask.pending = [item]) (hnone : p.pending = [])
    (hitem : ∀ item', p.item = some item' → s.txTask.item = some item')
    (hsocket : ∀ n, socket = some n → n + 1 = s.sockets) :
    Ordered P { s with txTask := p, mutexTaken, turns := s.turns ++ [(item.frame, socket)] } := by
  have hfits : P.Fits item := h.hand item (TxTask.item_of_pending hpending)
  refine ⟨h.senders, h.queued, fun item' hi => h.hand item' (hitem item' hi), ?_,
    fun turn hturn => ?_, fun turn hturn n hn => ?_, ?_⟩
  · have horder := h.order
    rw [hpending] at horder
    dsimp only
    rw [hnone, List.map_append, List.append_assoc]
    exact horder
  · rcases List.mem_append.mp hturn with hold | hnew
    · exact h.encoded turn hold
    · obtain rfl := List.mem_singleton.mp hnew
      exact Option.isSome_iff_exists.mpr ⟨_, hfits⟩
  · rcases List.mem_append.mp hturn with hold | hnew
    · exact h.sockets turn hold n hn
    · obtain rfl := List.mem_singleton.mp hnew
      have hlast := hsocket n hn
      dsimp only
      omega
  · dsimp only
    rw [List.filterMap_append, List.pairwise_append]
    refine ⟨h.ascending, ?_, fun m hm n hn => ?_⟩
    · cases socket with
      | none => exact .nil
      | some n => exact List.pairwise_singleton _ n
    · obtain ⟨turn, hturn, hm⟩ := List.mem_filterMap.mp hm
      have hlt := h.sockets turn hturn m hm
      cases socket with
      | none => cases hn
      | some k =>
          obtain rfl := List.mem_singleton.mp hn
          have hlast := hsocket n rfl
          omega

theorem ordered_step [DecidableEq τ] {P : Protocol φ ψ δ} {depth : Nat} {s s' : Client τ φ ψ δ}
    {op : Op τ φ} (hc : Control s) (h : Ordered P s) (hs : step P depth s op = some s') :
    Ordered P s' := by
  cases step_cases hs with
  | stay => exact h
  | @walk t p _ hp =>
      refine ⟨fun u item hu => ?_, h.queued, h.hand, h.order, h.encoded, h.sockets, h.ascending⟩
      by_cases hut : u = t
      · subst hut
        unfold Client.goto at hu
        dsimp only at hu
        rw [Function.update_self] at hu
        exact (hp item hu).elim id fun hold => h.senders u item hold
      · unfold Client.goto at hu
        dsimp only at hu
        rw [Function.update_of_ne hut] at hu
        exact h.senders u item hu
  | @enqueue t item ht =>
      refine ⟨fun u item' hu => ?_, fun item' hi => ?_, h.hand, ?_, h.encoded, h.sockets,
        h.ascending⟩
      · unfold Client.goto at hu
        dsimp only at hu
        by_cases hut : u = t
        · rw [hut, Function.update_self] at hu
          cases hu
        · rw [Function.update_of_ne hut] at hu
          exact h.senders u item' hu
      · rcases List.mem_append.mp hi with hold | hnew
        · exact h.queued item' hold
        · obtain rfl := List.mem_singleton.mp hnew
          exact h.senders t item' (by rw [ht]; rfl)
      · show s.turns.map Prod.fst ++ (s.txTask.pending ++ (s.queue ++ [item])).map TxItem.frame =
          s.accepted ++ [item.frame]
        rw [← h.order, ← List.append_assoc s.txTask.pending, List.map_append, ← List.append_assoc]
        rfl
  | txWalk _ _ _ hitem hpending => exact h.of_txTask (fun item hi => hitem ▸ hi) hpending
  | @txReceive item rest ht hqueue =>
      refine ⟨h.senders, fun item' hi => ?_, fun item' hi => ?_, ?_, h.encoded, h.sockets,
        h.ascending⟩
      · exact h.queued item' (by rw [hqueue]; exact List.mem_cons_of_mem item hi)
      · cases hi
        exact h.queued item (by rw [hqueue]; exact List.mem_cons_self)
      · have horder := h.order
        rw [ht, hqueue] at horder
        exact horder
  | txDrop _ hpending _ _ _ hnone =>
      exact h.turn hpending (TxTask.pending_of_item hnone)
        (fun item' hi => (by rw [hnone] at hi; cases hi)) fun n hn => (by cases hn)
  | txLock ht _ hsock =>
      refine h.turn (by rw [ht]; rfl) rfl (fun item' hi => (by rw [ht]; exact hi)) fun n hn => ?_
      exact hc.socket n (RxTask.socket_of_shown (hc.shown.symm.trans hn))
  | txSend ht => exact h.of_txTask (fun item hi => (by rw [ht]; exact hi)) (by rw [ht]; rfl)
  | txFail ht | txUnlock ht => exact h.of_txTask (fun item hi => (by cases hi)) (by rw [ht]; rfl)
  | connect => exact h.of_others rfl rfl rfl rfl rfl (Nat.le_succ _)
  | _ => exact h.of_others rfl rfl rfl rfl rfl (Nat.le_refl _)

/-! ### The bytes on a socket -/

/-- The frames that had their turn on a socket. -/
def Client.turnsOn (s : Client τ φ ψ δ) (n : Nat) : List φ :=
  s.turns.filterMap fun turn => if turn.2 = some n then some turn.1 else none

/-- What the socket gets if all of them are sent as a whole. -/
def Client.stream (P : Protocol φ ψ δ) (s : Client τ φ ψ δ) (n : Nat) : List Byte :=
  (s.turnsOn n).flatMap P.bytes

/-- The tx task is sending a frame on the socket. -/
def Client.Sending (s : Client τ φ ψ δ) (n : Nat) : Prop :=
  s.txTask.locks = true ∧ s.sock = some n

/-- A socket gets the frames that have their turn on it, one after the other and as a whole: but
for the last one, when a `send` fails or the client is stopped. -/
structure Streamed (P : Protocol φ ψ δ) (s : Client τ φ ψ δ) : Prop where
  begun : ∀ n, s.sent n <+: s.stream P n
  whole : ∀ n, s.failed n = false → s.running = true ∨ s.txTask.atWork = true → ¬ s.Sending n →
    s.sent n = s.stream P n
  current : ∀ item offset n, s.txTask = .sending item offset → s.sock = some n →
    s.failed n = false → ∃ l, s.turnsOn n = l ++ [item.frame] ∧
      s.sent n = l.flatMap P.bytes ++ item.data.take offset

theorem streamed_init (P : Protocol φ ψ δ) : Streamed P (Client.init P : Client τ φ ψ δ) :=
  ⟨fun _ => List.prefix_refl _, fun _ _ _ _ => rfl, fun _ _ _ h => (by cases h)⟩

section Turns

variable {P : Protocol φ ψ δ} {s s' : Client τ φ ψ δ} {frame : φ}

theorem turnsOn_append_none (h : s'.turns = s.turns ++ [(frame, none)]) (n : Nat) :
    s'.turnsOn n = s.turnsOn n := by
  unfold Client.turnsOn
  rw [h, List.filterMap_append]
  exact List.append_nil _

theorem turnsOn_append_some {m : Nat} (h : s'.turns = s.turns ++ [(frame, some m)]) (n : Nat) :
    s'.turnsOn n = s.turnsOn n ++ if n = m then [frame] else [] := by
  unfold Client.turnsOn
  rw [h, List.filterMap_append]
  congr 1
  by_cases hnm : n = m
  · simp [hnm]
  · simp [hnm, Ne.symm hnm]

theorem mem_turns_of_turnsOn {n : Nat} (h : frame ∈ s.turnsOn n) : (frame, some n) ∈ s.turns := by
  obtain ⟨⟨f, socket⟩, hturn, hsome⟩ := List.mem_filterMap.mp h
  dsimp only at hsome
  split_ifs at hsome with hsocket
  · cases hsome
    exact hsocket ▸ hturn

/-- A step that neither sends nor gives a frame its turn. -/
theorem Streamed.of_quiet (h : Streamed P s) (hturns : s'.turns = s.turns)
    (hsent : s'.sent = s.sent) (hfailed : s'.failed = s.failed)
    (hrunning : s'.running = true → s.running = true)
    (hwork : s'.txTask.atWork = true → s.running = true ∨ s.txTask.atWork = true)
    (hlocks : s'.txTask.locks = s.txTask.locks)
    (hsending : ∀ item offset, s'.txTask = .sending item offset → s.txTask = .sending item offset)
    (hsock : s.txTask.locks = true → s'.sock = s.sock) : Streamed P s' := by
  have hstream : ∀ n, s'.stream P n = s.stream P n := by
    intro n
    unfold Client.stream Client.turnsOn
    rw [hturns]
  refine ⟨fun n => ?_, fun n hf hrun hno => ?_, fun item offset n ht hn hf => ?_⟩
  · rw [hsent, hstream]
    exact h.begun n
  · rw [hsent, hstream]
    refine h.whole n (hfailed ▸ hf) (hrun.elim (fun hr => .inl (hrunning hr)) hwork) fun hbusy => ?_
    exact hno ⟨hlocks.trans hbusy.1, (hsock hbusy.1).trans hbusy.2⟩
  · have ht' := hsending item offset ht
    have hlocked : s.txTask.locks = true := by rw [ht']; rfl
    obtain ⟨l, hl, hs⟩ := h.current item offset n ht' ((hsock hlocked).symm.trans hn) (hfailed ▸ hf)
    refine ⟨l, ?_, by rw [hsent, hs]⟩
    unfold Client.turnsOn at hl ⊢
    rw [hturns, hl]

end Turns

theorem streamed_step [DecidableEq τ] {P : Protocol φ ψ δ} {depth : Nat} {s s' : Client τ φ ψ δ}
    {op : Op τ φ} (hc : Control s) (ho : Ordered P s) (h : Streamed P s) (hok : Reliable s op)
    (hs : step P depth s op = some s') : Streamed P s' := by
  cases step_cases hs with
  | stay => exact h
  | walk | enqueue | rxWalk | connect | resetDecoder | receive | close =>
      exact h.of_quiet rfl rfl rfl id .inr rfl (fun _ _ => id) fun _ => rfl
  | stop =>
      exact h.of_quiet rfl rfl rfl (fun hr => (by cases hr)) .inr rfl (fun _ _ => id) fun _ => rfl
  | @txWalk p _ hlocks hlocks' _ _ hwork =>
      refine h.of_quiet rfl rfl rfl id hwork (hlocks'.trans hlocks.symm) (fun _ _ ht => ?_)
        fun _ => rfl
      dsimp only at ht
      rw [ht] at hlocks'
      cases hlocks'
  | txReceive ht =>
      exact h.of_quiet rfl rfl rfl id (fun _ => .inr (by rw [ht]; rfl)) (by rw [ht]; rfl)
        (fun _ _ heq => (by cases heq)) fun _ => rfl
  | publish _ hmutex | retract _ hmutex =>
      refine h.of_quiet rfl rfl rfl id .inr rfl (fun _ _ => id) fun hlocks => ?_
      rw [← hc.mutex, hmutex] at hlocks
      cases hlocks
  | @txDrop p item _ hpending hlocks hwork hlocks' hnone =>
      have hstream : ∀ n, Client.stream P { s with
          txTask := p, turns := s.turns ++ [(item.frame, none)] } n = s.stream P n :=
        fun n => congrArg (List.flatMap P.bytes) (turnsOn_append_none rfl n)
      refine ⟨fun n => ?_, fun n hf _ _ => ?_, fun _ _ _ ht => ?_⟩
      · rw [hstream]
        exact h.begun n
      · rw [hstream]
        refine h.whole n hf (.inr hwork) fun hbusy => ?_
        have hlocked := hbusy.1
        rw [hlocks] at hlocked
        cases hlocked
      · dsimp only at ht
        rw [ht] at hlocks'
        cases hlocks'
  | @txLock item n ht hmutex hsock =>
      have hidle : ∀ m, ¬ s.Sending m := by
        intro m hbusy
        rw [Client.Sending, ht] at hbusy
        cases hbusy.1
      have hwork : s.running = true ∨ s.txTask.atWork = true := .inr (by rw [ht]; rfl)
      have hturns : ∀ m, Client.turnsOn { s with
          mutexTaken := true
          txTask := .sending item 0
          turns := s.turns ++ [(item.frame, s.sock)] } m =
            s.turnsOn m ++ if m = n then [item.frame] else [] :=
        turnsOn_append_some (m := n) (by rw [hsock])
      refine ⟨fun m => ?_, fun m hf _ hno => ?_, fun item' offset m ht' hm hf => ?_⟩
      · unfold Client.stream
        rw [hturns, List.flatMap_append]
        exact (h.begun m).trans (List.prefix_append _ _)
      · have hmn : m ≠ n := fun heq => hno ⟨rfl, heq ▸ hsock⟩
        unfold Client.stream
        rw [hturns, if_neg hmn, List.append_nil]
        exact h.whole m hf hwork (hidle m)
      · cases ht'
        obtain rfl : n = m := Option.some.inj (hsock.symm.trans hm)
        refine ⟨s.turnsOn n, by rw [hturns, if_pos rfl], ?_⟩
        rw [List.take_zero, List.append_nil]
        exact h.whole n hf hwork (hidle n)
  | @txSend item offset written n ht hsock hle =>
      obtain ⟨l, hl, hsent⟩ := h.current item offset n ht hsock (hok n hsock)
      have hfits : P.bytes item.frame = item.data := (ho.hand item (by rw [ht]; rfl)).bytes
      -- the bytes so far, and those that are still to come
      have hnew : append s.sent n ((item.data.drop offset).take written) n =
          l.flatMap P.bytes ++ item.data.take (offset + written) := by
        rw [append_self, hsent, List.append_assoc, List.take_add]
      refine ⟨fun m => ?_, fun m hf _ hno => ?_, fun item' offset' m ht' hm _ => ?_⟩
      · by_cases hmn : m = n
        · subst hmn
          show append s.sent m _ m <+: (s.turnsOn m).flatMap P.bytes
          rw [hnew, hl, List.flatMap_append, List.prefix_append_right_inj, List.flatMap_singleton,
            hfits]
          exact List.take_prefix _ _
        · show append s.sent n _ m <+: s.stream P m
          rw [append_of_ne _ hmn]
          exact h.begun m
      · have hmn : m ≠ n := fun heq => hno ⟨rfl, heq ▸ hsock⟩
        show append s.sent n _ m = s.stream P m
        rw [append_of_ne _ hmn]
        refine h.whole m hf (.inr (by rw [ht]; rfl)) fun hbusy => hmn ?_
        exact Option.some.inj (hbusy.2.symm.trans hsock)
      · cases ht'
        obtain rfl : n = m := Option.some.inj (hsock.symm.trans hm)
        exact ⟨l, hl, hnew⟩
  | @txFail item offset n ht hsock =>
      refine ⟨h.begun, fun m hf _ _ => ?_, fun _ _ _ ht' => (by cases ht')⟩
      dsimp only at hf
      by_cases hmn : m = n
      · rw [hmn, Function.update_self] at hf
        cases hf
      · rw [Function.update_of_ne hmn] at hf
        refine h.whole m hf (.inr (by rw [ht]; rfl)) fun hbusy => hmn ?_
        exact Option.some.inj (hbusy.2.symm.trans hsock)
  | @txUnlock item offset ht hend =>
      refine ⟨h.begun, fun m hf hrun _ => ?_, fun _ _ _ ht' => (by cases ht')⟩
      have hrunning : s.running = true := hrun.resolve_right fun hwork => (by cases hwork)
      have hall : item.data.length ≤ offset :=
        hend.resolve_left fun hfalse => (by rw [hrunning] at hfalse; cases hfalse)
      by_cases hm : s.sock = some m
      · obtain ⟨l, hl, hsent⟩ := h.current item offset m ht hm hf
        have hfits : P.bytes item.frame = item.data := (ho.hand item (by rw [ht]; rfl)).bytes
        show s.sent m = (s.turnsOn m).flatMap P.bytes
        rw [hsent, hl, List.take_of_length_le hall, List.flatMap_append, List.flatMap_singleton,
          hfits]
      · exact h.whole m hf (.inl hrunning) fun hbusy => hm hbusy.2

/-! ### The bytes that are read -/

/-- What is delivered for a socket is what a fresh decoder makes of its bytes. -/
structure Decoded (P : Protocol φ ψ δ) (s : Client τ φ ψ δ) : Prop where
  wired : P.wired s.decoder
  fresh : ∀ n, s.delivered n = (run P.process P.decoder (s.received n)).2
  current : ∀ n, s.rxTask = .receiving n → ∃ d, P.wired d ∧
    s.decoder = (run P.process (P.reset d) (s.received n)).1 ∧
    s.delivered n = (run P.process (P.reset d) (s.received n)).2
  unread : ∀ n, s.sockets ≤ n ∨ s.rxTask = .connected n ∨ s.rxTask = .published n →
    s.received n = []

theorem decoded_init (P : Protocol φ ψ δ) : Decoded P (Client.init P : Client τ φ ψ δ) :=
  ⟨P.wired_decoder, fun _ => rfl, fun _ h => (by cases h), fun _ _ => rfl⟩

theorem Decoded.of_others {P : Protocol φ ψ δ} {s s' : Client τ φ ψ δ} (h : Decoded P s)
    (hdecoder : s'.decoder = s.decoder) (hreceived : s'.received = s.received)
    (hdelivered : s'.delivered = s.delivered) (hrx : ∀ n, s'.rxTask = .receiving n →
      s.rxTask = .receiving n)
    (hunread : ∀ n, s'.sockets ≤ n ∨ s'.rxTask = .connected n ∨ s'.rxTask = .published n →
      s.sockets ≤ n ∨ s.rxTask = .connected n ∨ s.rxTask = .published n) : Decoded P s' := by
  refine ⟨?_, fun n => ?_, fun n hn => ?_, fun n hn => ?_⟩
  · rw [hdecoder]
    exact h.wired
  · rw [hdelivered, hreceived]
    exact h.fresh n
  · rw [hdecoder, hreceived, hdelivered]
    exact h.current n (hrx n hn)
  · rw [hreceived]
    exact h.unread n (hunread n hn)

theorem decoded_step [DecidableEq τ] {P : Protocol φ ψ δ} {depth : Nat} {s s' : Client τ φ ψ δ}
    {op : Op τ φ} (hc : Control s) (h : Decoded P s) (hs : step P depth s op = some s') :
    Decoded P s' := by
  cases step_cases hs with
  | rxWalk _ _ _ hreceiving hfirst =>
      refine h.of_others rfl rfl rfl (fun n hn => absurd hn (hreceiving n)) fun n hn => ?_
      exact .inl (hn.resolve_right fun hn => hn.elim (hfirst n).1 (hfirst n).2)
  | connect ht =>
      refine h.of_others rfl rfl rfl (fun n hn => (by cases hn)) fun n hn => .inl ?_
      dsimp only at hn
      rcases hn with hn | hn | hn
      · omega
      · cases hn
        exact Nat.le_refl _
      · cases hn
  | publish ht =>
      refine h.of_others rfl rfl rfl (fun n hn => (by cases hn)) fun n hn => ?_
      rcases hn with hn | hn | hn
      · exact .inl hn
      · cases hn
      · cases hn
        exact .inr (.inl ht)
  | @resetDecoder n ht =>
      have hnone := h.unread n (.inr (.inr ht))
      have hdelivered := h.fresh n
      rw [hnone] at hdelivered
      refine ⟨P.wired_reset _ h.wired, h.fresh, fun m hm => ?_, fun m hm => ?_⟩
      · cases hm
        exact ⟨s.decoder, h.wired, by rw [hnone]; rfl, by rw [hnone]; exact hdelivered⟩
      · refine h.unread m (.inl (hm.resolve_right fun hm => ?_))
        rcases hm with hm | hm <;> cases hm
  | @receive n bytes ht =>
      obtain ⟨d, hd, hdecoder, hdelivered⟩ := h.current n ht
      have hnext : run P.process (P.reset d) (s.received n ++ bytes) =
          ((run P.process s.decoder bytes).1,
            s.delivered n ++ (run P.process s.decoder bytes).2) := by
        rw [run_append, ← hdecoder, ← hdelivered]
      refine ⟨run_invariant _ (fun d b => P.wired_process d b) h.wired bytes, fun m => ?_,
        fun m hm => ?_, fun m hm => ?_⟩
      · dsimp only
        by_cases hmn : m = n
        · rw [hmn, append_self, append_self, ← P.reset_fresh d _ hd, hnext]
        · rw [append_of_ne _ hmn, append_of_ne _ hmn]
          exact h.fresh m
      · obtain rfl : n = m := by
          rw [ht] at hm
          cases hm
          rfl
        refine ⟨d, hd, ?_⟩
        dsimp only
        rw [append_self, append_self, hnext]
        exact ⟨rfl, rfl⟩
      · -- the socket that is read from is neither a new one nor one to come
        have hn := hc.socket n (by rw [ht]; rfl)
        have hmn : m ≠ n := by
          rintro rfl
          dsimp only at hm
          rw [ht] at hm
          rcases hm with hm | hm | hm
          · omega
          · cases hm
          · cases hm
        dsimp only
        rw [append_of_ne _ hmn]
        exact h.unread m hm
  | close ht =>
      refine h.of_others rfl rfl rfl (fun n hn => (by cases hn)) fun n hn => ?_
      refine .inl (hn.resolve_right fun hn => ?_)
      rcases hn with hn | hn <;> cases hn
  | retract ht =>
      refine h.of_others rfl rfl rfl (fun n hn => (by cases hn)) fun n hn => ?_
      refine .inl (hn.resolve_right fun hn => ?_)
      rcases hn with hn | hn <;> cases hn
  | _ => exact h.of_others rfl rfl rfl (fun _ => id) fun _ => id

/-! ### Runs -/

/-- Everything that holds of a client. -/
structure ClientOk (P : Protocol φ ψ δ) (s : Client τ φ ψ δ) : Prop where
  control : Control s
  ordered : Ordered P s
  streamed : Streamed P s
  decoded : Decoded P s

theorem clientOk_run [DecidableEq τ] {P : Protocol φ ψ δ} {depth : Nat} {s : Client τ φ ψ δ}
    (h : Reach (· = Client.init P) (step P depth) Reliable s) : ClientOk P s := by
  refine h.invariant (fun s hs => ?_) fun s op s' hi hok hs => ?_
  · rw [hs]
    exact ⟨control_init P, ordered_init P, streamed_init P, decoded_init P⟩
  · exact ⟨control_step hi.control hs, ordered_step hi.control hi.ordered hs,
      streamed_step hi.control hi.ordered hi.streamed hok hs, decoded_step hi.control hi.decoded hs⟩

/-- **The sockets of a TCP client.** Whatever tasks send, and however the connection comes and
goes, as long as no `send` succeeds on a socket on which one has failed: the frames that were
accepted have their turn in this order, each of them once; they go out on one socket after the
other; a socket has been given the bytes of the frames that had their turn on it, and all of them
as long as no `send` on it fails and the client is not stopped, but for a frame that is being
sent; what is delivered is what a new decoder makes of the bytes of one connection; and nothing
happens any more on a socket that has been closed. -/
theorem client_streams [DecidableEq τ] (P : Protocol φ ψ δ) (depth : Nat) (s : Client τ φ ψ δ)
    (h : Reach (· = Client.init P) (step P depth) Reliable s) :
    s.turns.map Prod.fst ++ (s.txTask.pending ++ s.queue).map TxItem.frame = s.accepted ∧
      (s.turns.filterMap Prod.snd).Pairwise (· ≤ ·) ∧
      (∀ n, s.sent n <+: s.stream P n ∧
        (s.failed n = false → s.running = true → ¬ s.Sending n → s.sent n = s.stream P n)) ∧
      (∀ n, s.delivered n = (run P.process P.decoder (s.received n)).2) ∧
      ∀ op s', step P depth s op = some s' → ∀ n, s.closed n = true →
        s'.closed n = true ∧ s'.sent n = s.sent n ∧ s'.received n = s.received n := by
  have hi := clientOk_run h
  refine ⟨hi.ordered.order, hi.ordered.ascending, fun n => ⟨hi.streamed.begun n, ?_⟩,
    hi.decoded.fresh, fun op s' hs n hn => closed_step hi.control hs hn⟩
  intro hfailed hrunning hidle
  exact hi.streamed.whole n hfailed (.inl hrunning) hidle

end EspAx25.TcpClient
