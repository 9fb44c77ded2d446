import EspAx25.Agwpe.ClientData
import EspAx25.Agwpe.Replies
import EspAx25.Link.Recovery

/-!
# EspAx25.Agwpe.Circuit

Two clients that talk to each other through their AGWPE servers and an AX.25 link.

A client sends 'D' frames, `handle_send_data` hands their data to the connection of the session,
the connection of the other server delivers, `deliver_connected_data` makes a 'D' frame of it, and
the queue of that server takes the frame to the other client. The connections are those of
`EspAx25.Link.Reliable`, the servers those of `EspAx25.Agwpe.Replies`, and both do everything else
that they may do; but the session stays up.

Data are lost at the two ends only: the connection refuses what a client sends while the window is
full, and the queue of a server drops what it has no room for. A client that goes by the answers
to 'Y' requests is never refused.

Main results:

* `session_data_arrives`: what the clients are handed of what the other one has sent.
* `paced_data_arrives`: the same for clients that pace themselves.
-/

namespace EspAx25

open Conn Cyclic Locked Memory Printing Sessions Transition
open Sessions (Slot)

/-! ### The ends -/

/-- `find_conn_slot` finds the slot for the callsigns of the frame. -/
def Sessions.Slot.serves (slot : Slot) (frame : AgwpeFrame) : Bool :=
  strcaseEq (agwpeGetCallsign slot.localCall) (agwpeGetCallsign frame.header.callFrom) &&
    strcaseEq (agwpeGetCallsign slot.remoteCall) (agwpeGetCallsign frame.header.callTo)

/-- The data of a 'D' frame of the session that comes from the client. -/
def Sessions.Slot.sentData (slot : Slot) (frame : AgwpeFrame) : Option (List Byte) :=
  if frame.header.dataKind = 0x44 ∧ slot.serves frame = true then some frame.contents else none

/-- The data of a 'D' frame of the session for the client. -/
def Sessions.Slot.sessionData (slot : Slot) (frame : AgwpeFrame) : Option (List Byte) :=
  if frame.header.dataKind = 0x44 ∧ frame.header.callFrom = slot.remoteCall ∧
      frame.header.callTo = slot.localCall then
    some frame.contents
  else none

/-- One end of a session: its server, its slot there, and how many 'D' frames the client may still
send by the last answer to a 'Y' request. -/
structure CircuitEnd where
  desk : Desk
  slot : Slot
  allowance : Nat := 0

namespace CircuitEnd

/-- The data that the client has sent. -/
def sent (o : CircuitEnd) : List (List Byte) := o.desk.asked.filterMap o.slot.sentData

/-- The data that the client has been handed. -/
def received (o : CircuitEnd) : List (List Byte) := o.desk.handed.filterMap o.slot.sessionData

/-- How many frames for the client have been dropped. -/
def dropped (o : CircuitEnd) : Nat := o.desk.server.txQueue.refused

/-- `conn_on_data`, for payloads one after the other. -/
def deliver (o : CircuitEnd) (payloads : List (List Byte)) : CircuitEnd :=
  { o with desk := o.desk.put .conn (payloads.map (deliverConnectedData o.slot)) }

end CircuitEnd

/-- Both ends, and the link between the two connections. -/
structure Circuit where
  link : Link
  near : CircuitEnd
  far : CircuitEnd

inductive CircuitEvent
  | request (frame : AgwpeFrame) (found : Found)
  /-- Something happens on the link. -/
  | link (e : LinkEvent)
  /-- Something else happens in the server. -/
  | desk (e : DeskEvent)

namespace Circuit

/-- The circuit seen from the other side. -/
def swap (x : Circuit) : Circuit := ⟨x.link.swap, x.far, x.near⟩

/-- An event of the near connection, which has to leave the session up. -/
def transmit (x : Circuit) (e : LinkEvent) : Option Circuit :=
  let r := x.link.act e
  if r.1.Up then some { x with link := r.1, near := x.near.deliver (payloads r.2) } else none

/-- A request of the near client. What is found for the session is its slot. -/
def request (x : Circuit) (frame : AgwpeFrame) (found : Found) : Option Circuit :=
  let ours := x.near.slot.serves frame
  let found := if ours then { found with conn := some x.link.near.conn, noSlot := false } else found
  (x.near.desk.step (.request frame found)).bind fun desk =>
    let x' : Circuit := { x with near := { x.near with desk } }
    if ours then
      if frame.header.dataKind = 0x44 then
        { x' with near := { x'.near with allowance := x'.near.allowance - 1 } }.transmit
          (.sendData frame.contents)
      -- `handle_disconnect` ends the session
      else if frame.header.dataKind = 0x64 then none
      else if frame.header.dataKind = 0x59 then
        let answer := readLe32 (handleOutstandingConn frame (some x.link.near.conn)).contents
        some { x' with near :=
          { x'.near with allowance := x.link.near.conn.config.windowSize.toNat - answer.toNat } }
      else some x'
    else some x'

/-- An event of the near end. -/
def act (x : Circuit) : CircuitEvent → Option Circuit
  | .request frame found => x.request frame found
  | .link (.sendData _) => none
  | .link e => x.transmit e
  | .desk (.request _ _) => none
  | .desk e => (x.near.desk.step e).map fun desk => { x with near := { x.near with desk } }

def step (x : Circuit) : Side × CircuitEvent → Option Circuit
  | (.near, e) => x.act e
  | (.far, e) => (x.swap.act e).map swap

/-- A notice in a server is that of another session. -/
def FitsNear (x : Circuit) : CircuitEvent → Prop
  | .desk (.notice n) => x.near.slot.sessionData n.frame = none
  | _ => True

def Fits (x : Circuit) : Side × CircuitEvent → Prop
  | (.near, e) => x.FitsNear e
  | (.far, e) => x.swap.FitsNear e

/-- A client sends 'D' frames of 1 to 256 bytes, and no more of them than the last answer to a 'Y'
request allows. -/
def PacedNear (x : Circuit) : CircuitEvent → Prop
  | .request frame _ =>
    (x.near.slot.sentData frame).isSome = true →
      1 ≤ frame.contents.length ∧ frame.contents.length ≤ maxInfoLen ∧ 0 < x.near.allowance
  | _ => True

def Paced (x : Circuit) (e : Side × CircuitEvent) : Prop :=
  x.Fits e ∧ match e with
    | (.near, e) => x.PacedNear e
    | (.far, e) => x.swap.PacedNear e

/-- The connections have just been connected to each other, and the servers have been set up. -/
structure Starts (x : Circuit) : Prop where
  link : x.link.Start
  near : x.near.desk.Starts
  far : x.far.desk.Starts
  nearAllowance : x.near.allowance = 0
  farAllowance : x.far.allowance = 0

end Circuit

/-! ### Servers -/

namespace CircuitEnd

variable {o : CircuitEnd}

theorem sessionData_of_kind {frame : AgwpeFrame} (h : frame.header.dataKind ≠ 0x44) :
    o.slot.sessionData frame = none := if_neg fun hd => h hd.1

theorem sessionData_deliver {data : List Byte} (h : data.length ≤ agwpeMaxDataLen) :
    o.slot.sessionData (deliverConnectedData o.slot data) = some data := by
  have htake : data.take agwpeMaxDataLen = data := List.take_of_length_le h
  rw [Sessions.Slot.sessionData, if_pos ⟨rfl, rfl, rfl⟩, deliverConnectedData, htake,
    AgwpeFrame.contents_ofContents h]

theorem kind_of_answer {frame : AgwpeFrame} (h : frame.isAnswer = true ∨
    frame.header.dataKind = 0x64) : frame.header.dataKind ≠ 0x44 := by
  rintro hk
  rcases h with h | h
  · rw [AgwpeFrame.isAnswer, hk] at h
    cases h
  · rw [hk] at h
    cases h

theorem kind_of_monitor {frame : AgwpeFrame} (h : frame.header.dataKind ∈ monitorKinds) :
    frame.header.dataKind ≠ 0x44 := by
  intro hk
  rw [hk] at h
  simp [monitorKinds] at h

/-- The data for the client, in the queue or on their way to it, are what the connection has
delivered. -/
structure Carries (o : CircuitEnd) (delivered : List (List Byte)) : Prop where
  data : ∃ posted, o.desk.server.txQueue.Keeps posted ∧
    (posted ++ o.desk.pending .conn).filterMap o.slot.sessionData = delivered
  others : ∀ t, t ≠ .conn → ∀ f ∈ o.desk.pending t, f.header.dataKind ≠ 0x44

variable {delivered : List (List Byte)}

/-- Frames of other kinds for a task. -/
theorem Carries.put (h : o.Carries delivered) (t : Poster) {frames : List AgwpeFrame}
    (hframes : ∀ f ∈ frames, f.header.dataKind ≠ 0x44) :
    CircuitEnd.Carries { o with desk := o.desk.put t frames } delivered := by
  obtain ⟨posted, hkeeps, hdata⟩ := h.data
  have hnone : frames.filterMap o.slot.sessionData = [] :=
    List.filterMap_eq_nil_iff.mpr fun f hf => sessionData_of_kind (hframes f hf)
  refine ⟨⟨posted, hkeeps, ?_⟩, fun t' ht' f hf => ?_⟩
  · by_cases ht : t = .conn
    · subst ht
      dsimp only
      rw [Desk.put_self, ← List.append_assoc, List.filterMap_append]
      rw [hnone, List.append_nil]
      exact hdata
    · dsimp only
      rw [Desk.put_of_ne _ (Ne.symm ht)]
      exact hdata
  · by_cases heq : t' = t
    · rw [heq] at hf
      dsimp only at hf
      rw [Desk.put_self] at hf
      exact (List.mem_append.mp hf).elim (h.others t (heq ▸ ht') f) (hframes f)
    · dsimp only at hf
      rw [Desk.put_of_ne _ heq] at hf
      exact h.others t' ht' f hf

/-- The connection delivers. -/
theorem Carries.deliver (h : o.Carries delivered) {payloads : List (List Byte)}
    (hsize : ∀ p ∈ payloads, p.length ≤ agwpeMaxDataLen) :
    (o.deliver payloads).Carries (delivered ++ payloads) := by
  obtain ⟨posted, hkeeps, hdata⟩ := h.data
  refine ⟨⟨posted, hkeeps, ?_⟩, fun t ht f hf => ?_⟩
  · have hnew : (payloads.map (deliverConnectedData o.slot)).filterMap o.slot.sessionData =
        payloads := by
      rw [List.filterMap_map]
      exact (List.filterMap_congr fun p hp => sessionData_deliver (hsize p hp)).trans
        List.filterMap_some
    unfold CircuitEnd.deliver
    dsimp only
    rw [Desk.put_self, ← List.append_assoc, List.filterMap_append]
    exact congrArg₂ (· ++ ·) hdata hnew
  · refine h.others t ht f ?_
    unfold CircuitEnd.deliver at hf
    dsimp only at hf
    rwa [Desk.put_of_ne _ ht] at hf

/-- A step of the server, other than a notice of the session. -/
theorem Carries.step (h : o.Carries delivered) {e : DeskEvent} {desk : Desk}
    (hs : o.desk.step e = some desk)
    (hfits : ∀ n, e = .notice n → o.slot.sessionData n.frame = none) :
    CircuitEnd.Carries { o with desk } delivered := by
  cases Desk.step_cases hs with
  | request frame found server replies hp hin =>
      have hkinds : ∀ a ∈ replies, a.header.dataKind ≠ 0x44 := by
        intro a ha
        have hsent := @AgwpeServer.agwpeIn_kind o.desk.server frame found
        rw [hin] at hsent
        exact kind_of_answer (hsent a ha)
      obtain ⟨hqueue, -⟩ := o.desk.server.agwpeIn_txQueue frame found
      rw [hin] at hqueue
      obtain ⟨⟨posted, hkeeps, hdata⟩, hothers⟩ := h.put .client hkinds
      exact ⟨⟨posted, hqueue ▸ hkeeps, hdata⟩, hothers⟩
  | notice n =>
      obtain ⟨⟨posted, hkeeps, hdata⟩, hothers⟩ := h
      refine ⟨⟨posted, hkeeps, ?_⟩, fun t ht f hf => ?_⟩
      · have hnone : o.slot.sessionData n.frame = none := hfits n rfl
        dsimp only
        rw [Desk.put_self, ← List.append_assoc, List.filterMap_append]
        rw [List.filterMap_cons_none hnone, List.filterMap_nil, List.append_nil]
        exact hdata
      · dsimp only at hf
        rw [Desk.put_of_ne _ ht] at hf
        exact hothers t ht f hf
  | monitored e frames _ hframes =>
      exact h.put .router fun f hf => kind_of_monitor (hframes f hf)
  | enqueue t frame rest hp =>
      obtain ⟨⟨posted, hkeeps, hdata⟩, hothers⟩ := h
      refine ⟨⟨posted ++ [frame], hkeeps.post _ frame, ?_⟩, fun t' ht' f hf => ?_⟩
      · by_cases ht : t = .conn
        · subst ht
          rw [hp, List.append_cons] at hdata
          dsimp only
          rw [Function.update_self]
          exact hdata
        · have hnone : o.slot.sessionData frame = none :=
            sessionData_of_kind (hothers t ht frame (hp ▸ List.mem_cons_self))
          dsimp only
          rw [Function.update_of_ne (Ne.symm ht), List.append_assoc, List.filterMap_append,
            List.singleton_append, List.filterMap_cons_none hnone,
            ← List.filterMap_append]
          exact hdata
      · by_cases heq : t' = t
        · subst heq
          dsimp only at hf
          rw [Function.update_self] at hf
          exact hothers t' ht' f (hp ▸ List.mem_cons_of_mem _ hf)
        · dsimp only at hf
          rw [Function.update_of_ne heq] at hf
          exact hothers t' ht' f hf
  | txTask frame out htake =>
      obtain ⟨⟨posted, hkeeps, hdata⟩, hothers⟩ := h
      exact ⟨⟨posted, hkeeps.take htake, hdata⟩, hothers⟩

theorem carries_starts (h : o.desk.Starts) : o.Carries [] := by
  obtain ⟨hqueue, hpending, -⟩ := h
  refine ⟨⟨[], hqueue ▸ Outbox.keeps_nil, ?_⟩, fun t _ f hf => ?_⟩
  · rw [hpending]
    rfl
  · rw [hpending] at hf
    cases hf

/-- What the client has been handed is some of what has been delivered, and the first of it if
nothing has been dropped. -/
theorem Carries.received (h : o.Carries delivered) :
    o.received.Sublist delivered ∧ (o.dropped = 0 → o.received <+: delivered) := by
  obtain ⟨posted, hkeeps, rfl⟩ := h.data
  refine ⟨?_, fun hd => ?_⟩
  · have htaken : o.desk.handed.Sublist posted :=
      (List.sublist_append_left _ _).trans hkeeps.order
    exact (htaken.trans (List.sublist_append_left _ _)).filterMap _
  · have htaken : o.desk.handed <+: posted := ⟨_, hkeeps.whole hd⟩
    exact (htaken.trans (List.prefix_append _ _)).filterMap _

end CircuitEnd

/-! ### Links -/

namespace Link

variable {x : Link} {e : LinkEvent}

theorem act_far (x : Link) (e : LinkEvent) : (x.act e).1.far = x.far := by
  cases e <;> try rfl
  case deliver =>
    unfold Link.act
    dsimp only
    split <;> rfl

theorem act_delivered (x : Link) (e : LinkEvent) :
    (x.act e).1.near.delivered = x.near.delivered ++ payloads (x.act e).2 := by
  cases e
  case sendData | setBusy | expire => rfl
  case fire | drop => exact (List.append_nil _).symm
  case deliver =>
    unfold Link.act
    dsimp only
    split
    · exact (List.append_nil _).symm
    · rfl

/-- Only `ax25_conn_send_data` accepts payloads. -/
theorem act_accepted (x : Link) (e : LinkEvent) :
    ((x.act e).1.near.accepted = x.near.accepted) ∨
      ∃ data, e = .sendData data ∧ (x.act e).1.near.accepted = x.near.accepted ++ [data] := by
  cases e
  case sendData data =>
    have hacc : (x.act (.sendData data)).1.near.accepted = x.near.accepted ++
        (Op.sendData data).accepts (x.near.conn.step (.call (.sendData data) false false)).ret :=
      rfl
    rw [hacc]
    by_cases hret : (x.near.conn.step (.call (.sendData data) false false)).ret = .ok
    · rw [hret] at hacc
      exact .inr ⟨data, rfl, hacc⟩
    · rw [Op.accepts_of_ne fun _ _ => hret, List.append_nil] at hacc
      exact .inl hacc
  case expire t => cases t <;> exact .inl (List.append_nil _)
  case setBusy | fire | drop => exact .inl (by first | rfl | exact List.append_nil _)
  case deliver =>
    unfold Link.act
    dsimp only
    split
    · exact .inl rfl
    · exact .inl (List.append_nil _)

/-- What has been delivered came from the other side, so it has the size of a payload. -/
theorem Inv.sizes (h : x.Inv) : ∀ p ∈ x.near.delivered, p.length ≤ maxInfoLen := by
  obtain ⟨b, r, b', r', fwd, bwd, hx⟩ := h.sim
  intro p hp
  rw [hx.back.delivered] at hp
  exact (hx.back.sizes p (List.mem_of_mem_take hp)).2

/-- `ax25_conn_send_data` accepts a payload that has the size of one, while there is room. -/
theorem Inv.accepts (h : x.Inv) {data : List Byte} (h₀ : 1 ≤ data.length)
    (h₁ : data.length ≤ maxInfoLen)
    (hroom : x.near.conn.outstandingFrames < x.near.conn.config.windowSize.toNat) :
    (x.act (.sendData data)).1.near.accepted = x.near.accepted ++ [data] := by
  have hcall : ((Op.sendData data).call false x.near.conn).outcome = .returned .ok := by
    refine (h.near.window.sendData_call_ok h.near.initialized h.up.1 data false).mpr
      ⟨List.length_pos_iff.mp h₀, h₁, hroom, ?_⟩
    rw [acquireDeferred_of_free h.near.pool]
    exact Option.some_ne_none _
  have hret : (x.near.conn.step (.call (.sendData data) false false)).ret = .ok := by
    rw [Conn.step, Call.settle, hcall]
  change x.near.accepted ++ (Op.sendData data).accepts _ = _
  rw [hret]
  rfl

end Link

/-- The same window has the same number of outstanding frames. -/
theorem SameWindow.outstandingFrames {c c' : Conn} (h : SameWindow c c') :
    c'.outstandingFrames = c.outstandingFrames := by
  rw [Conn.outstandingFrames, Conn.outstandingFrames, h.va, h.vs]

/-- A call adds to the outstanding frames only what it accepts. -/
theorem Effect.outstandingFrames {c c₁ : Conn} {op : Op} {ret : EspErr} {pre : List Action}
    (h : Effect c op ret c₁ pre) (hw : WindowInv c) :
    c₁.outstandingFrames ≤ c.outstandingFrames + (op.accepts ret).length := by
  cases h with
  | same hacc _ hs =>
      rw [hs.outstandingFrames]
      exact Nat.le_add_right _ _
  | accepted data hop hret hroom h₀ h₁ =>
      subst hop hret
      have hw₁ := hw.queued hroom h₀ h₁
      rw [outstandingFrames_eq hw₁.va_lt hw₁.vs_lt, outstandingFrames_eq hw.va_lt hw.vs_lt]
      rw [outstandingFrames_eq hw.va_lt hw.vs_lt] at hroom
      have hsize := hw.size_le
      have hnext := arc_succ hw.va_lt hw.vs_lt (show arc 8 c.va c.vs + 1 < 8 by omega)
      exact Nat.le_of_eq hnext
  | received f hop hv hr =>
      have hw₁ := hw.received (s := ⟨c, []⟩) hv hr
      rw [outstandingFrames_eq hw₁.va_lt hw₁.vs_lt, outstandingFrames_eq hw.va_lt hw.vs_lt]
      have hd := (isValidNr_iff hw.va_lt hw.vs_lt f.nr_lt).mp hv
      have hadd := arc_add hw.va_lt hw.vs_lt f.nr_lt hd
      cases hr with
      | ack =>
          change arc 8 f.nr c.vs ≤ _
          omega
      | data =>
          rw [consume_conn]
          change arc 8 f.nr c.vs ≤ _
          omega

namespace Link

variable {x : Link}

/-- A call of the near connection adds to the outstanding frames only what it accepts, and leaves
its configuration alone. -/
theorem call_outstanding (hn : SeqInv x.near.conn) (hl : x.near.conn.Linked) {op : Op}
    (hop : op.OnLink) (hvalid : ∀ f, op = .onFrame f → x.near.conn.isValidNr f.nr = true)
    (hl' : (x.call op).1.near.conn.Linked) :
    (x.call op).1.near.conn.config = x.near.conn.config ∧
      (x.call op).1.near.conn.outstandingFrames + x.near.accepted.length ≤
        x.near.conn.outstandingFrames + (x.call op).1.near.accepted.length := by
  refine ⟨(call_sameSession hn hl hop hl').1.config, ?_⟩
  obtain ⟨-, c₁, pre, l, heff, -, -, hs⟩ | ⟨hst, -⟩ := call_onLink hn hl hop hvalid false false
  · have hle := heff.outstandingFrames (hn.entered op)
    have hsame := hs.outstandingFrames
    have hentered := (sameWindow_entered x.near.conn op).outstandingFrames
    have hlen : (x.call op).1.near.accepted.length = x.near.accepted.length +
        (op.accepts (x.near.conn.step (.call op false false)).ret).length := List.length_append
    change (x.near.conn.step (.call op false false)).conn.outstandingFrames + _ ≤ _
    omega
  · rcases hl' with hl' | hl' <;> cases hl'.symm.trans hst

/-- So does every event. -/
theorem Inv.act_outstanding (h : x.Inv) (e : LinkEvent) (hup : (x.act e).1.Up) :
    (x.act e).1.near.conn.config = x.near.conn.config ∧
      (x.act e).1.near.conn.outstandingFrames + x.near.accepted.length ≤
        x.near.conn.outstandingFrames + (x.act e).1.near.accepted.length := by
  have hcall : ∀ {op : Op}, op.OnLink → (∀ f, op ≠ .onFrame f) → (x.call op).1.Up →
      (x.call op).1.near.conn.config = x.near.conn.config ∧
        (x.call op).1.near.conn.outstandingFrames + x.near.accepted.length ≤
          x.near.conn.outstandingFrames + (x.call op).1.near.accepted.length :=
    fun hop hne hup => call_outstanding h.near h.up.1 hop (fun f ho => absurd ho (hne f)) hup.1
  cases e with
  | sendData data => exact hcall trivial (fun _ ho => by cases ho) hup
  | setBusy busy => exact hcall trivial (fun _ ho => by cases ho) hup
  | expire t => exact hcall (by cases t <;> trivial) (fun _ ho => by cases t <;> cases ho) hup
  | fire t => cases t <;> exact ⟨rfl, Nat.le_refl _⟩
  | drop k => exact ⟨rfl, Nat.le_refl _⟩
  | deliver =>
      obtain ⟨b, r, b', r', fwd, bwd, hx⟩ := h.sim
      cases hto : x.toNear with
      | nil =>
          have heq : x.act .deliver = (x, []) := by
            unfold Link.act
            simp only [hto]
          rw [heq]
          exact ⟨rfl, Nat.le_refl _⟩
      | cons f rest =>
          have heq : x.act .deliver = Link.call { x with toNear := rest } (.onFrame f) := by
            unfold Link.act
            simp only [hto]
          have hmem : f ∈ bwd.map Prod.fst := by
            rw [← hx.toNear, hto]
            exact List.mem_cons_self
          obtain ⟨p, hp, rfl⟩ := List.mem_map.mp hmem
          have hop : (Op.onFrame p.1).OnLink :=
            (hx.back.carried p hp).data.imp And.left And.left
          rw [heq] at hup ⊢
          refine call_outstanding (x := { x with toNear := rest }) h.near h.up.1 hop ?_ hup.1
          rintro f' hf
          cases hf
          exact hx.isValidNr h.near.window hp

end Link

/-! ### Answers to 'Y' requests -/

/-- The slots in use are those of the frames that are outstanding. -/
theorem WindowInv.pendingIFrames {c : Conn} (h : WindowInv c) :
    pendingIFrames c = c.outstandingFrames := by
  have hcount : ∀ a < 8, ∀ b < 8,
      (List.range 8).countP (fun i => decide (Mem 8 a b i)) = arc 8 a b := by decide
  have hsame : (fun i => (c.txQueue i).inUse) = fun i => decide (Mem 8 c.va c.vs i) := by
    funext i
    rw [Bool.eq_iff_iff, decide_eq_true_iff]
    exact h.inUse i
  rw [EspAx25.pendingIFrames, hsame, hcount _ h.va_lt _ h.vs_lt,
    outstandingFrames_eq h.va_lt h.vs_lt]

/-- A client reads the number of outstanding frames in the answer. -/
theorem WindowInv.answer {c : Conn} (h : WindowInv c) (frame : AgwpeFrame) :
    (readLe32 (handleOutstandingConn frame (some c)).contents).toNat = c.outstandingFrames := by
  have hlt : c.outstandingFrames < 2 ^ 32 := by
    rw [outstandingFrames_eq h.va_lt h.vs_lt]
    exact Nat.lt_trans (arc_lt h.vs_lt) (by decide)
  have hcontents : (handleOutstandingConn frame (some c)).contents =
      writeLe32 (UInt32.ofNat (EspAx25.pendingIFrames c)) ++ [] := by
    rw [List.append_nil]
    exact AgwpeFrame.contents_ofContents (Nat.le_of_ble_eq_true rfl)
  rw [hcontents, readLe32_writeLe32, h.pendingIFrames]
  exact UInt32.toNat_ofNat_of_lt' hlt

/-! ### Runs -/

namespace Circuit

variable {x x' : Circuit}

/-- What every run keeps. -/
structure Ok (x : Circuit) : Prop where
  link : x.link.Inv
  near : x.near.Carries x.link.near.delivered
  far : x.far.Carries x.link.far.delivered
  nearSent : x.link.near.accepted.Sublist x.near.sent
  farSent : x.link.far.accepted.Sublist x.far.sent

theorem Ok.swap (h : x.Ok) : x.swap.Ok := ⟨h.link.swap, h.far, h.near, h.farSent, h.nearSent⟩

theorem Starts.ok (h : x.Starts) : x.Ok := by
  refine ⟨h.link.inv, ?_, ?_, ?_, ?_⟩
  · rw [h.link.near.delivered]
    exact CircuitEnd.carries_starts h.near
  · rw [h.link.far.delivered]
    exact CircuitEnd.carries_starts h.far
  · rw [h.link.near.accepted]
    exact List.nil_sublist _
  · rw [h.link.far.accepted]
    exact List.nil_sublist _

theorem transmit_eq {e : LinkEvent} (ht : x.transmit e = some x') :
    (x.link.act e).1.Up ∧ x' =
      { x with link := (x.link.act e).1, near := x.near.deliver (payloads (x.link.act e).2) } := by
  unfold transmit at ht
  dsimp only at ht
  split_ifs at ht with hup
  exact ⟨hup, (Option.some.inj ht).symm⟩

/-- The session stays as it is, or the server makes a step and the client may send so much. -/
inductive Acts (x : Circuit) : CircuitEvent → Circuit → Prop
  | data (frame : AgwpeFrame) (found found' : Found) (desk : Desk) (x' : Circuit) :
      x.near.slot.sentData frame = some frame.contents →
      x.near.desk.step (.request frame found') = some desk →
      Circuit.transmit { x with near :=
        { x.near with desk, allowance := x.near.allowance - 1 } } (.sendData frame.contents) =
          some x' →
      Acts x (.request frame found) x'
  | request (frame : AgwpeFrame) (found found' : Found) (desk : Desk) (allowance : Nat) :
      x.near.slot.sentData frame = none →
      x.near.desk.step (.request frame found') = some desk →
      allowance = x.near.allowance ∨ allowance = x.link.near.conn.config.windowSize.toNat -
        (readLe32 (handleOutstandingConn frame (some x.link.near.conn)).contents).toNat →
      Acts x (.request frame found) { x with near := { x.near with desk, allowance } }
  | link (e : LinkEvent) (x' : Circuit) : (∀ data, e ≠ .sendData data) → x.transmit e = some x' →
      Acts x (.link e) x'
  | desk (e : DeskEvent) (desk : Desk) : (∀ frame found, e ≠ .request frame found) →
      x.near.desk.step e = some desk →
      Acts x (.desk e) { x with near := { x.near with desk } }

theorem acts_of_act {e : CircuitEvent} (h : x.act e = some x') : Acts x e x' := by
  have hother : ∀ {e : DeskEvent}, (∀ frame found, e ≠ .request frame found) →
      ((x.near.desk.step e).map fun desk => { x with near := { x.near with desk } }) = some x' →
      Acts x (.desk e) x' := by
    intro e hne h
    obtain ⟨desk, hdesk, rfl⟩ := Option.map_eq_some_iff.mp h
    exact .desk e desk hne hdesk
  cases e with
  | request frame found =>
      obtain ⟨desk, hdesk, hrest⟩ := Option.bind_eq_some_iff.mp h
      by_cases hours : x.near.slot.serves frame = true
      · simp only [hours, if_true] at hdesk hrest
        by_cases hdata : frame.header.dataKind = 0x44
        · rw [if_pos hdata] at hrest
          exact .data frame found _ desk x' (if_pos ⟨hdata, hours⟩) hdesk hrest
        · have hnone : x.near.slot.sentData frame = none := if_neg fun hd => hdata hd.1
          rw [if_neg hdata] at hrest
          split_ifs at hrest
          · obtain rfl := Option.some.inj hrest
            exact .request frame found _ desk _ hnone hdesk (.inr rfl)
          · obtain rfl := Option.some.inj hrest
            exact .request frame found _ desk _ hnone hdesk (.inl rfl)
      · have hnone : x.near.slot.sentData frame = none := if_neg fun hd => hours hd.2
        rw [if_neg hours] at hrest
        obtain rfl := Option.some.inj hrest
        exact .request frame found _ desk _ hnone hdesk (.inl rfl)
  | link e =>
      cases e with
      | sendData data => cases h
      | setBusy | fire | expire | deliver | drop => exact .link _ x' (fun _ he => by cases he) h
  | desk e =>
      cases e with
      | request frame found => cases h
      | notice | hear | sent | enqueue | txTask => exact hother (fun _ _ he => by cases he) h

/-- A request is remembered. -/
theorem asked_request {o : CircuitEnd} {frame : AgwpeFrame} {found : Found} {desk : Desk}
    (h : o.desk.step (.request frame found) = some desk) :
    CircuitEnd.sent { o with desk } = o.sent ++ (o.slot.sentData frame).toList := by
  cases Desk.step_cases h with
  | monitored _ _ hne => exact absurd rfl (hne frame found)
  | request _ _ server replies hp hin =>
      rw [CircuitEnd.sent, CircuitEnd.sent]
      dsimp only
      rw [List.filterMap_append]
      cases hd : o.slot.sentData frame with
      | none => rw [List.filterMap_cons_none hd]; rfl
      | some d => rw [List.filterMap_cons_some hd]; rfl

/-- Nothing else is. -/
theorem asked_other {o : CircuitEnd} {e : DeskEvent} {desk : Desk}
    (he : ∀ frame found, e ≠ .request frame found) (h : o.desk.step e = some desk) :
    CircuitEnd.sent { o with desk } = o.sent := by
  cases Desk.step_cases h with
  | request frame found => exact absurd rfl (he frame found)
  | notice | monitored | enqueue | txTask => rfl

/-- The server makes a step. -/
theorem Ok.desk (h : x.Ok) {e : DeskEvent} {desk : Desk} (hs : x.near.desk.step e = some desk)
    (hfits : ∀ n, e = .notice n → x.near.slot.sessionData n.frame = none) (allowance : Nat)
    (hsent : x.near.sent.Sublist (CircuitEnd.sent { x.near with desk })) :
    Circuit.Ok { x with near := { x.near with desk, allowance } } := by
  obtain ⟨hdata, hothers⟩ := h.near.step hs hfits
  exact ⟨h.link, ⟨hdata, hothers⟩, h.far, h.nearSent.trans hsent, h.farSent⟩

/-- The near connection does something. -/
theorem Ok.transmit (h : x.Ok) {e : LinkEvent} (ht : x.transmit e = some x')
    (hsent : (x.link.act e).1.near.accepted.Sublist x.near.sent) : x'.Ok := by
  obtain ⟨hup, rfl⟩ := transmit_eq ht
  have hinv := (h.link.act e).2 hup
  have hdelivered := Link.act_delivered x.link e
  refine ⟨hinv, ?_, ?_, hsent, ?_⟩
  · dsimp only
    rw [hdelivered]
    refine h.near.deliver fun p hp => ?_
    have hsize := hinv.sizes p (hdelivered ▸ List.mem_append_right _ hp)
    exact Nat.le_trans hsize (by decide)
  · dsimp only
    rw [Link.act_far]
    exact h.far
  · dsimp only
    rw [Link.act_far]
    exact h.farSent

theorem ok_act {e : CircuitEvent} (h : x.Ok) (hfits : x.FitsNear e) (hs : x.act e = some x') :
    x'.Ok := by
  cases acts_of_act hs with
  | data frame found found' desk _ hdata hdesk ht =>
      have hask := asked_request hdesk
      rw [hdata] at hask
      have hok : Circuit.Ok { x with near :=
          { x.near with desk, allowance := x.near.allowance - 1 } } :=
        h.desk hdesk (fun _ he => by cases he) _ (hask ▸ List.sublist_append_left _ _)
      refine hok.transmit ht ?_
      have hsent : CircuitEnd.sent { x.near with desk, allowance := x.near.allowance - 1 } =
          x.near.sent ++ [frame.contents] := hask
      rw [hsent]
      rcases Link.act_accepted x.link (.sendData frame.contents) with hacc | ⟨data, he, hacc⟩
      · rw [hacc]
        exact h.nearSent.trans (List.sublist_append_left _ _)
      · cases he
        rw [hacc]
        exact h.nearSent.append_right _
  | request frame found found' desk allowance hnone hdesk hallow =>
      refine h.desk hdesk (fun _ he => by cases he) _ ?_
      rw [asked_request hdesk]
      exact List.sublist_append_left _ _
  | link e _ hne ht =>
      refine h.transmit ht ?_
      rcases Link.act_accepted x.link e with hacc | ⟨data, he, -⟩
      · rw [hacc]
        exact h.nearSent
      · exact absurd he (hne data)
  | desk e desk hne hdesk =>
      refine h.desk hdesk (fun n he => ?_) _ ?_
      · subst he
        exact hfits
      · rw [asked_other hne hdesk]

theorem ok_step {e : Side × CircuitEvent} (h : x.Ok) (hfits : x.Fits e) (hs : x.step e = some x') :
    x'.Ok := by
  obtain ⟨side, e⟩ := e
  cases side with
  | near => exact ok_act h hfits hs
  | far =>
      obtain ⟨y, hy, rfl⟩ := Option.map_eq_some_iff.mp hs
      exact (ok_act h.swap hfits hy).swap

theorem ok_run {ok : Circuit → Side × CircuitEvent → Prop} (hok : ∀ x e, ok x e → x.Fits e)
    (h : Reach Starts step ok x) : x.Ok :=
  h.invariant (fun _ => Starts.ok) fun x e _ hx he hs => ok_step hx (hok x e he) hs

/-- What the far client is handed of what the near one has sent. -/
structure Arrives (x : Circuit) : Prop where
  accepted : x.link.near.accepted.Sublist x.near.sent
  received : x.far.received.Sublist x.link.near.accepted
  /-- Nothing is missing in between if nothing has been dropped. -/
  inOrder : x.far.dropped = 0 → x.far.received <+: x.link.near.accepted
  /-- What has been delivered has been handed over, once nothing waits. -/
  whole : x.far.dropped = 0 → x.far.desk.server.txQueue.queue = [] →
    x.far.desk.pending .conn = [] → x.far.received = x.link.far.delivered

theorem Ok.arrives (h : x.Ok) : x.Arrives := by
  obtain ⟨b, r, b', r', fwd, bwd, hx⟩ := h.link.sim
  have hdelivered : x.link.far.delivered <+: x.link.near.accepted := by
    rw [hx.out.delivered]
    exact List.take_prefix r' _
  obtain ⟨hreceived, horder⟩ := h.far.received
  refine ⟨h.nearSent, hreceived.trans hdelivered.sublist, fun hd => (horder hd).trans hdelivered,
    fun hd hqueue hpending => ?_⟩
  obtain ⟨posted, hkeeps, hdata⟩ := h.far.data
  rw [hpending, List.append_nil, ← hkeeps.whole hd, Outbox.passed, hqueue, List.append_nil] at hdata
  exact hdata

/-- The connection has accepted all that the client has sent, and the client sends no more frames
than the window has room for. -/
structure KeepsPace (e : Endpoint) (o : CircuitEnd) : Prop where
  accepted : e.accepted = o.sent
  room : e.conn.outstandingFrames + o.allowance ≤ e.conn.config.windowSize.toNat

/-- What runs keep in which the clients pace themselves. -/
structure PacedOk (x : Circuit) : Prop where
  ok : x.Ok
  near : KeepsPace x.link.near x.near
  far : KeepsPace x.link.far x.far

theorem PacedOk.swap (h : x.PacedOk) : x.swap.PacedOk := ⟨h.ok.swap, h.far, h.near⟩

theorem keepsPace_start {e : Endpoint} {o : CircuitEnd} (h : e.Fresh) (hdesk : o.desk.Starts)
    (hallow : o.allowance = 0) : KeepsPace e o := by
  refine ⟨?_, ?_⟩
  · rw [h.accepted, CircuitEnd.sent, hdesk.2.2]
    rfl
  · have hw := h.live.window
    rw [hallow, outstandingFrames_eq hw.va_lt hw.vs_lt]
    exact hw.outstanding

theorem Starts.pacedOk (h : x.Starts) : x.PacedOk :=
  ⟨h.ok, keepsPace_start h.link.near h.near h.nearAllowance,
    keepsPace_start h.link.far h.far h.farAllowance⟩

theorem pacedOk_act {e : CircuitEvent} (h : x.PacedOk) (hfits : x.FitsNear e)
    (hpaced : x.PacedNear e) (hs : x.act e = some x') : x'.PacedOk := by
  have hok := ok_act h.ok hfits hs
  have hnear := h.near
  cases acts_of_act hs with
  | data frame found found' desk _ hdata hdesk ht =>
      obtain ⟨h₀, h₁, hallow⟩ := hpaced (by rw [hdata]; rfl)
      obtain ⟨hup, rfl⟩ := transmit_eq ht
      have hask := asked_request hdesk
      rw [hdata] at hask
      have hroom := hnear.room
      have hacc := h.ok.link.accepts h₀ h₁ (by omega)
      obtain ⟨hconfig, hout⟩ := h.ok.link.act_outstanding (.sendData frame.contents) hup
      rw [hacc, List.length_append, List.length_singleton] at hout
      refine ⟨hok, ⟨?_, ?_⟩, ?_⟩
      · refine hacc.trans ?_
        rw [hnear.accepted]
        exact hask.symm
      · dsimp only
        rw [hconfig]
        change _ + (x.near.allowance - 1) ≤ _
        omega
      · dsimp only
        rw [Link.act_far]
        exact h.far
  | request frame found found' desk allowance hnone hdesk hallow =>
      have hask := asked_request hdesk
      rw [hnone] at hask
      refine ⟨hok, ⟨hnear.accepted.trans (hask.trans (List.append_nil _)).symm, ?_⟩, h.far⟩
      rcases hallow with rfl | rfl
      · exact hnear.room
      · have hroom := hnear.room
        dsimp only
        rw [h.ok.link.near.window.answer frame]
        omega
  | link e _ hne ht =>
      obtain ⟨hup, rfl⟩ := transmit_eq ht
      obtain ⟨hconfig, hout⟩ := h.ok.link.act_outstanding e hup
      have hacc : (x.link.act e).1.near.accepted = x.link.near.accepted :=
        (Link.act_accepted x.link e).resolve_right fun ⟨data, he, _⟩ => hne data he
      have hroom := hnear.room
      refine ⟨hok, ⟨hacc.trans hnear.accepted, ?_⟩, ?_⟩
      · rw [hacc] at hout
        dsimp only
        rw [hconfig]
        change _ + x.near.allowance ≤ _
        omega
      · dsimp only
        rw [Link.act_far]
        exact h.far
  | desk e desk hne hdesk =>
      exact ⟨hok, ⟨hnear.accepted.trans (asked_other hne hdesk).symm, hnear.room⟩, h.far⟩

theorem pacedOk_step {e : Side × CircuitEvent} (h : x.PacedOk) (hpaced : x.Paced e)
    (hs : x.step e = some x') : x'.PacedOk := by
  obtain ⟨side, e⟩ := e
  obtain ⟨hfits, hpace⟩ := hpaced
  cases side with
  | near => exact pacedOk_act h hfits hpace hs
  | far =>
      obtain ⟨y, hy, rfl⟩ := Option.map_eq_some_iff.mp hs
      exact (pacedOk_act h.swap hfits hpace hy).swap

end Circuit

/-- **What arrives at the other client.** In every run during which the session stays up, whatever
is lost on the link and whatever else the servers do: each client is handed, in order and at most
once, data of the 'D' frames that the other one has sent, and they are the first of those that its
connection has accepted unless the queue of the server has dropped a frame. -/
theorem session_data_arrives {x : Circuit} (h : Reach Circuit.Starts Circuit.step Circuit.Fits x) :
    x.Arrives ∧ x.swap.Arrives := by
  have hok := Circuit.ok_run (fun _ _ he => he) h
  exact ⟨hok.arrives, hok.swap.arrives⟩

/-- **A client that goes by the answers to 'Y' requests loses nothing.** If each client sends 'D'
frames of 1 to 256 bytes only, and after a 'Y' request no more of them than the window is larger
than the answer, then the connections have accepted all that has been sent, and each client is
handed the first of it, all of it once the link has delivered it and nothing waits in the server,
unless the queue of the server has dropped a frame. -/
theorem paced_data_arrives {x : Circuit} (h : Reach Circuit.Starts Circuit.step Circuit.Paced x) :
    (x.link.near.accepted = x.near.sent ∧ x.link.far.accepted = x.far.sent) ∧
      (x.far.dropped = 0 → x.far.received <+: x.near.sent) ∧
      (x.near.dropped = 0 → x.near.received <+: x.far.sent) := by
  have hpaced : x.PacedOk :=
    h.invariant (fun _ => Circuit.Starts.pacedOk)
      fun _ _ _ hx he hs => Circuit.pacedOk_step hx he hs
  have hnear := hpaced.near.accepted
  have hfar := hpaced.far.accepted
  refine ⟨⟨hnear, hfar⟩, fun hd => ?_, fun hd => ?_⟩
  · rw [← hnear]
    exact hpaced.ok.arrives.inOrder hd
  · rw [← hfar]
    exact hpaced.ok.swap.arrives.inOrder hd

/-! ### A sample run -/

instance (x : Circuit) (e : CircuitEvent) : Decidable (x.FitsNear e) := by
  unfold Circuit.FitsNear
  split <;> infer_instance

instance (x : Circuit) (e : CircuitEvent) : Decidable (x.PacedNear e) := by
  unfold Circuit.PacedNear
  split <;> infer_instance

instance (x : Circuit) (e : Side × CircuitEvent) : Decidable (x.Fits e) :=
  match e with
  | (.near, e) => inferInstanceAs (Decidable (x.FitsNear e))
  | (.far, e) => inferInstanceAs (Decidable (x.swap.FitsNear e))

instance (x : Circuit) (e : Side × CircuitEvent) : Decidable (x.Paced e) :=
  match e with
  | (.near, e) => inferInstanceAs (Decidable (x.FitsNear e ∧ x.PacedNear e))
  | (.far, e) => inferInstanceAs (Decidable (x.swap.FitsNear e ∧ x.swap.PacedNear e))

/-- The end of a session of two stations that have one letter each. -/
def sampleEnd (localCall remoteCall : Byte) : CircuitEnd where
  desk := { server := .init 0 none 0 }
  slot :=
    { inUse := true
      localCall := agwpeSetCallsign [localCall]
      remoteCall := agwpeSetCallsign [remoteCall] }

def sampleCircuit : Circuit := ⟨samplePair, sampleEnd 0x41 0x42, sampleEnd 0x42 0x41⟩

theorem starts_sampleCircuit : sampleCircuit.Starts :=
  ⟨start_samplePair, ⟨rfl, rfl, rfl⟩, ⟨rfl, rfl, rfl⟩, rfl, rfl⟩

/-- A frame of the near client for the session. -/
def sampleRequest (kind : Byte) (data : List Byte) : CircuitEvent :=
  .request (.ofContents { agwpeFrameInit.header with
      dataKind := kind
      callFrom := agwpeSetCallsign [0x41]
      callTo := agwpeSetCallsign [0x42] } data)
    ⟨1, none, false⟩

/-- The near client asks, sends a frame, and the far one gets it. -/
def sampleTalk : List (Side × CircuitEvent) :=
  [(.near, sampleRequest 0x59 []), (.near, .desk (.enqueue .client)),
    (.near, sampleRequest 0x44 [0x68, 0x69]), (.far, .link .deliver),
    (.far, .desk (.enqueue .conn)), (.far, .desk .txTask)]

theorem reach_sampleTalk : ∃ x, Reach Circuit.Starts Circuit.step Circuit.Paced x ∧
    x.near.sent = [[0x68, 0x69]] ∧ x.far.received = [[0x68, 0x69]] ∧ x.far.dropped = 0 := by
  have hrun : (replay Circuit.step Circuit.Paced sampleCircuit sampleTalk).map
      (fun x => (x.near.sent, x.far.received, x.far.dropped)) =
        some ([[0x68, 0x69]], [[0x68, 0x69]], 0) := by decide +kernel
  obtain ⟨x, hx, htuple⟩ := Option.map_eq_some_iff.mp hrun
  simp only [Prod.mk.injEq] at htuple
  exact ⟨x, Reach.replay (.start starts_sampleCircuit) hx, htuple⟩

theorem session_data_arrives_sample : ∃ x : Circuit, x.far.received = [[0x68, 0x69]] ∧
    x.Arrives := by
  obtain ⟨x, hx, -, hreceived, -⟩ := reach_sampleTalk
  exact ⟨x, hreceived, (session_data_arrives (hx.mono fun _ _ he => he.1)).1⟩

theorem paced_data_arrives_sample : ∃ x : Circuit, x.near.sent = [[0x68, 0x69]] ∧
    x.far.received = [[0x68, 0x69]] ∧ x.far.received <+: x.near.sent := by
  obtain ⟨x, hx, hsent, hreceived, hdropped⟩ := reach_sampleTalk
  exact ⟨x, hsent, hreceived, (paced_data_arrives hx).2.1 hdropped⟩

end EspAx25
