import EspAx25.Conn.Transfer

/-!
# EspAx25.Conn.Cases

The inversion lemma for locked sections: everything that one call can do to the
context and to its batch.

`SectionStep c op s o` lists the branches of the source with their guards and
with the batch written out; `section_cases` proves that there are no others.
Branches that differ only in a frame or a message share a constructor. Every
invariant of the connection is a case analysis on this relation, and so does not
unfold a handler.
-/

namespace EspAx25

open Cyclic Conn Locked

/-! ### The contexts that the branches end in -/

namespace Conn

/-- The context with all sequence variables and flags reset and the queue
cleared (`reset_state_vars`), in state `st`. -/
def cleared (c : Conn) (st : ConnState) : Conn :=
  { c with
    vs := 0, vr := 0, va := 0,
    peerBusy := false, localBusy := false, rejSent := false, ackPending := false,
    retryCount := 0
    txQueue := fun i =>
      if i < 8 then { c.txQueue i with inUse := false, transmitted := false, len := 0 }
      else c.txQueue i
    state := st }

/-- The context after `enter_disconnected_state`. -/
def torn (c : Conn) : Conn :=
  { c.cleared .disconnected with
    remoteAddrSet := false
    path := []
    t1CurrentMs := c.config.t1Ms
    timerT1 := c.timerT1.stop
    timerT2 := c.timerT2.stop
    timerT3 := c.timerT3.stop }

/-- The context of a link that has just come up: variables reset, T1 stopped,
T3 running. -/
def linkUp (c : Conn) : Conn :=
  { c.cleared .connected with
    timerT1 := c.timerT1.stop
    timerT3 := c.timerT3.start (c.config.t3Ms.toNat * 1000) }

/-- The path and T1 of the frame that opens or resets a link. -/
def adopt (c : Conn) (f : Frame) : Conn := (c.setConnPathFromFrame f).seedT1ForPath

/-- The context while `on_connect` decides about the SABM `f`. -/
def requested (c : Conn) (f : Frame) : Conn :=
  { ({ c with remoteAddr := f.source, remoteAddrSet := true } : Conn).adopt f with
    isLocalInitiated := false
    refusePending := false }

/-- The context with all three timers stopped. -/
def silenced (c : Conn) : Conn :=
  { c with
    timerT1 := c.timerT1.stop
    timerT2 := c.timerT2.stop
    timerT3 := c.timerT3.stop }

theorem stopAllTimers_eq (c : Conn) : c.stopAllTimers = c.silenced := rfl

/-- The context after the link has been given up for a new SABM of ours. -/
def reestablishing (c : Conn) : Conn := (c.cleared .awaitingConnection).startTimerT1

/-- The context after `ax25_conn_connect_via`. -/
def dialing (c : Conn) (remoteAddr : Address) (digipeaters : List Address) : Conn :=
  ({ c.cleared .awaitingConnection with
      remoteAddr := remoteAddr
      remoteAddrSet := true
      isLocalInitiated := true
      path := digipeaters.map fun d => { d with hasBeenRepeated := false, isLast := false }
      t1CurrentMs := c.config.t1Ms } : Conn).startTimerT1

/-- The context with `data` in slot V(S) of the transmit queue. -/
def queued (c : Conn) (data : List Byte) : Conn :=
  { c with
    txQueue := Function.update c.txQueue c.vs
      { data := data, len := data.length, ns := c.vs, inUse := true, transmitted := false }
    vs := mod8 (c.vs + 1) }

/-- The two data-transfer states. -/
def Linked (c : Conn) : Prop := c.state = .connected ∨ c.state = .timerRecovery

instance (c : Conn) : Decidable c.Linked := inferInstanceAs (Decidable (_ ∨ _))

/-- The action that records a U frame of context `c`. -/
def uFrame (c : Conn) (cmd : Bool) (ctrl : Byte) (pf : Bool) : Action :=
  .frame (outFrame c cmd .u (ctrl ||| pfBits pf))

/-- The action that records the RR poll of context `c`. -/
def rrPoll (c : Conn) : Action := .frame (outFrame c true .s (frameBuildRrControl c.vr true))

end Conn

theorem SameLink.linked {c c' : Conn} (h : SameLink c c') (hl : c.Linked) : c'.Linked := by
  rcases h.state with h | ⟨-, h⟩
  · unfold Linked
    rw [h]
    exact hl
  · exact Or.inl h

/-- What is recorded ahead of the final notifications of a torn session: an
error, or a UA or DM to the peer. -/
inductive Farewell (c : Conn) : Action → Prop
  | error (code : EspErr) (msg : String) (retry : UInt8) : Farewell c (.error code msg retry)
  | ua (pf : Bool) : Farewell c (c.uFrame false ctrlUa pf)
  | dm (pf : Bool) : Farewell c (c.uFrame false ctrlDm pf)

/-- What T1 records when it gives up: the timeout, then at most a DM. -/
def GivesUp (c : Conn) (pre : List Action) : Prop :=
  ∃ msg retry l, pre = .error .timeout msg retry :: l ∧ ∀ a ∈ l, a = c.uFrame false ctrlDm true

/-- The operation is a timer callback. -/
def Op.isTimer : Op → Bool
  | .timerT1 | .timerT2 | .timerT3 => true
  | _ => false

/-! ### The branches -/

/-- Everything that the locked section of `op` can do in context `c`. -/
inductive SectionStep (c : Conn) : Op → Locked → Outcome → Prop
  /-- A call that is refused, or a frame that is ignored. -/
  | ignored {op : Op} (ret : EspErr) : op.isTimer = false →
      SectionStep c op ⟨c, []⟩ (.returned ret)
  | t1Idle : c.state = .disconnected → SectionStep c .timerT1 ⟨c, []⟩ (.returned .ok)
  | t2Idle : (c.Linked → c.ackPending = false) →
      SectionStep c .timerT2 ⟨c, []⟩ (.returned .ok)
  | t3Idle : c.state ≠ .connected → SectionStep c .timerT3 ⟨c, []⟩ (.returned .ok)
  /-- SABM without a session: `on_connect` is asked. -/
  | request (f : Frame) : c.state = .disconnected → f.type = .u → f.uType = ctrlSabm →
      SectionStep c (.onFrame f) ⟨c.requested f, []⟩ (.onConnect false (.decide f))
  /-- DISC while there is no link, or SABM while releasing: DM. -/
  | reject (f : Frame) : f.type = .u →
      (c.state = .disconnected ∧ f.uType = ctrlDisc ∨
        c.state = .awaitingConnection ∧ f.uType = ctrlDisc ∨
        c.state = .awaitingRelease ∧ f.uType = ctrlSabm) →
      SectionStep c (.onFrame f) ⟨c, [c.uFrame false ctrlDm f.pf]⟩ (.returned .ok)
  /-- UA with F=1 for our SABM. -/
  | opened (f : Frame) : c.state = .awaitingConnection → f.type = .u → f.uType = ctrlUa →
      SectionStep c (.onFrame f)
        ⟨{ c.linkUp with isLocalInitiated := true, refusePending := false }, []⟩
        (.onConnect true .finish)
  /-- SABM collision. -/
  | collision (f : Frame) : c.state = .awaitingConnection → f.type = .u → f.uType = ctrlSabm →
      SectionStep c (.onFrame f)
        ⟨{ (c.adopt f).linkUp with isLocalInitiated := true, refusePending := false },
          [(c.adopt f).uFrame false ctrlUa f.pf]⟩
        (.onConnect true .finish)
  /-- SABM on a link that is up: only the connected state records a link reset. -/
  | relink (f : Frame) : c.Linked → f.type = .u → f.uType = ctrlSabm →
      SectionStep c (.onFrame f)
        ⟨(c.adopt f).linkUp,
          (if c.state = .connected then [.linkReset] else []) ++
            [(c.adopt f).uFrame false ctrlUa f.pf]⟩
        (.returned .ok)
  /-- The session ends. -/
  | teardown {op : Op} (pre : List Action) : c.state ≠ .disconnected → pre.length ≤ 2 →
      (∀ a ∈ pre, Farewell c a) →
      (op = .timerT1 ∧ GivesUp c pre ∨
        ∃ f, op = .onFrame f ∧ f.type = .u ∧ f.uType ≠ ctrlSabm) →
      SectionStep c op ⟨c.torn, pre ++ [.final, .disconnect]⟩ (.returned .ok)
  /-- FRMR, or an N(R) outside the window: a new SABM of ours. Only the second
  stops the other timers. -/
  | reestablish (f : Frame) (c₀ : Conn) (msg : String) (ret : EspErr) : c.Linked →
      (f.type = .u ∧ f.uType = ctrlFrmr ∧ c₀ = c ∧ ret = .ok ∨
        (f.type = .s ∨ f.type = .i) ∧ c.isValidNr f.nr = false ∧ c₀ = c.silenced ∧
          ret = .invalidResponse) →
      SectionStep c (.onFrame f)
        ⟨c₀.reestablishing,
          [.error .invalidResponse msg c.retryCount, c.uFrame true ctrlSabm true]⟩
        (.returned ret)
  /-- An I or S frame with a valid N(R). -/
  | data (f : Frame) {s₁ t s' : Locked} : c.Linked → (f.type = .s ∨ f.type = .i) →
      c.isValidNr f.nr = true → Received ⟨c, []⟩ f s₁ → Transfer s₁ s' →
      (dataHandler ⟨c, []⟩ f).1 = s' → Quiet 2 s₁ t → Flush t s' →
      SectionStep c (.onFrame f) s' (.returned .ok)
  | dial (remoteAddr : Address) (digipeaters : List Address) : c.state = .disconnected →
      digipeaters.length ≤ maxDigipeaters →
      SectionStep c (.connectVia remoteAddr digipeaters)
        ⟨c.dialing remoteAddr digipeaters,
          [(c.dialing remoteAddr digipeaters).uFrame true ctrlSabm true]⟩
        (.returned .ok)
  /-- `send_data` with room in the window. -/
  | send (data : List Byte) {c₁ : Conn} {s' : Locked} : c.Linked →
      0 < data.length → data.length ≤ maxInfoLen → c.queueIFrame data = (c₁, .ok) → Transfer ⟨c₁, []⟩ s' →
      sendPendingIFrames ⟨c₁, []⟩ = (s', .ok) →
      SectionStep c (.sendData data) s' (.returned .ok)
  | release : c.state ≠ .disconnected → c.state ≠ .awaitingRelease →
      SectionStep c .shutdown
        ⟨{ c.silenced with retryCount := 0, state := .awaitingRelease }.startTimerT1,
          [c.uFrame true ctrlDisc true]⟩
        (.returned .ok)
  | busyQuiet (b : Bool) : ¬ c.Linked → c.localBusy ≠ b →
      SectionStep c (.setBusy b) ⟨{ c with localBusy := b }, []⟩ (.returned .ok)
  | busyOn : c.Linked → c.localBusy = false →
      SectionStep c (.setBusy true)
        ⟨{ c with localBusy := true, ackPending := false }.stopTimerT2,
          [.frame (outFrame c false .s (frameBuildRnrControl c.vr false))]⟩
        (.returned .ok)
  | busyOff : c.Linked → c.localBusy = true →
      SectionStep c (.setBusy false)
        ⟨{ c with localBusy := false },
          [.frame (outFrame c false .s (frameBuildRrControl c.vr false))]⟩
        (.returned .ok)
  /-- T1 repeats the SABM or the DISC. -/
  | retry (ctrl : Byte) : c.retryCount < c.config.n2Retries →
      (c.state = .awaitingConnection ∧ ctrl = ctrlSabm ∨
        c.state = .awaitingRelease ∧ ctrl = ctrlDisc) →
      SectionStep c .timerT1
        ⟨{ c with retryCount := c.retryCount + 1 }.startTimerT1, [c.uFrame true ctrl true]⟩
        (.returned .ok)
  /-- T1 polls the peer; from the connected state the count starts anew. -/
  | poll (r : UInt8) : c.Linked → r = (if c.state = .connected then 0 else c.retryCount) →
      r < c.config.n2Retries →
      SectionStep c .timerT1
        ⟨{ c with state := .timerRecovery, retryCount := r + 1 }.startTimerT1, [c.rrPoll]⟩
        (.returned .ok)
  | t2Ack (a : Action) : c.Linked → c.ackPending = true → Emits c a → a.isInfo = false →
      SectionStep c .timerT2 ⟨{ c with ackPending := false }, [a]⟩ (.returned .ok)
  | t3Poll : c.state = .connected →
      SectionStep c .timerT3
        ⟨{ c with state := .timerRecovery, retryCount := 0 }.startTimerT1, [c.rrPoll]⟩
        (.returned .ok)

/-! ### Batches that are not full -/

section

variable (c : Conn) (a b : Action)

@[simp] theorem deferAction_nil : deferAction ⟨c, []⟩ a = (⟨c, [a]⟩, true) := rfl

@[simp] theorem sendFrameInternal_nil (f : Frame) :
    sendFrameInternal ⟨c, []⟩ f = (⟨c, [.frame f]⟩, .ok) := rfl

@[simp] theorem sendFrameInternal_one (f : Frame) :
    sendFrameInternal ⟨c, [b]⟩ f = (⟨c, [b, .frame f]⟩, .ok) := rfl

end

/-! ### Opening and leaving a session -/

/-- `set_conn_path_from_frame` changes the path or, when it has too many
digipeaters, nothing. -/
theorem adopt_eq (c : Conn) (f : Frame) :
    ∃ p, c.adopt f = { c with path := p, t1CurrentMs := c.config.t1Ms } := by
  unfold adopt setConnPathFromFrame setConnPath
  split_ifs
  · exact ⟨c.path, rfl⟩
  · exact ⟨_, rfl⟩

/-- In the connected state the reset that answers a SABM is a `linkUp`. -/
theorem linkUp_of_connected {c : Conn} (h : c.state = .connected) :
    c.linkUp = (c.resetStateVars.stopTimerT1).startTimerT3 := by
  unfold linkUp
  rw [← h]
  rfl

theorem torn_eq (c : Conn) :
    ({ c.stopAllTimers.resetStateVars with
        state := .disconnected
        remoteAddrSet := false
        path := []
        t1CurrentMs := c.config.t1Ms } : Conn) = c.torn := by
  simp only [torn, cleared, stopAllTimers, stopTimerT1, stopTimerT2, stopTimerT3, resetStateVars,
    clearTxQueue]

section room

variable {s : Locked}

/-- Leaving a session: both notifications are recorded. -/
theorem enterDisconnectedState_of_ne (hs : s.conn.state ≠ .disconnected)
    (h : s.deferred.length + 2 ≤ maxDeferredActions) :
    s.enterDisconnectedState = ⟨s.conn.torn, s.deferred ++ [.final, .disconnect]⟩ := by
  have hw : s.conn.state = .connected ∨ s.conn.state = .timerRecovery ∨
      s.conn.state = .awaitingRelease ∨ s.conn.state = .awaitingConnection := by
    cases hst : s.conn.state <;> simp_all
  have hfinal : deferOnFinal ⟨s.conn.torn, s.deferred⟩ =
      ⟨s.conn.torn, s.deferred ++ [.final]⟩ := by
    rw [deferOnFinal, deferAction_of_lt (by dsimp only; omega)]
  have hdisc : deferOnDisconnect ⟨s.conn.torn, s.deferred ++ [.final]⟩ =
      ⟨s.conn.torn, s.deferred ++ [.final, .disconnect]⟩ := by
    rw [deferOnDisconnect,
      deferAction_of_lt (by simp only [List.length_append, List.length_singleton]; omega)]
    simp
  unfold enterDisconnectedState
  simp only [hw, if_true, Locked.modify, torn_eq, hfinal, hdisc]

/-- Without a session only `on_final` is recorded. -/
theorem enterDisconnectedState_of_eq (hs : s.conn.state = .disconnected)
    (h : s.deferred.length < maxDeferredActions) :
    s.enterDisconnectedState = ⟨s.conn.torn, s.deferred ++ [.final]⟩ := by
  have hfinal : deferOnFinal ⟨s.conn.torn, s.deferred⟩ =
      ⟨s.conn.torn, s.deferred ++ [.final]⟩ := by
    rw [deferOnFinal, deferAction_of_lt (by dsimp only; omega)]
  unfold enterDisconnectedState
  simp only [hs, reduceCtorEq, or_self, if_false, Locked.modify, torn_eq, hfinal]

end room

/-! ### No other branches -/

section cases

variable {c : Conn} {f : Frame}

/-- A branch that ends in `enter_disconnected_state`. -/
theorem SectionStep.leave {op : Op} (s : Locked) (hne : c.state ≠ .disconnected)
    (hst : s.conn.state = c.state) (ht : s.conn.torn = c.torn) (hlen : s.deferred.length ≤ 2)
    (hf : ∀ a ∈ s.deferred, Farewell c a)
    (hop : op = .timerT1 ∧ GivesUp c s.deferred ∨
      ∃ f, op = .onFrame f ∧ f.type = .u ∧ f.uType ≠ ctrlSabm) :
    SectionStep c op s.enterDisconnectedState (.returned .ok) := by
  rw [enterDisconnectedState_of_ne (hst ▸ hne) (by rw [maxDeferredActions]; omega), ht]
  exact .teardown _ hne hlen hf hop

theorem disconnected_cases (hst : c.state = .disconnected) :
    SectionStep c (.onFrame f) (handleFrameDisconnected ⟨c, []⟩ f).1
      (handleFrameDisconnected ⟨c, []⟩ f).2 := by
  unfold handleFrameDisconnected
  split_ifs with hu hsabm hdisc
  · have h := SectionStep.request f hst hu hsabm
    simpa only [requested, adopt, invokeOnConnect, Locked.modify] using h
  · exact .reject f hu (Or.inl ⟨hst, hdisc⟩)
  · exact .ignored .ok rfl
  · exact .ignored .ok rfl

theorem awaitingConnection_cases (hst : c.state = .awaitingConnection) :
    SectionStep c (.onFrame f) (handleFrameAwaitingConnection ⟨c, []⟩ f).1
      (handleFrameAwaitingConnection ⟨c, []⟩ f).2 := by
  have hne : c.state ≠ .disconnected := by rw [hst]; decide
  unfold handleFrameAwaitingConnection
  split_ifs with hu hua hpf hdm hsabm hdisc
  · have h := SectionStep.opened f hst hu hua
    simpa only [linkUp, cleared, invokeOnConnect, Locked.modify, resetStateVars, clearTxQueue,
      stopTimerT1, startTimerT3] using h
  · exact .ignored .ok rfl
  · refine .leave ⟨c.stopTimerT1, [.error .notAllowed _ _]⟩ hne rfl rfl (by simp)
      (by simpa using .error ..) (Or.inr ⟨f, rfl, hu, ?_⟩)
    rw [hdm]; decide
  · have h := SectionStep.collision f hst hu hsabm
    simpa only [linkUp, cleared, adopt, uFrame, outFrame, invokeOnConnect, Locked.modify,
      resetStateVars, clearTxQueue, stopTimerT1, startTimerT3, sendUa, sendUFrame,
      sendFrameInternal_nil] using h
  · exact .reject f hu (Or.inr (Or.inl ⟨hst, hdisc⟩))
  · exact .ignored .ok rfl
  · exact .ignored .ok rfl

theorem awaitingRelease_cases (hst : c.state = .awaitingRelease) :
    SectionStep c (.onFrame f) (handleFrameAwaitingRelease ⟨c, []⟩ f).1
      (.returned (handleFrameAwaitingRelease ⟨c, []⟩ f).2) := by
  have hne : c.state ≠ .disconnected := by rw [hst]; decide
  unfold handleFrameAwaitingRelease
  split_ifs with hu hua hsabm hdisc
  · refine .leave ⟨c.stopTimerT1, []⟩ hne rfl rfl (by simp) (by simp) (Or.inr ⟨f, rfl, hu, ?_⟩)
    rcases hua with h | h <;> rw [h] <;> decide
  · exact .reject f hu (Or.inr (Or.inr ⟨hst, hsabm⟩))
  · refine .leave ⟨c.stopTimerT1, [c.uFrame false ctrlUa f.pf]⟩ hne rfl rfl (by simp)
      (by simpa using .ua _) (Or.inr ⟨f, rfl, hu, ?_⟩)
    rw [hdisc]; decide
  · exact .ignored .ok rfl
  · exact .ignored .ok rfl

/-- The U frames of the two data-transfer states; the handlers differ in the
SABM branch and in the texts. -/
theorem connectedU_cases (hst : c.state = .connected) (hu : f.type = .u) :
    SectionStep c (.onFrame f) (connectedU ⟨c, []⟩ f).1
      (.returned (connectedU ⟨c, []⟩ f).2) := by
  have hne : c.state ≠ .disconnected := by rw [hst]; decide
  have hl : c.Linked := Or.inl hst
  unfold connectedU
  split_ifs with hsabm hdisc hdm hfrmr
  · have h := SectionStep.relink f hl hu hsabm
    have hadopt : (c.adopt f).state = .connected := by
      obtain ⟨p, hp⟩ := adopt_eq c f
      rw [hp]; exact hst
    rw [if_pos hst, linkUp_of_connected hadopt] at h
    simpa only [adopt, uFrame, outFrame, Locked.modify, resetStateVars, clearTxQueue, stopTimerT1,
      startTimerT3, deferOnLinkReset, deferAction_nil, sendUa, sendUFrame, sendFrameInternal_one,
      List.singleton_append] using h
  · refine .leave ⟨c, [c.uFrame false ctrlUa f.pf]⟩ hne rfl rfl (by simp)
      (by simpa using .ua _) (Or.inr ⟨f, rfl, hu, ?_⟩)
    rw [hdisc]; decide
  · refine .leave ⟨c, [.error .invalidState _ _]⟩ hne rfl rfl (by simp)
      (by simpa using .error ..) (Or.inr ⟨f, rfl, hu, ?_⟩)
    rw [hdm]; decide
  · have h := SectionStep.reestablish f c "Received FRMR" .ok hl
      (Or.inl ⟨hu, hfrmr, rfl, rfl⟩)
    simp only [reestablishing, cleared, uFrame, outFrame, Locked.modify, resetStateVars,
      clearTxQueue, startTimerT1, deferOnError, deferAction_nil, sendSabm, sendUFrame,
      sendFrameInternal_one] at h ⊢
    exact h
  · exact .ignored .ok rfl

theorem timerRecoveryU_cases (hst : c.state = .timerRecovery) (hu : f.type = .u) :
    SectionStep c (.onFrame f) (timerRecoveryU ⟨c, []⟩ f).1
      (.returned (timerRecoveryU ⟨c, []⟩ f).2) := by
  have hne : c.state ≠ .disconnected := by rw [hst]; decide
  have hl : c.Linked := Or.inr hst
  unfold timerRecoveryU
  split_ifs with hsabm hdisc hdm hfrmr
  · have h := SectionStep.relink f hl hu hsabm
    rw [if_neg (by rw [hst]; decide)] at h
    simpa only [linkUp, cleared, adopt, uFrame, outFrame, Locked.modify, resetStateVars,
      clearTxQueue, stopTimerT1, startTimerT3, sendUa, sendUFrame, sendFrameInternal_nil,
      List.nil_append] using h
  · refine .leave ⟨c, [c.uFrame false ctrlUa f.pf]⟩ hne rfl rfl (by simp)
      (by simpa using .ua _) (Or.inr ⟨f, rfl, hu, ?_⟩)
    rw [hdisc]; decide
  · refine .leave ⟨c, [.error .invalidState _ _]⟩ hne rfl rfl (by simp)
      (by simpa using .error ..) (Or.inr ⟨f, rfl, hu, ?_⟩)
    rw [hdm]; decide
  · have h := SectionStep.reestablish f c "Received FRMR in timer recovery" .ok hl
      (Or.inl ⟨hu, hfrmr, rfl, rfl⟩)
    simp only [reestablishing, cleared, uFrame, outFrame, Locked.modify, resetStateVars,
      clearTxQueue, startTimerT1, deferOnError, deferAction_nil, sendSabm, sendUFrame,
      sendFrameInternal_one] at h ⊢
    exact h
  · exact .ignored .ok rfl

/-- An I or S frame whose N(R) is outside the window. -/
theorem nrError_cases (msg : String) (hl : c.Linked) (hty : f.type = .s ∨ f.type = .i)
    (hv : c.isValidNr f.nr = false) :
    SectionStep c (.onFrame f) (startNrErrorRecovery ⟨c, []⟩ msg).1
      (.returned (startNrErrorRecovery ⟨c, []⟩ msg).2) := by
  have h := SectionStep.reestablish f c.silenced msg .invalidResponse hl
    (Or.inr ⟨hty, hv, rfl, rfl⟩)
  simp only [startNrErrorRecovery, reestablishing, silenced, cleared, uFrame, outFrame, Locked.modify,
    stopAllTimers, stopTimerT1, stopTimerT2, stopTimerT3, resetStateVars, clearTxQueue,
    startTimerT1, deferOnError, deferAction_nil, sendSabm, sendUFrame, sendFrameInternal_one] at h ⊢
  exact h

/-- The handler of the two data-transfer states. -/
theorem dataHandler_cases (hl : c.Linked) (ha : c.va < 8) (hs : c.vs < 8) :
    SectionStep c (.onFrame f) (dataHandler ⟨c, []⟩ f).1
      (.returned (dataHandler ⟨c, []⟩ f).2) := by
  by_cases hty : f.type = .s ∨ f.type = .i
  · cases hv : c.isValidNr f.nr with
    | true =>
        obtain ⟨⟨s₁, t, hr, hq, hf⟩, hret⟩ := dataPhase (s := ⟨c, []⟩) ha hl hty hv
        have hva : s₁.conn.va < 8 := by
          cases hr with
          | ack => exact f.nr_lt
          | data => rw [consume_conn]; exact f.nr_lt
        have hvs : s₁.conn.vs < 8 := by
          cases hr with
          | ack => exact hs
          | data => rw [consume_conn]; exact hs
        have ht := hq.transfer.trans (hf.transfer (hq.link.va ▸ hva) (hq.link.vs ▸ hvs))
        rw [hret]
        exact .data f hl hty hv hr ht rfl hq hf
    | false =>
        have h := fun msg => nrError_cases msg hl hty hv
        rcases hl with hst | hst <;> rcases hty with hty | hty <;>
          simp only [dataHandler, hst, reduceCtorEq, if_true, if_false, handleFrameConnected,
            handleFrameTimerRecovery, hty, connectedS, connectedI, timerRecoveryS, timerRecoveryI,
            hv, Bool.not_false] <;> exact h _
  · rw [not_or] at hty
    rcases hl with hst | hst
    · simp only [dataHandler, hst, if_true, handleFrameConnected]
      cases h : f.type with
      | u => exact connectedU_cases hst h
      | s => exact absurd h hty.1
      | i => exact absurd h hty.2
      | _ => exact .ignored .ok rfl
    · simp only [dataHandler, hst, reduceCtorEq, if_false, handleFrameTimerRecovery]
      cases h : f.type with
      | u => exact timerRecoveryU_cases hst h
      | s => exact absurd h hty.1
      | i => exact absurd h hty.2
      | _ => exact .ignored .ok rfl

theorem onFrame_cases (ha : c.va < 8) (hs : c.vs < 8) :
    SectionStep c (.onFrame f) (onFrame ⟨c, []⟩ f).1 (onFrame ⟨c, []⟩ f).2 := by
  unfold onFrame
  split
  · exact .ignored .ok rfl
  · dsimp only
    split
    · next hst => exact disconnected_cases hst
    · next hst => exact awaitingConnection_cases hst
    · next hst => exact awaitingRelease_cases hst
    · next hst =>
      have h := dataHandler_cases (f := f) (Or.inl hst) ha hs
      rwa [dataHandler, if_pos hst] at h
    · next hst =>
      have h := dataHandler_cases (f := f) (Or.inr hst) ha hs
      rwa [dataHandler, if_neg (by rw [hst]; decide)] at h

theorem connectVia_cases {a : Address} {ds : List Address} (hd : ds.length ≤ maxDigipeaters) :
    SectionStep c (.connectVia a ds) (connectVia ⟨c, []⟩ a ds).1
      (.returned (connectVia ⟨c, []⟩ a ds).2) := by
  unfold connectVia
  split_ifs with hst
  · exact .ignored _ rfl
  · have h := SectionStep.dial a ds (not_not.mp hst) hd
    have hd : ¬ ds.length > maxDigipeaters := by omega
    simp only [dialing, cleared, uFrame, outFrame, Locked.modify, resetStateVars, clearTxQueue,
      setConnPath, hd, if_false, seedT1ForPath, startTimerT1, sendSabm, sendUFrame,
      sendFrameInternal_nil] at h ⊢
    exact h

/-- `queue_i_frame` succeeds: there was room, and the payload is in slot V(S). -/
theorem queueIFrame_ok {c c₁ : Conn} {data : List Byte} (h : c.queueIFrame data = (c₁, .ok)) :
    c.outstandingFrames < c.config.windowSize.toNat ∧ (c.txQueue c.vs).inUse = false ∧
      c₁ = c.queued data := by
  unfold queueIFrame at h
  split_ifs at h with hw hu
  · cases h
  · cases h
  · cases h
    exact ⟨by omega, by simpa using hu, rfl⟩

theorem sendData_cases {data : List Byte} (ha : c.va < 8) (h₀ : 0 < data.length)
    (h₁ : data.length ≤ maxInfoLen) :
    SectionStep c (.sendData data) (sendData ⟨c, []⟩ data).1
      (.returned (sendData ⟨c, []⟩ data).2) := by
  unfold sendData
  split_ifs with hst
  · exact .ignored _ rfl
  · have hl : c.Linked := by
      unfold Linked
      by_contra h
      exact hst (not_or.mp h)
    split
    · next c₁ heq =>
      obtain ⟨-, -, rfl⟩ := queueIFrame_ok heq
      have hs : (c.queued data).vs < 8 := mod8_lt _
      have hsend := sendPendingIFrames_eq (s := ⟨c.queued data, []⟩) ha hs (Nat.zero_le 5)
      have ht := transfer_sendPendingIFrames ⟨c.queued data, []⟩ ha hs
      rw [hsend] at ht
      dsimp only
      rw [hsend]
      exact .send data hl h₀ h₁ heq ht hsend
    · exact .ignored _ rfl

/-- `send_data` returns `ESP_OK`: the payload has been queued. -/
theorem sendData_ok {c : Conn} {data : List Byte} {s : Locked}
    (h : (Op.sendData data).body ⟨c, []⟩ = (s, .returned .ok)) :
    c.Linked ∧ c.queueIFrame data = (c.queued data, .ok) ∧
      sendPendingIFrames ⟨c.queued data, []⟩ = (s, .ok) := by
  have h : sendData ⟨c, []⟩ data = (s, .ok) := by
    simp only [Op.body, Prod.mk.injEq, Outcome.returned.injEq] at h
    exact Prod.ext h.1 h.2
  unfold sendData at h
  split_ifs at h with hst
  · cases h
  · have hl : c.Linked := by
      by_contra hn
      exact hst (not_or.mp hn)
    cases hq : c.queueIFrame data with
    | mk c₁ err =>
        rw [hq] at h
        cases err with
        | ok =>
            obtain ⟨-, -, rfl⟩ := queueIFrame_ok hq
            exact ⟨hl, rfl, h⟩
        | _ => cases h

theorem shutdown_cases :
    SectionStep c .shutdown (shutdown ⟨c, []⟩).1 (.returned (shutdown ⟨c, []⟩).2) := by
  simp only [shutdown, Locked.modify, sendDisc, sendUFrame, sendFrameInternal_nil, stopAllTimers_eq]
  split_ifs with hd hr
  · exact .ignored _ rfl
  · exact .ignored _ rfl
  · exact .release hd hr

theorem setBusy_cases {b : Bool} :
    SectionStep c (.setBusy b) (setBusy ⟨c, []⟩ b) (.returned .ok) := by
  by_cases hne : c.localBusy = b
  · simp only [setBusy, hne, ne_eq, not_true_eq_false, if_false]
    exact .ignored _ rfl
  · simp only [setBusy, ne_eq, hne, not_false_eq_true, if_true, Locked.modify]
    by_cases hl : c.state = .connected ∨ c.state = .timerRecovery
    · simp only [hl, if_true]
      cases b with
      | true => exact .busyOn hl (by simpa using hne)
      | false => exact .busyOff hl (by simpa using hne)
    · simp only [hl, if_false]
      exact .busyQuiet b hl hne

/-- The poll of the peer, or the end of the link, from a context that is `c`
but for the recovery it may just have entered. -/
theorem pollOrFail_cases (r : UInt8) (hl : c.Linked)
    (hr : r = if c.state = .connected then 0 else c.retryCount) :
    SectionStep c .timerT1
      (pollOrFail ⟨{ c with state := .timerRecovery, retryCount := r }, []⟩) (.returned .ok) := by
  have hne : c.state ≠ .disconnected := by rcases hl with h | h <;> rw [h] <;> decide
  simp only [pollOrFail, Locked.modify, deferOnError, deferAction_nil, sendDm, sendRr, sendUFrame,
    sendSFrame, sendFrameInternal_nil, sendFrameInternal_one]
  split_ifs with hn
  · rw [enterDisconnectedState_of_ne (by simp) (by simp [maxDeferredActions])]
    refine .teardown [_, c.uFrame false ctrlDm true] hne (by simp) ?_
      (Or.inl ⟨rfl, _, _, [_], rfl, by simp⟩)
    simpa using ⟨.error .., .dm true⟩
  · exact .poll r hl hr (UInt8.not_le.mp hn)

theorem timerT1_cases :
    SectionStep c .timerT1 (timerT1Callback ⟨c, []⟩) (.returned .ok) := by
  simp only [timerT1Callback, Locked.modify, deferOnError, deferAction_nil, sendSabm, sendDisc,
    sendUFrame, sendFrameInternal_nil]
  split
  · next hst =>
    have hne : c.state ≠ .disconnected := by rw [hst]; decide
    split_ifs with hn
    · exact .leave ⟨c, [.error .timeout _ _]⟩ hne rfl rfl (by simp)
        (by simpa using .error ..) (Or.inl ⟨rfl, _, _, [], rfl, by simp⟩)
    · exact .retry ctrlSabm (UInt8.not_le.mp hn) (Or.inl ⟨hst, rfl⟩)
  · next hst =>
    have hne : c.state ≠ .disconnected := by rw [hst]; decide
    split_ifs with hn
    · exact .leave ⟨c, [.error .timeout _ _]⟩ hne rfl rfl (by simp)
        (by simpa using .error ..) (Or.inl ⟨rfl, _, _, [], rfl, by simp⟩)
    · exact .retry ctrlDisc (UInt8.not_le.mp hn) (Or.inr ⟨hst, rfl⟩)
  · next hst => exact pollOrFail_cases 0 (Or.inl hst) (by rw [if_pos hst])
  · next hst =>
    have h := pollOrFail_cases (c := c) c.retryCount (Or.inr hst) (by rw [hst]; rfl)
    rw [← hst] at h
    exact h
  · next hst => exact .t1Idle hst

theorem timerT2_cases :
    SectionStep c .timerT2 (timerT2Callback ⟨c, []⟩) (.returned .ok) := by
  simp only [timerT2Callback, sendAck, Locked.modify, sendRnr, sendRr, sendSFrame,
    sendFrameInternal_nil]
  split_ifs with hl hp hb
  · exact .t2Ack _ hl hp (.rnr false false) rfl
  · exact .t2Ack _ hl hp (.rr false false fun _ => by simpa using hb) rfl
  · exact .t2Idle fun _ => by simpa using hp
  · exact .t2Idle fun h => absurd h hl

theorem timerT3_cases :
    SectionStep c .timerT3 (timerT3Callback ⟨c, []⟩) (.returned .ok) := by
  simp only [timerT3Callback, Locked.modify, sendRr, sendSFrame, sendFrameInternal_nil]
  split_ifs with hst
  · exact .t3Poll hst
  · exact .t3Idle hst

end cases

theorem precheck_sendData {c : Conn} {data : List Byte}
    (h : (Op.sendData data).precheck c = none) : 0 < data.length ∧ data.length ≤ maxInfoLen := by
  simp only [Op.precheck, Bool.or_eq_true] at h
  split_ifs at h with h₁ h₂
  refine ⟨List.length_pos_iff.mpr ?_, by omega⟩
  intro heq
  subst heq
  exact h₁ (Or.inr rfl)

/-- **Inversion of a locked section.** -/
theorem section_cases {c : Conn} {op : Op} (hp : op.precheck c = none) (ha : c.va < 8)
    (hs : c.vs < 8) : SectionStep c op (op.body ⟨c, []⟩).1 (op.body ⟨c, []⟩).2 := by
  cases op with
  | connectVia a ds =>
      refine connectVia_cases ?_
      simp only [Op.precheck] at hp
      split_ifs at hp with h₁ h₂
      omega
  | onFrame f => exact onFrame_cases ha hs
  | sendData data =>
      obtain ⟨h₀, h₁⟩ := precheck_sendData hp
      exact sendData_cases ha h₀ h₁
  | shutdown => exact shutdown_cases
  | setBusy b => exact setBusy_cases
  | timerT1 => exact timerT1_cases
  | timerT2 => exact timerT2_cases
  | timerT3 => exact timerT3_cases

/-! ### The second locked section -/

/-- Everything that the second section of a SABM can do: the context and the
actions it appends. -/
inductive DecideStep (c : Conn) (f : Frame) : Conn → List Action → Prop
  | refused : c.refusePending = true →
      DecideStep c f c.torn
        (c.uFrame false ctrlDm f.pf :: .final ::
          if c.state = .disconnected then [] else [.disconnect])
  | accepted : c.refusePending = false →
      DecideStep c f (c.cleared .connected).startTimerT3
        [c.uFrame false ctrlUa f.pf]

theorem decide_cases (c : Conn) (f : Frame) :
    DecideStep c f (decideSabm ⟨c, []⟩ f).conn (decideSabm ⟨c, []⟩ f).deferred := by
  simp only [decideSabm, sendDm, sendUa, sendUFrame, Locked.modify, sendFrameInternal_nil]
  split_ifs with hr
  · by_cases hst : c.state = .disconnected
    · rw [enterDisconnectedState_of_eq (by exact hst) (by simp [maxDeferredActions])]
      have h := DecideStep.refused (f := f) hr
      rwa [if_pos hst] at h
    · rw [enterDisconnectedState_of_ne (by exact hst) (by simp [maxDeferredActions])]
      have h := DecideStep.refused (f := f) hr
      rwa [if_neg hst] at h
  · have h := DecideStep.accepted (f := f) (by simpa using hr)
    simpa only [cleared, uFrame, outFrame, resetStateVars, clearTxQueue, startTimerT3] using h

/-! ### What no section changes -/

theorem sameStatic_adopt (c : Conn) (f : Frame) : SameStatic c (c.adopt f) := by
  obtain ⟨p, hp⟩ := adopt_eq c f
  rw [hp]
  exact ⟨rfl, rfl, rfl, rfl, rfl, rfl⟩

theorem sameStatic_linkUp (c : Conn) : SameStatic c c.linkUp := ⟨rfl, rfl, rfl, rfl, rfl, rfl⟩

theorem sameStatic_torn (c : Conn) : SameStatic c c.torn := ⟨rfl, rfl, rfl, rfl, rfl, rfl⟩

theorem sameStatic_reestablishing (c : Conn) : SameStatic c c.reestablishing :=
  ⟨rfl, rfl, rfl, rfl, rfl, rfl⟩

theorem sameStatic_dialing (c : Conn) (a : Address) (ds : List Address) :
    SameStatic c (c.dialing a ds) :=
  ⟨rfl, rfl, rfl, rfl, rfl, rfl⟩

theorem Received.static {s s₁ : Locked} {f : Frame} (h : Received s f s₁) :
    SameStatic s.conn s₁.conn := by
  cases h with
  | ack => exact ⟨rfl, rfl, rfl, rfl, rfl, rfl⟩
  | data =>
      rw [consume_conn]
      exact ⟨rfl, rfl, rfl, rfl, rfl, rfl⟩

/-- No section touches the configuration, the callbacks, the buffer pool or the
liveness marks. -/
theorem SectionStep.static {c : Conn} {op : Op} {s : Locked} {o : Outcome}
    (h : SectionStep c op s o) : SameStatic c s.conn := by
  cases h with
  | request f =>
      obtain ⟨p, hp⟩ := adopt_eq { c with remoteAddr := f.source, remoteAddrSet := true } f
      simp only [requested, hp]
      exact ⟨rfl, rfl, rfl, rfl, rfl, rfl⟩
  | opened f => exact ⟨rfl, rfl, rfl, rfl, rfl, rfl⟩
  | collision f =>
      have h := (sameStatic_adopt c f).trans (sameStatic_linkUp _)
      exact ⟨h.1, h.2, h.3, h.4, h.5, h.6⟩
  | relink f => exact (sameStatic_adopt c f).trans (sameStatic_linkUp _)
  | teardown pre => exact sameStatic_torn c
  | reestablish f c₀ msg ret hl hc =>
      rcases hc with ⟨-, -, rfl, -⟩ | ⟨-, -, rfl, -⟩
      · exact sameStatic_reestablishing c₀
      · have h := sameStatic_reestablishing c.silenced
        exact ⟨h.1, h.2, h.3, h.4, h.5, h.6⟩
  | data f hl hty hv hr ht hd => exact hr.static.trans ht.link.static
  | dial a ds hst hd => exact sameStatic_dialing c a ds
  | send data hl h₀ h₁ hq ht hs =>
      obtain ⟨-, -, rfl⟩ := queueIFrame_ok hq
      have h := ht.link.static
      exact ⟨h.1, h.2, h.3, h.4, h.5, h.6⟩
  | _ => exact ⟨rfl, rfl, rfl, rfl, rfl, rfl⟩

theorem DecideStep.static {c c' : Conn} {f : Frame} {acts : List Action}
    (h : DecideStep c f c' acts) : SameStatic c c' := by
  cases h with
  | refused => exact sameStatic_torn c
  | accepted => exact ⟨rfl, rfl, rfl, rfl, rfl, rfl⟩

end EspAx25
