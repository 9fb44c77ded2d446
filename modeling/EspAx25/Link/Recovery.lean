import EspAx25.Conn.Path
import EspAx25.Conn.Replies
import EspAx25.Link.Exchange

/-!
# EspAx25.Link.Recovery

No reachable state of a lossy link is a dead end. As long as each endpoint has a
retry left, the timers that are running and the frames that they set off are
enough to bring both endpoints back to the connected state, with everything that
has been accepted delivered and acknowledged, and nothing more need be lost for
it (`link_recovers`).

One endpoint is served at a time. It polls when one of its timers expires, the
peer answers with its N(R), and the final makes the endpoint send its window
again; the first frame of the window is the one that the peer waits for. Then
what is in flight runs out (`Link.Inv.drain`). Such a round delivers a payload or
finds that none is missing (`Link.Ready.round`).
-/

namespace EspAx25

open Cyclic Conn Locked GoBackN

/-! ### What a call leaves alone -/

/-- A frame of the session of `c`, as its peer should see it. -/
structure Sends (c : Conn) (g : Frame) : Prop where
  outbound : Outbound c g
  path : g.digipeaters = c.path
  type : g.type ≠ .ui

theorem Emits.sends {c : Conn} {g : Frame} (h : Emits c (.frame g)) : Sends c g := by
  refine ⟨h.outbound, h.path, ?_⟩
  generalize ha : Action.frame g = a at h
  cases h <;> cases ha <;> exact fun h => by cases h

/-- `c'` belongs to the session of `c`. -/
structure SameSession (c c' : Conn) : Prop where
  config : c'.config = c.config
  localAddr : c'.localAddr = c.localAddr
  remoteAddr : c'.remoteAddr = c.remoteAddr
  path : c'.path = c.path

theorem SameSession.refl (c : Conn) : SameSession c c := ⟨rfl, rfl, rfl, rfl⟩

theorem Sends.congr {c c' : Conn} {g : Frame} (h : Sends c g) (hs : SameSession c' c) :
    Sends c' g :=
  ⟨⟨h.outbound.1.trans hs.localAddr, h.outbound.2.trans hs.remoteAddr⟩, h.path.trans hs.path,
    h.type⟩

/-- One section that keeps the link up. -/
theorem SectionStep.sameSession {c : Conn} {op : Op} {s : Locked} {ret : EspErr}
    (h : SectionStep c op s (.returned ret)) (hl : c.Linked) (hop : op.OnLink)
    (hl' : s.conn.Linked) : SameSession c s.conn ∧ ∀ g, .frame g ∈ s.deferred → Sends c g := by
  have hst := h.static
  have hu : ∀ {f : Frame}, op = .onFrame f → f.type = .u → False := by
    rintro f rfl hu
    rcases hop with h | h <;> cases hu.symm.trans h
  have emitted : ∀ {c₀ : Conn} {l : List Action}, SameSession c c₀ → (∀ a ∈ l, Emits c₀ a) →
      ∀ g, .frame g ∈ l → Sends c g := fun hs hem g hg => (hem _ hg).sends.congr hs
  cases h with
  | reject f hf | relink f _ hf => exact (hu rfl hf).elim
  | teardown => exact absurd hl' (not_linked_of_eq .disconnected rfl (by decide))
  | reestablish => exact absurd hl' (not_linked_of_eq .awaitingConnection rfl (by decide))
  | dial | release => exact hop.elim
  | retry ctrl hlt hc =>
      rcases hc with ⟨hc, -⟩ | ⟨hc, -⟩ <;> rcases hl with h | h <;> cases h.symm.trans hc
  | data f hl hty hv hr ht hd =>
      have hsame : SameSession c _ :=
        ⟨hr.static.config, hr.static.localAddr, hr.remoteAddr, hr.path⟩
      obtain ⟨l, hdef, hem⟩ := ht.emits
      refine ⟨⟨hst.config, hst.localAddr, ht.link.remoteAddr.trans hr.remoteAddr,
        ht.link.path.trans hr.path⟩, fun g hg => ?_⟩
      rw [hdef] at hg
      rcases List.mem_append.mp hg with hg | hg
      · exact absurd (hr.no_frame hg) (by simp)
      · exact emitted hsame hem g hg
  | send data hl h₀ h₁ hq ht hs =>
      obtain ⟨-, -, rfl⟩ := queueIFrame_ok hq
      have hsame : SameSession c (c.queued data) := ⟨rfl, rfl, rfl, rfl⟩
      obtain ⟨l, hdef, hem⟩ := ht.emits
      refine ⟨⟨hst.config, hst.localAddr, ht.link.remoteAddr, ht.link.path⟩, fun g hg => ?_⟩
      rw [hdef] at hg
      exact emitted hsame hem g hg
  | t2Ack a _ _ he =>
      exact ⟨⟨rfl, rfl, rfl, rfl⟩, emitted (.refl c) (by simpa using he)⟩
  | busyOn | busyOff | poll | t3Poll =>
      refine ⟨⟨rfl, rfl, rfl, rfl⟩, fun g hg => ?_⟩
      cases List.mem_singleton.mp hg
      exact ⟨⟨rfl, rfl⟩, rfl, fun h => by cases h⟩
  | _ => exact ⟨⟨rfl, rfl, rfl, rfl⟩, fun g hg => by cases hg⟩

/-- One call that keeps the link up. -/
theorem call_sameSession {c : Conn} (h : SeqInv c) (hl : c.Linked) {op : Op} (hop : op.OnLink)
    (hl' : (c.step (.call op false false)).conn.Linked) :
    SameSession c (c.step (.call op false false)).conn ∧
      ∀ g ∈ frames (c.step (.call op false false)).out, Sends c g := by
  have hcall := call_cases h op false false
  obtain ⟨t1, t2, t3, ht⟩ := consumeExpiry_cases op c
  rw [ht] at hcall
  have hmem : ∀ {l : List Action} {g : Frame}, g ∈ frames l → .frame g ∈ l := by
    intro l g hg
    obtain ⟨a, ha, hag⟩ := List.mem_filterMap.mp hg
    cases a <;> cases hag
    exact ha
  generalize c.step (.call op false false) = r at hcall hl' ⊢
  cases hcall with
  | early => exact ⟨⟨rfl, rfl, rfl, rfl⟩, fun g hg => absurd (hmem hg) List.not_mem_nil⟩
  | returned ret hp hsec =>
      obtain ⟨hs, hf⟩ := hsec.sameSession hl hop hl'
      exact ⟨⟨hs.config, hs.localAddr, hs.remoteAddr, hs.path⟩, fun g hg =>
        (hf g (hmem hg)).congr ⟨rfl, rfl, rfl, rfl⟩⟩
  | told hp hsec =>
      cases hsec with
      | opened f hst | collision f hst => rcases hl with h | h <;> cases h.symm.trans hst
  | asked f ho hp hst => rcases hl with h | h <;> cases h.symm.trans hst

/-! ### Timers -/

/-- Some timer will wake the connection up. -/
structure Awake (c : Conn) : Prop where
  timers : TimerInv c
  owed : ∃ n, AckInv n c

theorem Awake.fire {c : Conn} (h : Awake c) (t : TimerId) : Awake (c.fire t) := by
  obtain ⟨n, hn⟩ := h.owed
  exact ⟨timerInv_fire h.timers t, n, ackInv_fire hn t⟩

theorem Awake.call {c : Conn} (h : Awake c) (hs : SeqInv c) (op : Op) (heap refuses : Bool) :
    Awake (c.step (.call op heap refuses)).conn := by
  obtain ⟨n, hn⟩ := h.owed
  have hc := (call_cases hs op heap refuses).timerInv (hs.consumeExpiry op)
    (callStart h.timers hn op)
  exact ⟨hc.1, _, hc.2⟩

namespace Conn

/-- The timer `t`. -/
def timer (c : Conn) : TimerId → Timer
  | .t1 => c.timerT1
  | .t2 => c.timerT2
  | .t3 => c.timerT3

/-- The polls that count against N2: a recovery starts anew. -/
def polls (c : Conn) : UInt8 := if c.state = .connected then 0 else c.retryCount

/-- T1 would poll the peer rather than give up. -/
def RetriesLeft (c : Conn) : Prop := c.polls < c.config.n2Retries

instance (c : Conn) : Decidable c.RetriesLeft := inferInstanceAs (Decidable (_ < _))

end Conn

/-- `c'` waits for the answer to a poll of `c`. -/
structure Polled (c c' : Conn) : Prop where
  config : c'.config = c.config
  state : c'.state = .timerRecovery
  va : c'.va = c.va
  vs : c'.vs = c.vs
  vr : c'.vr = c.vr
  localBusy : c'.localBusy = c.localBusy

theorem timerT1Callback_polls {c : Conn} (hl : c.Linked) (hr : c.RetriesLeft) :
    timerT1Callback ⟨c, []⟩ =
      ⟨{ c with state := .timerRecovery, retryCount := c.polls + 1 }.startTimerT1, [c.rrPoll]⟩ := by
  unfold RetriesLeft polls at hr
  have hn := UInt8.not_le.mpr hr
  rcases hl with hst | hst
  · rw [if_pos hst] at hn
    simp only [timerT1Callback, hst, Locked.modify, pollOrFail, ge_iff_le, hn, if_false,
      sendRr, sendSFrame, sendFrameInternal_nil, rrPoll, outFrame, polls]
    rfl
  · have hne : c.state ≠ .connected := by
      rw [hst]
      decide
    rw [if_neg hne] at hn
    simp only [timerT1Callback, hst, Locked.modify, pollOrFail, ge_iff_le, hn, if_false,
      sendRr, sendSFrame, sendFrameInternal_nil, rrPoll, outFrame, polls]
    rfl

theorem timerT3Callback_polls {c : Conn} (hst : c.state = .connected) :
    timerT3Callback ⟨c, []⟩ =
      ⟨{ c with state := .timerRecovery, retryCount := 0 }.startTimerT1, [c.rrPoll]⟩ := by
  simp only [timerT3Callback, hst, if_true, sendRr, sendSFrame, sendFrameInternal_nil,
    Locked.modify]
  rfl

theorem polled_recovery (c : Conn) (r : UInt8) :
    Polled c ({ c with state := .timerRecovery, retryCount := r }.startTimerT1).unpooled :=
  ⟨rfl, rfl, rfl, rfl, rfl, rfl⟩

/-- What a callback finds is the context but for its timer. -/
theorem Polled.of_entered {c c' : Conn} {op : Op} (h : Polled (c.entered op) c') : Polled c c' := by
  have hs := sameWindow_entered c op
  have hc : (c.entered op).config = c.config := by cases op <;> rfl
  have hb : (c.entered op).localBusy = c.localBusy := by cases op <;> rfl
  exact ⟨h.config.trans hc, h.state, h.va.trans hs.va, h.vs.trans hs.vs, h.vr.trans hs.vr,
    h.localBusy.trans hb⟩

theorem entered_rrPoll (c : Conn) (op : Op) : (c.entered op).rrPoll = c.rrPoll := by
  cases op <;> rfl

/-- The callback of T1 or T3 on a link that is up. -/
theorem expire_polls {c : Conn} (h : SeqInv c) (hl : c.Linked) (hr : c.RetriesLeft) {t : TimerId}
    (ht : t = .t1 ∨ t = .t3 ∧ c.state = .connected) :
    Polled c (c.step (.call t.op false false)).conn ∧
      (c.step (.call t.op false false)).out = [c.rrPoll] := by
  have hcall := call_cases h t.op false false
  generalize c.step (.call t.op false false) = r at hcall
  cases hcall with
  | early ret hp =>
      rcases ht with rfl | ⟨rfl, -⟩ <;>
        simp [TimerId.op, Op.precheck, Op.consumeExpiry, h.initialized, h.cookie] at hp
  | @returned s ret hp hsec hbody =>
      rcases ht with rfl | ⟨rfl, hst⟩
      · have hs : timerT1Callback ⟨c.entered .timerT1, []⟩ = s := congrArg Prod.fst hbody
        rw [timerT1Callback_polls (c := c.entered .timerT1) hl hr, entered_rrPoll] at hs
        subst hs
        exact ⟨(polled_recovery _ _).of_entered, rfl⟩
      · have hs : timerT3Callback ⟨c.entered .timerT3, []⟩ = s := congrArg Prod.fst hbody
        rw [timerT3Callback_polls (c := c.entered .timerT3) hst, entered_rrPoll] at hs
        subst hs
        exact ⟨(polled_recovery _ _).of_entered, rfl⟩
  | told hp hsec => rcases ht with rfl | ⟨rfl, -⟩ <;> cases hsec
  | asked f hop => rcases ht with rfl | ⟨rfl, -⟩ <;> cases hop

/-- A link that is up has a timer that leads to a poll. -/
theorem Awake.polls {c : Conn} (h : Awake c) (hl : c.Linked) :
    ∃ t, (c.timer t).Active ∧ (t = .t1 ∨ t = .t3 ∧ c.state = .connected) := by
  rcases hl with hst | hst
  · rcases h.timers.connected hst with h₁ | h₃
    · exact ⟨.t1, h₁, Or.inl rfl⟩
    · exact ⟨.t3, h₃, Or.inr ⟨rfl, hst⟩⟩
  · exact ⟨.t1, h.timers.recovery hst, Or.inl rfl⟩

/-! ### Arrivals -/

/-- What an arrival keeps of an endpoint. -/
structure Advances (c c' : Conn) : Prop where
  config : c'.config = c.config
  vs : c'.vs = c.vs
  idle : c.va = c.vs → c'.va = c.vs
  localBusy : c'.localBusy = c.localBusy
  state : c.state = .connected → c'.state = .connected
  retries : c.RetriesLeft → c'.RetriesLeft

theorem Advances.refl (c : Conn) : Advances c c := ⟨rfl, rfl, id, rfl, id, id⟩

theorem Advances.trans {a b c : Conn} (h₁ : Advances a b) (h₂ : Advances b c) : Advances a c :=
  ⟨h₂.config.trans h₁.config, h₂.vs.trans h₁.vs,
    fun h => (h₂.idle ((h₁.idle h).trans h₁.vs.symm)).trans h₁.vs,
    h₂.localBusy.trans h₁.localBusy, h₂.state ∘ h₁.state, h₂.retries ∘ h₁.retries⟩

theorem Received.retryCount {s s₁ : Locked} {f : Frame} (h : Received s f s₁) :
    s₁.conn.retryCount = s.conn.retryCount := by
  cases h with
  | ack => rfl
  | data => rw [consume_conn]; rfl

theorem Received.localBusy {s s₁ : Locked} {f : Frame} (h : Received s f s₁) :
    s₁.conn.localBusy = s.conn.localBusy := by
  cases h with
  | ack => rfl
  | data => rw [consume_conn]; rfl

theorem SameLink.retriesLeft {c c' : Conn} (h : SameLink c c') (hr : c.RetriesLeft) :
    c'.RetriesLeft := by
  unfold RetriesLeft polls at hr ⊢
  rw [h.static.config]
  have hpos : (0 : UInt8) < c.config.n2Retries := Nat.lt_of_le_of_lt (Nat.zero_le _) hr
  split
  · exact hpos
  · next hst' =>
    rcases h.state with hst | ⟨-, hst⟩
    · rw [hst] at hst'
      rw [if_neg hst'] at hr
      rcases h.retry with hc | hc <;> rw [hc]
      · exact hr
      · exact hpos
    · exact absurd hst hst'

/-- The answer to a poll. -/
theorem answerPoll_rr {s : Locked} {f : Frame} (hs : s.deferred = [])
    (hb : s.conn.localBusy = false) (hcmd : f.isCommand = true) (hpf : f.pf = true) :
    (s.answerPoll f).deferred =
      [.frame (outFrame s.conn false .s (frameBuildRrControl s.conn.vr true))] := by
  unfold answerPoll sendAck
  rw [hpf, hcmd, hb]
  show (s.sendFrameInternal _).1.deferred = _
  rw [sendFrameInternal_of_lt (by rw [hs]; decide), hs]
  rfl

section arrivals

variable {c : Conn} (h : SeqInv c) (hl : c.Linked) {f : Frame} (hv : c.isValidNr f.nr = true)
include h hl hv

theorem advances_arrival (hty : f.type = .s ∨ f.type = .i) :
    Advances c (c.step (.call (.onFrame f) false false)).conn := by
  by_cases hf : Foreign c f
  · have hne : c.state ≠ .disconnected := by rcases hl with h | h <;> rw [h] <;> decide
    rw [step_foreign h hne hf]
    exact .refl c
  · have hw : WindowInv c.taken := h.window.congr rfl rfl rfl rfl rfl
    obtain ⟨⟨s₁, t, hr, hq, hfl⟩, -⟩ := dataPhase (s := ⟨c.taken, []⟩) hw.va_lt hl hty hv
    have hwt := (WindowInv.received (s := ⟨c.taken, []⟩) hw hv hr).sameLink hq.link
    have hlink := hq.link.trans (hfl.transfer hwt.va_lt hwt.vs_lt).link
    obtain ⟨hva, hvs, -, -⟩ := hr.vars
    rw [step_linked h hl hf]
    refine ⟨hlink.static.config.trans hr.static.config, hlink.vs.trans hvs, fun hidle => ?_,
      hlink.localBusy.trans hr.localBusy, fun hst => ?_, fun hleft => ?_⟩
    · -- an empty window leaves one N(R)
      have hnr := (isValidNr_iff h.window.va_lt h.window.vs_lt f.nr_lt).mp hv
      rw [hidle, Cyclic.arc_self] at hnr
      have hnr := (Cyclic.arc_eq_zero h.window.vs_lt).mp (Nat.le_zero.mp hnr)
      exact hlink.va.trans (hva.trans hnr.symm)
    · rcases hlink.state with hst' | ⟨-, hst'⟩
      · exact hst'.trans (hr.state.trans hst)
      · exact hst'
    · refine hlink.retriesLeft ?_
      unfold RetriesLeft polls at hleft ⊢
      rw [hr.state, hr.retryCount, hr.static.config]
      exact hleft

end arrivals

section handlers

variable {c : Conn} {f : Frame} (hw : WindowInv c) (hv : c.isValidNr f.nr = true)
include hw hv

/-- A receiver that is not busy answers an RR poll with an RR final, ahead of
everything else. -/
theorem dataHandler_rrPoll (hl : c.Linked) (hb : c.localBusy = false) (hty : f.type = .s)
    (hrr : f.sType = ctrlRr) (hcmd : f.isCommand = true) (hpf : f.pf = true) :
    [.frame (outFrame c false .s (frameBuildRrControl c.vr true))] <+:
      (dataHandler ⟨c, []⟩ f).1.deferred := by
  have hfin : responseFinal f = false := by simp [responseFinal, hcmd]
  have h₀ := (quiet_handleReceivedNr (s := ⟨c, []⟩) hw.va_lt hv).trans (quiet_peerBusy _ false)
  have hq := h₀.trans (quiet_answerPoll _ f)
  have hwt := (hw.ack f.nr_lt hv).sameLink hq.link
  have hrr' := answerPoll_rr (f := f) (s := (Locked.modify ⟨c, []⟩ (·.handleReceivedNr f.nr)).modify
    fun c => { c with peerBusy := false }) rfl (h₀.link.localBusy.trans hb) hcmd hpf
  rw [h₀.link.outFrame, h₀.link.vr] at hrr'
  have hack : outFrame (c.ackConn f.nr) false .s (frameBuildRrControl c.vr true) =
      outFrame c false .s (frameBuildRrControl c.vr true) := rfl
  have happ : ∀ {s' : Locked}, Transfer _ s' → _ := fun ht => hrr' ▸ Transfer.appends ht
  unfold dataHandler
  rcases hl with hst | hst <;>
    simp only [hst, reduceCtorEq, if_true, if_false, handleFrameConnected, handleFrameTimerRecovery,
      hty, connectedS, timerRecoveryS, hv, hrr, hfin, Bool.not_true, Bool.false_eq_true]
  · exact happ (transfer_sendPendingIFrames _ hwt.va_lt hwt.vs_lt)
  · obtain ⟨u, hu, hf⟩ := flush_settleRecovery _ _
    have hwu := hwt.sameLink hu.link
    exact happ (hu.transfer.trans (hf.transfer hwu.va_lt hwu.vs_lt))

/-- The RR final ends the recovery, and nothing but the window is sent. -/
theorem dataHandler_rrFinal (hst : c.state = .timerRecovery) (hty : f.type = .s)
    (hrr : f.sType = ctrlRr) (hfin : responseFinal f = true) :
    frames (dataHandler ⟨c, []⟩ f).1.deferred =
        (Conn.seqRange f.nr c.vs).map (c.ackConn f.nr).infoFrame ∧
      (dataHandler ⟨c, []⟩ f).1.conn.state = .connected := by
  have hinfos := dataHandler_goesBack hw (Or.inr hst) hty hv (Or.inr ⟨hst, hrr, hfin⟩)
  have hcmd : (f.pf && f.isCommand) = false := by
    simp only [responseFinal, Bool.and_eq_true, Bool.not_eq_true'] at hfin
    simp [hfin.2]
  have hnone : ∀ s : Locked, s.answerPoll f = s := by
    intro s
    unfold answerPoll
    rw [hcmd]
    rfl
  have hcon := quiet_concludeIfFinal (s := ⟨c, []⟩) hw.va_lt hv hst
  rw [if_pos hfin] at hcon
  have hq := hcon.trans (quiet_peerBusy _ false)
  have hwt := (hw.ack f.nr_lt hv).sameLink hq.link
  have hconn : ∀ s : Locked, s.concludeRecovery.conn.state = .connected := by
    intro s
    simp only [concludeRecovery, modify_conn]
    split_ifs
    · rw [markUntransmitted_state]
    · rfl
  have hend : ∃ b, (dataHandler ⟨c, []⟩ f).1 =
      (((Locked.modify ⟨c, []⟩ (·.handleReceivedNr f.nr)).concludeRecovery.modify
        fun c => { c with peerBusy := false }).settleRecovery b) := by
    simp only [dataHandler, hst, reduceCtorEq, if_true, if_false, handleFrameTimerRecovery, hty,
      timerRecoveryS, hv, hrr, hfin, Bool.not_true, Bool.false_eq_true, hnone]
    exact ⟨_, rfl⟩
  obtain ⟨b, hend⟩ := hend
  rw [hend] at hinfos ⊢
  refine ⟨?_, ?_⟩
  · rw [← hinfos, settleRecovery_deferred hwt (hq.room rfl (by decide))]
    have hdef : ((Locked.modify ⟨c, []⟩ (·.handleReceivedNr f.nr)).concludeRecovery.modify
        fun c => { c with peerBusy := false }).deferred = [] := rfl
    rw [hdef, List.nil_append, infos_slots, frames_slots]
  · obtain ⟨u, hu, hf⟩ := flush_settleRecovery
      (((Locked.modify ⟨c, []⟩ (·.handleReceivedNr f.nr)).concludeRecovery.modify
        fun c => { c with peerBusy := false })) b
    have hwu := hwt.sameLink hu.link
    rcases (hu.link.trans (hf.transfer hwu.va_lt hwu.vs_lt).link).state with hst' | ⟨-, hst'⟩
    · exact hst'.trans (hconn _)
    · exact hst'

/-- An in-sequence I frame is passed on, unless the receiver is busy. -/
theorem dataHandler_inSequence (hl : c.Linked) (hb : c.localBusy = false) (hty : f.type = .i)
    (hns : f.ns = c.vr) (hpos : 0 < f.payload.length) (hmax : f.payload.length ≤ maxInfoLen) :
    [.data f.payload] <+: (dataHandler ⟨c, []⟩ f).1.deferred := by
  have h₀ := quiet_handleReceivedNr_i (s := ⟨c, []⟩) hw.va_lt hv
  have hr : Received ⟨c, []⟩ f _ := .data hty hns hb
  have hq := (quiet_consume (s := ⟨c, []⟩) hw.va_lt hv).trans (quiet_acknowledge _ f)
  have hwt := (WindowInv.received (s := ⟨c, []⟩) hw hv hr).sameLink hq.link
  have hdef : ((Locked.modify ⟨c, []⟩ (·.ackConn f.nr)).consume f).deferred = [.data f.payload] :=
    consume_deferred rfl hpos hmax
  have hns' : f.ns = (Locked.modify ⟨c, []⟩ fun c =>
      { c.handleReceivedNr f.nr with peerBusy := false }).conn.vr := hns.trans h₀.link.vr.symm
  have hb' : ¬ (Locked.modify ⟨c, []⟩ fun c =>
      { c.handleReceivedNr f.nr with peerBusy := false }).conn.localBusy = true := by
    rw [h₀.link.localBusy]
    exact Bool.eq_false_iff.mp hb
  rw [← hdef]
  unfold dataHandler
  rcases hl with hst | hst <;>
    simp only [hst, reduceCtorEq, if_true, if_false, handleFrameConnected, handleFrameTimerRecovery,
      hty, connectedI, timerRecoveryI, hv, Bool.not_true, Bool.false_eq_true] <;>
    rw [if_pos hns', if_neg hb']
  · have hq' := hq.trans (quiet_startTimerT3 _)
    have hwt' := hwt.sameLink (quiet_startTimerT3 _).link
    exact (hq'.transfer.trans (transfer_sendPendingIFrames _ hwt'.va_lt hwt'.vs_lt)).appends
  · exact hq.transfer.appends

end handlers

section steps

variable {c : Conn} (h : SeqInv c) (hl : c.Linked) {f : Frame} (hf : ¬ Foreign c f)
  (hv : c.isValidNr f.nr = true)
include h hl hf hv

theorem step_rrPoll (hb : c.localBusy = false) (hty : f.type = .s) (hrr : f.sType = ctrlRr)
    (hcmd : f.isCommand = true) (hpf : f.pf = true) :
    (c.step (.call (.onFrame f) false false)).conn.vr = c.vr ∧
      ∃ rest, frames (c.step (.call (.onFrame f) false false)).out =
        outFrame c false .s (frameBuildRrControl c.vr true) :: rest := by
  have hw : WindowInv c.taken := h.window.congr rfl rfl rfl rfl rfl
  rw [step_linked h hl hf]
  obtain ⟨l, hl'⟩ := dataHandler_rrPoll hw hv hl hb hty hrr hcmd hpf
  refine ⟨(dataHandler_link hw hl hty hv).vr, frames l, ?_⟩
  rw [← hl', frames_append]
  rfl

theorem step_rrFinal (hst : c.state = .timerRecovery) (hty : f.type = .s)
    (hrr : f.sType = ctrlRr) (hfin : responseFinal f = true) :
    frames (c.step (.call (.onFrame f) false false)).out =
        (Conn.seqRange f.nr c.vs).map (c.ackConn f.nr).infoFrame ∧
      (c.step (.call (.onFrame f) false false)).conn.state = .connected ∧
      (c.step (.call (.onFrame f) false false)).conn.va = f.nr := by
  have hw : WindowInv c.taken := h.window.congr rfl rfl rfl rfl rfl
  rw [step_linked h hl hf]
  obtain ⟨hframes, hconn⟩ := dataHandler_rrFinal hw hv hst hty hrr hfin
  exact ⟨hframes, hconn, (dataHandler_link hw hl hty hv).va⟩

theorem step_inSequence (hb : c.localBusy = false) (hty : f.type = .i) (hns : f.ns = c.vr)
    (hpos : 0 < f.payload.length) (hmax : f.payload.length ≤ maxInfoLen) :
    0 < (payloads (c.step (.call (.onFrame f) false false)).out).length := by
  have hw : WindowInv c.taken := h.window.congr rfl rfl rfl rfl rfl
  rw [step_linked h hl hf]
  obtain ⟨l, hl'⟩ := dataHandler_inSequence hw hv hl hb hty hns hpos hmax
  rw [← hl', payloads_append, List.length_append]
  exact Nat.lt_add_right _ Nat.one_pos

end steps

/-! ### Live links -/

/-- What one endpoint sends belongs to the session of the other. -/
theorem Sends.not_foreign {c d : Conn} {g : Frame} (h : Sends c g) (hpath : c.path = [])
    (hpeer : addressEquals c.remoteAddr d.localAddr = true)
    (hpeer' : addressEquals d.remoteAddr c.localAddr = true) : ¬ Foreign d g := by
  rintro (hui | hdst | ⟨a, ha, -⟩ | hsrc)
  · exact h.type hui
  · rw [h.outbound.2, hpeer] at hdst
    cases hdst
  · rw [h.path, hpath] at ha
    cases ha
  · rw [h.outbound.1, addressEquals_symm hpeer'] at hsrc
    cases hsrc

theorem Foreign.congr {c c' : Conn} {f : Frame} (h : Foreign c' f) (hs : SameSession c c') :
    Foreign c f := by
  unfold Foreign at h ⊢
  rwa [hs.localAddr, hs.remoteAddr] at h

namespace Link

/-- A link in which both endpoints will wake up, and all frames in flight belong
to its session. -/
structure Live (x : Link) : Prop where
  inv : x.Inv
  near : Awake x.near.conn
  far : Awake x.far.conn
  peer : addressEquals x.near.conn.remoteAddr x.far.conn.localAddr = true
  peer' : addressEquals x.far.conn.remoteAddr x.near.conn.localAddr = true
  path : x.near.conn.path = []
  path' : x.far.conn.path = []
  toFar : ∀ f ∈ x.toFar, ¬ Foreign x.far.conn f
  toNear : ∀ f ∈ x.toNear, ¬ Foreign x.near.conn f

theorem Live.swap {x : Link} (h : x.Live) : x.swap.Live :=
  ⟨h.inv.swap, h.far, h.near, h.peer', h.peer, h.path', h.path, h.toNear, h.toFar⟩

/-- A call of the near endpoint. -/
theorem Live.call {x : Link} (h : x.Live) (op : Op) (hop : op.OnLink)
    (hinv : (x.call op).1.Inv) : (x.call op).1.Live := by
  obtain ⟨hs, hframes⟩ := call_sameSession h.inv.near h.inv.up.1 hop hinv.up.1
  have hpeer : addressEquals (x.call op).1.near.conn.remoteAddr x.far.conn.localAddr = true := by
    show addressEquals (x.near.conn.step (.call op false false)).conn.remoteAddr _ = true
    rw [hs.remoteAddr]
    exact h.peer
  have hpeer' : addressEquals x.far.conn.remoteAddr (x.call op).1.near.conn.localAddr = true := by
    show addressEquals _ (x.near.conn.step (.call op false false)).conn.localAddr = true
    rw [hs.localAddr]
    exact h.peer'
  refine ⟨hinv, h.near.call h.inv.near op false false, h.far, hpeer, hpeer', hs.path.trans h.path,
    h.path', fun f hf => ?_, fun f hf hfor => h.toNear f hf (hfor.congr hs)⟩
  rcases List.mem_append.mp hf with hf | hf
  · exact h.toFar f hf
  · exact (hframes f hf).not_foreign h.path h.peer h.peer'

/-- An event of the near endpoint. -/
theorem Live.act {x : Link} (h : x.Live) (e : LinkEvent) (hup : (x.act e).1.Up) :
    (x.act e).1.Live := by
  have hinv := (h.inv.act e).2 hup
  cases e with
  | sendData data => exact h.call (.sendData data) trivial hinv
  | setBusy busy => exact h.call (.setBusy busy) trivial hinv
  | expire t => exact h.call t.op (by cases t <;> trivial) hinv
  | fire t =>
      have hs : SameSession x.near.conn (x.near.conn.fire t) := by
        cases t <;> exact ⟨rfl, rfl, rfl, rfl⟩
      refine ⟨hinv, h.near.fire t, h.far, ?_, ?_, hs.path.trans h.path, h.path', h.toFar,
        fun f hf hfor => h.toNear f hf (hfor.congr hs)⟩
      · show addressEquals (x.near.conn.fire t).remoteAddr _ = true
        rw [hs.remoteAddr]
        exact h.peer
      · show addressEquals _ (x.near.conn.fire t).localAddr = true
        rw [hs.localAddr]
        exact h.peer'
  | drop k =>
      exact ⟨hinv, h.near, h.far, h.peer, h.peer', h.path, h.path',
        fun f hf => h.toFar f ((List.eraseIdx_sublist ..).subset hf), h.toNear⟩
  | deliver =>
      cases hnear : x.toNear with
      | nil =>
          rw [show x.act .deliver = (x, []) by unfold Link.act; simp only [hnear]]
          exact h
      | cons f rest =>
          have hact :
              (x.act .deliver).1 = (Link.call { x with toNear := rest } (.onFrame f)).1 := by
            unfold Link.act
            simp only [hnear]
          rw [hact] at hinv ⊢
          -- without its oldest frame the link is still live
          have hpop : ({ x with toNear := rest } : Link).Live := by
            have hdrop := (h.inv.step .far (.drop 0)).2 h.inv.up
            have heq : (x.step .far (.drop 0)).1 = { x with toNear := x.toNear.eraseIdx 0 } := rfl
            rw [heq, hnear] at hdrop
            exact ⟨hdrop, h.near, h.far, h.peer, h.peer', h.path, h.path', h.toFar,
              fun g hg => h.toNear g (by rw [hnear]; exact List.mem_cons_of_mem _ hg)⟩
          have hmem : f ∈ x.toNear := by
            rw [hnear]
            exact List.mem_cons_self
          have hty : f.type = .s ∨ f.type = .i := by
            obtain ⟨b, r, b', r', fwd, bwd, hx⟩ := h.inv.sim
            rw [hx.toNear] at hmem
            obtain ⟨p, hp, rfl⟩ := List.mem_map.mp hmem
            rcases (hx.back.carried p hp).data with ⟨hs, -⟩ | ⟨hi, -⟩
            · exact Or.inl hs
            · exact Or.inr hi
          exact hpop.call _ hty hinv

theorem Live.step {x : Link} (h : x.Live) (side : Side) (e : LinkEvent)
    (hup : (x.step side e).1.Up) : (x.step side e).1.Live := by
  cases side with
  | near => exact h.act e hup
  | far => exact (h.swap.act e hup.symm).swap

/-! ### Serving a link -/

/-- The events of the near endpoint that need neither new payloads nor losses: a
frame arrives, a timer that has fired is served, or the application lifts its
busy condition. -/
def Serves (x : Link) : LinkEvent → Prop
  | .fire _ | .deliver => True
  | .expire t => 0 < (x.near.conn.timer t).pending
  | .setBusy busy => busy = false
  | .sendData _ | .drop _ => False

/-- The link as one side sees it. -/
def seen (x : Link) : Side → Link
  | .near => x
  | .far => x.swap

/-- `y` follows `x` by events that serve the link. -/
inductive Continues (x : Link) : Link → Prop
  | refl : x.Continues x
  | step {y : Link} (side : Side) (e : LinkEvent) : x.Continues y → (y.seen side).Serves e →
      (y.step side e).1.Up → x.Continues (y.step side e).1

theorem Continues.trans {x y z : Link} (h : x.Continues y) (h' : y.Continues z) :
    x.Continues z := by
  induction h' with
  | refl => exact h
  | step side e _ hs hup ih => exact .step side e ih hs hup

theorem step_swap_near (x : Link) (e : LinkEvent) :
    (x.swap.step .far e).1 = (x.step .near e).1.swap := rfl

theorem step_swap_far (x : Link) (e : LinkEvent) :
    (x.swap.step .near e).1 = (x.step .far e).1.swap := rfl

theorem Continues.swap {x y : Link} (h : x.Continues y) : x.swap.Continues y.swap := by
  induction h with
  | refl => exact .refl
  | step side e _ hs hup ih =>
      cases side with
      | near =>
          rw [← step_swap_near]
          exact .step .far e ih hs hup.symm
      | far =>
          rw [← step_swap_far]
          exact .step .near e ih hs hup.symm

/-- From `x` to `y` frames have arrived, and the endpoints have only gained. -/
structure Flows (x y : Link) : Prop where
  continues : x.Continues y
  live : y.Live
  near : Advances x.near.conn y.near.conn
  far : Advances x.far.conn y.far.conn
  accepted : y.near.accepted = x.near.accepted
  accepted' : y.far.accepted = x.far.accepted
  delivered : x.far.delivered.length ≤ y.far.delivered.length
  delivered' : x.near.delivered.length ≤ y.near.delivered.length

namespace Flows

theorem refl {x : Link} (h : x.Live) : x.Flows x :=
  ⟨.refl, h, .refl _, .refl _, rfl, rfl, Nat.le_refl _, Nat.le_refl _⟩

theorem trans {x y z : Link} (h : x.Flows y) (h' : y.Flows z) : x.Flows z :=
  ⟨h.continues.trans h'.continues, h'.live, h.near.trans h'.near, h.far.trans h'.far,
    h'.accepted.trans h.accepted, h'.accepted'.trans h.accepted', h.delivered.trans h'.delivered,
    h.delivered'.trans h'.delivered'⟩

theorem swap {x y : Link} (h : x.Flows y) : x.swap.Flows y.swap :=
  ⟨h.continues.swap, h.live.swap, h.far, h.near, h.accepted', h.accepted, h.delivered',
    h.delivered⟩

end Flows

/-- The frame that arrives next is an I or S frame of the session, with a valid
N(R), and of a proper size. -/
theorem Live.arriving {x : Link} (h : x.Live) {f : Frame} {rest : List Frame}
    (hf : x.toNear = f :: rest) :
    ¬ Foreign x.near.conn f ∧ x.near.conn.isValidNr f.nr = true ∧
      (f.type = .s ∨ f.type = .i ∧ 0 < f.payload.length ∧ f.payload.length ≤ maxInfoLen) := by
  have hmem : f ∈ x.toNear := by
    rw [hf]
    exact List.mem_cons_self
  refine ⟨h.toNear f hmem, ?_⟩
  obtain ⟨b, r, b', r', fwd, bwd, hx⟩ := h.inv.sim
  rw [hx.toNear] at hmem
  obtain ⟨p, hp, rfl⟩ := List.mem_map.mp hmem
  refine ⟨hx.isValidNr h.inv.near.window hp, ?_⟩
  rcases (hx.back.carried p hp).data with ⟨hs, -⟩ | ⟨hi, n, m, -, -, hpay⟩
  · exact Or.inl hs
  · exact Or.inr ⟨hi, hx.back.sizes _ (List.mem_of_getElem? hpay)⟩

/-- An arrival on the near side, as a call. -/
theorem act_deliver {x : Link} {f : Frame} {rest : List Frame} (hf : x.toNear = f :: rest) :
    (x.act .deliver).1 = (Link.call { x with toNear := rest } (.onFrame f)).1 := by
  unfold act
  simp only [hf]

theorem Live.flows_near {x : Link} (h : x.Live) (hne : x.toNear ≠ []) :
    x.Flows (x.act .deliver).1 := by
  obtain ⟨f, rest, hf⟩ := List.exists_cons_of_ne_nil hne
  obtain ⟨hfor, hv, hty⟩ := h.arriving hf
  have hinv := (h.inv.arrive_near hne).1
  have hty' : f.type = .s ∨ f.type = .i := hty.imp_right And.left
  have hadv := advances_arrival h.inv.near h.inv.up.1 hv hty'
  have hlive := h.act .deliver hinv.up
  have hcont : x.Continues (x.act .deliver).1 := .step .near .deliver .refl trivial hinv.up
  rw [act_deliver hf] at hlive hcont ⊢
  refine ⟨hcont, hlive, hadv, .refl _, List.append_nil _, rfl, Nat.le_refl _, ?_⟩
  exact (List.prefix_append _ _).length_le

theorem Live.flows {x : Link} (h : x.Live) (side : Side) (hne : x.incoming side ≠ []) :
    x.Flows (x.step side .deliver).1 := by
  cases side with
  | near => exact h.flows_near hne
  | far => exact (h.swap.flows_near hne).swap

/-- Everything in flight arrives. -/
theorem Live.drain {x : Link} (h : x.Live) : ∃ y, x.Flows y ∧ y.toFar = [] ∧ y.toNear = [] := by
  suffices hex : ∀ k y, x.Flows y → y.potential ≤ k →
      ∃ z, x.Flows z ∧ z.toFar = [] ∧ z.toNear = [] from hex _ x (.refl h) (Nat.le_refl _)
  intro k
  induction k with
  | zero =>
      intro y hy hk
      have none : ∀ side, y.incoming side = [] := by
        intro side
        by_contra hne
        have := (hy.live.inv.arrive side hne).2
        omega
      exact ⟨y, hy, none .far, none .near⟩
  | succ k ih =>
      intro y hy hk
      -- a frame that is still in flight arrives first
      have next : ∀ side, y.incoming side ≠ [] → ∃ z, x.Flows z ∧ z.toFar = [] ∧ z.toNear = [] := by
        intro side hne
        have hlt := (hy.live.inv.arrive side hne).2
        exact ih _ (hy.trans (hy.live.flows side hne)) (by omega)
      by_cases hfar : y.toFar = []
      · by_cases hnear : y.toNear = []
        · exact ⟨y, hy, hfar, hnear⟩
        · exact next .near hnear
      · exact next .far hfar

/-! ### One round -/

/-- The poll of a context, as a frame. -/
abbrev pollFrame (c : Conn) : Frame := outFrame c true .s (frameBuildRrControl c.vr true)

/-- The answer to it. -/
abbrev finalFrame (c : Conn) : Frame := outFrame c false .s (frameBuildRrControl c.vr true)

theorem rrControl {c : Conn} (hvr : c.vr < 8) (cmd : Bool) :
    let f := outFrame c cmd .s (frameBuildRrControl c.vr true)
    f.type = .s ∧ f.sType = ctrlRr ∧ f.isCommand = cmd ∧ f.pf = true ∧ f.nr = c.vr :=
  ⟨rfl, sType_buildS (Or.inl rfl) hvr true, rfl, hasPf_buildS (Or.inl rfl) hvr true,
    extractNr_buildS (Or.inl rfl) hvr true⟩

theorem call_of_out {x : Link} (op : Op) {out : List Action}
    (h : (x.near.conn.step (.call op false false)).out = out) :
    (x.call op).1 =
      { x with
        near :=
          { conn := (x.near.conn.step (.call op false false)).conn
            accepted := x.near.accepted ++
              op.accepts (x.near.conn.step (.call op false false)).ret
            delivered := x.near.delivered ++ payloads out }
        toFar := x.toFar ++ frames out } := by
  subst h
  rfl

/-- A timer expires, and the near endpoint polls its peer. -/
theorem Live.poll {x : Link} (h : x.Live) (hr : x.near.conn.RetriesLeft) :
    ∃ y, x.Continues y ∧ y.Live ∧ Polled x.near.conn y.near.conn ∧
      y = { x with near := { x.near with conn := y.near.conn },
                   toFar := x.toFar ++ [pollFrame x.near.conn] } := by
  obtain ⟨t, hact, ht⟩ := h.near.polls h.inv.up.1
  have hup : (x.step .near (.fire t)).1.Up := by
    cases t <;> exact h.inv.up
  have hlive := h.step .near (.fire t) hup
  have hfired : 0 < ((x.near.conn.fire t).timer t).pending := by
    rcases ht with rfl | ⟨rfl, -⟩ <;> rcases hact with harm | hpend <;>
      simp only [Conn.fire, Conn.timer, Timer.fire] at * <;> split <;> simp_all
  have hpolls := expire_polls hlive.inv.near hlive.inv.up.1
    (by rcases ht with rfl | ⟨rfl, -⟩ <;> exact hr) (t := t)
    (ht.imp_right (And.imp_right fun hst => by cases t <;> exact hst))
  have hsame : (x.near.conn.fire t).rrPoll = x.near.conn.rrPoll := by cases t <;> rfl
  obtain ⟨hpolled, hout⟩ := hpolls
  have hup' : ((x.step .near (.fire t)).1.step .near (.expire t)).1.Up :=
    ⟨Or.inr hpolled.state, hup.2⟩
  refine ⟨_, .step .near (.expire t) (.step .near (.fire t) .refl trivial hup) hfired hup',
    hlive.step .near (.expire t) hup', ?_, ?_⟩
  · cases t <;> exact ⟨hpolled.config, hpolled.state, hpolled.va, hpolled.vs, hpolled.vr,
      hpolled.localBusy⟩
  · have hout : ((x.near.conn.fire t).step (.call t.op false false)).out = [x.near.conn.rrPoll] :=
      hout.trans (by rw [← hsame]; rfl)
    have hacc : ∀ ret, t.op.accepts ret = [] := by
      intro ret
      cases t <;> rfl
    have hpay : payloads [x.near.conn.rrPoll] = [] := rfl
    refine (call_of_out (x := (x.step .near (.fire t)).1) t.op hout).trans ?_
    simp only [hacc, hpay, List.append_nil]
    rfl

/-- The window of the near endpoint goes out again, from the payload on that the
far one waits for. -/
def Resent (x : Link) : Prop :=
  x.far.conn.vr = x.near.conn.vs ∨
    ∃ f rest, x.toFar = f :: rest ∧ f.type = .i ∧ f.ns = x.far.conn.vr

theorem resent_window {c : Conn} (hw : WindowInv c) (hne : c.va ≠ c.vs) :
    ∃ f rest, (Conn.seqRange c.va c.vs).map c.infoFrame = f :: rest ∧ f.type = .i ∧
      f.ns = c.va := by
  have hmem := (mem_seqRange hw.va_lt hw.vs_lt).mpr (Cyclic.mem_left hw.va_lt hne)
  have hcons : ∃ l, Conn.seqRange c.va c.vs = c.va :: l := by
    unfold Conn.seqRange Conn.seqRange.go
    rw [if_neg hne]
    exact ⟨_, rfl⟩
  obtain ⟨l, hl⟩ := hcons
  exact ⟨c.infoFrame c.va, l.map c.infoFrame, by rw [hl, List.map_cons], rfl,
    (infoFrame_spec hw (Cyclic.mem_left hw.va_lt hne)).1⟩

/-- The poll reaches the peer, and its answer comes back. -/
theorem Live.recover {x : Link} (h : x.Live) (hr : x.near.conn.RetriesLeft)
    (hb : x.far.conn.localBusy = false) (hfar : x.toFar = []) (hnear : x.toNear = []) :
    ∃ y, x.Flows y ∧ y.near.conn.state = .connected ∧ y.near.conn.va = y.far.conn.vr ∧
      y.far.conn.vr = x.far.conn.vr ∧ y.Resent := by
  obtain ⟨x₁, hc₁, hl₁, hp, hx₁⟩ := h.poll hr
  have hfar₁ : x₁.far = x.far := by rw [hx₁]
  have hto₁ : x₁.toFar = [pollFrame x.near.conn] := by rw [hx₁, hfar]; rfl
  have hback₁ : x₁.toNear = [] := by rw [hx₁]; exact hnear
  -- the poll arrives
  obtain ⟨hfor₁, hv₁, -⟩ := Live.arriving (x := x₁.swap) hl₁.swap hto₁
  obtain ⟨hty₁, hrr₁, hcmd₁, hpf₁, -⟩ := rrControl h.inv.near.window.vr_lt true
  obtain ⟨hvr₂, rest, hframes₂⟩ := step_rrPoll hl₁.inv.far hl₁.inv.up.2 hfor₁ hv₁
    (by rw [hfar₁]; exact hb) hty₁ hrr₁ hcmd₁ hpf₁
  have hfl₂ := hl₁.flows .far (by simp [incoming, hto₁])
  have heq₂ : (x₁.step .far .deliver).1 = (Link.call { x₁.swap with toNear := [] }
      (.onFrame (pollFrame x.near.conn))).1.swap :=
    congrArg Link.swap (act_deliver (x := x₁.swap) hto₁)
  generalize hx₂ : (x₁.step .far .deliver).1 = x₂ at hfl₂ heq₂
  have hto₂ : x₂.toFar = [] := by rw [heq₂]; rfl
  have hnear₂ : x₂.near = x₁.near := by rw [heq₂]; rfl
  have hvr₂ : x₂.far.conn.vr = x.far.conn.vr := by
    rw [heq₂, ← hfar₁]
    exact hvr₂
  have hback₂ : x₂.toNear = finalFrame x₁.far.conn :: rest := by
    rw [heq₂]
    show x₁.toNear ++ frames _ = _
    rw [hback₁]
    exact hframes₂
  -- its answer arrives
  obtain ⟨hfor₂, hv₂, -⟩ := hfl₂.live.arriving hback₂
  obtain ⟨hty₂, hrr₂, hcmd₂, hpf₂, hnr₂⟩ :=
    rrControl (c := x₁.far.conn) hl₁.inv.far.window.vr_lt false
  obtain ⟨hframes₃, hst₃, hva₃⟩ := step_rrFinal hfl₂.live.inv.near hfl₂.live.inv.up.1 hfor₂ hv₂
    (by rw [hnear₂]; exact hp.state) hty₂ hrr₂ (by simp [responseFinal, hpf₂, hcmd₂])
  have hfl₃ := hfl₂.live.flows .near (by simp [incoming, hback₂])
  have heq₃ : (x₂.step .near .deliver).1 = (Link.call { x₂ with toNear := rest }
      (.onFrame (finalFrame x₁.far.conn))).1 := act_deliver hback₂
  generalize hx₃ : (x₂.step .near .deliver).1 = x₃ at hfl₃ heq₃
  have hnr : (finalFrame x₁.far.conn).nr = x.far.conn.vr := by rw [hnr₂, hfar₁]
  have hst : x₃.near.conn.state = .connected := by rw [heq₃]; exact hst₃
  have hvr₃ : x₃.far.conn.vr = x.far.conn.vr := by rw [heq₃]; exact hvr₂
  have hva : x₃.near.conn.va = x₃.far.conn.vr := by
    rw [hvr₃, heq₃]
    exact hva₃.trans hnr
  have hfl := hfl₂.trans hfl₃
  refine ⟨x₃, ?_, hst, hva, hvr₃, ?_⟩
  · refine ⟨hc₁.trans hfl.continues, hfl.live, ?_, hfar₁ ▸ hfl.far,
      hfl.accepted.trans (by rw [hx₁]), hfl.accepted'.trans (by rw [hfar₁]), hfar₁ ▸ hfl.delivered,
      ?_⟩
    · refine ⟨hfl.near.config.trans hp.config, hfl.near.vs.trans hp.vs, fun hidle => ?_,
        hfl.near.localBusy.trans hp.localBusy, fun _ => hst, fun _ => ?_⟩
      · exact (hfl.near.idle (by rw [hp.va, hp.vs]; exact hidle)).trans hp.vs
      · unfold RetriesLeft polls
        rw [if_pos hst, hfl.near.config, hp.config]
        exact Nat.lt_of_le_of_lt (Nat.zero_le _) hr
    · have hdel : x₁.near.delivered = x.near.delivered := by rw [hx₁]
      rw [← hdel]
      exact hfl.delivered'
  · -- the window is what the answer has left of it
    have hw := hfl₂.live.inv.near.window.ack (Frame.nr_lt _) hv₂
    have hvs : x₃.near.conn.vs = x₂.near.conn.vs := hfl₃.near.vs
    by_cases hne : (x₂.near.conn.ackConn (finalFrame x₁.far.conn).nr).va = x₂.near.conn.vs
    · exact Or.inl (by rw [hvr₃, hvs, ← hnr]; exact hne)
    · obtain ⟨f, l, hl, hty, hns⟩ := resent_window hw hne
      refine Or.inr ⟨f, l, ?_, hty, hns.trans (hnr.trans hvr₃.symm)⟩
      rw [heq₃]
      show x₂.toFar ++ frames _ = _
      rw [hto₂, List.nil_append]
      exact hframes₃.trans hl

/-- The far endpoint waits for the payload after the last one accepted iff
everything accepted has been delivered. -/
theorem Inv.caught_up {x : Link} (h : x.Inv) :
    x.far.conn.vr = x.near.conn.vs ↔ x.far.delivered.length = x.near.accepted.length := by
  obtain ⟨b, r, b', r', fwd, bwd, hx⟩ := h.sim
  have h₁ := hx.out.flow.base_le
  have h₂ := hx.out.flow.recv_le
  have h₃ := hx.out.flow.window
  rw [hx.far.vr, hx.near.vs, hx.out.delivered, List.length_take]
  omega

/-- **One round.** The near endpoint ends up connected; if a payload was missing,
one more has been delivered, and otherwise its window is empty. -/
theorem Live.round {x : Link} (h : x.Live) (hr : x.near.conn.RetriesLeft)
    (hb : x.far.conn.localBusy = false) (hfar : x.toFar = []) (hnear : x.toNear = []) :
    ∃ y, x.Flows y ∧ y.toFar = [] ∧ y.toNear = [] ∧ y.near.conn.state = .connected ∧
      (x.far.delivered.length = x.near.accepted.length → y.near.conn.va = y.near.conn.vs) ∧
      (x.far.delivered.length ≠ x.near.accepted.length →
        x.far.delivered.length < y.far.delivered.length) := by
  obtain ⟨y, hfl, hst, hva, hvr, hres⟩ := h.recover hr hb hfar hnear
  have hcaught := h.inv.caught_up
  by_cases hvs : x.far.conn.vr = x.near.conn.vs
  · obtain ⟨z, hz, hz₁, hz₂⟩ := hfl.live.drain
    refine ⟨z, hfl.trans hz, hz₁, hz₂, hz.near.state hst, fun _ => ?_,
      fun hne => absurd (hcaught.mp hvs) hne⟩
    rw [hz.near.vs]
    refine hz.near.idle ?_
    rw [hva, hvr, hvs, hfl.near.vs]
  · rcases hres with hres | ⟨f, rest, hto, hty, hns⟩
    · rw [hvr, hfl.near.vs] at hres
      exact absurd hres hvs
    · -- the first frame of the window arrives
      obtain ⟨hfor, hv, hsize⟩ := Live.arriving (x := y.swap) hfl.live.swap hto
      have hsize : 0 < f.payload.length ∧ f.payload.length ≤ maxInfoLen := by
        rcases hsize with hs | ⟨-, hsize⟩
        · cases hs.symm.trans hty
        · exact hsize
      have hmore := step_inSequence hfl.live.inv.far hfl.live.inv.up.2 hfor hv
        (hfl.far.localBusy.trans hb) hty hns hsize.1 hsize.2
      have hfl' := hfl.live.flows .far (by simp [incoming, hto])
      have heq : (y.step .far .deliver).1 =
          (Link.call { y.swap with toNear := rest } (.onFrame f)).1.swap :=
        congrArg Link.swap (act_deliver (x := y.swap) hto)
      have hgrown : y.far.delivered.length < (y.step .far .deliver).1.far.delivered.length := by
        rw [heq]
        show _ < (y.far.delivered ++ payloads _).length
        rw [List.length_append]
        exact Nat.lt_add_of_pos_right hmore
      obtain ⟨z, hz, hz₁, hz₂⟩ := hfl'.live.drain
      refine ⟨z, (hfl.trans hfl').trans hz, hz₁, hz₂, (hfl'.trans hz).near.state hst,
        fun heq => absurd (hcaught.mpr heq) hvs, fun _ => ?_⟩
      exact Nat.lt_of_le_of_lt hfl.delivered (Nat.lt_of_lt_of_le hgrown hz.delivered)

/-- Round after round, everything that the near endpoint has accepted is
delivered and acknowledged. -/
theorem Live.serve (k : Nat) : ∀ {x : Link}, x.Live → x.near.conn.RetriesLeft →
    x.far.conn.localBusy = false → x.toFar = [] → x.toNear = [] →
    x.near.accepted.length - x.far.delivered.length ≤ k →
    ∃ y, x.Flows y ∧ y.toFar = [] ∧ y.toNear = [] ∧ y.near.conn.state = .connected ∧
      y.near.conn.va = y.near.conn.vs ∧ y.far.delivered.length = y.near.accepted.length := by
  induction k with
  | zero =>
      intro x h hr hb hfar hnear hk
      obtain ⟨y, hfl, hy₁, hy₂, hst, hidle, -⟩ := h.round hr hb hfar hnear
      have hle := h.inv.delivered_le.1
      have hle' := hfl.live.inv.delivered_le.1
      have hgain := hfl.delivered
      rw [hfl.accepted] at hle'
      refine ⟨y, hfl, hy₁, hy₂, hst, hidle (by omega), ?_⟩
      rw [hfl.accepted]
      omega
  | succ k ih =>
      intro x h hr hb hfar hnear hk
      obtain ⟨y, hfl, hy₁, hy₂, hst, hidle, hmore⟩ := h.round hr hb hfar hnear
      have hle' := hfl.live.inv.delivered_le.1
      have hgain := hfl.delivered
      rw [hfl.accepted] at hle'
      by_cases hdone : x.far.delivered.length = x.near.accepted.length
      · refine ⟨y, hfl, hy₁, hy₂, hst, hidle hdone, ?_⟩
        rw [hfl.accepted]
        omega
      · have hmore := hmore hdone
        obtain ⟨z, hz, hrest⟩ := ih hfl.live (hfl.near.retries hr) (hfl.far.localBusy.trans hb)
          hy₁ hy₂ (by rw [hfl.accepted]; omega)
        exact ⟨z, hfl.trans hz, hrest⟩

/-! ### Recovery -/

/-- Both endpoints are connected, nothing is in flight, and everything that has
been accepted is delivered and acknowledged. -/
structure AtRest (x : Link) : Prop where
  toFar : x.toFar = []
  toNear : x.toNear = []
  near : x.near.conn.state = .connected ∧ x.near.conn.va = x.near.conn.vs
  far : x.far.conn.state = .connected ∧ x.far.conn.va = x.far.conn.vs
  delivered : x.far.delivered = x.near.accepted
  delivered' : x.near.delivered = x.far.accepted

/-- What has been delivered is a prefix, so its length tells. -/
theorem Inv.delivered_eq {x : Link} (h : x.Inv)
    (hlen : x.far.delivered.length = x.near.accepted.length) :
    x.far.delivered = x.near.accepted := by
  obtain ⟨b, r, b', r', fwd, bwd, hx⟩ := h.sim
  rw [hx.out.delivered] at hlen ⊢
  exact List.take_of_length_le (by rw [List.length_take] at hlen; omega)

/-- First the one direction, then the other. -/
theorem Live.settle {x : Link} (h : x.Live) (hr : x.near.conn.RetriesLeft)
    (hr' : x.far.conn.RetriesLeft) (hb : x.near.conn.localBusy = false)
    (hb' : x.far.conn.localBusy = false) (hfar : x.toFar = []) (hnear : x.toNear = []) :
    ∃ y, x.Flows y ∧ y.AtRest := by
  obtain ⟨y, hy, hy₁, hy₂, hst, hidle, hlen⟩ := h.serve _ hr hb' hfar hnear (Nat.le_refl _)
  obtain ⟨z, hz, hz₁, hz₂, hst', hidle', hlen'⟩ := Live.serve (x := y.swap) _ hy.live.swap
    (hy.far.retries hr') (hy.near.localBusy.trans hb) hy₂ hy₁ (Nat.le_refl _)
  have hback : y.Flows z.swap := hz.swap
  have hall : z.near.delivered.length = z.far.accepted.length := by
    have hle := hback.live.inv.delivered_le.1
    have hgain := hback.delivered
    have hacc : z.far.accepted = y.near.accepted := hback.accepted
    have hle : z.near.delivered.length ≤ z.far.accepted.length := hle
    have hgain : y.far.delivered.length ≤ z.near.delivered.length := hgain
    rw [hacc] at hle ⊢
    omega
  refine ⟨z.swap, hy.trans hback, hz₂, hz₁, ⟨hback.near.state hst, ?_⟩, ⟨hst', hidle'⟩,
    hback.live.inv.delivered_eq hall, hz.live.inv.delivered_eq hlen'⟩
  exact (hback.near.idle hidle).trans hback.near.vs.symm

end Link

/-- `set_busy(false)` on a link that is up, under the mutex. -/
theorem setBusy_lifts {c : Conn} (hl : c.Linked) :
    ∃ l, setBusy ⟨c, []⟩ false = ⟨{ c with localBusy := false }, l⟩ := by
  cases hb : c.localBusy with
  | false =>
      have hc : ({ c with localBusy := false } : Conn) = c := by rw [← hb]
      exact ⟨[], by simp [setBusy, hb, hc]⟩
  | true =>
      have hst : c.state = .connected ∨ c.state = .timerRecovery := hl
      refine ⟨[.frame (outFrame c false .s (frameBuildRrControl c.vr false))], ?_⟩
      simp only [setBusy, hb, ne_eq, Bool.true_eq_false, not_false_eq_true, if_true, Locked.modify,
        hst, sendRr, sendSFrame, sendFrameInternal_nil, Bool.false_eq_true, if_false]
      rfl

namespace Link

/-- The near endpoint is no longer busy. -/
theorem Live.lift {x : Link} (h : x.Live) :
    ∃ y, x.Continues y ∧ y.Live ∧ y.near.conn.localBusy = false ∧
      (x.near.conn.RetriesLeft → y.near.conn.RetriesLeft) ∧ y.far = x.far ∧
      y.near.accepted = x.near.accepted := by
  have hcall := call_cases h.inv.near (.setBusy false) false false
  generalize hr : x.near.conn.step (.call (.setBusy false) false false) = r at hcall
  have hlifted : r.conn.localBusy = false ∧ r.conn.Linked ∧
      (x.near.conn.RetriesLeft → r.conn.RetriesLeft) := by
    cases hcall with
    | early ret hp => simp [Op.precheck, Op.consumeExpiry, h.inv.near.initialized] at hp
    | @returned s ret hp hsec hbody =>
        obtain ⟨l, hl⟩ := setBusy_lifts (c := x.near.conn.taken) h.inv.up.1
        have hs : setBusy ⟨x.near.conn.taken, []⟩ false = s := congrArg Prod.fst hbody
        rw [hl] at hs
        subst hs
        exact ⟨rfl, h.inv.up.1, id⟩
    | told hp hsec => cases hsec
    | asked f hop => cases hop
  have hup : (x.step .near (.setBusy false)).1.Up := by
    refine ⟨?_, h.inv.up.2⟩
    show (x.near.conn.step (.call (.setBusy false) false false)).conn.Linked
    rw [hr]
    exact hlifted.2.1
  have hconn : (x.step .near (.setBusy false)).1.near.conn = r.conn := congrArg Result.conn hr
  refine ⟨_, .step .near (.setBusy false) .refl rfl hup, h.step .near (.setBusy false) hup, ?_, ?_,
    rfl, List.append_nil _⟩
  · rw [hconn]
    exact hlifted.1
  · rw [hconn]
    exact hlifted.2.2

/-- **Recovery.** -/
theorem Live.recovers {x : Link} (h : x.Live) (hr : x.near.conn.RetriesLeft)
    (hr' : x.far.conn.RetriesLeft) :
    ∃ y, x.Continues y ∧ y.AtRest ∧ y.near.accepted = x.near.accepted ∧
      y.far.accepted = x.far.accepted := by
  -- neither is busy any more, and nothing is in flight
  obtain ⟨y₁, hc₁, hl₁, hb₁, hr₁, hfar₁, hacc₁⟩ := h.lift
  obtain ⟨y₂, hc₂, hl₂, hb₂, hr₂, hfar₂, hacc₂⟩ := hl₁.swap.lift
  have hnear : y₂.far = y₁.near := hfar₂
  have hr' : y₂.near.conn.RetriesLeft := by
    refine hr₂ ?_
    show y₁.far.conn.RetriesLeft
    rw [hfar₁]
    exact hr'
  obtain ⟨y₃, hy₃, hto, hback⟩ := hl₂.swap.drain
  have hbusy : y₂.far.conn.localBusy = false := by rw [hnear]; exact hb₁
  have hretry : y₂.far.conn.RetriesLeft := by rw [hnear]; exact hr₁ hr
  obtain ⟨y, hy, hrest⟩ := hy₃.live.settle (hy₃.near.retries hretry) (hy₃.far.retries hr')
    (hy₃.near.localBusy.trans hbusy) (hy₃.far.localBusy.trans hb₂) hto hback
  refine ⟨y, ?_, hrest, ?_, ?_⟩
  · exact ((hc₁.trans hc₂.swap).trans hy₃.continues).trans hy.continues
  · rw [hy.accepted, hy₃.accepted]
    show y₂.far.accepted = _
    rw [hnear, hacc₁]
  · rw [hy.accepted', hy₃.accepted']
    show y₂.near.accepted = _
    rw [hacc₂]
    show y₁.far.accepted = _
    rw [hfar₁]

theorem Runs.live {x₀ x : Link} (h₀ : x₀.Live) (h : Link.Runs x₀ x) : x.Live := by
  induction h with
  | start => exact h₀
  | step side e _ hup ih => exact ih.step side e hup

/-- Two endpoints that have just been connected to each other, with their timers in
order. -/
structure Timed (x : Link) : Prop extends x.Start where
  nearTimers : TimerInv x.near.conn
  farTimers : TimerInv x.far.conn

theorem Start.timed {x : Link} (h : x.Start) (hn : Reachable x.near.conn)
    (hf : Reachable x.far.conn) : x.Timed :=
  ⟨h, hn.timerInv, hf.timerInv⟩

theorem Timed.live {x : Link} (h : x.Timed) : x.Live := by
  have owed : ∀ c : Conn, ∃ n, AckInv n c := fun c => ⟨c.vr, fun _ hne => absurd rfl hne⟩
  refine ⟨h.inv, ⟨h.nearTimers, owed _⟩, ⟨h.farTimers, owed _⟩, h.peer, h.peer', h.near.path,
    h.far.path, ?_, ?_⟩
  · rw [h.toFar]
    exact List.forall_mem_nil _
  · rw [h.toNear]
    exact List.forall_mem_nil _

end Link

/-- **No dead end.** Whatever has been lost on the link, and in whatever order
frames, timers and calls have come: while both endpoints are in the data-transfer
states and have a retry left, there is a way on, by arrivals, expiries of timers
that are running and the end of busy conditions alone, to a state in which both
are connected and everything accepted so far is delivered and acknowledged. -/
theorem link_recovers {x₀ x : Link} (h₀ : x₀.Timed) (h : Link.Runs x₀ x)
    (hr : x.near.conn.RetriesLeft) (hr' : x.far.conn.RetriesLeft) :
    ∃ y, x.Continues y ∧ y.AtRest ∧ y.near.accepted = x.near.accepted ∧
      y.far.accepted = x.far.accepted :=
  (h.live h₀.live).recovers hr hr'

/-- The lost payload is delivered in the end. -/
theorem link_recovers_lost : ∃ y, sampleLost.Continues y ∧ y.AtRest ∧
    y.near.accepted = sampleLost.near.accepted ∧ y.far.accepted = sampleLost.far.accepted :=
  link_recovers (start_samplePair.timed reachable_sampleLink reachable_samplePeer)
    runs_sampleLost (by decide) (by decide)

end EspAx25
