import EspAx25.Conn.Timers

/-!
# EspAx25.Conn.TimerInv

The timer invariant over whole runs of the sequential machine: in every
reachable state some active timer will wake the connection up (`TimerInv`), and
what it owes to its peer will be acknowledged (`AckInv`).

The N(R) sent last is not part of the context. `ReachableNr` carries it along: it
is read off the frames that a step emits, and is 0 again once the sequence
variables have been reset (`ranReset`).
-/

namespace EspAx25

open Cyclic Conn Locked

/-! ### Every section keeps the timers -/

/-- No timer is armed without a session. -/
def Unarmed (c : Conn) : Prop :=
  c.timerT1.armed = none ∧ c.timerT2.armed = none ∧ c.timerT3.armed = none

/-- The timer invariant. -/
structure TimerInv (c : Conn) : Prop extends TimersOk c where
  idle : c.state = .disconnected → Unarmed c
  waiting : c.state = .awaitingConnection ∨ c.state = .awaitingRelease → c.timerT1.Active

/-- Starting T1 is enough in every state but one. -/
theorem timerInv_startTimerT1 {c : Conn} (hst : c.state ≠ .disconnected) :
    TimerInv c.startTimerT1 :=
  ⟨timersOk_startTimerT1 c, fun hd => absurd hd hst, fun _ => Timer.active_start ..⟩

theorem timerInv_of_disconnected {c : Conn} (hst : c.state = .disconnected) (h : Unarmed c) :
    TimerInv c := by
  refine ⟨⟨fun hr => ?_, fun hc => ?_, fun hc => ?_⟩, fun _ => h, fun hw => ?_⟩
  · cases hst.symm.trans hr
  · cases hst.symm.trans hc
  · cases hst.symm.trans hc
  · rcases hw with hw | hw <;> cases hst.symm.trans hw

theorem timerInv_of_linked {c : Conn} (hl : c.Linked) (h : TimersOk c) : TimerInv c := by
  refine ⟨h, fun hd => ?_, fun hw => ?_⟩
  · rcases hl with hl | hl <;> cases hl.symm.trans hd
  · rcases hl with hl | hl <;> rcases hw with hw | hw <;> cases hl.symm.trans hw

/-- A link that has just come up has an empty window and a running T3. -/
theorem timerInv_fresh_link {c : Conn} (hst : c.state = .connected) (hw : WindowInv c)
    (hva : c.va = c.vs) (h : c.timerT3.Active) : TimerInv c := by
  refine timerInv_of_linked (Or.inl hst) ⟨fun hr => ?_, fun _ => Or.inr h, fun _ i hu => ?_⟩
  · cases hst.symm.trans hr
  · exact absurd hu (not_inUse_of_va_eq hw hva i)

theorem TimerInv.congr {c c' : Conn} (h : TimerInv c) (hst : c'.state = c.state)
    (hq : c'.txQueue = c.txQueue) (h₁ : c'.timerT1 = c.timerT1) (h₂ : c'.timerT2 = c.timerT2)
    (h₃ : c'.timerT3 = c.timerT3) : TimerInv c' := by
  refine ⟨h.toTimersOk.congr hst (fun i => ?_) (by rw [h₁]; exact id) (by rw [h₃]; exact id),
    ?_, ?_⟩
  · rw [hq]
    exact And.intro
  · unfold Unarmed
    rw [hst, h₁, h₂, h₃]
    exact h.idle
  · rw [hst, h₁]
    exact h.waiting

theorem timersOk_queued {c : Conn} (h : TimersOk c) (data : List Byte) :
    TimersOk (c.queued data) := by
  refine h.congr rfl (fun i hu ht => ?_) id id
  by_cases hi : i = c.vs
  · simp [queued, hi] at ht
  · simp only [queued, Function.update_of_ne hi] at hu ht
    exact ⟨hu, ht⟩

/-- One section. A callback of T1 or T3 has used up its expiry, so less is known
then about the timers that it finds. -/
theorem SectionStep.timerInv {c : Conn} {op : Op} {s : Locked} {o : Outcome}
    (h : SectionStep c op s o) (hw : WindowInv c) (hidle : c.state = .disconnected → Unarmed c)
    (hinv : op ≠ .timerT1 → (op = .timerT3 → c.state ≠ .connected) → TimerInv c) :
    TimerInv s.conn := by
  have hother : op.isTimer = false → TimerInv c := by
    intro ht
    refine hinv ?_ ?_ <;> rintro rfl <;> cases ht
  cases h with
  | ignored ret ht => exact hother ht
  | t1Idle hst => exact timerInv_of_disconnected hst (hidle hst)
  | t2Idle => exact hinv (by simp) (by simp)
  | t3Idle hst => exact hinv (by simp) fun _ => hst
  | request f hst =>
      obtain ⟨p, hp⟩ := adopt_eq { c with remoteAddr := f.source, remoteAddrSet := true } f
      simp only [requested, hp]
      exact timerInv_of_disconnected hst (hidle hst)
  | reject f => exact hother rfl
  | opened f hst hu hua =>
      exact timerInv_fresh_link rfl
        ((SectionStep.opened f hst hu hua).window hw) rfl (Timer.active_start ..)
  | collision f hst hu hsabm =>
      exact timerInv_fresh_link rfl
        ((SectionStep.collision f hst hu hsabm).window hw) rfl (Timer.active_start ..)
  | relink f hl hu hsabm =>
      exact timerInv_fresh_link rfl
        ((SectionStep.relink f hl hu hsabm).window hw) rfl (Timer.active_start ..)
  | teardown pre => exact timerInv_of_disconnected rfl ⟨rfl, rfl, rfl⟩
  | reestablish f c₀ msg ret => exact timerInv_startTimerT1 fun h => by cases h
  | data f hl hty hv hr ht hd =>
      subst hd
      have hok := (hother rfl).toTimersOk
      have hrec := (dataHandler_timers hw hv hok (n := c.vr) (Or.inl rfl) hl hty).2
      refine timerInv_of_linked (ht.link.linked ?_) hrec
      unfold Linked
      rw [hr.state]
      exact hl
  | dial => exact timerInv_startTimerT1 fun h => by cases h
  | send data hl h₀ h₁ hq ht hs =>
      obtain ⟨hroom, -, rfl⟩ := queueIFrame_ok hq
      have hok := timersOk_queued (hother rfl).toTimersOk data
      have hsend := timersOk_sendPendingIFrames (s := ⟨c.queued data, []⟩) hok
        (hw.queued hroom h₀ h₁) (Nat.zero_le 5)
      rw [hs] at hsend
      exact timerInv_of_linked (ht.link.linked hl) hsend
  | release => exact timerInv_startTimerT1 fun h => by cases h
  | busyOn hl =>
      exact timerInv_of_linked hl ((hother rfl).toTimersOk.congr rfl (fun _ => And.intro) id id)
  | busyQuiet | busyOff => exact (hother rfl).congr rfl rfl rfl rfl rfl
  | retry ctrl hlt hc =>
      refine timerInv_startTimerT1 fun hd => ?_
      rcases hc with ⟨h, -⟩ | ⟨h, -⟩ <;> cases hd.symm.trans h
  | poll | t3Poll => exact timerInv_startTimerT1 fun h => by cases h
  | t2Ack a => exact (hinv (by simp) (by simp)).congr rfl rfl rfl rfl rfl

theorem DecideStep.timerInv {c c' : Conn} {f : Frame} {acts : List Action}
    (h : DecideStep c f c' acts) (hw : WindowInv c) : TimerInv c' := by
  cases h with
  | refused => exact timerInv_of_disconnected rfl ⟨rfl, rfl, rfl⟩
  | accepted hr =>
      exact timerInv_fresh_link rfl ((DecideStep.accepted (f := f) hr).window hw) rfl
        (Timer.active_start ..)

/-! ### Resets of the sequence variables -/

/-- The action is a UA frame. -/
def Action.isUa : Action → Bool
  | .frame g => g.type == .u && g.uType == ctrlUa
  | _ => false

/-- The states without sequence numbers in use. -/
def ConnState.unnumbered : ConnState → Bool
  | .disconnected | .awaitingConnection => true
  | _ => false

/-- A step from state `st` to `st'` that emits `acts` ran `reset_state_vars`: it
answered a SABM or DISC with UA, entered one of the states without sequence
numbers, or brought the link up from one of them. -/
def ranReset (st st' : ConnState) (acts : List Action) : Bool :=
  acts.any Action.isUa ||
    (st != st' && (st'.unnumbered || (st.unnumbered && st' == .connected)))

@[simp] theorem ranReset_self (st : ConnState) : ranReset st st [] = false := by
  simp [ranReset]

theorem Conn.Linked.not_unnumbered {c : Conn} (h : c.Linked) : c.state.unnumbered = false := by
  rcases h with h | h <;> rw [h] <;> rfl

/-- While the link stays up only a UA resets the variables. -/
theorem ranReset_of_linked {c c' : Conn} (h : c.Linked) (h' : c'.Linked) {acts : List Action}
    (hua : ∀ a ∈ acts, a.isUa = false) : ranReset c.state c'.state acts = false := by
  have : acts.any Action.isUa = false := by
    rw [List.any_eq_false]
    intro a ha
    rw [hua a ha]
    exact Bool.false_ne_true
  simp [ranReset, this, h.not_unnumbered, h'.not_unnumbered]

theorem Emits.isUa {c : Conn} {a : Action} (h : Emits c a) : a.isUa = false := by
  cases h <;> rfl

theorem Transfer.no_ua {s s' : Locked} (h : Transfer s s') (hs : ∀ a ∈ s.deferred, a.isUa = false) :
    ∀ a ∈ s'.deferred, a.isUa = false := by
  obtain ⟨l, hl, hem⟩ := h.emits
  intro a ha
  rw [hl] at ha
  rcases List.mem_append.mp ha with ha | ha
  · exact hs a ha
  · exact (hem a ha).isUa

theorem Received.no_ua {c : Conn} {s₁ : Locked} {f : Frame} (h : Received ⟨c, []⟩ f s₁) :
    ∀ a ∈ s₁.deferred, a.isUa = false := by
  cases h with
  | ack => simp
  | data =>
      simp only [Locked.consume, deferOnData]
      split_ifs <;> simp [deferAction_deferred, maxDeferredActions, Action.isUa]

theorem isUa_uFrame (c : Conn) (cmd pf : Bool) : (c.uFrame cmd ctrlUa pf).isUa = true := by
  show (FrameType.u == .u && (ctrlUa ||| pfBits pf) &&& 0xEF == ctrlUa) = true
  revert pf
  decide

theorem isUa_uFrame_of_ne (c : Conn) (cmd pf : Bool) {ctrl : Byte}
    (h : ctrl = ctrlSabm ∨ ctrl = ctrlDisc ∨ ctrl = ctrlDm) : (c.uFrame cmd ctrl pf).isUa = false := by
  show (FrameType.u == .u && (ctrl ||| pfBits pf) &&& 0xEF == ctrlUa) = false
  rcases h with rfl | rfl | rfl <;> revert pf <;> decide

/-- Where a section is said to have reset the sequence variables, they are 0. -/
theorem SectionStep.vars_of_ranReset {c : Conn} {op : Op} {s : Locked} {o : Outcome}
    (h : SectionStep c op s o) (hr : ranReset c.state s.conn.state s.deferred = true) :
    s.conn.vs = 0 ∧ s.conn.va = 0 ∧ s.conn.vr = 0 := by
  cases h with
  | opened | collision | relink | teardown | reestablish | dial => exact ⟨rfl, rfl, rfl⟩
  | request f hst =>
      obtain ⟨p, hp⟩ := adopt_eq { c with remoteAddr := f.source, remoteAddrSet := true } f
      simp [requested, hp, ranReset] at hr
  | reject f => simp [ranReset, isUa_uFrame_of_ne] at hr
  | data f hl hty hv hrec ht hd =>
      have hl' : s.conn.Linked := ht.link.linked (by unfold Linked; rw [hrec.state]; exact hl)
      rw [ranReset_of_linked hl hl' (ht.no_ua hrec.no_ua)] at hr
      cases hr
  | send data hl h₀ h₁ hq ht hs =>
      obtain ⟨-, -, rfl⟩ := queueIFrame_ok hq
      rw [ranReset_of_linked hl (ht.link.linked hl) (ht.no_ua (by simp))] at hr
      cases hr
  | release hd =>
      simp [ranReset, isUa_uFrame_of_ne, startTimerT1, ConnState.unnumbered] at hr
  | retry ctrl hlt hc =>
      rcases hc with ⟨hst, rfl⟩ | ⟨hst, rfl⟩ <;>
        simp [ranReset, isUa_uFrame_of_ne, startTimerT1] at hr
  | poll r hl | t3Poll hl =>
      simp [ranReset, rrPoll, Action.isUa, startTimerT1, outFrame, ConnState.unnumbered] at hr
  | busyOn | busyOff => simp [ranReset, Action.isUa, outFrame, stopTimerT2] at hr
  | t2Ack a hl hp he => simp [ranReset, he.isUa] at hr
  | _ => simp at hr

/-! ### Every section keeps the acknowledgement -/

/-- The acknowledgement owed while the link is up; `n` is the N(R) sent last. -/
def AckInv (n : Nat) (c : Conn) : Prop :=
  c.Linked → n ≠ c.vr → c.ackPending = true ∧ c.timerT2.Active

/-- Sections of the data phase pass the debt on. -/
theorem Tracked.ackInv {n k : Nat} {c : Conn} {s : Locked} (h : Tracked n k s) (hl : c.Linked)
    (hua : ∀ a ∈ s.deferred, a.isUa = false) :
    AckInv (lastNr (if ranReset c.state s.conn.state s.deferred then 0 else n) s.deferred)
      s.conn := by
  intro hl' hne
  rw [ranReset_of_linked hl hl' hua] at hne
  rcases h.acked with h | h
  · exact absurd h hne
  · exact h

/-- A link that has just come up owes nothing. -/
theorem ackInv_reset {c : Conn} (hvr : c.vr = 0) {n : Nat} (hn : n = 0) : AckInv n c :=
  fun _ hne => absurd (hn.trans hvr.symm) hne

theorem ackInv_of_not_linked {c : Conn} (h : ¬ c.Linked) (n : Nat) : AckInv n c :=
  fun hl => absurd hl h

theorem not_linked_of_eq {c : Conn} (st : ConnState) (h : c.state = st)
    (hst : st ≠ .connected ∧ st ≠ .timerRecovery) : ¬ c.Linked := by
  rintro (hc | hc)
  · exact hst.1 (h.symm.trans hc)
  · exact hst.2 (h.symm.trans hc)

theorem noteNr_uFrame (n : Nat) (c : Conn) (cmd pf : Bool) (ctrl : Byte) :
    noteNr n (c.uFrame cmd ctrl pf) = n := rfl

/-- One section. A callback of T2 has used up its expiry. -/
theorem SectionStep.ackInv {c : Conn} {op : Op} {s : Locked} {o : Outcome} {n : Nat}
    (h : SectionStep c op s o) (hw : WindowInv c) (ht : op.isTimer = false → TimerInv c)
    (hack : op ≠ .timerT2 → AckInv n c)
    (hack₂ : op = .timerT2 → c.Linked → n ≠ c.vr → c.ackPending = true) :
    AckInv (lastNr (if ranReset c.state s.conn.state s.deferred then 0 else n) s.deferred)
      s.conn := by
  -- what a section of the data phase starts from
  have hstart : op ≠ .timerT2 → c.Linked → Acked n ⟨c, []⟩ := by
    intro hop hl
    by_cases hn : n = c.vr
    · exact Or.inl hn
    · exact Or.inr (hack hop hl hn)
  cases h with
  | ignored ret ht =>
      rw [ranReset_self]
      exact hack (by rintro rfl; cases ht)
  | t1Idle | t3Idle => rw [ranReset_self]; exact hack (by simp)
  | t2Idle hp =>
      rw [ranReset_self]
      intro hl hne
      have := hack₂ rfl hl hne
      rw [hp hl] at this
      cases this
  | request f hst =>
      refine ackInv_of_not_linked (not_linked_of_eq .disconnected ?_ (by decide)) _
      obtain ⟨p, hp⟩ := adopt_eq { c with remoteAddr := f.source, remoteAddrSet := true } f
      simp only [requested, hp]
      exact hst
  | reject f hu hc =>
      refine ackInv_of_not_linked ?_ _
      rcases hc with ⟨hst, -⟩ | ⟨hst, -⟩ | ⟨hst, -⟩ <;> exact not_linked_of_eq _ hst (by decide)
  | opened f hst =>
      refine ackInv_reset rfl ?_
      simp [hst, ranReset, ConnState.unnumbered, linkUp, Conn.cleared]
  | collision f hst =>
      refine ackInv_reset rfl ?_
      simp [ranReset, isUa_uFrame, noteNr_uFrame]
  | relink f hl =>
      refine ackInv_reset rfl ?_
      have : ranReset c.state (c.adopt f).linkUp.state
          ((if c.state = .connected then [.linkReset] else []) ++
            [(c.adopt f).uFrame false ctrlUa f.pf]) = true := by
        simp [ranReset, isUa_uFrame]
      rw [this, if_pos rfl]
      split_ifs <;> rfl
  | teardown pre => exact ackInv_of_not_linked (not_linked_of_eq .disconnected rfl (by decide)) _
  | reestablish | dial =>
      exact ackInv_of_not_linked (not_linked_of_eq .awaitingConnection rfl (by decide)) _
  | data f hl hty hv hr ht' hd =>
      subst hd
      exact (dataHandler_timers hw hv (ht rfl).toTimersOk (hstart (by simp) hl) hl hty).1.ackInv hl
        (ht'.no_ua hr.no_ua)
  | send data hl h₀ h₁ hq ht' hs =>
      obtain ⟨hroom, -, rfl⟩ := queueIFrame_ok hq
      have htr : Tracked n 0 ⟨c.queued data, []⟩ :=
        ⟨hw.queued hroom h₀ h₁, Nat.le_refl 0, hstart (by simp) hl⟩
      have hsend := htr.sendPendingIFrames (Nat.zero_le 5)
      rw [hs] at hsend
      exact hsend.ackInv hl (ht'.no_ua (by simp))
  | release => exact ackInv_of_not_linked (not_linked_of_eq .awaitingRelease rfl (by decide)) _
  | busyQuiet b hl => exact ackInv_of_not_linked hl _
  -- the frame that these record carries V(R)
  | busyOn =>
      exact fun _ hne => absurd (extractNr_buildS (Or.inr (Or.inl rfl)) hw.vr_lt false) hne
  | busyOff => exact fun _ hne => absurd (extractNr_buildS (Or.inl rfl) hw.vr_lt false) hne
  | retry ctrl hlt hc =>
      refine ackInv_of_not_linked ?_ _
      rcases hc with ⟨hst, -⟩ | ⟨hst, -⟩ <;> exact not_linked_of_eq _ hst (by decide)
  | poll | t3Poll => exact fun _ hne => absurd (extractNr_buildS (Or.inl rfl) hw.vr_lt true) hne
  | t2Ack a hl hp he => exact fun _ hne => absurd (he.noteNr hw.vr_lt _) hne

/-! ### Whole runs -/

/-- The N(R) sent last, after a step from `c` with result `r`. -/
def nrAfter (n : Nat) (c : Conn) (r : Result) : Nat :=
  lastNr (if ranReset c.state r.conn.state r.out then 0 else n) r.out

/-- The reachable states, each with the N(R) of the last I or S frame emitted
since the sequence variables were last reset (0 when there is none). -/
inductive ReachableNr : Conn → Nat → Prop
  | init {res : InitResources} {a : Address} {cb : Callbacks} {cfg : Option Config} {c : Conn} :
      Conn.init res a cb cfg = .ok c → ReachableNr c 0
  | step {c : Conn} {n : Nat} (e : Event) :
      ReachableNr c n → ReachableNr (c.step e).conn (nrAfter n c (c.step e))

theorem ReachableNr.reachable {c : Conn} {n : Nat} (h : ReachableNr c n) : Reachable c := by
  induction h with
  | init h => exact .init h
  | step e _ ih => exact ih.step e

/-- A call of `on_connect` is no frame. -/
theorem lastNr_onConnectCall (c : Conn) (b : Bool) (acts : List Action) (n : Nat) :
    lastNr n (c.onConnectCall b ++ acts) = lastNr n acts := by
  unfold onConnectCall
  split_ifs <;> rfl

theorem ranReset_onConnectCall (c : Conn) (b : Bool) (acts : List Action) (st st' : ConnState) :
    ranReset st st' (c.onConnectCall b ++ acts) = ranReset st st' acts := by
  unfold onConnectCall
  split_ifs <;> rfl

theorem TimerInv.afterOnConnect {c : Conn} (h : TimerInv c) (refuses : Bool) :
    TimerInv (c.afterOnConnect refuses) := by
  unfold Conn.afterOnConnect refuse
  split_ifs
  · exact h
  · exact h.congr rfl rfl rfl rfl rfl
  · exact h

theorem AckInv.afterOnConnect {c : Conn} {n : Nat} (h : AckInv n c) (refuses : Bool) :
    AckInv n (c.afterOnConnect refuses) := by
  unfold Conn.afterOnConnect refuse
  split_ifs <;> exact h

/-- What a call starts from: a callback of a timer no longer has its expiry. -/
structure CallStart (c : Conn) (op : Op) (n : Nat) : Prop where
  idle : c.state = .disconnected → Unarmed c
  timers : op ≠ .timerT1 → (op = .timerT3 → c.state ≠ .connected) → TimerInv c
  ack : op ≠ .timerT2 → AckInv n c
  ack₂ : op = .timerT2 → c.Linked → n ≠ c.vr → c.ackPending = true

theorem callStart {c : Conn} {n : Nat} (ht : TimerInv c) (ha : AckInv n c) (op : Op) :
    CallStart (op.consumeExpiry c) op n := by
  cases op with
  | timerT1 => exact ⟨ht.idle, fun h => absurd rfl h, fun _ => ha, fun h => by cases h⟩
  | timerT2 =>
      exact ⟨ht.idle, fun _ _ => ⟨⟨ht.recovery, ht.connected, ht.unacked⟩, ht.idle, ht.waiting⟩,
        fun h => absurd rfl h, fun _ hl hn => (ha hl hn).1⟩
  | timerT3 =>
      refine ⟨ht.idle, fun _ hc => ⟨⟨ht.recovery, fun h => ?_, ht.unacked⟩, ht.idle, ht.waiting⟩,
        fun _ => ha, fun h => by cases h⟩
      exact absurd h (hc rfl)
  | _ => exact ⟨ht.idle, fun _ _ => ht, fun _ => ha, fun h => by cases h⟩

/-- One call. -/
theorem CallStep.timerInv {c : Conn} {op : Op} {refuses : Bool} {r : Result} {n : Nat}
    (hc : CallStep c op refuses r) (hs : SeqInv c) (h : CallStart c op n) :
    TimerInv r.conn ∧ AckInv (nrAfter n c r) r.conn := by
  have hw : WindowInv c.taken := hs.window.congr rfl rfl rfl rfl rfl
  have hinv : op ≠ .timerT1 → (op = .timerT3 → c.state ≠ .connected) → TimerInv c.taken :=
    fun h₁ h₃ => (h.timers h₁ h₃).congr rfl rfl rfl rfl rfl
  have hother : op.isTimer = false → TimerInv c.taken := by
    intro ht
    refine hinv ?_ ?_ <;> rintro rfl <;> cases ht
  unfold nrAfter
  cases hc with
  | early ret hp =>
      rw [ranReset_self]
      -- a live connection sends every timer callback to its locked section
      have ht : op.isTimer = false := by
        cases op with
        | timerT1 | timerT2 | timerT3 =>
            simp [Op.precheck, hs.initialized, hs.cookie] at hp
        | _ => rfl
      refine ⟨(hother ht).congr rfl rfl rfl rfl rfl, h.ack ?_⟩
      intro heq
      subst heq
      cases ht
  | returned ret hp hsec =>
      have h₁ := hsec.timerInv hw h.idle hinv
      have h₂ := hsec.ackInv hw hother h.ack h.ack₂
      exact ⟨h₁.congr rfl rfl rfl rfl rfl, h₂⟩
  | @told s hp hsec =>
      have h₁ := (hsec.timerInv hw h.idle hinv).afterOnConnect refuses
      have h₂ := (hsec.ackInv hw hother h.ack h.ack₂).afterOnConnect refuses
      refine ⟨h₁.congr rfl rfl rfl rfl rfl, ?_⟩
      rw [lastNr_onConnectCall, ranReset_onConnectCall,
        show (s.conn.afterOnConnect refuses).unpooled.state = s.conn.state from
          afterOnConnect_state s.conn refuses]
      exact h₂
  | asked f hop hp hst hu hsabm hdec =>
      have hreq := (SectionStep.request (c := c.taken) f hst hu hsabm).window hw
      refine ⟨(hdec.timerInv (hreq.afterOnConnect refuses)).congr rfl rfl rfl rfl rfl, ?_⟩
      rw [lastNr_onConnectCall, ranReset_onConnectCall]
      cases hdec with
      | refused =>
          exact ackInv_of_not_linked (not_linked_of_eq .disconnected rfl (by decide)) _
      | accepted =>
          refine ackInv_reset rfl ?_
          simp [ranReset, isUa_uFrame, noteNr_uFrame]

theorem timerInv_fire {c : Conn} (h : TimerInv c) (t : TimerId) : TimerInv (c.fire t) := by
  have hun : ∀ {t : Timer}, t.armed = none → t.fire.armed = none := by
    intro t ht
    simp [Timer.fire, ht]
  cases t with
  | t1 =>
      exact ⟨h.toTimersOk.congr rfl (fun _ => And.intro) Timer.active_fire id,
        fun hd => ⟨hun (h.idle hd).1, (h.idle hd).2⟩, fun hw => Timer.active_fire (h.waiting hw)⟩
  | t2 =>
      exact ⟨h.toTimersOk.congr rfl (fun _ => And.intro) id id,
        fun hd => ⟨(h.idle hd).1, hun (h.idle hd).2.1, (h.idle hd).2.2⟩, h.waiting⟩
  | t3 =>
      exact ⟨h.toTimersOk.congr rfl (fun _ => And.intro) id Timer.active_fire,
        fun hd => ⟨(h.idle hd).1, (h.idle hd).2.1, hun (h.idle hd).2.2⟩, h.waiting⟩

theorem ackInv_fire {c : Conn} {n : Nat} (h : AckInv n c) (t : TimerId) : AckInv n (c.fire t) := by
  cases t with
  | t2 => exact fun hl hn => ⟨(h hl hn).1, Timer.active_fire (h hl hn).2⟩
  | t1 | t3 => exact h

theorem timerInv_init {res : InitResources} {a : Address} {cb : Callbacks} {cfg : Option Config}
    {c : Conn} (h : Conn.init res a cb cfg = .ok c) : TimerInv c ∧ AckInv 0 c := by
  rw [init_ok h]
  exact ⟨timerInv_of_disconnected rfl ⟨rfl, rfl, rfl⟩,
    ackInv_of_not_linked (not_linked_of_eq .disconnected rfl (by decide)) _⟩

/-- One event. -/
theorem timerInv_step {c : Conn} {n : Nat} (hs : SeqInv c) (h : TimerInv c) (hn : AckInv n c)
    (e : Event) : TimerInv (c.step e).conn ∧ AckInv (nrAfter n c (c.step e)) (c.step e).conn := by
  cases e with
  | call op heap refuses =>
      have hc := call_cases hs op heap refuses
      have hr := hc.timerInv (hs.consumeExpiry op) (callStart h hn op)
      unfold nrAfter at hr ⊢
      rwa [consumeExpiry_state] at hr
  | refuse =>
      simp only [Conn.step, nrAfter, refuse_state, ranReset_self]
      simp only [Conn.refuse, hs.initialized, Bool.not_true, Bool.false_eq_true, if_false]
      exact ⟨h.congr rfl rfl rfl rfl rfl, hn⟩
  | fire t =>
      simp only [Conn.step, nrAfter, fire_state, ranReset_self]
      exact ⟨timerInv_fire h t, ackInv_fire hn t⟩

theorem Reachable.timerInv {c : Conn} (h : Reachable c) : TimerInv c := by
  suffices hex : ∃ n, TimerInv c ∧ AckInv n c by
    obtain ⟨-, ht, -⟩ := hex
    exact ht
  induction h with
  | init h => exact ⟨0, timerInv_init h⟩
  | step e h ih =>
      obtain ⟨n, ht, hn⟩ := ih
      exact ⟨_, timerInv_step h.seqInv ht hn e⟩

/-- **No dead link and no lost acknowledgement.** -/
theorem timers_and_acknowledgement {c : Conn} {n : Nat} (h : ReachableNr c n) :
    TimerInv c ∧ AckInv n c := by
  induction h with
  | init h => exact timerInv_init h
  | step e h ih => exact timerInv_step h.reachable.seqInv ih.1 ih.2 e

/-- An accepted SABM and an I frame without P: V(R) is 1 and T2 is due. -/
theorem timers_and_acknowledgement_i :
    let i := { sampleSabm with type := .i, control := frameBuildIControl 0 0 false, payload := [1] }
    let c := (sampleLink.step (.call (.onFrame i) false false)).conn
    c.state = .connected ∧ c.vr = 1 ∧ TimerInv c ∧ AckInv 0 c :=
  ⟨by decide, by decide,
    timers_and_acknowledgement
      (.step _ (.step (.call (.onFrame sampleSabm) false false)
        (@ReachableNr.init ⟨true, true, .ok, true, .ok, .ok, .ok⟩ sampleA
          ⟨true, true, true, true, true, true, true⟩ none sampleConn rfl)))⟩

end EspAx25
