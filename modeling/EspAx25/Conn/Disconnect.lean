import EspAx25.Conn.Replies

/-!
# EspAx25.Conn.Disconnect

The end of a session: `on_disconnect` is reported exactly when the state becomes
DISCONNECTED (`DisconnectLaw`), and T1 brings that about in at most
`n2_retries + 1` expiries, because every callback uses up one of `triesLeft`.
-/

namespace EspAx25

open Cyclic Conn Locked

/-! ### The notification -/

/-- The batch ends with the two notifications of a session that is over. -/
def EndsSession (acts : List Action) : Prop :=
  ∃ pre, acts = pre ++ [.final, .disconnect] ∧ .disconnect ∉ pre

/-- The frames and payloads of a received frame hold no notification. -/
theorem Received.no_disconnect {s s₁ : Locked} {f : Frame} (h : Received s f s₁)
    (hs : .disconnect ∉ s.deferred) : .disconnect ∉ s₁.deferred := by
  intro hd
  rcases h.mem hd with hd | hd
  · exact hs hd
  · cases hd

theorem Transfer.no_disconnect {s s' : Locked} (h : Transfer s s')
    (hs : .disconnect ∉ s.deferred) : .disconnect ∉ s'.deferred := by
  obtain ⟨l, hl, hem⟩ := h.emits
  rw [hl, List.mem_append, not_or]
  refine ⟨hs, fun hd => ?_⟩
  obtain ⟨g, hg⟩ := (hem _ hd).exists_frame
  cases hg

theorem SameLink.state_ne {c c' : Conn} (h : SameLink c c') (hne : c.state ≠ .disconnected) :
    c'.state ≠ .disconnected := by
  rcases h.state with h | ⟨-, h⟩
  · rwa [h]
  · rw [h]; decide

theorem Received.state {s s₁ : Locked} {f : Frame} (h : Received s f s₁) :
    s₁.conn.state = s.conn.state := by
  cases h with
  | ack => rfl
  | data => rw [consume_conn]; rfl

/-- A section ends the session and says so, or does neither. -/
theorem SectionStep.disconnect {c : Conn} {op : Op} {s : Locked} {o : Outcome}
    (h : SectionStep c op s o) :
    (c.state ≠ .disconnected ∧ s.conn.state = .disconnected ∧ EndsSession s.deferred) ∨
      ((c.state ≠ .disconnected → s.conn.state ≠ .disconnected) ∧ .disconnect ∉ s.deferred) := by
  have hlinked : c.Linked → c.state ≠ .disconnected := by
    rintro (h | h) <;> rw [h] <;> decide
  cases h with
  | request f hst => exact Or.inr ⟨fun h => absurd hst h, by simp⟩
  | reject f => exact Or.inr ⟨id, by simp [uFrame]⟩
  | opened f => exact Or.inr ⟨fun _ h => (by cases h), by simp⟩
  | collision f => exact Or.inr ⟨fun _ h => (by cases h), by simp [uFrame]⟩
  | relink f =>
      refine Or.inr ⟨fun _ h => (by cases h), ?_⟩
      split_ifs <;> simp [uFrame]
  | teardown pre hne hlen hf =>
      refine Or.inl ⟨hne, rfl, pre, rfl, fun hd => ?_⟩
      generalize ha : Action.disconnect = a at hd
      cases hf a hd <;> cases ha
  | reestablish f c₀ msg ret => exact Or.inr ⟨fun _ h => (by cases h), by simp [uFrame]⟩
  | data f hl hty hv hr ht hd =>
      refine Or.inr ⟨fun hne => ?_, ht.no_disconnect (hr.no_disconnect (by simp))⟩
      exact ht.link.state_ne (by rw [hr.state]; exact hne)
  | dial => exact Or.inr ⟨fun _ h => (by cases h), by simp [uFrame]⟩
  | send data hl h₀ h₁ hq ht hs =>
      obtain ⟨-, -, rfl⟩ := queueIFrame_ok hq
      exact Or.inr ⟨fun hne => ht.link.state_ne hne, ht.no_disconnect (by simp)⟩
  | release => exact Or.inr ⟨fun _ h => (by cases h), by simp [uFrame]⟩
  | busyOn | busyOff => exact Or.inr ⟨id, by simp⟩
  | retry => exact Or.inr ⟨id, by simp [uFrame]⟩
  | poll => exact Or.inr ⟨fun _ h => (by cases h), by simp [rrPoll]⟩
  | t2Ack a hl hp he =>
      refine Or.inr ⟨id, fun hd => ?_⟩
      rw [← List.mem_singleton.mp hd] at he
      cases he
  | t3Poll => exact Or.inr ⟨fun _ h => (by cases h), by simp [rrPoll]⟩
  | _ => exact Or.inr ⟨id, by simp⟩

/-- `on_disconnect` is reported once, right after `on_final`, by a step that
ends a session, and by no other. -/
def DisconnectLaw (c : Conn) (r : Result) : Prop :=
  if c.state ≠ .disconnected ∧ r.conn.state = .disconnected then EndsSession r.out
  else .disconnect ∉ r.out

theorem onConnectCall_no_disconnect (c : Conn) (b : Bool) : .disconnect ∉ c.onConnectCall b := by
  unfold onConnectCall
  split_ifs <;> simp

theorem consumeExpiry_state (op : Op) (c : Conn) : (op.consumeExpiry c).state = c.state := by
  cases op <;> rfl

theorem CallStep.disconnect {c : Conn} {op : Op} {refuses : Bool} {r : Result}
    (h : CallStep c op refuses r) : DisconnectLaw c r := by
  unfold DisconnectLaw
  cases h with
  | early => simp
  | returned ret hp hs =>
      rcases hs.disconnect with ⟨h₁, h₂, h₃⟩ | ⟨h₁, h₂⟩
      · rw [if_pos ⟨h₁, h₂⟩]
        exact h₃
      · rw [if_neg fun h => h₁ h.1 h.2]
        exact h₂
  | @told s hp hs =>
      have hst : s.conn.state = .connected := by cases hs <;> rfl
      have hne : (s.conn.afterOnConnect refuses).unpooled.state ≠ .disconnected := by
        rw [show (s.conn.afterOnConnect refuses).unpooled.state = _ from
          afterOnConnect_state s.conn refuses, hst]
        decide
      rw [if_neg fun h => hne h.2]
      rcases hs.disconnect with ⟨-, h, -⟩ | ⟨-, h⟩
      · exact absurd (hst.symm.trans h) (by decide)
      · rw [List.mem_append, not_or]
        exact ⟨onConnectCall_no_disconnect _ _, h⟩
  | asked f hop hp hst hu hsabm hdec =>
      rw [if_neg fun h => h.1 hst, List.mem_append, not_or]
      refine ⟨onConnectCall_no_disconnect _ _, ?_⟩
      cases hdec with
      | refused hr =>
          have hd : ((c.taken.requested f).afterOnConnect refuses).state = .disconnected := by
            obtain ⟨p, hp⟩ := adopt_eq
              { c.taken with remoteAddr := f.source, remoteAddrSet := true } f
            rw [afterOnConnect_state]
            simp only [requested, hp]
            exact hst
          rw [if_pos hd]
          simp [uFrame]
      | accepted => simp [uFrame]

theorem refuse_state (c : Conn) : c.refuse.1.state = c.state := by
  unfold refuse
  split_ifs <;> rfl

theorem fire_state (c : Conn) (t : TimerId) : (c.fire t).state = c.state := by
  cases t <;> rfl

theorem step_disconnect {c : Conn} (h : SeqInv c) (e : Event) : DisconnectLaw c (c.step e) := by
  cases e with
  | call op heap refuses =>
      have hc := (call_cases h op heap refuses).disconnect
      unfold DisconnectLaw at hc ⊢
      rwa [consumeExpiry_state] at hc
  | refuse =>
      rw [DisconnectLaw, if_neg fun h => h.1 ((refuse_state c).symm.trans h.2)]
      exact List.not_mem_nil
  | fire t =>
      rw [DisconnectLaw, if_neg fun h => h.1 ((fire_state c t).symm.trans h.2)]
      exact List.not_mem_nil

/-! ### The retry counter -/

/-- The counter stays within its limit. -/
def RetryInv (c : Conn) : Prop := c.retryCount ≤ c.config.n2Retries

theorem retryInv_zero {c : Conn} (h : c.retryCount = 0) : RetryInv c := by
  unfold RetryInv
  rw [h]
  exact UInt8.zero_le

/-- Below the limit the counter does not wrap. -/
theorem succ_le_of_lt {a b : UInt8} (h : a < b) : a + 1 ≤ b := by
  rw [UInt8.lt_iff_toNat_lt] at h
  rw [UInt8.le_iff_toNat_le, UInt8.toNat_add]
  have := b.toNat_lt
  have : (1 : UInt8).toNat = 1 := rfl
  omega

theorem RetryInv.sameLink {c c' : Conn} (h : RetryInv c) (hl : SameLink c c') : RetryInv c' := by
  rcases hl.retry with hr | hr
  · unfold RetryInv
    rw [hr, hl.static.config]
    exact h
  · exact retryInv_zero hr

theorem SectionStep.retryInv {c : Conn} {op : Op} {s : Locked} {o : Outcome}
    (h : SectionStep c op s o) (hr : RetryInv c) : RetryInv s.conn := by
  cases h with
  | request f =>
      obtain ⟨p, hp⟩ := adopt_eq { c with remoteAddr := f.source, remoteAddrSet := true } f
      simp only [requested, hp]
      exact hr
  | data f hl hty hv hrec ht hd =>
      refine RetryInv.sameLink ?_ ht.link
      cases hrec with
      | ack => exact hr
      | data => rw [consume_conn]; exact hr
  | send data hl h₀ h₁ hq ht hs =>
      obtain ⟨-, -, rfl⟩ := queueIFrame_ok hq
      exact RetryInv.sameLink (c := c.queued data) hr ht.link
  | retry ctrl hlt => exact succ_le_of_lt hlt
  | poll r hl he hlt => exact succ_le_of_lt hlt
  | opened | collision | relink | teardown | reestablish | dial | release | t3Poll =>
      exact retryInv_zero rfl
  | _ => exact hr

theorem DecideStep.retryInv {c c' : Conn} {f : Frame} {acts : List Action}
    (h : DecideStep c f c' acts) : RetryInv c' := by
  cases h <;> exact retryInv_zero rfl

theorem RetryInv.afterOnConnect {c : Conn} (h : RetryInv c) (refuses : Bool) :
    RetryInv (c.afterOnConnect refuses) := by
  unfold Conn.afterOnConnect refuse
  split_ifs <;> exact h

theorem RetryInv.step {c : Conn} (h : RetryInv c) (hs : SeqInv c) (e : Event) :
    RetryInv (c.step e).conn := by
  cases e with
  | call op heap refuses =>
      have h : RetryInv (op.consumeExpiry c) := by
        obtain ⟨t1, t2, t3, ht⟩ := consumeExpiry_cases op c
        rw [ht]
        exact h
      have hc := call_cases hs op heap refuses
      generalize c.step (.call op heap refuses) = r at hc
      cases hc with
      | early => exact h
      | returned ret hp hsec => exact hsec.retryInv h
      | told hp hsec => exact (hsec.retryInv h).afterOnConnect refuses
      | asked f hop hp hst hu hsabm hdec => exact hdec.retryInv
  | refuse =>
      simp only [Conn.step, Conn.refuse]
      split_ifs <;> exact h
  | fire t => cases t <;> exact h

theorem Reachable.retryInv {c : Conn} (h : Reachable c) : RetryInv c := by
  induction h with
  | init h => rw [init_ok h]; exact retryInv_zero rfl
  | step e h ih => exact ih.step h.seqInv e

/-! ### Consecutive expiries of T1 -/

/-- The action is an ERROR with `ESP_ERR_TIMEOUT`. -/
def Action.isTimeout : Action → Bool
  | .error .timeout _ _ => true
  | _ => false

/-- The event is a callback of T1. -/
def Event.isT1 : Event → Bool
  | .call .timerT1 _ _ => true
  | _ => false

theorem Event.eq_of_isT1 {e : Event} (h : e.isT1 = true) :
    ∃ heap refuses, e = .call .timerT1 heap refuses := by
  cases e with
  | call op heap refuses =>
      cases op with
      | timerT1 => exact ⟨heap, refuses, rfl⟩
      | _ => cases h
  | refuse | fire t => cases h

/-- How many callbacks of T1 a session survives at most, plus one. -/
def triesLeft (c : Conn) : Nat :=
  if c.state = .disconnected then 0
  else if c.state = .connected then c.config.n2Retries.toNat + 1
  else c.config.n2Retries.toNat - c.retryCount.toNat + 1

theorem triesLeft_le (c : Conn) : triesLeft c ≤ c.config.n2Retries.toNat + 1 := by
  unfold triesLeft
  split_ifs <;> omega

/-- What a callback of T1 does to a session: it ends it with one timeout, or
uses up a try. -/
theorem SectionStep.t1 {c : Conn} {s : Locked} {o : Outcome}
    (h : SectionStep c .timerT1 s o) :
    (c.state = .disconnected ∧ s.conn.state = .disconnected ∧ s.deferred.countP Action.isTimeout = 0) ∨
    (c.state ≠ .disconnected ∧ s.conn.state = .disconnected ∧
      s.deferred.countP Action.isTimeout = 1) ∨
    (c.state ≠ .disconnected ∧ s.conn.state ≠ .disconnected ∧
      s.deferred.countP Action.isTimeout = 0 ∧ triesLeft s.conn + 1 ≤ triesLeft c) := by
  cases h with
  | ignored ret h => cases h
  | t1Idle h => exact Or.inl ⟨h, h, rfl⟩
  | teardown pre hne hlen hf hop =>
      refine Or.inr (Or.inl ⟨hne, rfl, ?_⟩)
      obtain ⟨-, msg, retry, l, rfl, hl⟩ | ⟨f, hf, -⟩ := hop
      · have hdm : l.countP Action.isTimeout = 0 := by
          rw [List.countP_eq_zero]
          intro a ha
          rw [hl a ha]
          exact Bool.false_ne_true
        simp [List.countP_append, List.countP_cons, hdm, Action.isTimeout]
      · cases hf
  | retry ctrl hlt hc =>
      have hlt' := UInt8.lt_iff_toNat_lt.mp hlt
      have hsucc : (c.retryCount + 1).toNat = c.retryCount.toNat + 1 := by
        rw [UInt8.toNat_add]
        have := c.config.n2Retries.toNat_lt
        have : (1 : UInt8).toNat = 1 := rfl
        omega
      refine Or.inr (Or.inr ?_)
      rcases hc with ⟨hst, rfl⟩ | ⟨hst, rfl⟩ <;>
        simp [hst, startTimerT1, triesLeft, hsucc, uFrame, Action.isTimeout] <;> omega
  | poll r hl hr hlt =>
      have hlt' := UInt8.lt_iff_toNat_lt.mp hlt
      have hsucc : (r + 1).toNat = r.toNat + 1 := by
        rw [UInt8.toNat_add]
        have := c.config.n2Retries.toNat_lt
        have : (1 : UInt8).toNat = 1 := rfl
        omega
      refine Or.inr (Or.inr ?_)
      rcases hl with hst | hst <;> rw [hst] at hr <;>
        simp [hst, startTimerT1, triesLeft, hsucc, rrPoll, Action.isTimeout] <;>
        simp at hr <;> subst hr <;> omega

/-- The same for the whole callback. -/
theorem step_t1 {c : Conn} (h : SeqInv c) (heap refuses : Bool) :
    let r := c.step (.call .timerT1 heap refuses)
    (c.state = .disconnected ∧ r.conn.state = .disconnected ∧ r.out.countP Action.isTimeout = 0) ∨
    (c.state ≠ .disconnected ∧ r.conn.state = .disconnected ∧
      r.out.countP Action.isTimeout = 1) ∨
    (c.state ≠ .disconnected ∧ r.conn.state ≠ .disconnected ∧
      r.out.countP Action.isTimeout = 0 ∧ triesLeft r.conn + 1 ≤ triesLeft c) := by
  intro r
  have hc : CallStep _ _ _ r := call_cases h .timerT1 heap refuses
  clear_value r
  cases hc with
  | early ret hp => simp [Op.precheck, Op.consumeExpiry, h.initialized, h.cookie] at hp
  | returned ret hp hsec => exact hsec.t1
  | told hp hsec => cases hsec
  | asked f hop => cases hop

/-- Only fires of T1 and their callbacks. -/
def Event.OnlyT1 (e : Event) : Prop := e = .fire .t1 ∨ e.isT1 = true

theorem run_t1 (es : List Event) : ∀ {c : Conn}, SeqInv c → (∀ e ∈ es, e.OnlyT1) →
    triesLeft c ≤ es.countP Event.isT1 →
      (c.run es).1.state = .disconnected ∧
        (c.run es).2.countP Action.isTimeout = if c.state = .disconnected then 0 else 1 := by
  induction es with
  | nil =>
      intro c h _ ht
      have hd : c.state = .disconnected := by
        by_contra hne
        simp only [triesLeft, hne, if_false, List.countP_nil] at ht
        split_ifs at ht <;> omega
      simp [hd]
  | cons e es ih =>
      intro c h hes ht
      have hes' : ∀ e ∈ es, e.OnlyT1 := fun e he => hes e (List.mem_cons_of_mem _ he)
      have hdead : ∀ {c : Conn}, c.state = .disconnected → triesLeft c = 0 := by
        intro c hd
        rw [triesLeft, if_pos hd]
      rw [run_cons]
      simp only [List.countP_append]
      rcases hes e List.mem_cons_self with rfl | hT1
      · obtain ⟨k₁, k₂⟩ := ih (h.step (.fire .t1)) hes' ht
        exact ⟨k₁, (Nat.zero_add _).trans k₂⟩
      · obtain ⟨heap, refuses, rfl⟩ := Event.eq_of_isT1 hT1
        have hnext := fun h' => ih (h.step (.call .timerT1 heap refuses)) hes' h'
        rw [List.countP_cons_of_pos rfl] at ht
        -- the session was over, is over now, or has one try less
        rcases step_t1 h heap refuses with ⟨h₁, h₂, h₃⟩ | ⟨h₁, h₂, h₃⟩ | ⟨h₁, h₂, h₃, h₄⟩
        · obtain ⟨k₁, k₂⟩ := hnext (by rw [hdead h₂]; omega)
          rw [if_pos h₂] at k₂
          exact ⟨k₁, by rw [h₃, k₂, if_pos h₁]⟩
        · obtain ⟨k₁, k₂⟩ := hnext (by rw [hdead h₂]; omega)
          rw [if_pos h₂] at k₂
          exact ⟨k₁, by rw [h₃, k₂, if_neg h₁]⟩
        · obtain ⟨k₁, k₂⟩ := hnext (by omega)
          rw [if_neg h₂] at k₂
          exact ⟨k₁, by rw [h₃, k₂, if_neg h₁]⟩

/-- **Disconnect notification and bounded retry.** -/
theorem disconnect_and_retry {c : Conn} (h : Reachable c) :
    (∀ e, DisconnectLaw c (c.step e)) ∧
    c.retryCount ≤ c.config.n2Retries ∧
    (c.state ≠ .disconnected → ∀ es, (∀ e ∈ es, Event.OnlyT1 e) →
      c.config.n2Retries.toNat + 1 ≤ es.countP Event.isT1 →
        (c.run es).1.state = .disconnected ∧ (c.run es).2.countP Action.isTimeout = 1) := by
  refine ⟨step_disconnect h.seqInv, h.retryInv, fun hst es hes hn => ?_⟩
  have hrun := run_t1 es h.seqInv hes (Nat.le_trans (triesLeft_le c) hn)
  rwa [if_neg hst] at hrun

/-- After `connect_via`, eleven expiries of T1 are enough for the default
`n2_retries` of ten. -/
theorem disconnect_and_retry_dial :
    let c := (sampleConn.step (.call (.connectVia sampleB []) false false)).conn
    let es := List.replicate 11 (.call .timerT1 false false)
    c.state = .awaitingConnection ∧ (c.run es).1.state = .disconnected ∧
      (c.run es).2.countP Action.isTimeout = 1 :=
  ⟨by decide,
    (disconnect_and_retry (reachable_sampleConn.step _)).2.2 (by decide) _
      (fun _ he => Or.inr (by rw [List.eq_of_mem_replicate he]; rfl)) (by decide)⟩

end EspAx25
