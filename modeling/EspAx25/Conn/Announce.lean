import EspAx25.Conn.Disconnect
import EspAx25.History

/-!
# EspAx25.Conn.Announce

How often a session is announced. The callbacks of a run are its `trace`;
`on_connect` opens a bracket there, and `on_disconnect` closes it, as does the
`on_final` of a request that `on_connect` refuses.

The brackets do not nest as long as a link that error recovery has given up is
not brought up again. FRMR and an N(R) outside the window lead from the
data-transfer states to AWAITING_CONNECTION and say nothing of it to the
application; the UA, or the SABM, that then opens the link is handled as if a new
session began. The SABM of the peer on a link that is up is the other case: it
resets the link in place and is reported by `on_link_reset`.

`NoticeStep` is what one event does to the trace, `step_notices` says that there
is nothing else, and `separated_trace_iff` follows the brackets through a run.
-/

namespace EspAx25

open Cyclic Conn Locked History

/-! ### The trace -/

/-- A callback of a run, and whether the event it belongs to is a request that the
application refused. -/
structure Notice where
  action : Action
  refused : Bool
  deriving DecidableEq

namespace Notice

/-- `on_connect` is called. -/
def Announces (n : Notice) : Prop := ∃ remoteAddr isLocal, n.action = .connect remoteAddr isLocal

/-- `on_disconnect` is called, or `on_final` for a refused request. -/
def Ends (n : Notice) : Prop := n.action = .disconnect ∨ n.action = .final ∧ n.refused = true

instance (n : Notice) : Decidable n.Ends := inferInstanceAs (Decidable (_ ∨ _))

theorem Ends.not_announces {n : Notice} (h : n.Ends) : ¬ n.Announces := by
  intro hsome
  obtain ⟨a, b, ha⟩ := hsome
  rcases h with h | ⟨h, -⟩ <;> rw [ha] at h <;> cases h

end Notice

namespace Conn

/-- The event is a SABM without a session, and `on_connect` calls
`ax25_conn_refuse`. -/
def refusesRequest (c : Conn) : Event → Bool
  | .call (.onFrame f) _ refuses =>
    c.state = .disconnected && f.type = .u && f.uType = ctrlSabm && c.callbacks.onConnect && refuses
  | _ => false

/-- The callbacks of one event. -/
def notices (c : Conn) (e : Event) : List Notice := (c.step e).out.map (⟨·, c.refusesRequest e⟩)

/-- The callbacks of a run. -/
def trace (c : Conn) : List Event → List Notice
  | [] => []
  | e :: es => c.notices e ++ (c.step e).conn.trace es

/-- The trace is the output of the run. -/
theorem trace_action (c : Conn) (es : List Event) :
    (c.trace es).map Notice.action = (c.run es).2 := by
  induction es generalizing c with
  | nil => rfl
  | cons e es ih =>
      simp only [trace, notices, List.map_append, List.map_map, run_cons, ih]
      congr 1
      exact List.map_id _

end Conn

/-! ### Links that are brought up again -/

/-- The frame that the event delivers. -/
def Event.frame? : Event → Option Frame
  | .call (.onFrame f) _ _ => some f
  | _ => none

namespace Conn

/-- Error recovery begins: the peer sends FRMR, or an N(R) outside the window, on
a link that is up. -/
def Recovers (c : Conn) (e : Event) : Prop :=
  c.Linked ∧ ∃ f ∈ e.frame?, ¬ Foreign c f ∧
    (f.type = .u ∧ f.uType = ctrlFrmr ∨
      (f.type = .s ∨ f.type = .i) ∧ c.isValidNr f.nr = false)

/-- The peer answers our SABM with UA and F=1, or sends a SABM of its own. -/
def Answers (c : Conn) (e : Event) : Prop :=
  c.state = .awaitingConnection ∧ ∃ f ∈ e.frame?, ¬ Foreign c f ∧ f.type = .u ∧
    (f.uType = ctrlUa ∧ f.pf = true ∨ f.uType = ctrlSabm)

end Conn

/-- The run from `c` stays in AWAITING_CONNECTION until our SABM is answered. -/
inductive Answered : Conn → List Event → Prop
  | now {c : Conn} {e : Event} {es : List Event} : c.Answers e → Answered c (e :: es)
  | later {c : Conn} {e : Event} {es : List Event} : c.state = .awaitingConnection →
      Answered (c.step e).conn es → Answered c (e :: es)

/-- In the run from `c`, the SABM of some error recovery is answered. -/
inductive Reopens : Conn → List Event → Prop
  | here {c : Conn} {e : Event} {es : List Event} : c.Recovers e →
      Answered (c.step e).conn es → Reopens c (e :: es)
  | later {c : Conn} {e : Event} {es : List Event} : Reopens (c.step e).conn es →
      Reopens c (e :: es)

section

variable {c : Conn} {e : Event} {es : List Event}

theorem answered_nil : ¬ Answered c [] := by
  intro h
  cases h

theorem reopens_nil : ¬ Reopens c [] := by
  intro h
  cases h

theorem answered_cons : Answered c (e :: es) ↔
    c.Answers e ∨ c.state = .awaitingConnection ∧ Answered (c.step e).conn es := by
  constructor
  · intro h
    cases h with
    | now h => exact Or.inl h
    | later hst h => exact Or.inr ⟨hst, h⟩
  · rintro (h | ⟨hst, h⟩)
    · exact .now h
    · exact .later hst h

theorem reopens_cons : Reopens c (e :: es) ↔
    c.Recovers e ∧ Answered (c.step e).conn es ∨ Reopens (c.step e).conn es := by
  constructor
  · intro h
    cases h with
    | here h ha => exact Or.inl ⟨h, ha⟩
    | later h => exact Or.inr h
  · rintro (⟨h, ha⟩ | h)
    · exact .here h ha
    · exact .later h

theorem Answered.state (h : Answered c es) : c.state = .awaitingConnection := by
  cases h with
  | now h => exact h.1
  | later hst => exact hst

end

section decidable

instance (c : Conn) (e : Event) : Decidable (c.Recovers e) := inferInstanceAs (Decidable (_ ∧ _))

instance (c : Conn) (e : Event) : Decidable (c.Answers e) := inferInstanceAs (Decidable (_ ∧ _))

instance decidableAnswered : (c : Conn) → (es : List Event) → Decidable (Answered c es)
  | _, [] => isFalse answered_nil
  | c, e :: es =>
    have := decidableAnswered (c.step e).conn es
    decidable_of_iff _ answered_cons.symm

instance decidableReopens : (c : Conn) → (es : List Event) → Decidable (Reopens c es)
  | _, [] => isFalse reopens_nil
  | c, e :: es =>
    have := decidableReopens (c.step e).conn es
    decidable_of_iff _ reopens_cons.symm

end decidable

/-! ### What a section says about the session -/

/-- The action says nothing about the session. -/
def Action.isRoutine : Action → Bool
  | .connect _ _ | .disconnect | .final => false
  | _ => true

theorem Emits.isRoutine {c : Conn} {a : Action} (h : Emits c a) : a.isRoutine = true := by
  obtain ⟨g, rfl⟩ := h.exists_frame
  rfl

theorem Farewell.isRoutine {c : Conn} {a : Action} (h : Farewell c a) : a.isRoutine = true := by
  cases h <;> rfl

theorem Transfer.isRoutine {s s' : Locked} (h : Transfer s s')
    (hs : ∀ a ∈ s.deferred, a.isRoutine = true) : ∀ a ∈ s'.deferred, a.isRoutine = true := by
  obtain ⟨l, hl, hem⟩ := h.emits
  intro a ha
  rw [hl] at ha
  rcases List.mem_append.mp ha with ha | ha
  · exact hs a ha
  · exact (hem a ha).isRoutine

/-- Where a section leads that does not end the session. -/
inductive SessionMove (c : Conn) (op : Op) (c' : Conn) : Prop
  | same : c'.state = c.state → SessionMove c op c'
  | linked : c.Linked → c'.Linked → SessionMove c op c'
  | released : c.state ≠ .disconnected → op = .shutdown → c'.state = .awaitingRelease →
      SessionMove c op c'
  | dialed : c.state = .disconnected → c'.state = .awaitingConnection → SessionMove c op c'
  | recovers (f : Frame) : c.Linked → op = .onFrame f →
      (f.type = .u ∧ f.uType = ctrlFrmr ∨
        (f.type = .s ∨ f.type = .i) ∧ c.isValidNr f.nr = false) →
      c'.state = .awaitingConnection → SessionMove c op c'

/-- A section that returns ends the session, or records nothing about it. -/
theorem SectionStep.session {c : Conn} {op : Op} {s : Locked} {ret : EspErr}
    (h : SectionStep c op s (.returned ret)) :
    (c.state ≠ .disconnected ∧ s.conn.state = .disconnected ∧
        (op = .timerT1 ∨ ∃ f, op = .onFrame f ∧ f.type = .u ∧ f.uType ≠ ctrlSabm) ∧
        ∃ pre, s.deferred = pre ++ [.disconnect] ∧ ∀ a ∈ pre, ∀ r b, a ≠ .connect r b) ∨
      ((∀ a ∈ s.deferred, a.isRoutine = true) ∧ SessionMove c op s.conn) := by
  cases h with
  | ignored | t1Idle | t2Idle | t3Idle => exact Or.inr ⟨by simp, .same rfl⟩
  | reject f => exact Or.inr ⟨by simp [uFrame, Action.isRoutine], .same rfl⟩
  | relink f hl =>
      refine Or.inr ⟨?_, .linked hl (Or.inl rfl)⟩
      split_ifs <;> simp [uFrame, Action.isRoutine]
  | teardown pre hne hlen hf hop =>
      refine Or.inl ⟨hne, rfl, hop.imp_left And.left, pre ++ [.final], by simp, fun a ha r b hab => ?_⟩
      rcases List.mem_append.mp ha with ha | ha
      · have := (hf a ha).isRoutine
        rw [hab] at this
        cases this
      · rw [hab] at ha
        simp at ha
  | reestablish f c₀ msg ret hl hc =>
      refine Or.inr ⟨by simp [uFrame, Action.isRoutine], .recovers f hl rfl ?_ rfl⟩
      rcases hc with ⟨hu, hfrmr, -⟩ | ⟨hty, hv, -⟩
      · exact Or.inl ⟨hu, hfrmr⟩
      · exact Or.inr ⟨hty, hv⟩
  | data f hl hty hv hr ht hd =>
      refine Or.inr ⟨ht.isRoutine fun a ha => ?_, .linked hl (ht.link.linked ?_)⟩
      · rcases hr.mem ha with ha | rfl
        · simp at ha
        · rfl
      · unfold Linked
        rw [hr.state]
        exact hl
  | dial a ds hst => exact Or.inr ⟨by simp [uFrame, Action.isRoutine], .dialed hst rfl⟩
  | send data hl h₀ h₁ hq ht hs =>
      obtain ⟨-, -, rfl⟩ := queueIFrame_ok hq
      exact Or.inr ⟨ht.isRoutine (by simp), .linked hl (ht.link.linked hl)⟩
  | release hd => exact Or.inr ⟨by simp [uFrame, Action.isRoutine], .released hd rfl rfl⟩
  | busyQuiet => exact Or.inr ⟨by simp, .same rfl⟩
  | busyOn | busyOff => exact Or.inr ⟨by simp [Action.isRoutine], .same rfl⟩
  | retry => exact Or.inr ⟨by simp [uFrame, Action.isRoutine], .same rfl⟩
  | poll r hl => exact Or.inr ⟨by simp [rrPoll, Action.isRoutine], .linked hl (Or.inr rfl)⟩
  | t2Ack a hl hp he => exact Or.inr ⟨by simpa using he.isRoutine, .same rfl⟩
  | t3Poll hst =>
      exact Or.inr ⟨by simp [rrPoll, Action.isRoutine], .linked (Or.inl hst) (Or.inr rfl)⟩

/-! ### The answer to our SABM -/

theorem onFrame_of_awaiting {s : Locked} {f : Frame} (hst : s.conn.state = .awaitingConnection)
    (hsrc : addressEquals f.source s.conn.remoteAddr = true) :
    s.onFrame f = s.handleFrameAwaitingConnection f := by
  unfold onFrame
  rw [if_neg (by simp [hsrc]), hst]

/-- Which frames lead to `on_connect`. -/
theorem handleFrameAwaitingConnection_onConnect {s : Locked} {f : Frame} (hu : f.type = .u)
    (h : f.uType = ctrlUa ∧ f.pf = true ∨ f.uType = ctrlSabm) :
    (s.handleFrameAwaitingConnection f).2 = .onConnect true .finish := by
  unfold handleFrameAwaitingConnection
  rw [if_pos hu]
  rcases h with ⟨hua, hpf⟩ | hsabm
  · rw [if_pos hua, if_pos hpf]
    rfl
  · rw [if_neg (by rw [hsabm]; decide), if_neg (by rw [hsabm]; decide), if_pos hsabm]
    rfl

/-- A UA without F=1 is not an answer. -/
theorem handleFrameAwaitingConnection_noFinal {s : Locked} {f : Frame} (hua : f.uType = ctrlUa)
    (hpf : f.pf = false) : s.handleFrameAwaitingConnection f = (s, .returned .ok) := by
  unfold handleFrameAwaitingConnection
  split_ifs with hu
  · rw [hpf] at *
    contradiction
  · rfl
  · rfl

section answers

variable {c : Conn} {op : Op} {heap refuses : Bool}

/-- An answer gets to `on_connect`. -/
theorem Conn.Answers.onConnect (h : SeqInv c) (ha : c.Answers (.call op heap refuses)) :
    op.precheck (op.consumeExpiry c) = none ∧
      (op.body ⟨(op.consumeExpiry c).taken, []⟩).2 = .onConnect true .finish := by
  obtain ⟨hst, f, hf, hnf, hu, hans⟩ := ha
  cases op with
  | onFrame g =>
      cases hf
      refine ⟨precheck_of_not_foreign h.initialized hnf, ?_⟩
      have hsrc : addressEquals f.source c.remoteAddr = true := by
        by_contra hne
        exact hnf (Or.inr (Or.inr (Or.inr (by simpa using hne))))
      have hon := onFrame_of_awaiting (s := ⟨c.taken, []⟩) hst hsrc
      exact (congrArg Prod.snd hon).trans (handleFrameAwaitingConnection_onConnect hu hans)
  | _ => cases hf

/-- A UA or SABM that `on_connect` hears of is an answer. -/
theorem answers_of_onConnect (h : SeqInv c) (hst : c.state = .awaitingConnection) {f : Frame}
    (hu : f.type = .u) (hans : f.uType = ctrlUa ∨ f.uType = ctrlSabm)
    (hout : (c.step (.call (.onFrame f) heap refuses)).out ≠ []) :
    c.Answers (.call (.onFrame f) heap refuses) := by
  have hnf : ¬ Foreign c f := by
    intro hf
    rw [step_foreign h (by rw [hst]; decide) hf] at hout
    exact hout rfl
  refine ⟨hst, f, rfl, hnf, hu, ?_⟩
  rcases hans with hua | hsabm
  · refine Or.inl ⟨hua, ?_⟩
    by_contra hpf
    have hsrc : addressEquals f.source c.remoteAddr = true := by
      by_contra hne
      exact hnf (Or.inr (Or.inr (Or.inr (by simpa using hne))))
    have hbody := (onFrame_of_awaiting (s := ⟨c.taken, []⟩) hst hsrc).trans
      (handleFrameAwaitingConnection_noFinal hua (by simpa using hpf))
    rw [step_of_ignored h fun _ => hbody] at hout
    exact hout rfl
  · exact Or.inr hsabm

end answers

/-! ### One event -/

/-- What one event says about the session, and where it leads. -/
inductive NoticeStep (c : Conn) (e : Event) (c' : Conn) : List Notice → Prop
  /-- Nothing. -/
  | quiet {k : List Notice} : (∀ n ∈ k, ¬ n.Announces ∧ ¬ n.Ends) → ¬ c.Answers e →
      (c'.state = c.state ∨ c.Linked ∧ c'.Linked ∨ c'.state = .awaitingRelease ∨
        c'.state = .awaitingConnection ∧ (c.state = .disconnected ∨ c.Recovers e)) →
      NoticeStep c e c' k
  /-- A link comes up. -/
  | announced {n : Notice} {k : List Notice} : n.Announces →
      (∀ m ∈ k, ¬ m.Announces ∧ ¬ m.Ends) → (c.state = .disconnected ∨ c.Answers e) →
      c'.state = .connected → NoticeStep c e c' (n :: k)
  /-- A request is announced and refused. -/
  | refused {n m : Notice} {k : List Notice} : n.Announces → (∀ m ∈ k, ¬ m.Announces) → m.Ends →
      c.state = .disconnected → c'.state = .disconnected → NoticeStep c e c' (n :: (k ++ [m]))
  /-- The session ends. -/
  | ended {m : Notice} {k : List Notice} : (∀ m ∈ k, ¬ m.Announces) → m.Ends → ¬ c.Answers e →
      c'.state = .disconnected → NoticeStep c e c' (k ++ [m])

theorem not_announces_of_ne {a : Action} (h : ∀ r b, a ≠ .connect r b) (t : Bool) :
    ¬ Notice.Announces ⟨a, t⟩ := by
  intro hsome
  obtain ⟨r, b, hab⟩ := hsome
  exact h r b hab

theorem silent_of_isRoutine {a : Action} (h : a.isRoutine = true) (t : Bool) :
    ¬ Notice.Announces ⟨a, t⟩ ∧ ¬ Notice.Ends ⟨a, t⟩ := by
  constructor
  · refine not_announces_of_ne (fun r b hab => ?_) t
    rw [hab] at h
    cases h
  · rintro (hd | ⟨hd, -⟩) <;> dsimp only at hd <;> rw [hd] at h <;> cases h

theorem silent_map {l : List Action} (h : ∀ a ∈ l, a.isRoutine = true) (t : Bool) :
    ∀ n ∈ l.map (Notice.mk · t), ¬ n.Announces ∧ ¬ n.Ends := by
  intro n hn
  obtain ⟨a, ha, rfl⟩ := List.mem_map.mp hn
  exact silent_of_isRoutine (h a ha) t

theorem onConnectCall_eq {c : Conn} (h : c.callbacks.onConnect = true) (b : Bool) :
    c.onConnectCall b = [.connect c.remoteAddr b] := by
  unfold onConnectCall
  rw [if_pos h]

theorem requested_state (c : Conn) (f : Frame) : (c.requested f).state = c.state := by
  obtain ⟨p, hp⟩ := adopt_eq { c with remoteAddr := f.source, remoteAddrSet := true } f
  simp only [requested, hp]

/-- A SABM without a session is refused only by `on_connect`. -/
theorem refuses_of_refusePending {c : Conn} {f : Frame} {refuses : Bool}
    (h : ((c.requested f).afterOnConnect refuses).refusePending = true) : refuses = true := by
  cases refuses with
  | true => rfl
  | false =>
      unfold afterOnConnect at h
      rw [if_neg (by simp)] at h
      cases h

section calls

variable {c : Conn} {op : Op} {heap refuses : Bool}

/-- A section that returns. -/
theorem NoticeStep.returned (h : SeqInv c) {s : Locked} {ret : EspErr}
    (hs : SectionStep (op.consumeExpiry c).taken op s (.returned ret))
    (hbody : op.body ⟨(op.consumeExpiry c).taken, []⟩ = (s, .returned ret))
    (hr : c.step (.call op heap refuses) = ⟨s.conn.unpooled, s.deferred, ret⟩) (t : Bool) :
    NoticeStep c (.call op heap refuses) s.conn.unpooled (s.deferred.map (Notice.mk · t)) := by
  have hna : ¬ c.Answers (.call op heap refuses) := by
    intro ha
    have ho := (ha.onConnect h).2
    rw [hbody] at ho
    cases ho
  have hst : (op.consumeExpiry c).taken.state = c.state := consumeExpiry_state op c
  have hlink : (op.consumeExpiry c).taken.Linked ↔ c.Linked := by
    unfold Linked
    rw [hst]
  rcases hs.session with ⟨-, hd, -, pre, hpre, hno⟩ | ⟨hrout, hmove⟩
  · rw [hpre, List.map_append]
    refine .ended (fun n hn => ?_) (Or.inl rfl) hna hd
    obtain ⟨a, ha, rfl⟩ := List.mem_map.mp hn
    exact not_announces_of_ne (hno a ha) _
  · refine .quiet (silent_map hrout _) hna ?_
    cases hmove with
    | same hsame => exact Or.inl (hsame.trans hst)
    | linked hl hl' => exact Or.inr (Or.inl ⟨hlink.mp hl, hl'⟩)
    | released hd hop hrel => exact Or.inr (Or.inr (Or.inl hrel))
    | dialed hd hdial => exact Or.inr (Or.inr (Or.inr ⟨hdial, Or.inl (hst.symm.trans hd)⟩))
    | recovers f hl hop hcond haw =>
        subst hop
        refine Or.inr (Or.inr (Or.inr ⟨haw, Or.inr ⟨hlink.mp hl, f, rfl, fun hf => ?_, hcond⟩⟩))
        -- a foreign frame would have left the link up
        have hne : c.state ≠ .disconnected := by
          rcases hlink.mp hl with h | h <;> rw [h] <;> decide
        rw [step_foreign h hne hf] at hr
        have hback : c.state = .awaitingConnection :=
          (congrArg (fun r : Result => r.conn.state) hr).trans haw
        rcases hlink.mp hl with h | h <;> rw [h] at hback <;> cases hback

/-- A link of ours that comes up. -/
theorem NoticeStep.told (h : SeqInv c) (hcb : c.callbacks.onConnect = true) {s : Locked}
    (hs : SectionStep (op.consumeExpiry c).taken op s (.onConnect true .finish))
    (hr : c.step (.call op heap refuses) =
      ⟨(s.conn.afterOnConnect refuses).unpooled, s.conn.onConnectCall true ++ s.deferred, .ok⟩)
    (t : Bool) :
    NoticeStep c (.call op heap refuses) (s.conn.afterOnConnect refuses).unpooled
      ((s.conn.onConnectCall true ++ s.deferred).map (Notice.mk · t)) := by
  have hcall : s.conn.callbacks.onConnect = true := by
    rw [hs.static.callbacks]
    obtain ⟨t1, t2, t3, ht⟩ := consumeExpiry_cases op c
    rw [ht]
    exact hcb
  have hconn : (s.conn.afterOnConnect refuses).unpooled.state = .connected := by
    refine (afterOnConnect_state s.conn refuses).trans ?_
    cases hs <;> rfl
  have hout : (c.step (.call op heap refuses)).out ≠ [] := by
    rw [hr, onConnectCall_eq hcall]
    simp
  rw [onConnectCall_eq hcall, List.singleton_append, List.map_cons]
  refine .announced ⟨_, _, rfl⟩ (silent_map ?_ _) (Or.inr ?_) hconn
  · cases hs with
    | opened => simp
    | collision => simp [uFrame, Action.isRoutine]
  · cases hs with
    | opened f hst hu hua => exact answers_of_onConnect h hst hu (Or.inl hua) hout
    | collision f hst hu hsabm => exact answers_of_onConnect h hst hu (Or.inr hsabm) hout

/-- A SABM without a session. -/
theorem NoticeStep.asked (hcb : c.callbacks.onConnect = true) {f : Frame} {c' : Conn}
    {acts : List Action} (hd : c.state = .disconnected) (hu : f.type = .u)
    (hsabm : f.uType = ctrlSabm)
    (hdec : DecideStep ((c.taken.requested f).afterOnConnect refuses) f c' acts) :
    NoticeStep c (.call (.onFrame f) heap refuses) c'.unpooled
      (((c.taken.requested f).onConnectCall false ++ acts).map
        (Notice.mk · (c.refusesRequest (.call (.onFrame f) heap refuses)))) := by
  have hcall : (c.taken.requested f).callbacks.onConnect = true := by
    rw [(SectionStep.request (c := c.taken) f hd hu hsabm).static.callbacks]
    exact hcb
  have hreq : ((c.taken.requested f).afterOnConnect refuses).state = .disconnected := by
    rw [afterOnConnect_state, requested_state]
    exact hd
  rw [onConnectCall_eq hcall, List.singleton_append, List.map_cons]
  cases hdec with
  | refused hrp =>
      rw [if_pos hreq]
      refine .refused (k := [⟨_, _⟩]) ⟨_, _, rfl⟩ (fun n hn => ?_) (Or.inr ⟨rfl, ?_⟩) hd rfl
      · rw [List.mem_singleton.mp hn]
        exact not_announces_of_ne (fun r b hab => by cases hab) _
      · rw [refuses_of_refusePending hrp]
        simp [refusesRequest, hd, hu, hsabm, hcb]
  | accepted =>
      refine .announced ⟨_, _, rfl⟩ (silent_map ?_ _) (Or.inl hd) rfl
      simp [uFrame, Action.isRoutine]

/-- An event that calls nobody and stays in its state. -/
theorem NoticeStep.idle {e : Event} {c' : Conn} (hst : c'.state = c.state) (ha : ¬ c.Answers e) :
    NoticeStep c e c' [] :=
  .quiet (by simp) ha (Or.inl hst)

end calls

/-- **What one event can say about the session.** -/
theorem step_notices {c : Conn} (h : SeqInv c) (hcb : c.callbacks.onConnect = true) (e : Event) :
    NoticeStep c e (c.step e).conn (c.notices e) := by
  have hother : e.frame? = none → ¬ c.Answers e := by
    rintro he ⟨-, f, hf, -⟩
    rw [he] at hf
    cases hf
  cases e with
  | refuse => exact .idle (refuse_state c) (hother rfl)
  | fire t => exact .idle (fire_state c t) (hother rfl)
  | call op heap refuses =>
      have hc := call_cases h op heap refuses
      unfold notices
      generalize hr : c.step (.call op heap refuses) = r at hc ⊢
      cases hc with
      | early ret hp =>
          refine .idle (consumeExpiry_state op c) fun ha => ?_
          rw [(ha.onConnect h).1] at hp
          cases hp
      | returned ret hp hs hbody => exact .returned h hs hbody hr _
      | told hp hs => exact .told h hcb hs hr _
      | asked f hop hp hd hu hsabm hdec =>
          subst hop
          exact .asked hcb hd hu hsabm hdec

/-! ### Brackets in a run -/

/-- The history of a connection: closed without a session, open while a link is up. -/
structure Fits (c : Conn) (l : List Notice) : Prop where
  idle : c.state = .disconnected → Closed Notice.Announces Notice.Ends l
  up : c.Linked → ¬ Closed Notice.Announces Notice.Ends l

theorem not_linked {c : Conn} {st : ConnState} (h : c.state = st)
    (hne : st ≠ .connected ∧ st ≠ .timerRecovery) : ¬ c.Linked := by
  unfold Linked
  rw [h, not_or]
  exact hne

section brackets

variable {c c' : Conn} {e : Event} {k l : List Notice}

theorem closed_of_ends {m : Notice} (h : m.Ends) : Closed Notice.Announces Notice.Ends (l ++ [m]) :=
  (closed_snoc fun _ hq => hq.not_announces).mpr (Or.inl h)

theorem closed_quiet (h : ∀ n ∈ k, ¬ n.Announces ∧ ¬ n.Ends) :
    Closed Notice.Announces Notice.Ends (l ++ k) ↔ Closed Notice.Announces Notice.Ends l :=
  closed_append (fun _ hq => hq.not_announces) h

theorem NoticeStep.fits (h : NoticeStep c e c' k) (hf : Fits c l) : Fits c' (l ++ k) := by
  cases h with
  | quiet hk hna hst =>
      have hcl := closed_quiet (l := l) hk
      rcases hst with hst | ⟨hl, hl'⟩ | hst | ⟨hst, -⟩
      · refine ⟨fun h => hcl.mpr (hf.idle (hst.symm.trans h)), fun h => ?_⟩
        rw [hcl]
        unfold Linked at h
        rw [hst] at h
        exact hf.up h
      · refine ⟨fun h => absurd hl' (not_linked h (by decide)), fun _ => ?_⟩
        rw [hcl]
        exact hf.up hl
      · exact ⟨fun h => (by rw [hst] at h; cases h), fun h => absurd h (not_linked hst (by decide))⟩
      · exact ⟨fun h => (by rw [hst] at h; cases h), fun h => absurd h (not_linked hst (by decide))⟩
  | announced hn hk hc hst =>
      refine ⟨fun h => (by rw [hst] at h; cases h), fun _ => ?_⟩
      exact not_closed_append_cons hn fun d hd => (hk d hd).2
  | refused hn hk hm hc hst =>
      refine ⟨fun _ => ?_, fun h => absurd h (not_linked hst (by decide))⟩
      rw [← List.cons_append, ← List.append_assoc]
      exact closed_of_ends hm
  | ended hk hm hna hst =>
      refine ⟨fun _ => ?_, fun h => absurd h (not_linked hst (by decide))⟩
      rw [← List.append_assoc]
      exact closed_of_ends hm

/-- An event breaks the law only if it answers our SABM while a bracket is open. -/
theorem NoticeStep.separated (h : NoticeStep c e c' k) (hf : Fits c l) :
    Separated Notice.Announces Notice.Ends (l ++ k) ↔
      Separated Notice.Announces Notice.Ends l ∧
        (c.Answers e → Closed Notice.Announces Notice.Ends l) := by
  have hidle : c.state = .disconnected → ¬ c.Answers e := by
    intro hd ha
    rw [ha.1] at hd
    cases hd
  cases h with
  | quiet hk hna =>
      rw [separated_append fun n hn => (hk n hn).1]
      exact ⟨fun h => ⟨h, fun ha => absurd ha hna⟩, And.left⟩
  | announced hn hk hc =>
      rw [separated_append_cons hn fun n hn => (hk n hn).1]
      rcases hc with hd | ha
      · exact ⟨fun h => ⟨h.1, fun _ => h.2⟩, fun h => ⟨h.1, hf.idle hd⟩⟩
      · exact ⟨fun h => ⟨h.1, fun _ => h.2⟩, fun h => ⟨h.1, h.2 ha⟩⟩
  | refused hn hk hm hd =>
      rw [separated_append_cons hn]
      · exact ⟨fun h => ⟨h.1, fun _ => h.2⟩, fun h => ⟨h.1, hf.idle hd⟩⟩
      · intro n hn
        rcases List.mem_append.mp hn with hn | hn
        · exact hk n hn
        · rw [List.mem_singleton.mp hn]
          exact hm.not_announces
  | ended hk hm hna =>
      rw [separated_append]
      · exact ⟨fun h => ⟨h, fun ha => absurd ha hna⟩, And.left⟩
      · intro n hn
        rcases List.mem_append.mp hn with hn | hn
        · exact hk n hn
        · rw [List.mem_singleton.mp hn]
          exact hm.not_announces

/-- While our SABM waits for its answer the bracket is open just if error recovery
sent it. -/
theorem NoticeStep.closed_iff (h : NoticeStep c e c' k) (hf : Fits c l)
    (haw : c'.state = .awaitingConnection) :
    Closed Notice.Announces Notice.Ends (l ++ k) ↔
      ¬ c.Recovers e ∧
        (c.state = .awaitingConnection → Closed Notice.Announces Notice.Ends l) := by
  cases h with
  | quiet hk hna hst =>
      rw [closed_quiet hk]
      rcases hst with hst | ⟨-, hl'⟩ | hst | ⟨-, hd | hr⟩
      · have hc : c.state = .awaitingConnection := hst.symm.trans haw
        have hnr : ¬ c.Recovers e := fun hr => not_linked hc (by decide) hr.1
        exact ⟨fun h => ⟨hnr, fun _ => h⟩, fun h => h.2 hc⟩
      · exact absurd hl' (not_linked haw (by decide))
      · rw [haw] at hst
        cases hst
      · have hnr : ¬ c.Recovers e := fun hr => not_linked hd (by decide) hr.1
        exact ⟨fun h => ⟨hnr, fun _ => h⟩, fun _ => hf.idle hd⟩
      · exact ⟨fun h => absurd h (hf.up hr.1), fun h => absurd hr h.1⟩
  | announced hn hk hc hst => rw [haw] at hst; cases hst
  | refused hn hk hm hc hst => rw [haw] at hst; cases hst
  | ended hk hm hna hst => rw [haw] at hst; cases hst

end brackets

/-- The static part of the context is kept by every event. -/
theorem step_callbacks {c : Conn} (h : SeqInv c) (e : Event) :
    (c.step e).conn.callbacks = c.callbacks := by
  cases e with
  | refuse =>
      unfold Conn.step refuse
      dsimp only
      split_ifs <;> rfl
  | fire t => cases t <;> rfl
  | call op heap refuses =>
      have hc := call_cases h op heap refuses
      have hexp : (op.consumeExpiry c).callbacks = c.callbacks := by
        obtain ⟨t1, t2, t3, ht⟩ := consumeExpiry_cases op c
        rw [ht]
      generalize c.step (.call op heap refuses) = r at hc ⊢
      refine Eq.trans ?_ hexp
      cases hc with
      | early => rfl
      | returned ret hp hs => exact hs.static.callbacks
      | told hp hs => exact (hs.static.trans (afterOnConnect_static _ refuses)).callbacks
      | asked f hop hp hd hu hsabm hdec =>
          have hreq := SectionStep.request (c := (op.consumeExpiry c).taken) f hd hu hsabm
          exact ((hreq.static.trans (afterOnConnect_static _ refuses)).trans hdec.static).callbacks

/-- **The brackets of a run.** A run that continues the history `l` keeps the law
unless it answers the SABM of an error recovery, one of its own or one that `l`
left open. -/
theorem separated_trace_iff {c : Conn} (h : SeqInv c) (hcb : c.callbacks.onConnect = true)
    {l : List Notice} (hf : Fits c l) (hl : Separated Notice.Announces Notice.Ends l)
    (es : List Event) :
    Separated Notice.Announces Notice.Ends (l ++ c.trace es) ↔
      ¬ Reopens c es ∧ (Closed Notice.Announces Notice.Ends l ∨ ¬ Answered c es) := by
  induction es generalizing c l with
  | nil =>
      rw [trace, List.append_nil]
      exact ⟨fun _ => ⟨reopens_nil, Or.inr answered_nil⟩, fun _ => hl⟩
  | cons e es ih =>
      have hstep := step_notices h hcb e
      rw [trace, ← List.append_assoc, reopens_cons, answered_cons]
      by_cases hbad : c.Answers e → Closed Notice.Announces Notice.Ends l
      · have hsep := (hstep.separated hf).mpr ⟨hl, hbad⟩
        have hcb' : (c.step e).conn.callbacks.onConnect = true := by
          rw [step_callbacks h e]
          exact hcb
        rw [ih (h.step e) hcb' (hstep.fits hf) hsep]
        by_cases hans : Answered (c.step e).conn es
        · rw [hstep.closed_iff hf hans.state]
          tauto
        · tauto
      · refine ⟨fun h => ?_, fun h => ?_⟩
        · have hsep : Separated Notice.Announces Notice.Ends (l ++ c.notices e) :=
            Ordered.of_append h
          exact absurd ((hstep.separated hf).mp hsep).2 hbad
        · tauto

/-! ### Without a callback -/

/-- A step calls `on_connect` only if it is set. -/
theorem step_no_connect {c : Conn} (h : SeqInv c) (hcb : c.callbacks.onConnect = false) (e : Event)
    {a : Action} (ha : a ∈ (c.step e).out) (r : Address) (b : Bool) : a ≠ .connect r b := by
  have hrout : a.isRoutine = true → a ≠ .connect r b := by
    rintro h rfl
    cases h
  cases e with
  | refuse => exact absurd ha List.not_mem_nil
  | fire t => exact absurd ha List.not_mem_nil
  | call op heap refuses =>
      have hc := call_cases h op heap refuses
      have hexp : (op.consumeExpiry c).callbacks.onConnect = false := by
        obtain ⟨t1, t2, t3, ht⟩ := consumeExpiry_cases op c
        rw [ht]
        exact hcb
      have hcall : ∀ {c' : Conn} {b : Bool}, c'.callbacks = (op.consumeExpiry c).callbacks →
          c'.onConnectCall b = [] := by
        intro c' b hc'
        unfold onConnectCall
        rw [hc', hexp]
        rfl
      generalize c.step (.call op heap refuses) = res at hc ha
      cases hc with
      | early => exact absurd ha List.not_mem_nil
      | returned ret hp hs =>
          rcases hs.session with ⟨-, -, -, pre, hpre, hno⟩ | ⟨hall, -⟩
          · dsimp only at ha
            rw [hpre] at ha
            rcases List.mem_append.mp ha with ha | ha
            · exact hno a ha r b
            · rw [List.mem_singleton.mp ha]
              exact fun hab => by cases hab
          · exact hrout (hall a ha)
      | told hp hs =>
          dsimp only at ha
          rw [hcall hs.static.callbacks, List.nil_append] at ha
          cases hs with
          | opened => exact absurd ha List.not_mem_nil
          | collision f => exact hrout (by rw [List.mem_singleton.mp ha]; rfl)
      | asked f hop hp hd hu hsabm hdec =>
          have hreq := SectionStep.request (c := (op.consumeExpiry c).taken) f hd hu hsabm
          dsimp only at ha
          rw [hcall hreq.static.callbacks, List.nil_append] at ha
          cases hdec with
          | refused =>
              intro heq
              subst heq
              split_ifs at ha <;> simp [uFrame] at ha
          | accepted => exact hrout (by rw [List.mem_singleton.mp ha]; rfl)

theorem trace_no_announcement {c : Conn} (h : SeqInv c) (hcb : c.callbacks.onConnect = false)
    (es : List Event) : ∀ n ∈ c.trace es, ¬ n.Announces := by
  induction es generalizing c with
  | nil => simp [trace]
  | cons e es ih =>
      intro n hn
      rw [trace] at hn
      rcases List.mem_append.mp hn with hn | hn
      · obtain ⟨a, ha, rfl⟩ := List.mem_map.mp hn
        exact not_announces_of_ne (step_no_connect h hcb e ha) _
      · exact ih (h.step e) (by rw [step_callbacks h e]; exact hcb) n hn

/-! ### One announcement per session -/

/-- **One announcement per session, exactly when.** In a run from
`ax25_conn_init` there is an `on_disconnect`, or the `on_final` of a refused
request, between any two calls of `on_connect`, if and only if no answer reaches
the SABM of an error recovery (or `on_connect` is not set). -/
theorem one_announcement_per_session {res : InitResources} {a : Address} {cb : Callbacks}
    {cfg : Option Config} {c : Conn} (h : Conn.init res a cb cfg = .ok c) (es : List Event) :
    Separated Notice.Announces Notice.Ends (c.trace es) ↔
      (cb.onConnect = true → ¬ Reopens c es) := by
  have hinv := (Reachable.init h).seqInv
  have hc := init_ok h
  cases hcb : cb.onConnect with
  | true =>
      have hf : Fits c [] := by
        have hst : c.state = .disconnected := by rw [hc]; rfl
        exact ⟨fun _ => closed_nil, fun hl => absurd hl (not_linked hst (by decide))⟩
      have hiff := separated_trace_iff hinv (by rw [hc]; exact hcb) hf ordered_nil es
      rw [List.nil_append] at hiff
      rw [hiff]
      exact ⟨fun h _ => h.1, fun h => ⟨h rfl, Or.inl closed_nil⟩⟩
  | false =>
      have hno := trace_no_announcement hinv (by rw [hc]; exact hcb) es
      have hsep : Separated Notice.Announces Notice.Ends ([] ++ c.trace es) :=
        (separated_append hno).mpr ordered_nil
      exact ⟨fun _ hcb => absurd hcb (by decide), fun _ => hsep⟩

/-- FRMR from `sampleB` to `sampleA`, and the UA and DM that may answer a SABM. -/
def sampleFrmr : Frame := { sampleSabm with isCommand := false, control := ctrlFrmr }
@[inherit_doc sampleFrmr] def sampleUa : Frame :=
  { sampleSabm with isCommand := false, control := ctrlUa ||| pfBits true }
@[inherit_doc sampleFrmr] def sampleDm : Frame :=
  { sampleSabm with isCommand := false, control := ctrlDm ||| pfBits true }

/-- The link is given up and not brought up again: DM ends the session, and a new
one is announced. -/
theorem one_announcement_per_session_dm :
    Separated Notice.Announces Notice.Ends
      (sampleConn.trace [.call (.onFrame sampleSabm) false false,
        .call (.onFrame sampleFrmr) false false, .call (.onFrame sampleDm) false false,
        .call (.onFrame sampleSabm) false false]) :=
  (@one_announcement_per_session ⟨true, true, .ok, true, .ok, .ok, .ok⟩ sampleA
    ⟨true, true, true, true, true, true, true⟩ none sampleConn rfl _).mpr
    fun _ => by decide +kernel

/-- A link that comes up after FRMR and UA is announced a second time. -/
theorem recovery_announces_again :
    ¬ ∀ {res : InitResources} {a : Address} {cb : Callbacks} {cfg : Option Config} {c : Conn},
        Conn.init res a cb cfg = .ok c → ∀ es,
          Separated Notice.Announces Notice.Ends (c.trace es) := by
  intro h
  let es : List Event := [.call (.onFrame sampleSabm) false false,
    .call (.onFrame sampleFrmr) false false, .call (.onFrame sampleUa) false false]
  have hsep := @h ⟨true, true, .ok, true, .ok, .ok, .ok⟩ sampleA
    ⟨true, true, true, true, true, true, true⟩ none sampleConn rfl es
  -- `on_connect`, UA, `on_error` and SABM, `on_connect`
  have hclosed := hsep ((sampleConn.trace es).take 4) ⟨.connect sampleB true, false⟩ []
    (by decide +kernel) ⟨_, _, rfl⟩
  obtain ⟨d, hd, hends⟩ := hclosed [] ⟨.connect sampleB false, false⟩
    (((sampleConn.trace es).take 4).drop 1) (by decide +kernel) ⟨_, _, rfl⟩
  have hnone : ∀ d ∈ ((sampleConn.trace es).take 4).drop 1, ¬ d.Ends := by decide +kernel
  exact hnone d hd hends

end EspAx25
