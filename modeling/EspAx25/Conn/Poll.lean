import EspAx25.Conn.Log

/-!
# EspAx25.Conn.Poll

The poll/final discipline of the data-transfer states.

A frame with P=1 is answered in about ten places: at the head of each S-frame
branch, behind an in-sequence I frame, and behind one that is out of sequence,
where a REJ may do it. `Replied` says the same of all of them: while the batch
has room, a section records one supervisory response with the P/F bit it was
asked for, or, if it was not asked for F=1, possibly none. What a section
records before that is a payload, and what it records afterwards are I frames.
-/

namespace EspAx25

open Cyclic Conn Locked

/-! ### Who asks for an answer -/

/-- One of the S frames that the handlers know: RR, RNR or REJ. -/
def Frame.Supervisory (f : Frame) : Prop := f.type = .s ∧ IsSMask f.sType

/-- The frame asks for a response with F=1: an I frame, or an RR, RNR or REJ
command, with P=1. -/
def Frame.Polls (f : Frame) : Prop :=
  f.pf = true ∧ (f.type = .i ∨ f.Supervisory ∧ f.isCommand = true)

/-- The frame asks for no such response: an I or S frame with P/F=0, or an S
response. -/
def Frame.NoPoll (f : Frame) : Prop :=
  (f.type = .i ∨ f.type = .s) ∧ f.pf = false ∨ f.type = .s ∧ f.isCommand = false

/-- A supervisory response with P/F bit `pf` that carries N(R) = V(R) of `c`. -/
structure Response (c : Conn) (pf : Bool) (g : Frame) : Prop where
  supervisory : g.Supervisory
  response : g.isCommand = false
  pf : g.pf = pf
  nr : g.nr = c.vr

theorem response_outFrame {c : Conn} (hvr : c.vr < 8) {mask : Byte} (hm : IsSMask mask)
    (pf : Bool) : Response c pf (outFrame c false .s (frameBuildSControl mask c.vr pf)) where
  supervisory := ⟨rfl, by
    show IsSMask (frameBuildSControl mask c.vr pf &&& 0x0F)
    rw [sType_buildS hm hvr]
    exact hm⟩
  response := rfl
  pf := hasPf_buildS hm hvr pf
  nr := extractNr_buildS hm hvr pf

theorem Response.congr {c c' : Conn} {pf : Bool} {g : Frame} (h : Response c pf g)
    (hvr : c'.vr = c.vr) : Response c' pf g :=
  ⟨h.supervisory, h.response, h.pf, h.nr.trans hvr.symm⟩

/-- What is recorded for a frame that asks for F=1 iff `pf`. -/
inductive Reply (c : Conn) : Bool → List Action → Prop
  | silent : Reply c false []
  | response {pf : Bool} {g : Frame} : Response c pf g → Reply c pf [.frame g]

theorem Reply.length_le {c : Conn} {pf : Bool} {l : List Action} (h : Reply c pf l) :
    l.length ≤ 1 := by
  cases h <;> simp

theorem Reply.congr {c c' : Conn} {pf : Bool} {l : List Action} (h : Reply c pf l)
    (hvr : c'.vr = c.vr) : Reply c' pf l := by
  cases h with
  | silent => exact .silent
  | response h => exact .response (h.congr hvr)

/-! ### Sections that reply once -/

/-- From `s` to `t` a section replied to a frame that asks for F=1 iff `pf`. -/
structure Replied (pf : Bool) (s t : Locked) : Prop where
  link : SameLink s.conn t.conn
  reply : s.conn.vr < 8 → s.deferred.length < maxDeferredActions →
    ∃ l, t.deferred = s.deferred ++ l ∧ Reply s.conn pf l

/-- A quiet section without frames records nothing. -/
theorem Quiet.deferred_eq {s t : Locked} (h : Quiet 0 s t) : t.deferred = s.deferred := by
  obtain ⟨l, hl, hlen, -⟩ := h.emits
  rw [hl, List.length_eq_zero_iff.mp (Nat.le_zero.mp hlen), List.append_nil]

namespace Replied

variable {pf : Bool} {s t u : Locked}

/-- Nothing is recorded where no F=1 is due. -/
theorem silent (h : Quiet 0 s t) : Replied false s t :=
  ⟨h.link, fun _ _ => ⟨[], by rw [h.deferred_eq, List.append_nil], .silent⟩⟩

theorem after (h₁ : Quiet 0 s t) (h₂ : Replied pf t u) : Replied pf s u where
  link := h₁.link.trans h₂.link
  reply := by
    intro hvr hroom
    obtain ⟨l, hl, hr⟩ := h₂.reply (h₁.link.vr ▸ hvr) (h₁.deferred_eq ▸ hroom)
    exact ⟨l, by rw [hl, h₁.deferred_eq], hr.congr h₁.link.vr.symm⟩

theorem andThen (h₁ : Replied pf s t) (h₂ : Quiet 0 t u) : Replied pf s u where
  link := h₁.link.trans h₂.link
  reply := by
    intro hvr hroom
    obtain ⟨l, hl, hr⟩ := h₁.reply hvr hroom
    exact ⟨l, by rw [h₂.deferred_eq, hl], hr⟩

/-- One of the three S-frame helpers, used for a response. -/
theorem sendFrame {mask : Byte} (s : Locked) (hm : IsSMask mask) (pf : Bool) :
    Replied pf s
      (s.sendFrameInternal (outFrame s.conn false .s (frameBuildSControl mask s.conn.vr pf))).1 where
  link := by
    rw [sendFrameInternal_conn]
  reply := by
    intro hvr hroom
    rw [sendFrameInternal_of_lt hroom]
    exact ⟨_, rfl, .response (response_outFrame hvr hm pf)⟩

end Replied

theorem replied_sendAck (s : Locked) (pf : Bool) : Replied pf s (s.sendAck pf false).1 := by
  unfold sendAck
  split
  · exact .sendFrame s (Or.inr (Or.inl rfl)) pf
  · exact .sendFrame s (Or.inl rfl) pf

theorem replied_sendRej (s : Locked) (pf : Bool) : Replied pf s (s.sendRej pf false).1 :=
  .after (.modify s (fun c => { c with rejSent := true }) (.flags ..) fun _ => id)
    (.sendFrame (s.modify fun c => { c with rejSent := true }) (Or.inr (Or.inr rfl)) pf)

/-- The head of an S-frame branch. -/
theorem replied_answerPoll (s : Locked) (f : Frame) :
    Replied (f.pf && f.isCommand) s (s.answerPoll f) := by
  unfold answerPoll
  split
  · next h =>
    rw [h]
    exact replied_sendAck s true
  · next h =>
    rw [eq_false_of_ne_true h]
    exact .silent (.refl s)

/-- An in-sequence I frame. -/
theorem replied_acknowledge (s : Locked) (f : Frame) : Replied f.pf s (s.acknowledge f) := by
  unfold acknowledge
  split
  · next h =>
    rw [h]
    exact replied_sendAck s true
  · next h =>
    rw [eq_false_of_ne_true h]
    exact .silent (.modify s _ (.flags ..) fun _ => id)

/-- An out-of-sequence I frame: the REJ itself is the answer, or, with a REJ
outstanding already, an acknowledgement. -/
theorem replied_rejectSequence (s : Locked) (f : Frame) :
    Replied f.pf s (s.rejectSequence f) := by
  unfold rejectSequence
  split
  · exact replied_sendRej s f.pf
  · split
    · next h =>
      rw [h]
      exact replied_sendAck s true
    · next h =>
      rw [eq_false_of_ne_true h]
      exact .silent (.refl s)

/-! ### The handlers -/

/-- Whether F=1 is due. -/
def Frame.polls (f : Frame) : Bool :=
  f.pf && (decide (f.type = .i) ||
    f.isCommand && (f.sType == ctrlRr || f.sType == ctrlRnr || f.sType == ctrlRej))

theorem Frame.Polls.polls {f : Frame} (h : f.Polls) : f.polls = true := by
  obtain ⟨hpf, hi | ⟨⟨-, hm⟩, hcmd⟩⟩ := h
  · simp [Frame.polls, hpf, hi]
  · rcases hm with hm | hm | hm <;> simp [Frame.polls, hpf, hcmd, hm]

theorem Frame.NoPoll.polls {f : Frame} (h : f.NoPoll) : f.polls = false := by
  rcases h with ⟨-, hpf⟩ | ⟨hs, hcmd⟩
  · simp [Frame.polls, hpf]
  · simp [Frame.polls, hs, hcmd]

/-- A section that receives `f`: account for it, reply, flush. -/
def RepliedTo (s : Locked) (f : Frame) (s' : Locked) : Prop :=
  ∃ s₁ t, Received s f s₁ ∧ Replied f.polls s₁ t ∧ Flush t s'

section dataPhase

variable {s : Locked} {f : Frame} (ha : s.conn.va < 8) (hv : s.conn.isValidNr f.nr = true)

/-- On an S frame the answer to the poll is due iff the handlers know it. -/
theorem polls_of_s (hs : f.type = .s) (hm : IsSMask f.sType) :
    f.polls = (f.pf && f.isCommand) := by
  rcases hm with hm | hm | hm <;> simp [Frame.polls, hs, hm]

theorem polls_of_unknown (hs : f.type = .s) (h₁ : f.sType ≠ ctrlRr) (h₂ : f.sType ≠ ctrlRnr)
    (h₃ : f.sType ≠ ctrlRej) : f.polls = false := by
  simp [Frame.polls, hs, h₁, h₂, h₃]

theorem polls_of_i (hi : f.type = .i) : f.polls = f.pf := by
  simp [Frame.polls, hi]

include ha hv

theorem connectedS_repliedTo (hs : f.type = .s) : RepliedTo s f (s.connectedS f).1 := by
  have h₀ := quiet_handleReceivedNr ha hv
  have poll := fun b hm => (polls_of_s hs hm).symm ▸
    Replied.after (h₀.trans (quiet_peerBusy _ b)) (replied_answerPoll _ f)
  unfold connectedS
  simp only [hv, Bool.not_true, Bool.false_eq_true, if_false]
  split_ifs with h₁ h₂ h₃
  · exact ⟨_, _, .ack, poll false (Or.inl h₁), .sent⟩
  · exact ⟨_, _, .ack, poll true (Or.inr (Or.inl h₂)), .none⟩
  · exact ⟨_, _, .ack, (poll false (Or.inr (Or.inr h₃))).andThen (quiet_markUntransmitted _ _),
      .sent⟩
  · exact ⟨_, _, .ack, (polls_of_unknown hs h₁ h₂ h₃).symm ▸ .silent h₀, .none⟩

theorem connectedI_repliedTo (hi : f.type = .i) : RepliedTo s f (s.connectedI f).1 := by
  have h₀ := quiet_handleReceivedNr_i ha hv
  unfold RepliedTo connectedI
  simp only [hv, Bool.not_true, Bool.false_eq_true, if_false, polls_of_i hi]
  split_ifs with hns hb
  · exact ⟨_, _, .ack, (Replied.after h₀ (replied_acknowledge _ f)).andThen
      (quiet_startTimerT3 _), .sent⟩
  · have hvr : f.ns = s.conn.vr := hns.trans h₀.link.vr
    have hbusy : s.conn.localBusy = false := by
      rw [h₀.link.localBusy] at hb
      exact eq_false_of_ne_true hb
    exact ⟨_, _, .data hi hvr hbusy, (Replied.after (quiet_consume ha hv)
      (replied_acknowledge _ f)).andThen (quiet_startTimerT3 _), .sent⟩
  · exact ⟨_, _, .ack, Replied.after h₀ (replied_rejectSequence _ f), .sent⟩

theorem timerRecoveryI_repliedTo (hi : f.type = .i) : RepliedTo s f (s.timerRecoveryI f).1 := by
  have h₀ := quiet_handleReceivedNr_i ha hv
  unfold RepliedTo timerRecoveryI
  simp only [hv, Bool.not_true, Bool.false_eq_true, if_false, polls_of_i hi]
  split_ifs with hns hb
  · exact ⟨_, _, .ack, Replied.after h₀ (replied_acknowledge _ f), .none⟩
  · have hvr : f.ns = s.conn.vr := hns.trans h₀.link.vr
    have hbusy : s.conn.localBusy = false := by
      rw [h₀.link.localBusy] at hb
      exact eq_false_of_ne_true hb
    exact ⟨_, _, .data hi hvr hbusy,
      Replied.after (quiet_consume ha hv) (replied_acknowledge _ f), .none⟩
  · exact ⟨_, _, .ack, Replied.after h₀ (replied_rejectSequence _ f), .none⟩

theorem timerRecoveryS_repliedTo (hst : s.conn.state = .timerRecovery) (hs : f.type = .s) :
    RepliedTo s f (s.timerRecoveryS f).1 := by
  have h₀ := quiet_concludeIfFinal ha hv hst
  have poll := fun b hm => (polls_of_s hs hm).symm ▸
    Replied.after (h₀.trans (quiet_peerBusy _ b)) (replied_answerPoll _ f)
  have settle : ∀ {t : Locked} (b : Bool), Replied f.polls (s.modify (·.ackConn f.nr)) t →
      RepliedTo s f (t.settleRecovery b) := by
    intro t b ht
    obtain ⟨u, hu, hf⟩ := flush_settleRecovery t b
    exact ⟨_, u, .ack, ht.andThen hu, hf⟩
  unfold timerRecoveryS
  simp only [hv, Bool.not_true, Bool.false_eq_true, if_false]
  split
  · next h₁ => exact settle _ (poll false (Or.inl h₁))
  · next h₁ =>
    split
    · next h₂ => exact settle _ (poll true (Or.inr (Or.inl h₂)))
    · next h₂ =>
      split
      · next h₃ =>
        exact settle _ ((poll false (Or.inr (Or.inr h₃))).andThen (quiet_markUntransmitted _ _))
      · next h₃ => exact settle _ ((polls_of_unknown hs h₁ h₂ h₃).symm ▸ .silent h₀)

end dataPhase

/-- **One reply.** In the two data-transfer states an I or S frame with a valid
N(R) is accounted for, then replied to as it asks, and then the section flushes. -/
theorem dataHandler_repliedTo {s : Locked} {f : Frame} (ha : s.conn.va < 8)
    (hst : s.conn.state = .connected ∨ s.conn.state = .timerRecovery)
    (hty : f.type = .s ∨ f.type = .i) (hv : s.conn.isValidNr f.nr = true) :
    RepliedTo s f (dataHandler s f).1 := by
  unfold dataHandler
  rcases hst with hst | hst <;> rcases hty with hty | hty <;>
    simp only [hst, reduceCtorEq, if_true, if_false, handleFrameConnected,
      handleFrameTimerRecovery, hty]
  · exact connectedS_repliedTo ha hv hty
  · exact connectedI_repliedTo ha hv hty
  · exact timerRecoveryS_repliedTo ha hv hst hty
  · exact timerRecoveryI_repliedTo ha hv hty

/-! ### What a call emits -/

/-- `out` holds exactly one response with F=1, with N(R) = V(R) of `c`: no frame
comes ahead of it, and what follows are I frames with P=0. -/
def AnswersPoll (c : Conn) (out : List Action) : Prop :=
  ∃ before g after, out = before ++ .frame g :: after ∧ Response c true g ∧
    (∀ d, .frame d ∉ before) ∧ ∀ d, .frame d ∈ after → d.type = .i ∧ d.pf = false

/-- The I frames of the window are sent with P=0. -/
theorem slotFrame_pf {c : Conn} (hw : WindowInv c) {qs : List Nat}
    (hqs : ∀ q ∈ qs, Mem 8 c.va c.vs q) {g : Frame} (hg : .frame g ∈ qs.map c.slotFrame) :
    g.type = .i ∧ g.pf = false := by
  obtain ⟨q, hq, heq⟩ := List.mem_map.mp hg
  cases heq
  exact ⟨rfl, hasPf_buildI (hqs q hq).1 hw.vr_lt false⟩

/-- The batch of a section that receives `f`. -/
theorem RepliedTo.batch {c : Conn} {f : Frame} {s' : Locked} (h : RepliedTo ⟨c, []⟩ f s')
    (hw : WindowInv c) (hv : c.isValidNr f.nr = true) :
    ∃ before l after, s'.deferred = before ++ l ++ after ∧ (∀ d, .frame d ∉ before) ∧
      Reply s'.conn f.polls l ∧ ∀ d, .frame d ∈ after → d.type = .i ∧ d.pf = false := by
  obtain ⟨s₁, t, hr, hrep, hf⟩ := h
  have hw₁ := WindowInv.received (s := ⟨c, []⟩) hw hv hr
  have hwt := hw₁.sameLink hrep.link
  have hroom : s₁.deferred.length ≤ 1 := by
    rcases hr.deferred with h | ⟨h, -⟩ <;> simp [h]
  obtain ⟨l, hl, hrl⟩ := hrep.reply hw₁.vr_lt (Nat.lt_of_le_of_lt hroom (by decide))
  have hlen := hrl.length_le
  obtain ⟨qs, hqs, hdef, -⟩ := hf.recorded hwt (by rw [hl, List.length_append]; omega)
  refine ⟨s₁.deferred, l, qs.map t.conn.slotFrame, by rw [hdef, hl], fun d hd => ?_, ?_,
    fun d hd => slotFrame_pf hwt (fun q hq => ?_) hd⟩
  · exact absurd (hr.no_frame hd) (by simp)
  · -- neither the reply nor the I frames move V(R)
    have hlink := (hf.transfer hwt.va_lt hwt.vs_lt).link
    exact hrl.congr (hlink.vr.trans hrep.link.vr)
  · rcases hqs with rfl | rfl
    · cases hq
    · exact ((mem_pendingSeqs hwt.va_lt hwt.vs_lt).mp hq).2.1

/-- A frame of the session, on a link that is up: the call is the data handler. -/
theorem step_linked {c : Conn} (h : SeqInv c) (hl : c.Linked) {f : Frame} (hf : ¬ Foreign c f)
    (heap refuses : Bool) :
    c.step (.call (.onFrame f) heap refuses) =
      ⟨(dataHandler ⟨c.taken, []⟩ f).1.conn.unpooled, (dataHandler ⟨c.taken, []⟩ f).1.deferred,
        (dataHandler ⟨c.taken, []⟩ f).2⟩ := by
  have hp := precheck_of_not_foreign h.initialized hf
  have hsrc : c.taken.remoteAddrSet = true → addressEquals f.source c.taken.remoteAddr = true := by
    intro _
    by_contra hn
    exact hf (Or.inr (Or.inr (Or.inr (eq_false_of_ne_true hn))))
  have hstatic := (dataHandler_cases (c := c.taken) (f := f) hl h.window.va_lt h.window.vs_lt).static
  simp only [Conn.step, Op.call, Op.consumeExpiry, hp, Conn.locked, acquireDeferred_of_free h.pool,
    Op.body, onFrame_linked (c := c.taken) hl hsrc, Call.settle]
  rw [release_pool (hstatic.initialized.trans h.initialized) (hstatic.cookie.trans h.cookie)
    hstatic.pool]

/-- **Poll and final.** In the data-transfer states, with N(R) in the cyclic
range from V(A) to V(S): a frame of the session that polls is answered with
exactly one response with F=1, ahead of any I frame and with N(R) equal to V(R)
after the call; for a frame that does not poll, nothing goes out with the P/F
bit set. -/
theorem poll_final {c : Conn} (h : Reachable c) (hl : c.Linked) (f : Frame)
    (hnr : arc 8 c.va f.nr ≤ arc 8 c.va c.vs) (heap refuses : Bool) :
    (f.Polls → ¬ Foreign c f →
      AnswersPoll (c.step (.call (.onFrame f) heap refuses)).conn
        (c.step (.call (.onFrame f) heap refuses)).out) ∧
    (f.NoPoll →
      ∀ g, .frame g ∈ (c.step (.call (.onFrame f) heap refuses)).out → g.pf = false) := by
  have hw : WindowInv c.taken := h.seqInv.window.congr rfl rfl rfl rfl rfl
  have hv : c.taken.isValidNr f.nr = true := (isValidNr_iff hw.va_lt hw.vs_lt f.nr_lt).mpr hnr
  have hbatch : f.type = .s ∨ f.type = .i → _ := fun hty =>
    (dataHandler_repliedTo (s := ⟨c.taken, []⟩) hw.va_lt hl hty hv).batch hw hv
  refine ⟨fun hp hf => ?_, fun hn g hg => ?_⟩
  · have hty : f.type = .s ∨ f.type = .i := by
      rcases hp.2 with hi | ⟨⟨hs, -⟩, -⟩
      · exact Or.inr hi
      · exact Or.inl hs
    rw [step_linked h.seqInv hl hf]
    obtain ⟨before, l, after, hout, hbefore, hrep, hafter⟩ := hbatch hty
    rw [hp.polls] at hrep
    cases hrep with
    | response hg =>
        exact ⟨before, _, after, by rw [hout]; simp, hg.congr rfl, hbefore, hafter⟩
  · have hty : f.type = .s ∨ f.type = .i := by
      rcases hn with ⟨hi | hs, -⟩ | ⟨hs, -⟩
      · exact Or.inr hi
      · exact Or.inl hs
      · exact Or.inl hs
    by_cases hf : Foreign c f
    · rw [step_foreign h.seqInv (by rcases hl with h | h <;> rw [h] <;> decide) hf] at hg
      cases hg
    · rw [step_linked h.seqInv hl hf] at hg
      obtain ⟨before, l, after, hout, hbefore, hrep, hafter⟩ := hbatch hty
      rw [hn.polls] at hrep
      rw [hout] at hg
      rcases List.mem_append.mp hg with hg | hg
      · rcases List.mem_append.mp hg with hg | hg
        · exact absurd hg (hbefore g)
        · cases hrep with
          | silent => cases hg
          | response hr =>
              cases List.mem_singleton.mp hg
              exact hr.pf
      · exact (hafter g hg).2

/-- An RR command with P=1 from `sampleB`. -/
def samplePoll : Frame := { sampleSabm with type := .s, control := frameBuildRrControl 0 true }

/-- The poll is answered; its copy with P=0 is not. -/
theorem poll_final_rr :
    AnswersPoll (sampleLink.step (.call (.onFrame samplePoll) false false)).conn
        (sampleLink.step (.call (.onFrame samplePoll) false false)).out ∧
      ∀ g, .frame g ∈ (sampleLink.step (.call (.onFrame
        { samplePoll with control := frameBuildRrControl 0 false }) false false)).out →
        g.pf = false :=
  ⟨(poll_final reachable_sampleLink (by decide) samplePoll (by decide) false false).1
      ⟨rfl, Or.inr ⟨⟨rfl, Or.inl rfl⟩, rfl⟩⟩ (by decide),
    (poll_final reachable_sampleLink (by decide) _ (by decide) false false).2
      (Or.inl ⟨Or.inr rfl, rfl⟩)⟩

/-- The same poll from a third station gets no answer. -/
theorem foreign_poll_unanswered :
    Reachable sampleLink ∧ sampleLink.Linked ∧ Frame.Polls { samplePoll with source := sampleC } ∧
      arc 8 sampleLink.va (Frame.nr { samplePoll with source := sampleC }) ≤
        arc 8 sampleLink.va sampleLink.vs ∧
      ¬ AnswersPoll
        (sampleLink.step (.call (.onFrame { samplePoll with source := sampleC }) false false)).conn
        (sampleLink.step (.call (.onFrame { samplePoll with source := sampleC }) false false)).out := by
  refine ⟨reachable_sampleLink, by decide, ⟨rfl, Or.inr ⟨⟨rfl, Or.inl rfl⟩, rfl⟩⟩, by decide, ?_⟩
  have hout : (sampleLink.step
      (.call (.onFrame { samplePoll with source := sampleC }) false false)).out = [] := by decide
  rintro ⟨before, g, after, h, -⟩
  rw [hout] at h
  simp at h

end EspAx25
