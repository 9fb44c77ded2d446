import EspAx25.Conn.Concurrent

/-!
# EspAx25.Conn.Reentry

The time between the two locked sections of a SABM, while `on_connect` runs with
the mutex released.

The state is still `DISCONNECTED` then, but `remote_addr` already holds the
caller. Any other call may run: a second SABM replaces `remote_addr`, a
`connect_via` dials somebody else, a whole session may come and go. The second
section looks at nothing but `refuse_pending`, and answers whoever is in
`remote_addr` by then.

`WindowKept` says what it would have to check. In a run that keeps it, each SABM
is answered to its sender, a session always has a peer and no session is
overwritten; and a move that does not keep it breaks one of the three
(`connect_window`).
-/

namespace EspAx25

open Cyclic Conn Locked

/-- The application is told that a session has been reset or has ended. -/
def Action.isNotice : Action → Bool
  | .error .. | .disconnect | .linkReset => true
  | _ => false

/-- A session has a peer. -/
def RemoteKnown (c : Conn) : Prop := c.state ≠ .disconnected → c.remoteAddrSet = true

instance (c : Conn) : Decidable (RemoteKnown c) := inferInstanceAs (Decidable (_ → _))

namespace Sys

/-- The SABM that a move may record the answer to. -/
def answers (y : Sys) : Move → Option Frame
  | .call (.onFrame f) _ => if f.type = .u ∧ f.uType = ctrlSabm then some f else none
  | m => y.deciding m

/-- Whatever a move records in answer to a SABM goes to the sender of that SABM. -/
def SabmAnswered (y : Sys) (m : Move) : Prop :=
  ∀ f g, y.answers m = some f → .frame g ∈ y.records m →
    addressEquals g.destination f.source = true

/-- A session that was established with another station while `on_connect` ran
is left as it is, or the application is told about its end. -/
def SessionKept (y : Sys) (m : Move) : Prop :=
  ∀ f, y.deciding m = some f → y.conn.state ≠ .disconnected →
    addressEquals f.source y.conn.remoteAddr = false →
    (y.step m).conn = y.conn ∨ ∃ a ∈ y.records m, a.isNotice = true

/-- A call that has waited for `on_connect` finds the sender of its SABM in
`remote_addr`; and to accept it, finds `remote_addr_set` too. -/
def WindowKept (y : Sys) (m : Move) : Prop :=
  ∀ f, y.deciding m = some f → addressEquals f.source y.conn.remoteAddr = true ∧
    (y.conn.refusePending = true ∨ y.conn.remoteAddrSet = true)

end Sys

/-! ### The first section -/

theorem Minor.remoteKnown {c c' : Conn} (h : Minor c c') (hr : RemoteKnown c) :
    RemoteKnown c' := by
  obtain ⟨p, t1, t2, t3, r, rfl⟩ := h
  exact hr

/-- The locked section of a SABM answers its sender, if it answers at all. -/
theorem SectionStep.sabm_answered {c : Conn} {f : Frame} {s : Locked} {o : Outcome}
    (h : SectionStep c (.onFrame f) s o) (hbody : (Op.onFrame f).body ⟨c, []⟩ = (s, o))
    (hr : RemoteKnown c) (hsabm : f.uType = ctrlSabm) {g : Frame} (hg : .frame g ∈ s.deferred) :
    addressEquals g.destination f.source = true := by
  by_cases hst : c.state = .disconnected
  · -- no session: the decision is still to come
    exfalso
    cases h with
    | reject f hu hcase =>
        rcases hcase with ⟨-, hd⟩ | ⟨h, -⟩ | ⟨h, -⟩
        · exact absurd (hsabm.symm.trans hd) (by decide)
        · cases hst.symm.trans h
        · cases hst.symm.trans h
    | collision f h => cases hst.symm.trans h
    | relink f hl | reestablish f c₀ msg ret hl | data f hl =>
        rcases hl with hl | hl <;> cases hst.symm.trans hl
    | teardown pre hne => exact hne hst
    | _ => cases hg
  · -- in a session the filter has let the frame of the peer through
    have hout := (h.frames hg).2
    rw [h.remoteAddr hst] at hout
    rw [hout]
    cases hsrc : addressEquals f.source c.remoteAddr with
    | true => exact addressEquals_symm hsrc
    | false =>
        have hdrop := onFrame_of_other (s := ⟨c, []⟩) (hr hst) hst hsrc
        have : s.deferred = [] := by
          rw [Op.body, hdrop] at hbody
          cases hbody
          rfl
        rw [this] at hg
        cases hg

/-! ### The second section -/

section decide

variable {c c' : Conn} {f : Frame} {acts : List Action} (h : DecideStep c f c' acts)
include h

/-- The second section always records an answer, to the station in
`remote_addr`. -/
theorem DecideStep.answer : ∃ g, .frame g ∈ acts ∧ g.destination = c.remoteAddr := by
  cases h with
  | refused => exact ⟨_, List.mem_cons_self, rfl⟩
  | accepted => exact ⟨_, List.mem_singleton.mpr rfl, rfl⟩

/-- It leaves a session without a peer exactly if it accepts one. -/
theorem DecideStep.remoteKnown_iff :
    RemoteKnown c' ↔ c.refusePending = true ∨ c.remoteAddrSet = true := by
  cases h with
  | refused hr => exact ⟨fun _ => Or.inl hr, fun _ hne => absurd rfl hne⟩
  | accepted hr =>
      refine ⟨fun hk => Or.inr (hk ?_), fun hk _ => hk.resolve_left (by simp [hr])⟩
      show ConnState.connected ≠ .disconnected
      decide

end decide

/-! ### The law -/

/-- A move that decides about a SABM runs the second section. -/
theorem move_decides {y : Sys} (h : SysInv y) {m : Move} {f : Frame}
    (hd : y.deciding m = some f) : DecideStep y.conn f (y.step m).conn (y.records m) := by
  have hmove := move_cases h m
  generalize (y.step m).conn = c', y.records m = acts at hmove ⊢
  cases hmove with
  | minor hnone => cases hnone.symm.trans hd
  | locked => cases hd
  | decided f' hf hdec =>
      obtain rfl := Option.some.inj (hf.symm.trans hd)
      exact hdec

theorem remoteKnown_step {y : Sys} (h : SysInv y) (hr : RemoteKnown y.conn) {m : Move}
    (hk : y.WindowKept m) : RemoteKnown (y.step m).conn := by
  have hmove := move_cases h m
  generalize (y.step m).conn = c', y.records m = acts at hmove
  cases hmove with
  | minor hd hm => exact hm.remoteKnown hr
  | locked op heap hc hm hp hb hs => exact hs.remote (hm.remoteKnown hr)
  | decided f hf hd => exact hd.remoteKnown_iff.mpr (hk f hf).2

theorem sabmAnswered_of_kept {y : Sys} (h : SysInv y) (hr : RemoteKnown y.conn) {m : Move}
    (hk : y.WindowKept m) : y.SabmAnswered m := by
  intro f g hf hg
  cases hd : y.deciding m with
  | some f' =>
      -- the second section
      have hans : y.answers m = some f' := by
        cases m with
        | call op heap => cases hd
        | _ => exact hd
      obtain rfl := Option.some.inj (hans.symm.trans hf)
      obtain ⟨-, hdst⟩ := (move_decides h hd).frames hg
      rw [hdst]
      exact addressEquals_symm (hk f' hd).1
  | none =>
      cases m with
      | call op heap =>
          have hmove := move_cases h (.call op heap)
          generalize (y.step (.call op heap)).conn = c', y.records (.call op heap) = acts at hmove hg
          cases hmove with
          | minor => cases hg
          | decided f' hf' => cases hf'
          | locked op heap hc hm hp hb hs =>
              cases op with
              | onFrame f' =>
                  simp only [Sys.answers] at hf
                  split_ifs at hf with hsabm
                  cases hf
                  exact hs.sabm_answered hb (hm.remoteKnown hr) hsabm.2 hg
              | _ => cases hf
      | _ => cases hd.symm.trans hf

theorem Sys.ReachableVia.remoteKnown {y : Sys} (h : ReachableVia WindowKept y) :
    RemoteKnown y.conn := by
  induction h with
  | init h =>
      obtain rfl := init_ok h
      exact fun hne => absurd rfl hne
  | step m hk h ih => exact remoteKnown_step h.sysInv ih hk

/-- **The unlocked `on_connect` window.** In a run whose moves all keep the
window, a session has a peer in every state. And from every such state, a move
answers SABMs to their senders, overwrites no session silently and leaves a
peer known, exactly when it keeps the window. -/
theorem connect_window {y : Sys} (h : y.ReachableVia Sys.WindowKept) :
    RemoteKnown y.conn ∧
      ∀ m, (y.SabmAnswered m ∧ y.SessionKept m ∧ RemoteKnown (y.step m).conn) ↔
        y.WindowKept m := by
  have hinv := h.sysInv
  refine ⟨h.remoteKnown, fun m => ⟨?_, fun hk => ⟨?_, ?_, ?_⟩⟩⟩
  · rintro ⟨hans, -, hrem⟩ f hf
    have hdec := move_decides hinv hf
    obtain ⟨g, hg, hdst⟩ := hdec.answer
    have hf' : y.answers m = some f := by
      cases m with
      | call op heap => cases hf
      | _ => exact hf
    refine ⟨addressEquals_symm ?_, hdec.remoteKnown_iff.mp hrem⟩
    rw [← hdst]
    exact hans f g hf' hg
  · exact sabmAnswered_of_kept hinv h.remoteKnown hk
  · intro f hf hst hne
    rw [(hk f hf).1] at hne
    cases hne
  · exact remoteKnown_step hinv h.remoteKnown hk

/-- A SABM from `sampleC` to the connection of `sampleA`. -/
def sampleSabmC : Frame := { sampleSabm with source := sampleC }

/-- `sampleB` has asked for a connection and `on_connect` is running. -/
def sampleAsked : Sys := ({ conn := sampleConn } : Sys).step (.call (.onFrame sampleSabm) false)

theorem sys_init_sample {ok : Sys → Move → Prop} : Sys.ReachableVia ok { conn := sampleConn } :=
  @Sys.ReachableVia.init ok ⟨true, true, .ok, true, .ok, .ok, .ok⟩ sampleA
    ⟨true, true, true, true, true, true, true⟩ none sampleConn rfl

theorem connect_window_asked :
    sampleAsked.deciding (.relock 0) = some sampleSabm ∧ sampleAsked.SabmAnswered (.relock 0) := by
  refine ⟨by decide, ?_⟩
  have hreach : sampleAsked.ReachableVia Sys.WindowKept :=
    .step _ (fun f hf => by cases hf) sys_init_sample
  refine (((connect_window hreach).2 (.relock 0)).mpr fun f hf => ?_).1
  obtain rfl : sampleSabm = f := Option.some.inj hf
  exact ⟨by decide, Or.inr (by decide)⟩

/-- While `on_connect` decides about `sampleB`, `sampleC` calls, is accepted and
is sent a payload. Then the answer to `sampleB` goes to `sampleC`, whose session
is reset without notice. -/
theorem second_caller_answered_and_reset :
    let y := sampleAsked.run
      [.call (.onFrame sampleSabmC) false, .relock 1, .call (.sendData [1]) true]
    y.Reachable ∧ y.conn.state = .connected ∧ y.conn.remoteAddr = sampleC ∧
      ¬ y.SabmAnswered (.relock 0) ∧ ¬ y.SessionKept (.relock 0) := by
  refine ⟨Sys.Reachable.run (.step _ trivial sys_init_sample) _, by decide, by decide,
    fun h => ?_, fun h => ?_⟩
  · have hg := h sampleSabm (outFrame { sampleConn with remoteAddr := sampleC } false .u
      (ctrlUa ||| pfBits true)) (by decide) (by decide)
    exact absurd hg (by decide)
  · rcases h sampleSabm (by decide) (by decide) (by decide) with h | h
    · -- the payload is no longer in the window
      exact absurd (congrArg Conn.vs h) (by decide)
    · exact absurd h (by decide)

end EspAx25
