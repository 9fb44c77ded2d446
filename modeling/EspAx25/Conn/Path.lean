import EspAx25.Conn.Poll

/-!
# EspAx25.Conn.Path

The digipeater path of a session.

A SABM that opens or resets a link leaves its own path in the context, and every
frame of the session is sent over the path in the context, until the session
ends or another SABM takes its place (`SectionStep.path`, `SessionRun.path`). The
path is stored in the order in which the SABM travelled. A relay repeats a frame
when it is the first that has not yet done so, so the frames of the session have
to visit the relays the other way round: they do iff the path reads the same in
both directions (`reply_path_iff`).
-/

namespace EspAx25

open Cyclic Conn Locked

/-! ### The path of a session -/

/-- A digipeater as `set_conn_path` stores it. -/
def Address.hop (d : Address) : Address := { d with hasBeenRepeated := false, isLast := false }

/-- The digipeaters of `f`, last one first, with all H bits clear. -/
def Frame.reversePath (f : Frame) : List Address := (f.digipeaters.map Address.hop).reverse

/-- A SABM whose path the connection takes over: it is not answered with DM. -/
def Adopts (c : Conn) (f : Frame) : Prop :=
  f.type = .u ∧ f.uType = ctrlSabm ∧ c.state ≠ .awaitingRelease

/-- The event delivers a SABM of the peer that replaces the path. -/
def ReplacesPath (c : Conn) : Event → Prop
  | .call (.onFrame f) _ _ => ¬ Foreign c f ∧ Adopts c f
  | _ => False

/-- The events of one session: it lasts, and no other SABM is accepted. -/
inductive SessionRun : Conn → List Event → Prop
  | nil (c : Conn) : SessionRun c []
  | cons {c : Conn} (e : Event) {es : List Event} : c.state ≠ .disconnected →
      ¬ ReplacesPath c e → SessionRun (c.step e).conn es → SessionRun c (e :: es)

theorem Emits.path {c : Conn} {g : Frame} (h : Emits c (.frame g)) : g.digipeaters = c.path := by
  generalize ha : Action.frame g = a at h
  cases h <;> cases ha <;> rfl

theorem path_uFrame {c : Conn} {cmd pf : Bool} {ctrl : Byte} {g : Frame}
    (h : Action.frame g = c.uFrame cmd ctrl pf) : g.digipeaters = c.path := by
  cases h
  rfl

theorem Received.path {s s₁ : Locked} {f : Frame} (h : Received s f s₁) :
    s₁.conn.path = s.conn.path := by
  cases h with
  | ack => rfl
  | data => rw [consume_conn]; rfl

/-- A section within a session keeps the path, unless it ends the session, and
sends everything over it. -/
theorem SectionStep.path {c : Conn} {op : Op} {s : Locked} {o : Outcome}
    (h : SectionStep c op s o) (hst : c.state ≠ .disconnected)
    (hno : ∀ f, op = .onFrame f → ¬ Adopts c f) :
    (s.conn.path = c.path ∨ s.conn.state = .disconnected) ∧
      ∀ g, .frame g ∈ s.deferred → g.digipeaters = c.path := by
  cases h with
  | request f hd => exact absurd hd hst
  | reject f => exact ⟨Or.inl rfl, fun g hg => path_uFrame (List.mem_singleton.mp hg)⟩
  | collision f hac hu hsabm => exact absurd ⟨hu, hsabm, by rw [hac]; decide⟩ (hno f rfl)
  | relink f hl hu hsabm =>
      exact absurd ⟨hu, hsabm, by rcases hl with h | h <;> rw [h] <;> decide⟩ (hno f rfl)
  | teardown pre hne hlen hf =>
      refine ⟨Or.inr rfl, fun g hg => ?_⟩
      have hg : Action.frame g ∈ pre := by simpa using hg
      generalize ha : Action.frame g = a at hg
      cases hf a hg with
      | error => cases ha
      | ua pf | dm pf => exact path_uFrame ha
  | reestablish f c₀ msg ret hl hc =>
      have hpath : c₀.reestablishing.path = c.path := by
        rcases hc with ⟨-, -, rfl, -⟩ | ⟨-, -, rfl, -⟩ <;> rfl
      refine ⟨Or.inl hpath, fun g hg => ?_⟩
      have hg : Action.frame g = c.uFrame true ctrlSabm true := by simpa using hg
      exact path_uFrame hg
  | data f hl hty hv hr ht hd =>
      refine ⟨Or.inl (ht.link.path.trans hr.path), fun g hg => ?_⟩
      obtain ⟨l, hl', hem⟩ := ht.emits
      rw [hl'] at hg
      rcases List.mem_append.mp hg with hg | hg
      · exact absurd (hr.no_frame hg) (by simp)
      · exact (hem _ hg).path.trans hr.path
  | dial a ds hd => exact absurd hd hst
  | send data hl h₀ h₁ hq ht hs =>
      obtain ⟨-, -, rfl⟩ := queueIFrame_ok hq
      refine ⟨Or.inl ht.link.path, fun g hg => ?_⟩
      obtain ⟨l, hl', hem⟩ := ht.emits
      rw [hl'] at hg
      exact (hem _ hg).path
  | busyOn | busyOff | poll | t3Poll =>
      exact ⟨Or.inl rfl, fun g hg => by cases List.mem_singleton.mp hg; rfl⟩
  | release | retry =>
      exact ⟨Or.inl rfl, fun g hg => path_uFrame (List.mem_singleton.mp hg)⟩
  | t2Ack a hl hp he =>
      refine ⟨Or.inl rfl, fun g hg => ?_⟩
      rw [← List.mem_singleton.mp hg] at he
      exact he.path
  | _ => exact ⟨Or.inl rfl, fun g hg => by cases hg⟩

theorem afterOnConnect_path (c : Conn) (refuses : Bool) :
    (c.afterOnConnect refuses).path = c.path := by
  unfold Conn.afterOnConnect refuse
  split_ifs <;> rfl

/-- One event of a session. -/
theorem step_path {c : Conn} (h : SeqInv c) (hst : c.state ≠ .disconnected) {e : Event}
    (hno : ¬ ReplacesPath c e) :
    ((c.step e).conn.path = c.path ∨ (c.step e).conn.state = .disconnected) ∧
      ∀ g, .frame g ∈ (c.step e).out → g.digipeaters = c.path := by
  cases e with
  | call op heap refuses =>
      by_cases hfor : ∃ f, op = .onFrame f ∧ Foreign c f
      · obtain ⟨f, rfl, hf⟩ := hfor
        rw [step_foreign h hst hf]
        exact ⟨Or.inl rfl, by simp⟩
      have hc := call_cases h op heap refuses
      obtain ⟨t1, t2, t3, ht⟩ := consumeExpiry_cases op c
      rw [ht] at hc
      have hadopt : ∀ f, op = .onFrame f → ¬ Adopts c f := by
        rintro f rfl ha
        exact hno ⟨fun hf => hfor ⟨f, rfl, hf⟩, ha⟩
      generalize c.step (.call op heap refuses) = r at hc
      cases hc with
      | early => exact ⟨Or.inl rfl, by simp⟩
      | returned ret hp hsec => exact hsec.path hst hadopt
      | told hp hsec =>
          obtain ⟨hpath, hframes⟩ := hsec.path hst hadopt
          refine ⟨hpath.imp (afterOnConnect_path _ _).trans (afterOnConnect_state _ _).trans,
            fun g hg => ?_⟩
          rcases List.mem_append.mp hg with hg | hg
          · exact absurd hg (onConnectCall_no_frame _ _ _)
          · exact hframes g hg
      | asked f hop hp hd => exact absurd hd hst
  | refuse =>
      simp only [Conn.step, refuse, h.initialized, Bool.not_true, Bool.false_eq_true, if_false]
      exact ⟨Or.inl trivial, by simp⟩
  | fire t => cases t <;> exact ⟨Or.inl rfl, by simp [Conn.step]⟩

/-- **One session, one path.** -/
theorem SessionRun.path {c : Conn} {es : List Event} (hr : SessionRun c es) (h : SeqInv c) :
    ∀ g, .frame g ∈ (c.run es).2 → g.digipeaters = c.path := by
  induction hr with
  | nil c => simp
  | cons e hst hno hr ih =>
      intro g hg
      obtain ⟨hpath, hframes⟩ := step_path h hst hno
      rcases List.mem_append.mp hg with hg | hg
      · exact hframes g hg
      · rcases hpath with hpath | hend
        · exact (ih (h.step e) g hg).trans hpath
        · -- the session is over, and so is its run
          cases hr with
          | nil => cases hg
          | cons e' hst' => exact absurd hend hst'

/-! ### The SABM that sets it -/

/-- `on_frame` accepts the SABM `f`, with `on_connect` answering `refuses` to
one that finds no session. -/
structure AcceptsSabm (c : Conn) (f : Frame) (refuses : Bool) : Prop where
  type : f.type = .u
  uType : f.uType = ctrlSabm
  path : f.digipeaters.length ≤ maxDigipeaters
  checks : (Op.onFrame f).precheck c = none
  state : c.state = .disconnected ∧ (c.callbacks.onConnect && refuses) = false ∨
    (c.state = .awaitingConnection ∨ c.Linked) ∧ ¬ Foreign c f

theorem adopt_path {c : Conn} {f : Frame} (h : f.digipeaters.length ≤ maxDigipeaters) :
    (c.adopt f).path = f.digipeaters.map Address.hop := by
  unfold adopt setConnPathFromFrame setConnPath
  rw [if_neg (by omega)]
  rfl

/-- Without a session the SABM is left to `on_connect`. -/
theorem disconnected_sabm {c : Conn} {f : Frame} (hu : f.type = .u) (hsabm : f.uType = ctrlSabm) :
    handleFrameDisconnected ⟨c, []⟩ f = (⟨c.requested f, []⟩, .onConnect false (.decide f)) := by
  simp only [handleFrameDisconnected, hu, hsabm, if_true, requested, adopt, invokeOnConnect,
    Locked.modify]

/-- The collision of two SABMs. -/
theorem awaitingConnection_sabm {c : Conn} {f : Frame} (hu : f.type = .u)
    (hsabm : f.uType = ctrlSabm) :
    handleFrameAwaitingConnection ⟨c, []⟩ f =
      (⟨{ (c.adopt f).linkUp with isLocalInitiated := true, refusePending := false },
        [(c.adopt f).uFrame false ctrlUa f.pf]⟩, .onConnect true .finish) := by
  have hua : ctrlSabm ≠ ctrlUa := by decide
  have hdm : ctrlSabm ≠ ctrlDm := by decide
  simp only [handleFrameAwaitingConnection, hu, hsabm, hua, hdm, if_true, if_false, linkUp, cleared,
    adopt, uFrame, outFrame, invokeOnConnect, Locked.modify, resetStateVars, clearTxQueue,
    stopTimerT1, startTimerT3, sendUa, sendUFrame, sendFrameInternal_nil]

/-- In the connected state the application is told first. -/
theorem connected_sabm {c : Conn} {f : Frame} (hst : c.state = .connected) (hu : f.type = .u)
    (hsabm : f.uType = ctrlSabm) :
    (dataHandler ⟨c, []⟩ f).1 =
      ⟨(c.adopt f).linkUp, [.linkReset, (c.adopt f).uFrame false ctrlUa f.pf]⟩ := by
  have hadopt : (c.adopt f).state = .connected := by
    obtain ⟨p, hp⟩ := adopt_eq c f
    rw [hp]
    exact hst
  rw [linkUp_of_connected hadopt]
  simp only [dataHandler, hst, if_true, handleFrameConnected, hu, connectedU, hsabm, adopt, uFrame,
    outFrame, Locked.modify, resetStateVars, clearTxQueue, stopTimerT1, startTimerT3,
    deferOnLinkReset, deferAction_nil, sendUa, sendUFrame, sendFrameInternal_one]

/-- An accepted SABM leaves its own path, answers with a UA over it, and sends
nothing else. -/
structure SetsPath (f : Frame) (r : Result) : Prop where
  path : r.conn.path = f.digipeaters.map Address.hop
  ua : ∃ g, .frame g ∈ r.out ∧ g.type = .u ∧ g.control = ctrlUa ||| pfBits f.pf
  frames : ∀ g, .frame g ∈ r.out → g.digipeaters = f.digipeaters.map Address.hop

theorem requested_refusePending (c : Conn) (f : Frame) (refuses : Bool) :
    ((c.requested f).afterOnConnect refuses).refusePending =
      (c.callbacks.onConnect && refuses && c.initialized) := by
  obtain ⟨p, hp⟩ := adopt_eq { c with remoteAddr := f.source, remoteAddrSet := true } f
  simp only [requested, hp, Conn.afterOnConnect, refuse]
  cases c.callbacks.onConnect <;> cases refuses <;> cases c.initialized <;> rfl

theorem step_accepts {c : Conn} (h : SeqInv c) {f : Frame} {refuses : Bool}
    (ha : AcceptsSabm c f refuses) (heap : Bool) :
    SetsPath f (c.step (.call (.onFrame f) heap refuses)) := by
  obtain ⟨hu, hsabm, hlen, hp, hst⟩ := ha
  -- the batch of an accepting section: a UA over the adopted path
  have hua : ∀ (c₁ : Conn) (pre : List Action), c₁.path = f.digipeaters.map Address.hop →
      (∀ g, .frame g ∉ pre) → ∀ r : Result, r.conn.path = c₁.path →
      r.out = pre ++ [c₁.uFrame false ctrlUa f.pf] → SetsPath f r := by
    intro c₁ pre hpath hpre r hr hout
    refine ⟨hr.trans hpath, ⟨_, hout ▸ List.mem_append_right pre (List.mem_singleton.mpr rfl), rfl,
      rfl⟩, fun g hg => ?_⟩
    rw [hout] at hg
    rcases List.mem_append.mp hg with hg | hg
    · exact absurd hg (hpre g)
    · exact (path_uFrame (List.mem_singleton.mp hg)).trans hpath
  have hnot : ctrlSabm ≠ ctrlUa := by decide
  rcases hst with ⟨hd, href⟩ | ⟨hac | hl, hf⟩
  · have hc : CallStep c (.onFrame f) refuses _ := call_cases h (.onFrame f) heap refuses
    generalize c.step (.call (.onFrame f) heap refuses) = r at hc
    cases hc with
    | early ret he => cases hp.symm.trans he
    | returned ret _ _ hbody =>
        have hd' : c.taken.state = .disconnected := hd
        simp [Op.body, Locked.onFrame, hd', disconnected_sabm hu hsabm] at hbody
    | told _ hsec =>
        cases hsec with
        | opened f h | collision f h => cases hd.symm.trans h
    | asked f' hop _ _ _ _ hdec =>
        cases hop
        have hpath : ((c.taken.requested f).afterOnConnect refuses).path =
            f.digipeaters.map Address.hop := by
          rw [afterOnConnect_path]
          exact adopt_path hlen
        have hpending : ((c.taken.requested f).afterOnConnect refuses).refusePending = false := by
          rw [requested_refusePending]
          simp only [taken, href, Bool.false_and]
        cases hdec with
        | refused hr => cases hpending.symm.trans hr
        | accepted =>
            exact hua _ _ hpath (onConnectCall_no_frame _ _) _ rfl rfl
  · have hsrc : ¬ (c.taken.remoteAddrSet = true ∧ c.taken.state ≠ .disconnected ∧
        (!addressEquals f.source c.taken.remoteAddr) = true) := by
      rintro ⟨-, -, hne⟩
      have hne : (!addressEquals f.source c.remoteAddr) = true := hne
      exact hf (Or.inr (Or.inr (Or.inr (by simpa using hne))))
    have hc : CallStep c (.onFrame f) refuses _ := call_cases h (.onFrame f) heap refuses
    generalize c.step (.call (.onFrame f) heap refuses) = r at hc
    cases hc with
    | early ret he => cases hp.symm.trans he
    | returned ret _ _ hbody =>
        have hac' : c.taken.state = .awaitingConnection := hac
        rw [Op.body, Locked.onFrame, if_neg hsrc] at hbody
        simp [hac', awaitingConnection_sabm hu hsabm] at hbody
    | told _ hsec =>
        cases hsec with
        | opened f _ _ hopen => exact absurd (hsabm.symm.trans hopen) hnot
        | collision f =>
            refine hua (c.taken.adopt f) _ (adopt_path hlen) (onConnectCall_no_frame _ _) _ ?_ rfl
            exact afterOnConnect_path _ refuses
    | asked f' _ _ hd => cases hac.symm.trans hd
  · rw [step_linked h hl hf]
    rcases hl with hst | hst
    · rw [connected_sabm (c := c.taken) hst hu hsabm]
      exact hua (c.taken.adopt f) [.linkReset] (adopt_path hlen) (by simp) _ rfl rfl
    · rw [dataHandler_relink (c := c.taken) hst hu hsabm]
      exact hua (c.taken.adopt f) [] (adopt_path hlen) (by simp) _ rfl rfl

/-- The UA and every later frame of the session that `f` opens or resets visit
its digipeaters in the reverse order, with all H bits clear. -/
def RepliesReversed (c : Conn) (f : Frame) (heap refuses : Bool) : Prop :=
  ∀ es, SessionRun (c.step (.call (.onFrame f) heap refuses)).conn es →
    ∀ g, .frame g ∈ (c.run (.call (.onFrame f) heap refuses :: es)).2 →
      g.digipeaters = f.reversePath

/-- **The reply path** is the reverse of the request path iff the request path
reads the same in both directions. -/
theorem reply_path_iff {c : Conn} (h : Reachable c) {f : Frame} {refuses : Bool}
    (ha : AcceptsSabm c f refuses) (heap : Bool) :
    RepliesReversed c f heap refuses ↔ f.reversePath = f.digipeaters.map Address.hop := by
  obtain ⟨hpath, ⟨ua, hua, -⟩, hframes⟩ := step_accepts h.seqInv ha heap
  constructor
  · intro hr
    have hrev := hr [] (.nil _) ua (by rw [run_cons]; exact List.mem_append_left _ hua)
    exact hrev.symm.trans (hframes ua hua)
  · intro hpal es hrun g hg
    rw [hpal]
    rcases List.mem_append.mp hg with hg | hg
    · exact hframes g hg
    · exact (hrun.path (h.seqInv.step _) g hg).trans hpath

/-- A SABM from `sampleB` that the stations of `via` have repeated. -/
def sampleSabmVia (via : List Address) : Frame :=
  { sampleSabm with digipeaters := via.map fun d => { d with hasBeenRepeated := true } }

/-- One relay: the path is its own reverse. -/
theorem reply_path_one :
    AcceptsSabm sampleConn (sampleSabmVia [sampleC]) false ∧
      RepliesReversed sampleConn (sampleSabmVia [sampleC]) false false :=
  have ha : AcceptsSabm sampleConn (sampleSabmVia [sampleC]) false :=
    ⟨rfl, by decide, by decide, by decide, Or.inl ⟨rfl, rfl⟩⟩
  ⟨ha, (reply_path_iff reachable_sampleConn ha false).mpr (by decide)⟩

/-- Two relays, the second one after `sampleC`: the UA asks for `sampleC` first. -/
theorem reply_path_not_reversed :
    Reachable sampleConn ∧
      AcceptsSabm sampleConn (sampleSabmVia [sampleC, { sampleC with ssid := 1 }]) false ∧
      ¬ RepliesReversed sampleConn (sampleSabmVia [sampleC, { sampleC with ssid := 1 }])
        false false := by
  refine ⟨reachable_sampleConn,
    ⟨rfl, by decide, by decide, by decide, Or.inl ⟨rfl, rfl⟩⟩, fun hr => ?_⟩
  have hua : ∃ g, Action.frame g ∈ (sampleConn.run [.call
      (.onFrame (sampleSabmVia [sampleC, { sampleC with ssid := 1 }])) false false]).2 ∧
      g.digipeaters = [sampleC, { sampleC with ssid := 1 }] :=
    ⟨{ frameInit with
        destination := sampleB, source := sampleA
        digipeaters := [sampleC, { sampleC with ssid := 1 }]
        type := .u, control := ctrlUa ||| pfBits true }, by decide, rfl⟩
  obtain ⟨g, hg, hd⟩ := hua
  have hrev := hr [] (.nil _) g hg
  rw [hd] at hrev
  exact absurd hrev (by decide)

end EspAx25
