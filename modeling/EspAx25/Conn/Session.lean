import EspAx25.Conn.Window

/-!
# EspAx25.Conn.Session

The sequential machine, one step at a time, and the laws of a session that
follow from it.

* `CallStep` is the inversion lemma for a whole call (`call_cases`): the first
  locked section, `on_connect`, the second section, and the buffer given back.
* `SeqInv` holds between any two calls: the window, a free buffer pool, and a
  known peer whenever there is a session.
* With it, frames that do not belong to the session change nothing
  (`step_foreign`), in any run (`run_insert_foreign`).
-/

namespace EspAx25

open Cyclic Conn Locked

/-! ### The invariant between calls -/

namespace Conn

/-- The context with all pooled buffers free. -/
def unpooled (c : Conn) : Conn := { c with deferredPoolInUse := fun _ => false }

end Conn

/-- What holds between two calls of a connection whose calls do not overlap. -/
structure SeqInv (c : Conn) : Prop where
  initialized : c.initialized = true
  cookie : c.magicCookie = liveCookie
  pool : c.deferredPoolInUse = fun _ => false
  window : WindowInv c
  remote : c.state ≠ .disconnected → c.remoteAddrSet = true

theorem acquireDeferred_of_free {c : Conn} (h : c.deferredPoolInUse = fun _ => false)
    (heap : Bool) : c.acquireDeferred heap = some (.pool 0, c.taken) := by
  unfold acquireDeferred taken
  rw [h]
  rfl

theorem release_pool {c : Conn} (hi : c.initialized = true) (hc : c.magicCookie = liveCookie)
    (hp : c.deferredPoolInUse = Function.update (fun _ => false) 0 true) :
    c.release (some (.pool 0)) = c.unpooled := by
  simp only [release, releaseDeferred, hi, hc, Bool.not_true, bne_self_eq_false, Bool.or_self,
    Bool.false_eq_true, if_false, unpooled, hp, Function.update_idem, Conn.mk.injEq, true_and,
    and_true]
  funext i
  by_cases h : i = 0 <;> simp [h]

/-! ### One call -/

/-- Everything that a complete call can do. `c` is the context that the call
finds, a timer callback having consumed its expiry. -/
inductive CallStep (c : Conn) (op : Op) (refuses : Bool) : Result → Prop
  /-- The call returns before it takes the mutex. -/
  | early (ret : EspErr) : op.precheck c = some ret → CallStep c op refuses ⟨c, [], ret⟩
  /-- One locked section. -/
  | returned {s : Locked} (ret : EspErr) : op.precheck c = none →
      SectionStep c.taken op s (.returned ret) → op.body ⟨c.taken, []⟩ = (s, .returned ret) →
      CallStep c op refuses ⟨s.conn.unpooled, s.deferred, ret⟩
  /-- `on_connect` is told about a connection of ours. -/
  | told {s : Locked} : op.precheck c = none →
      SectionStep c.taken op s (.onConnect true .finish) →
      CallStep c op refuses
        ⟨(s.conn.afterOnConnect refuses).unpooled, s.conn.onConnectCall true ++ s.deferred, .ok⟩
  /-- `on_connect` is asked about a SABM. -/
  | asked (f : Frame) {c' : Conn} {acts : List Action} : op = .onFrame f →
      op.precheck c = none → c.state = .disconnected → f.type = .u → f.uType = ctrlSabm →
      DecideStep ((c.taken.requested f).afterOnConnect refuses) f c' acts →
      CallStep c op refuses
        ⟨c'.unpooled, (c.taken.requested f).onConnectCall false ++ acts, .ok⟩

theorem afterOnConnect_static (c : Conn) (refuses : Bool) :
    SameStatic c (c.afterOnConnect refuses) := by
  unfold afterOnConnect refuse
  split_ifs <;> exact ⟨rfl, rfl, rfl, rfl, rfl, rfl⟩

/-- A callback that consumes its expiry keeps everything but its timer. -/
theorem consumeExpiry_cases (op : Op) (c : Conn) :
    ∃ t1 t2 t3, op.consumeExpiry c = { c with timerT1 := t1, timerT2 := t2, timerT3 := t3 } := by
  cases op <;> exact ⟨_, _, _, rfl⟩

theorem SeqInv.timers {c : Conn} (h : SeqInv c) (t1 t2 t3 : Timer) :
    SeqInv { c with timerT1 := t1, timerT2 := t2, timerT3 := t3 } :=
  ⟨h.initialized, h.cookie, h.pool, h.window.congr rfl rfl rfl rfl rfl, h.remote⟩

theorem SeqInv.consumeExpiry {c : Conn} (h : SeqInv c) (op : Op) : SeqInv (op.consumeExpiry c) := by
  obtain ⟨t1, t2, t3, ht⟩ := consumeExpiry_cases op c
  rw [ht]
  exact h.timers t1 t2 t3

/-- The two ways in which a section ends with `on_connect`. -/
theorem SectionStep.onConnect_cases {c : Conn} {op : Op} {s : Locked} {b : Bool} {r : Resume}
    (h : SectionStep c op s (.onConnect b r)) :
    (b = true ∧ r = .finish) ∨
      ∃ f, op = .onFrame f ∧ c.state = .disconnected ∧ f.type = .u ∧ f.uType = ctrlSabm ∧
        s = ⟨c.requested f, []⟩ ∧ b = false ∧ r = .decide f := by
  cases h with
  | request f hst hu hsabm => exact Or.inr ⟨f, rfl, hst, hu, hsabm, rfl, rfl, rfl⟩
  | opened => exact Or.inl ⟨rfl, rfl⟩
  | collision => exact Or.inl ⟨rfl, rfl⟩

/-- **Inversion of a call.** -/
theorem call_cases {c : Conn} (h : SeqInv c) (op : Op) (heap refuses : Bool) :
    CallStep (op.consumeExpiry c) op refuses (c.step (.call op heap refuses)) := by
  simp only [Conn.step, Op.call]
  have h := h.consumeExpiry op
  generalize op.consumeExpiry c = c at h ⊢
  cases hp : op.precheck c with
  | some ret => exact .early ret hp
  | none =>
      simp only [Conn.locked, acquireDeferred_of_free h.pool]
      have hp' : op.precheck c.taken = none := by cases op <;> exact hp
      have hsec := section_cases hp' h.window.va_lt h.window.vs_lt
      -- the buffer given back by a context that kept its static part
      have hrel : ∀ {c' : Conn}, SameStatic c.taken c' → c'.release (some (.pool 0)) = c'.unpooled :=
        fun hs => release_pool (hs.initialized.trans h.initialized) (hs.cookie.trans h.cookie) hs.pool
      generalize hbody : op.body ⟨c.taken, []⟩ = r at hsec ⊢
      obtain ⟨s, o⟩ := r
      cases o with
      | returned ret =>
          simp only [Call.settle, hrel hsec.static]
          exact .returned ret hp hsec hbody
      | onConnect b rest =>
          simp only [Call.settle]
          have hstatic := hsec.static.trans (afterOnConnect_static s.conn refuses)
          obtain ⟨rfl, rfl⟩ | ⟨f, rfl, hst, hu, hsabm, rfl, rfl, rfl⟩ := hsec.onConnect_cases
          · simp only [Locked.resume, hrel hstatic]
            exact .told hp hsec
          · have hd := decide_cases ((c.taken.requested f).afterOnConnect refuses) f
            simp only [Locked.resume, hrel (hstatic.trans hd.static)]
            exact .asked f rfl hp hst hu hsabm hd

/-! ### The invariant is kept -/

/-- Which sections leave a session, a known peer, or neither. -/
theorem SectionStep.remote {c : Conn} {op : Op} {s : Locked} {o : Outcome}
    (h : SectionStep c op s o) (hr : c.state ≠ .disconnected → c.remoteAddrSet = true)
    (hs : s.conn.state ≠ .disconnected) : s.conn.remoteAddrSet = true := by
  have hlinked : c.Linked → c.remoteAddrSet = true := by
    rintro (h | h) <;> exact hr (by rw [h]; decide)
  cases h with
  | request f hst =>
      obtain ⟨p, hp⟩ := adopt_eq { c with remoteAddr := f.source, remoteAddrSet := true } f
      simp only [requested, hp]
  | collision f hst =>
      obtain ⟨p, hp⟩ := adopt_eq c f
      rw [hp]
      exact hr (by rw [hst]; decide)
  | relink f hl =>
      obtain ⟨p, hp⟩ := adopt_eq c f
      rw [hp]
      exact hlinked hl
  | opened f hst => exact hr (by rw [hst]; decide)
  | teardown pre => exact absurd rfl hs
  | reestablish f c₀ msg ret hl hc =>
      rcases hc with ⟨-, -, rfl, -⟩ | ⟨-, -, rfl, -⟩ <;> exact hlinked hl
  | data f hl hty hv hrec ht hd =>
      rw [ht.link.remoteAddrSet]
      cases hrec with
      | ack => exact hlinked hl
      | data => rw [consume_conn]; exact hlinked hl
  | dial => rfl
  | send data hl h₀ h₁ hq ht hsend =>
      rw [ht.link.remoteAddrSet]
      obtain ⟨-, -, rfl⟩ := queueIFrame_ok hq
      exact hlinked hl
  | release hd => exact hr hd
  | poll r hl => exact hlinked hl
  | t3Poll hst => exact hlinked (Or.inl hst)
  | retry => exact hr hs
  | _ => exact hr hs

theorem DecideStep.remote {c c' : Conn} {f : Frame} {acts : List Action}
    (h : DecideStep c f c' acts) (hr : c.remoteAddrSet = true) (hs : c'.state ≠ .disconnected) :
    c'.remoteAddrSet = true := by
  cases h with
  | refused => exact absurd rfl hs
  | accepted => exact hr

theorem WindowInv.afterOnConnect {c : Conn} (h : WindowInv c) (refuses : Bool) :
    WindowInv (c.afterOnConnect refuses) := by
  unfold Conn.afterOnConnect refuse
  split_ifs
  · exact h
  · exact h.congr rfl rfl rfl rfl rfl
  · exact h

theorem afterOnConnect_remoteAddrSet (c : Conn) (refuses : Bool) :
    (c.afterOnConnect refuses).remoteAddrSet = c.remoteAddrSet := by
  unfold Conn.afterOnConnect refuse
  split_ifs <;> rfl

theorem afterOnConnect_state (c : Conn) (refuses : Bool) :
    (c.afterOnConnect refuses).state = c.state := by
  unfold Conn.afterOnConnect refuse
  split_ifs <;> rfl

theorem requested_remoteAddrSet (c : Conn) (f : Frame) : (c.requested f).remoteAddrSet = true := by
  obtain ⟨p, hp⟩ := adopt_eq { c with remoteAddr := f.source, remoteAddrSet := true } f
  simp only [requested, hp]

theorem CallStep.seqInv {c : Conn} {op : Op} {refuses : Bool} {r : Result} (h : SeqInv c)
    (hc : CallStep c op refuses r) : SeqInv r.conn := by
  have hwin : WindowInv c.taken := h.window.congr rfl rfl rfl rfl rfl
  cases hc with
  | early => exact h
  | @returned s ret hp hs =>
      have hst := hs.static
      exact ⟨hst.initialized.trans h.initialized, hst.cookie.trans h.cookie, rfl,
        (hs.window hwin).congr rfl rfl rfl rfl rfl, hs.remote h.remote⟩
  | @told s hp hs =>
      have hst := hs.static.trans (afterOnConnect_static s.conn refuses)
      refine ⟨hst.initialized.trans h.initialized, hst.cookie.trans h.cookie, rfl,
        ((hs.window hwin).afterOnConnect refuses).congr rfl rfl rfl rfl rfl, fun hne => ?_⟩
      rw [show (s.conn.afterOnConnect refuses).unpooled.remoteAddrSet =
        (s.conn.afterOnConnect refuses).remoteAddrSet from rfl, afterOnConnect_remoteAddrSet]
      exact hs.remote h.remote ((afterOnConnect_state _ _).symm.trans_ne hne)
  | asked f hop hp hd hu hsabm hdec =>
      have hreq := SectionStep.request (c := c.taken) f hd hu hsabm
      have hst := (hreq.static.trans (afterOnConnect_static _ refuses)).trans hdec.static
      refine ⟨hst.initialized.trans h.initialized, hst.cookie.trans h.cookie, rfl,
        (hdec.window ((hreq.window hwin).afterOnConnect refuses)).congr rfl rfl rfl rfl rfl,
        hdec.remote ?_⟩
      rw [afterOnConnect_remoteAddrSet, requested_remoteAddrSet]

theorem seqInv_refuse {c : Conn} (h : SeqInv c) : SeqInv c.refuse.1 := by
  simp only [refuse, h.initialized, Bool.not_true, Bool.false_eq_true, if_false]
  exact ⟨rfl, h.cookie, h.pool, h.window.congr rfl rfl rfl rfl rfl, h.remote⟩

theorem SeqInv.step {c : Conn} (h : SeqInv c) (e : Event) : SeqInv (c.step e).conn := by
  cases e with
  | call op heap refuses => exact (call_cases h op heap refuses).seqInv (h.consumeExpiry op)
  | refuse => exact seqInv_refuse h
  | fire t => cases t <;> exact h.timers _ _ _

/-- A successful `ax25_conn_init` gives the fresh context. -/
theorem init_ok {res : InitResources} {a : Address} {cb : Callbacks} {cfg : Option Config}
    {c : Conn} (h : Conn.init res a cb cfg = .ok c) :
    c = Conn.fresh a cb (cfg.getD Config.default).normalize := by
  unfold Conn.init at h
  split_ifs at h
  cases h
  rfl

theorem seqInv_fresh (a : Address) (cb : Callbacks) (cfg : Config) :
    SeqInv (Conn.fresh a cb cfg.normalize) :=
  ⟨rfl, rfl, rfl, windowInv_fresh a cb cfg, fun h => absurd rfl h⟩

theorem Reachable.seqInv {c : Conn} (h : Reachable c) : SeqInv c := by
  induction h with
  | init h => rw [init_ok h]; exact seqInv_fresh _ _ _
  | step e _ ih => exact ih.step e

/-! ### Session isolation -/

/-- The frame does not belong to the session: it is a UI frame, is for another
station, is still on its way through a digipeater, or comes from a station that
is not the peer. -/
def Foreign (c : Conn) (f : Frame) : Prop :=
  f.type = .ui ∨ addressEquals f.destination c.localAddr = false ∨
    (∃ d ∈ f.digipeaters, d.hasBeenRepeated = false) ∨
    addressEquals f.source c.remoteAddr = false

instance (c : Conn) (f : Frame) : Decidable (Foreign c f) := inferInstanceAs (Decidable (_ ∨ _))

/-- The source filter: a frame that passes the checks without the mutex, and is
not from the peer, is dropped under it. -/
theorem onFrame_of_other {s : Locked} {f : Frame} (hset : s.conn.remoteAddrSet = true)
    (hst : s.conn.state ≠ .disconnected) (hf : addressEquals f.source s.conn.remoteAddr = false) :
    s.onFrame f = (s, .returned .ok) := by
  unfold onFrame
  rw [if_pos ⟨hset, hst, by rw [hf]; rfl⟩]

/-- A frame that passes the checks made without the mutex. -/
theorem precheck_onFrame {c : Conn} {f : Frame} (h : (Op.onFrame f).precheck c = none) :
    f.type ≠ .ui ∧ addressEquals f.destination c.localAddr = true ∧
      ∀ d ∈ f.digipeaters, d.hasBeenRepeated = true := by
  simp only [Op.precheck] at h
  split_ifs at h with h₁ h₂ h₃ h₄
  refine ⟨h₂, by simpa using h₃, fun d hd => ?_⟩
  by_contra hr
  exact h₄ (List.any_eq_true.mpr ⟨d, hd, by simpa using hr⟩)

/-- One that does not is accepted and dropped. -/
theorem precheck_onFrame_some {c : Conn} {f : Frame} {ret : EspErr} (hi : c.initialized = true)
    (h : (Op.onFrame f).precheck c = some ret) : ret = .ok := by
  simp only [Op.precheck, hi] at h
  split_ifs at h <;> simp_all

theorem precheck_of_not_foreign {c : Conn} {f : Frame} (hi : c.initialized = true)
    (hf : ¬ Foreign c f) : (Op.onFrame f).precheck c = none := by
  simp only [Foreign, not_or, not_exists, not_and, Bool.not_eq_false] at hf
  obtain ⟨hui, hdst, hrep, -⟩ := hf
  have hany : ¬ f.digipeaters.any (fun d => !d.hasBeenRepeated) = true := by
    intro h
    obtain ⟨d, hd, hr⟩ := List.any_eq_true.mp h
    rw [hrep d hd] at hr
    cases hr
  simp only [Op.precheck]
  rw [if_neg (by simp [hi]), if_neg hui, if_neg (by simp [hdst]), if_neg hany]

/-- A frame that its handler ignores leaves every field of the context as it was. -/
theorem step_of_ignored {c : Conn} (h : SeqInv c) {f : Frame}
    (hbody : (Op.onFrame f).precheck c = none → onFrame ⟨c.taken, []⟩ f = (⟨c.taken, []⟩, .returned .ok))
    (heap refuses : Bool) : c.step (.call (.onFrame f) heap refuses) = ⟨c, [], .ok⟩ := by
  simp only [Conn.step, Op.call, Op.consumeExpiry]
  cases hp : (Op.onFrame f).precheck c with
  | some ret =>
      rw [precheck_onFrame_some h.initialized hp]
      rfl
  | none =>
      simp only [Conn.locked, acquireDeferred_of_free h.pool, Op.body, hbody hp, Call.settle]
      rw [release_pool (c := c.taken) h.initialized h.cookie rfl]
      have hback : c.taken.unpooled = c := by
        simp only [taken, unpooled, ← h.pool]
      rw [hback]

/-- A foreign frame is accepted, emits nothing and leaves every field of the
context as it was. -/
theorem step_foreign {c : Conn} (h : SeqInv c) (hst : c.state ≠ .disconnected) {f : Frame}
    (hf : Foreign c f) (heap refuses : Bool) :
    c.step (.call (.onFrame f) heap refuses) = ⟨c, [], .ok⟩ := by
  refine step_of_ignored h (fun hp => ?_) heap refuses
  have hsrc : addressEquals f.source c.remoteAddr = false := by
    obtain ⟨hui, hdst, hrep⟩ := precheck_onFrame hp
    rcases hf with hf | hf | ⟨d, hd, hf⟩ | hf
    · exact absurd hf hui
    · rw [hf] at hdst; cases hdst
    · rw [hrep d hd] at hf; cases hf
    · exact hf
  exact onFrame_of_other (s := ⟨c.taken, []⟩) (h.remote hst) hst hsrc

/-- `es'` is `es` with foreign frames inserted, each at a point of the run from
`c` where there is a session. -/
inductive InsertForeign : Conn → List Event → List Event → Prop
  | nil (c : Conn) : InsertForeign c [] []
  | cons {c : Conn} (e : Event) {es es' : List Event} :
      InsertForeign (c.step e).conn es es' → InsertForeign c (e :: es) (e :: es')
  | insert {c : Conn} (f : Frame) (heap refuses : Bool) {es es' : List Event} :
      c.state ≠ .disconnected → Foreign c f → InsertForeign c es es' →
      InsertForeign c es (.call (.onFrame f) heap refuses :: es')

theorem run_insertForeign {c : Conn} {es es' : List Event} (h : SeqInv c)
    (hi : InsertForeign c es es') : c.run es' = c.run es := by
  induction hi with
  | nil c => rfl
  | cons e _ ih => rw [run_cons, run_cons, ih (h.step e)]
  | insert f heap refuses hst hf _ ih =>
      rw [run_cons, step_foreign h hst hf, ih h]
      rfl

/-- **Session isolation.** Foreign frames inserted anywhere into a run change
neither its end nor its output, and each of them is accepted, emits nothing and
leaves the context as it was. -/
theorem foreign_frames_invisible {c : Conn} (h : Reachable c) :
    (∀ es es', InsertForeign c es es' → c.run es' = c.run es) ∧
    ∀ es f heap refuses, (c.run es).1.state ≠ .disconnected → Foreign (c.run es).1 f →
      (c.run es).1.step (.call (.onFrame f) heap refuses) = ⟨(c.run es).1, [], .ok⟩ :=
  ⟨fun _ _ hi => run_insertForeign h.seqInv hi,
    fun es _ heap refuses hne hf => step_foreign (h.run es).seqInv hne hf heap refuses⟩

/-- A UI frame in the middle of a session, before a poll by the peer. -/
theorem foreign_frames_invisible_ui :
    let c := (sampleConn.step (.call (.onFrame sampleSabm) false false)).conn
    let ui := { sampleSabm with type := .ui, control := ctrlUi }
    let poll := { sampleSabm with type := .s, control := frameBuildRrControl 0 true }
    c.state = .connected ∧
      c.run [.call (.onFrame ui) false false, .call (.onFrame poll) false false] =
        c.run [.call (.onFrame poll) false false] :=
  ⟨by decide,
    (foreign_frames_invisible (reachable_sampleConn.step _)).1 _ _
      (.insert _ false false (by decide) (Or.inl rfl) (.cons _ (.nil _)))⟩

end EspAx25
