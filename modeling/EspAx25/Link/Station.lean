import EspAx25.GoBackN
import EspAx25.Conn.TimerInv

/-!
# EspAx25.Link.Station

One endpoint of an established link, as a station of the sliding-window
protocol of `EspAx25.GoBackN`.

* `Effect` sums up a call in the two data-transfer states: the call first
  accepts a payload, or accounts for a received frame, or does neither; all
  frames that it emits are sound for the context it has then (`call_effect`).
  The only other outcome is that T1 gives up.
* `Tracks` relates the modulo-8 variables of a context to the counters of the
  protocol, and `Carries` a frame to its stamp. What a context emits carries the
  stamp of its counters (`Emits.carries`).
-/

namespace EspAx25

open Cyclic Conn Locked GoBackN

/-! ### What a call does to the window -/

/-- The calls of an established link: neither side dials or shuts down, and only
I and S frames arrive. -/
def Op.OnLink : Op → Prop
  | .connectVia .. | .shutdown => False
  | .onFrame f => f.type = .s ∨ f.type = .i
  | _ => True

/-- What `send_data` has accepted, by its result. -/
def Op.accepts : Op → EspErr → List (List Byte)
  | .sendData data, .ok => [data]
  | _, _ => []

/-- `c'` has the window of `c`. -/
structure SameWindow (c c' : Conn) : Prop where
  va : c'.va = c.va
  vs : c'.vs = c.vs
  vr : c'.vr = c.vr
  data : ∀ i, (c'.txQueue i).data = (c.txQueue i).data

theorem SameWindow.refl (c : Conn) : SameWindow c c := ⟨rfl, rfl, rfl, fun _ => rfl⟩

theorem SameLink.sameWindow {c c' : Conn} (h : SameLink c c') : SameWindow c c' :=
  ⟨h.va, h.vs, h.vr, h.data⟩

/-- The window change of a call: the context that the frames are emitted from,
and what is recorded before them. -/
inductive Effect (c : Conn) (op : Op) (ret : EspErr) : Conn → List Action → Prop
  | same {c₁ : Conn} : op.accepts ret = [] → WindowInv c₁ → SameWindow c c₁ →
      Effect c op ret c₁ []
  | accepted (data : List Byte) : op = .sendData data → ret = .ok →
      c.outstandingFrames < c.config.windowSize.toNat → 0 < data.length →
      data.length ≤ maxInfoLen → Effect c op ret (c.queued data) []
  | received (f : Frame) {s₁ : Locked} : op = .onFrame f → c.isValidNr f.nr = true →
      Received ⟨c, []⟩ f s₁ → Effect c op ret s₁.conn s₁.deferred

/-- The result of a call on an established link. -/
def OnLinkStep (c : Conn) (op : Op) (r : Result) : Prop :=
  (r.conn.Linked ∧ ∃ c₁ pre l, Effect c op r.ret c₁ pre ∧ r.out = pre ++ l ∧
    (∀ a ∈ l, Emits c₁ a) ∧ SameWindow c₁ r.conn) ∨
  (r.conn.state = .disconnected ∧ ∃ pre, GivesUp c pre ∧ r.out = pre ++ [.final, .disconnect])

theorem Op.accepts_of_ne {op : Op} {ret : EspErr} (h : ∀ data, op = .sendData data → ret ≠ .ok) :
    op.accepts ret = [] := by
  unfold Op.accepts
  split
  · exact absurd rfl (h _ rfl)
  · rfl

/-- One locked section. -/
theorem SectionStep.onLink {c : Conn} {op : Op} {s : Locked} {ret : EspErr}
    (h : SectionStep c op s (.returned ret)) (hw : WindowInv c) (hl : c.Linked) (hop : op.OnLink)
    (hvalid : ∀ f, op = .onFrame f → c.isValidNr f.nr = true)
    (hsend : ∀ data, op = .sendData data → ret ≠ .ok) :
    OnLinkStep c op ⟨s.conn, s.deferred, ret⟩ := by
  have hacc := Op.accepts_of_ne hsend
  -- a section that leaves the window alone and emits `l` in the end
  have hsame : ∀ {c' : Conn} {l : List Action} {ret : EspErr}, op.accepts ret = [] →
      c'.Linked → SameLink c c' ∨ SameWindow c c' ∧ WindowInv c' → (∀ a ∈ l, Emits c' a) →
      OnLinkStep c op ⟨c', l, ret⟩ := by
    intro c' l ret hret hl' hwin hem
    have hwin : SameWindow c c' ∧ WindowInv c' := by
      rcases hwin with h | h
      · exact ⟨h.sameWindow, hw.sameLink h⟩
      · exact h
    exact Or.inl ⟨hl', c', [], l, .same hret hwin.2 hwin.1, rfl, hem, .refl c'⟩
  have hstate : ∀ {st : ConnState}, c.state = st → st ≠ .connected → st ≠ .timerRecovery →
      False := by
    rintro st rfl h₁ h₂
    exact hl.elim h₁ h₂
  have hu : ∀ {f : Frame}, op = .onFrame f → f.type = .u → False := by
    rintro f rfl hu
    rcases hop with h | h <;> cases hu.symm.trans h
  have hwin : ∀ {c' : Conn}, c'.config = c.config → c'.va = c.va → c'.vs = c.vs → c'.vr = c.vr →
      c'.txQueue = c.txQueue → SameWindow c c' ∧ WindowInv c' := fun h₀ h₁ h₂ h₃ h₄ =>
    ⟨⟨h₁, h₂, h₃, fun i => by rw [h₄]⟩, hw.congr h₀ h₂ h₁ h₃ h₄⟩
  cases h with
  | ignored | t1Idle | t2Idle | t3Idle => exact hsame hacc hl (Or.inl (.refl c)) (by simp)
  | reject f hf | relink f _ hf => exact (hu rfl hf).elim
  | teardown pre hne hlen hf hcase =>
      rcases hcase with ⟨rfl, hgive⟩ | ⟨f, rfl, hf, -⟩
      · exact Or.inr ⟨rfl, pre, hgive, rfl⟩
      · exact (hu rfl hf).elim
  | reestablish f c₀ msg ret hl' hc =>
      rcases hc with ⟨hf, -⟩ | ⟨-, hv, -⟩
      · exact (hu rfl hf).elim
      · cases hv.symm.trans (hvalid f rfl)
  | data f hl' hty hv hr ht hd =>
      obtain ⟨l, hdef, hem⟩ := ht.emits
      have hl₁ : s.conn.Linked := ht.link.linked (by unfold Linked; rw [hr.state]; exact hl)
      exact Or.inl ⟨hl₁, _, _, l, .received f rfl hv hr, hdef, hem, ht.link.sameWindow⟩
  | dial | release => exact hop.elim
  | send data => exact absurd rfl (hsend data rfl)
  | busyQuiet b hn => exact absurd hl hn
  | busyOn =>
      refine hsame hacc hl (Or.inr (hwin rfl rfl rfl rfl rfl)) fun a ha => ?_
      rw [List.mem_singleton.mp ha]
      exact .rnr (c := { c with localBusy := true, ackPending := false }.stopTimerT2) false false
  | busyOff =>
      refine hsame hacc hl (Or.inr (hwin rfl rfl rfl rfl rfl)) fun a ha => ?_
      rw [List.mem_singleton.mp ha]
      exact .rr (c := { c with localBusy := false }) false false fun _ => rfl
  | retry ctrl hlt hc =>
      rcases hc with ⟨hst, -⟩ | ⟨hst, -⟩ <;> exact (hstate hst (by decide) (by decide)).elim
  | poll r =>
      refine hsame hacc (Or.inr rfl) (Or.inr (hwin rfl rfl rfl rfl rfl)) fun a ha => ?_
      rw [List.mem_singleton.mp ha]
      exact .rr (c := { c with state := .timerRecovery, retryCount := r + 1 }.startTimerT1) true true
        nofun
  | t2Ack a _ _ he =>
      refine hsame hacc hl (Or.inr (hwin rfl rfl rfl rfl rfl)) fun b hb => ?_
      rw [List.mem_singleton.mp hb]
      exact he.of_sameLink (c := { c with ackPending := false }) (.flags ..)
  | t3Poll =>
      refine hsame hacc (Or.inr rfl) (Or.inr (hwin rfl rfl rfl rfl rfl)) fun a ha => ?_
      rw [List.mem_singleton.mp ha]
      exact .rr (c := { c with state := .timerRecovery, retryCount := 0 }.startTimerT1) true true
        nofun

/-- The context in which a call finds its first pooled buffer taken. -/
def Conn.entered (c : Conn) (op : Op) : Conn := (op.consumeExpiry c).taken

theorem sameWindow_entered (c : Conn) (op : Op) : SameWindow c (c.entered op) := by
  cases op <;> exact ⟨rfl, rfl, rfl, fun _ => rfl⟩

theorem entered_state (c : Conn) (op : Op) : (c.entered op).state = c.state := by
  cases op <;> rfl

theorem SeqInv.entered {c : Conn} (h : SeqInv c) (op : Op) : WindowInv (c.entered op) :=
  (h.consumeExpiry op).window.congr rfl rfl rfl rfl rfl

/-- **A call on an established link.** -/
theorem call_onLink {c : Conn} (h : SeqInv c) (hl : c.Linked) {op : Op} (hop : op.OnLink)
    (hvalid : ∀ f, op = .onFrame f → c.isValidNr f.nr = true) (heap refuses : Bool) :
    OnLinkStep (c.entered op) op (c.step (.call op heap refuses)) := by
  have hw := h.entered op
  have hl₀ : (c.entered op).Linked := by
    unfold Linked
    rw [entered_state]
    exact hl
  have hvalid₀ : ∀ f, op = .onFrame f → (c.entered op).isValidNr f.nr = true := by
    rintro f rfl
    exact hvalid f rfl
  have hcall := call_cases h op heap refuses
  generalize c.step (.call op heap refuses) = r at hcall ⊢
  cases hcall with
  | early ret hp =>
      have hacc : op.accepts ret = [] := by
        refine Op.accepts_of_ne ?_
        rintro data rfl rfl
        simp only [Op.precheck] at hp
        split_ifs at hp <;> cases hp
      exact Or.inl ⟨hl₀, _, [], [], .same hacc hw (.refl _), rfl, by simp,
        ⟨rfl, rfl, rfl, fun _ => rfl⟩⟩
  | @returned s ret hp hsec hbody =>
      by_cases hsend : ∃ data, op = .sendData data ∧ ret = .ok
      · obtain ⟨data, rfl, rfl⟩ := hsend
        obtain ⟨-, hq, hs⟩ := sendData_ok hbody
        obtain ⟨hroom, -, -⟩ := queueIFrame_ok hq
        obtain ⟨h₀, h₁⟩ := precheck_sendData hp
        have ht : Transfer ⟨(c.entered (.sendData data)).queued data, []⟩ s := by
          have ht := transfer_sendPendingIFrames ⟨c.taken.queued data, []⟩ hw.va_lt (mod8_lt _)
          rw [show sendPendingIFrames ⟨c.taken.queued data, []⟩ = (s, .ok) from hs] at ht
          exact ht
        obtain ⟨l, hdef, hem⟩ := ht.emits
        exact Or.inl ⟨ht.link.linked hl₀, _, [], l, .accepted data rfl rfl hroom h₀ h₁, hdef, hem,
          ht.link.va, ht.link.vs, ht.link.vr, ht.link.data⟩
      · -- the buffer is given back in the end
        have hstep := SectionStep.onLink (c := c.entered op) hsec hw hl₀ hop hvalid₀
          fun data ho hr => hsend ⟨data, ho, hr⟩
        obtain ⟨hl', c₁, pre, l, heff, hout, hem, hwin⟩ | hgive := hstep
        · exact Or.inl ⟨hl', c₁, pre, l, heff, hout, hem, hwin.va, hwin.vs, hwin.vr, hwin.data⟩
        · exact Or.inr hgive
  | told hp hsec =>
      cases hsec with
      | opened f hst | collision f hst =>
          rcases hl₀ with hl₀ | hl₀ <;> cases hl₀.symm.trans hst
  | asked f ho hp hst =>
      have hst : (c.entered op).state = .disconnected := hst
      rcases hl₀ with hl₀ | hl₀ <;> cases hl₀.symm.trans hst

/-! ### Counters behind the residues -/

/-- The window of `c` holds the payloads from number `base` on of those
`accepted`, and `recv` payloads have been consumed. -/
structure Tracks (c : Conn) (accepted : List (List Byte)) (base recv : Nat) : Prop where
  va : c.va = base % 8
  vs : c.vs = accepted.length % 8
  vr : c.vr = recv % 8
  slot : ∀ n, base ≤ n → n < accepted.length →
    accepted[n]? = some (c.txQueue (n % 8)).data

theorem Tracks.congr {c c' : Conn} {accepted : List (List Byte)} {base recv : Nat}
    (h : Tracks c accepted base recv) (hs : SameWindow c c') : Tracks c' accepted base recv :=
  ⟨hs.va.trans h.va, hs.vs.trans h.vs, hs.vr.trans h.vr,
    fun n h₁ h₂ => (h.slot n h₁ h₂).trans (congrArg some (hs.data _).symm)⟩

/-- Frame `f` is an I or S frame with stamp `m`. -/
structure Carries (accepted : List (List Byte)) (f : Frame) (m : Stamp) : Prop where
  ack : f.nr = m.ack % 8
  data : f.type = .s ∧ m.data = none ∨
    f.type = .i ∧ ∃ n s, m.data = some (n, s) ∧ f.ns = n % 8 ∧ accepted[n]? = some f.payload

/-- A stamp of the present counters. -/
def Current (accepted : List (List Byte)) (base recv : Nat) (m : Stamp) : Prop :=
  m.ack = recv ∧ ∀ n s, m.data = some (n, s) →
    s = accepted.length ∧ base ≤ n ∧ n < accepted.length

section counters

variable {c : Conn} {accepted : List (List Byte)} {base recv : Nat}

/-- What a context emits carries its counters. -/
theorem Emits.carries {a : Action} (he : Emits c a) (hw : WindowInv c)
    (h : Tracks c accepted base recv) (hle : base ≤ accepted.length)
    (hwin : accepted.length ≤ base + 7) :
    ∃ f m, a = .frame f ∧ Carries accepted f m ∧ Current accepted base recv m := by
  have hs : ∀ {cmd pf : Bool} {mask : Byte}, IsSMask mask →
      Carries accepted (outFrame c cmd .s (frameBuildSControl mask c.vr pf)) ⟨recv, none⟩ := by
    intro cmd pf mask hm
    exact ⟨(extractNr_buildS hm hw.vr_lt pf).trans h.vr, Or.inl ⟨rfl, rfl⟩⟩
  cases he with
  | rr pf cmd => exact ⟨_, _, rfl, hs (Or.inl rfl), rfl, nofun⟩
  | rnr pf cmd => exact ⟨_, _, rfl, hs (Or.inr (Or.inl rfl)), rfl, nofun⟩
  | rej pf cmd => exact ⟨_, _, rfl, hs (Or.inr (Or.inr rfl)), rfl, nofun⟩
  | info q hq hu =>
      obtain ⟨f, hf, hi, hns, hpay⟩ := slotFrame_eq hw hq
      have hnr : f.nr = c.vr := by
        rw [← Action.frame.inj hf]
        exact extractNr_buildI hq.1 hw.vr_lt false
      -- the number of the payload in slot `q`
      have hmod : (base + arc 8 c.va q) % 8 = q := add_arc_mod hw.va_lt hq.1 h.va.symm
      have hlt : base + arc 8 c.va q < accepted.length := by
        have hlen : arc 8 c.va c.vs = accepted.length - base := by
          rw [h.va, h.vs]
          exact arc_mod hle (by omega)
        have := hq.2
        omega
      refine ⟨f, ⟨recv, some (base + arc 8 c.va q, accepted.length)⟩, hf, ⟨hnr.trans h.vr,
        Or.inr ⟨hi, _, _, rfl, hns.trans hmod.symm, ?_⟩⟩, rfl, fun n s hd => ?_⟩
      · rw [h.slot _ (Nat.le_add_right _ _) hlt, hmod, hpay]
      · cases hd
        exact ⟨rfl, Nat.le_add_right _ _, hlt⟩

/-- An acknowledgement moves the window. -/
theorem Tracks.ack (h : Tracks c accepted base recv) {r nr : Nat} (hr : base ≤ r)
    (hnr : nr = r % 8) : Tracks (c.ackConn nr) accepted r recv := by
  refine ⟨hnr, h.vs, h.vr, fun n h₁ h₂ => (h.slot n (Nat.le_trans hr h₁) h₂).trans ?_⟩
  simp only [ackConn, mapSlots]
  split <;> rfl

/-- A payload is consumed. -/
theorem Tracks.consume (h : Tracks c accepted base recv) (rej : Bool) :
    Tracks { c with vr := mod8 (c.vr + 1), rejSent := rej } accepted base (recv + 1) := by
  refine ⟨h.va, h.vs, ?_, h.slot⟩
  show (c.vr + 1) % 8 = (recv + 1) % 8
  rw [h.vr]
  omega

/-- A payload is accepted. -/
theorem Tracks.queue (h : Tracks c accepted base recv) (hwin : accepted.length < base + 7)
    (data : List Byte) : Tracks (c.queued data) (accepted ++ [data]) base recv := by
  refine ⟨h.va, ?_, h.vr, fun n h₁ h₂ => ?_⟩
  · show (c.vs + 1) % 8 = (accepted ++ [data]).length % 8
    rw [h.vs, List.length_append, List.length_singleton]
    omega
  · rw [List.length_append, List.length_singleton] at h₂
    by_cases hn : n = accepted.length
    · subst hn
      rw [List.getElem?_concat_length, ← h.vs]
      simp [queued]
    · -- an older payload is in another slot
      have hne : n % 8 ≠ c.vs := by
        rw [h.vs]
        omega
      rw [List.getElem?_append_left (by omega), h.slot n h₁ (by omega)]
      simp [queued, hne]

end counters

end EspAx25
