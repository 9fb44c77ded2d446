import EspAx25.Conn.Cases

/-!
# EspAx25.Conn.Window

The transmit window: the flags `in_use` of the queue are the cyclic interval
`[V(A), V(S))`, and that interval is never longer than `window_size`.

`WindowInv` is kept by every locked section (`SectionStep.window`,
`DecideStep.window`), so by every machine that is built from them.
-/

namespace EspAx25

open Cyclic Conn Locked

/-- The transmit-window invariant. -/
structure WindowInv (c : Conn) : Prop where
  vs_lt : c.vs < 8
  va_lt : c.va < 8
  vr_lt : c.vr < 8
  size_pos : 1 ≤ c.config.windowSize.toNat
  size_le : c.config.windowSize.toNat ≤ 7
  outstanding : arc 8 c.va c.vs ≤ c.config.windowSize.toNat
  inUse : ∀ i, (c.txQueue i).inUse = true ↔ Mem 8 c.va c.vs i
  slot : ∀ i, (c.txQueue i).inUse = true →
    (c.txQueue i).ns = i ∧ 1 ≤ (c.txQueue i).len ∧ (c.txQueue i).len ≤ maxInfoLen ∧
      (c.txQueue i).len = (c.txQueue i).data.length

namespace WindowInv

variable {c c' : Conn}

/-- Only the window itself matters. -/
theorem congr (h : WindowInv c) (hcfg : c'.config = c.config) (hvs : c'.vs = c.vs)
    (hva : c'.va = c.va) (hvr : c'.vr = c.vr) (hq : c'.txQueue = c.txQueue) : WindowInv c' where
  vs_lt := hvs ▸ h.vs_lt
  va_lt := hva ▸ h.va_lt
  vr_lt := hvr ▸ h.vr_lt
  size_pos := hcfg ▸ h.size_pos
  size_le := hcfg ▸ h.size_le
  outstanding := by rw [hcfg, hvs, hva]; exact h.outstanding
  inUse := by rw [hvs, hva, hq]; exact h.inUse
  slot := by rw [hq]; exact h.slot

/-- A slot outside the array is never in use. -/
theorem lt_of_inUse (h : WindowInv c) {i : Nat} (hi : (c.txQueue i).inUse = true) : i < 8 :=
  ((h.inUse i).mp hi).1

/-- After `reset_state_vars` the window is empty. -/
theorem cleared (h : WindowInv c) (st : ConnState) : WindowInv (c.cleared st) where
  vs_lt := Nat.succ_pos 7
  va_lt := Nat.succ_pos 7
  vr_lt := Nat.succ_pos 7
  size_pos := h.size_pos
  size_le := h.size_le
  outstanding := by simp [Conn.cleared]
  inUse := by
    intro i
    simp only [Conn.cleared, not_mem_self, iff_false]
    split
    · simp
    · next hi => exact fun hu => hi (h.lt_of_inUse hu)
  slot := by
    intro i hu
    simp only [Conn.cleared] at hu
    split at hu
    · cases hu
    · next hi => exact absurd (h.lt_of_inUse hu) hi

/-- Flow control, `transmitted` flags and timers are free. -/
theorem sameLink (h : WindowInv c) (hl : SameLink c c') : WindowInv c' where
  vs_lt := hl.vs ▸ h.vs_lt
  va_lt := hl.va ▸ h.va_lt
  vr_lt := hl.vr ▸ h.vr_lt
  size_pos := hl.static.config ▸ h.size_pos
  size_le := hl.static.config ▸ h.size_le
  outstanding := by rw [hl.static.config, hl.va, hl.vs]; exact h.outstanding
  inUse := by
    intro i
    rw [hl.inUse, hl.va, hl.vs]
    exact h.inUse i
  slot := by
    intro i hu
    rw [hl.inUse] at hu
    rw [hl.ns, hl.len, hl.data]
    exact h.slot i hu

/-- A valid N(R) cuts the window. -/
theorem ack (h : WindowInv c) {nr : Nat} (hn : nr < 8) (hv : c.isValidNr nr = true) :
    WindowInv (c.ackConn nr) := by
  have hd := (isValidNr_iff h.va_lt h.vs_lt hn).mp hv
  have hadd := arc_add h.va_lt h.vs_lt hn hd
  have hcut := fun i => mem_cut (i := i) h.va_lt h.vs_lt hn hd
  have hslot : ∀ i, ((c.ackConn nr).txQueue i).inUse = true ↔ Mem 8 nr c.vs i := by
    intro i
    rw [hcut i, ← h.inUse i]
    simp only [ackConn, mapSlots]
    split
    · next hm => simp [hm]
    · next hm => simp [hm]
  refine ⟨h.vs_lt, hn, h.vr_lt, h.size_pos, h.size_le, ?_, hslot, fun i hu => ?_⟩
  · have := h.outstanding
    show arc 8 nr c.vs ≤ c.config.windowSize.toNat
    omega
  · -- a slot that is still in use was not touched
    have hm := (hcut i).mp ((hslot i).mp hu)
    have hq : (c.ackConn nr).txQueue i = c.txQueue i := if_neg hm.2
    rw [hq]
    exact h.slot i ((h.inUse i).mpr hm.1)

theorem received {s s₁ : Locked} {f : Frame} (h : WindowInv s.conn)
    (hv : s.conn.isValidNr f.nr = true) (hr : Received s f s₁) : WindowInv s₁.conn := by
  have ha := h.ack f.nr_lt hv
  cases hr with
  | ack => exact ha
  | data =>
      rw [consume_conn]
      exact { ha with vr_lt := mod8_lt _ }

/-- The slot at V(S) is free while the window has room. -/
theorem room (h : WindowInv c) : (c.txQueue c.vs).inUse = false := by
  cases hu : (c.txQueue c.vs).inUse with
  | false => rfl
  | true => exact absurd ((h.inUse _).mp hu) not_mem_right

theorem queued (h : WindowInv c) {data : List Byte}
    (hroom : c.outstandingFrames < c.config.windowSize.toNat) (h₀ : 0 < data.length)
    (h₁ : data.length ≤ maxInfoLen) : WindowInv (c.queued data) := by
  rw [outstandingFrames_eq h.va_lt h.vs_lt] at hroom
  have hsize := h.size_le
  have hd := arc_succ h.va_lt h.vs_lt (by omega)
  have hmem := fun i => mem_succ_right (i := i) h.va_lt h.vs_lt (by omega)
  refine ⟨mod8_lt _, h.va_lt, h.vr_lt, h.size_pos, hsize, ?_, fun i => ?_, fun i => ?_⟩
  · show arc 8 c.va ((c.vs + 1) % 8) ≤ c.config.windowSize.toNat
    omega
  · show _ ↔ Mem 8 c.va ((c.vs + 1) % 8) i
    rw [hmem i]
    by_cases hi : i = c.vs
    · simp [Conn.queued, hi]
    · simp [Conn.queued, hi, h.inUse i]
  · by_cases hi : i = c.vs
    · simp [Conn.queued, hi]
      omega
    · simpa [Conn.queued, hi] using h.slot i

end WindowInv

/-- The I frame of a slot of the window. -/
theorem slotFrame_eq {c : Conn} (hw : WindowInv c) {q : Nat} (hq : Mem 8 c.va c.vs q) :
    ∃ f, c.slotFrame q = .frame f ∧ f.type = .i ∧ f.ns = q ∧ f.payload = (c.txQueue q).data := by
  obtain ⟨-, h₁, h₂, h₃⟩ := hw.slot q ((hw.inUse q).mpr hq)
  refine ⟨_, rfl, rfl, extractNs_buildI hq.1 hw.vr_lt false, ?_⟩
  show (if _ then _ else _) = _
  rw [if_pos ⟨h₁, h₂⟩, h₃, List.take_length]

/-- **Every section keeps the window.** -/
theorem SectionStep.window {c : Conn} {op : Op} {s : Locked} {o : Outcome}
    (h : SectionStep c op s o) (hw : WindowInv c) : WindowInv s.conn := by
  cases h with
  | request f =>
      obtain ⟨p, hp⟩ := adopt_eq { c with remoteAddr := f.source, remoteAddrSet := true } f
      simp only [requested, hp]
      exact hw.congr rfl rfl rfl rfl rfl
  | collision f | relink f =>
      obtain ⟨p, hp⟩ := adopt_eq c f
      rw [hp]
      exact (hw.cleared .connected).congr rfl rfl rfl rfl rfl
  | opened f => exact (hw.cleared .connected).congr rfl rfl rfl rfl rfl
  | teardown pre => exact (hw.cleared .disconnected).congr rfl rfl rfl rfl rfl
  | reestablish f c₀ msg ret hl hc =>
      rcases hc with ⟨-, -, rfl, -⟩ | ⟨-, -, rfl, -⟩ <;>
        exact (hw.cleared .awaitingConnection).congr rfl rfl rfl rfl rfl
  | data f hl hty hv hr ht hd =>
      exact (WindowInv.received hw hv hr).sameLink ht.link
  | dial a ds hst hd =>
      exact (hw.cleared .awaitingConnection).congr rfl rfl rfl rfl rfl
  | send data hl h₀ h₁ hq ht hs =>
      obtain ⟨hroom, -, rfl⟩ := queueIFrame_ok hq
      exact (hw.queued hroom h₀ h₁).sameLink ht.link
  | _ => exact hw.congr rfl rfl rfl rfl rfl

theorem DecideStep.window {c c' : Conn} {f : Frame} {acts : List Action}
    (h : DecideStep c f c' acts) (hw : WindowInv c) : WindowInv c' := by
  cases h with
  | refused => exact (hw.cleared .disconnected).congr rfl rfl rfl rfl rfl
  | accepted => exact (hw.cleared .connected).congr rfl rfl rfl rfl rfl

theorem Config.normalize_windowSize (cfg : Config) :
    1 ≤ cfg.normalize.windowSize.toNat ∧ cfg.normalize.windowSize.toNat ≤ 7 := by
  unfold Config.normalize
  split_ifs with h
  · exact (by decide : 1 ≤ (4 : UInt8).toNat ∧ (4 : UInt8).toNat ≤ 7)
  · rw [not_or, UInt8.not_lt, UInt8.not_lt] at h
    exact ⟨UInt8.le_iff_toNat_le.mp h.1, UInt8.le_iff_toNat_le.mp h.2⟩

/-- The window of a fresh context. -/
theorem windowInv_fresh (a : Address) (cb : Callbacks) (cfg : Config) :
    WindowInv (Conn.fresh a cb cfg.normalize) where
  vs_lt := Nat.succ_pos 7
  va_lt := Nat.succ_pos 7
  vr_lt := Nat.succ_pos 7
  size_pos := (Config.normalize_windowSize cfg).1
  size_le := (Config.normalize_windowSize cfg).2
  outstanding := by simp [Conn.fresh]
  inUse := by intro i; simp [Conn.fresh, not_mem_self]
  slot := by intro i hu; simp [Conn.fresh] at hu

end EspAx25
