import EspAx25.Conn.Retransmit

/-!
# EspAx25.Conn.Batch

The batch of deferred actions never fills up.

A section records at most a payload, two supervisory frames and the seven
I frames of a window, or an error, a farewell and the two notifications of a
torn session: ten actions, where the buffer takes twelve. So `defer_action`
always finds room, and what depends on it goes through: once a section has sent
an I frame nothing of the window is left pending (`SectionStep.flushed`), and
`send_data` fails only before it has queued the payload.
-/

namespace EspAx25

open Cyclic Conn Locked

/-! ### The I frames of a section -/

/-- The window has at most seven frames to send. -/
theorem pendingSeqs_length {c : Conn} (hw : WindowInv c) : c.pendingSeqs.length ≤ 7 := by
  unfold pendingSeqs
  split
  · exact Nat.zero_le 7
  · have hlen := List.length_filter_le c.slotPending (seqRange c.va c.vs)
    have harc := arc_lt (a := c.va) hw.vs_lt
    rw [seqRange_length hw.va_lt hw.vs_lt] at hlen
    omega

/-- Once the pending frames have been sent, none is pending. -/
theorem pendingSeqs_noteSent {c : Conn} (hw : WindowInv c) :
    (c.noteSent c.pendingSeqs).pendingSeqs = [] := by
  by_cases hnil : c.pendingSeqs = []
  · rw [hnil]
    simpa [noteSent] using hnil
  · rw [List.eq_nil_iff_forall_not_mem]
    intro q hq
    -- a slot that is still pending was pending before, so it has been marked
    have hvars : ∀ qs : List Nat, (c.noteSent qs).va = c.va ∧ (c.noteSent qs).vs = c.vs ∧
        (c.noteSent qs).peerBusy = c.peerBusy := by
      intro qs
      unfold noteSent
      split <;> exact ⟨rfl, rfl, rfl⟩
    obtain ⟨hva, hvs, hbusy⟩ := hvars c.pendingSeqs
    obtain ⟨hb, hm, hu, ht⟩ :=
      (mem_pendingSeqs (hva.symm ▸ hw.va_lt) (hvs.symm ▸ hw.vs_lt)).mp hq
    rw [hbusy] at hb
    rw [hva, hvs] at hm
    simp only [noteSent, hnil, if_false, startTimerT1, stopTimerT3, mapSlots] at ht
    split at ht
    · cases ht
    · next hout =>
      exact hout ((mem_pendingSeqs hw.va_lt hw.vs_lt).mpr ⟨hb, hm, (hw.inUse q).mpr hm, ht⟩)

/-- The end of a section leaves the frames that it found pending, or none. -/
theorem Flush.pending {t s : Locked} (h : Flush t s) (hw : WindowInv t.conn)
    (hlen : t.deferred.length ≤ 5) : s = t ∨ s.conn.pendingSeqs = [] := by
  have hsend := sendPendingIFrames_eq hw.va_lt hw.vs_lt hlen
  cases h with
  | none => exact Or.inl rfl
  | sent =>
      rw [hsend]
      exact Or.inr (pendingSeqs_noteSent hw)
  | restarted =>
      rw [hsend]
      exact Or.inr (pendingSeqs_noteSent hw)

/-! ### One section -/

/-- The batch at the end of a section that receives an I or S frame. -/
theorem Received.deferred_length {c : Conn} {f : Frame} {s₁ t : Locked}
    (hr : Received ⟨c, []⟩ f s₁) (hq : Quiet 2 s₁ t) : t.deferred.length ≤ 3 := by
  obtain ⟨l, hl, hlen, -⟩ := hq.emits
  rw [hl, List.length_append]
  rcases hr.deferred with h | ⟨h, -⟩ <;> rw [h] <;> simp <;> omega

/-- No section records more than ten actions. -/
theorem SectionStep.deferred_length {c : Conn} {op : Op} {s : Locked} {o : Outcome}
    (h : SectionStep c op s o) (hw : WindowInv c) : s.deferred.length ≤ 10 := by
  cases h with
  | relink f =>
      rw [List.length_append]
      split <;> simp
  | teardown pre hne hlen =>
      rw [List.length_append]
      simp only [List.length_cons, List.length_nil]
      omega
  | data f hl hty hv hr ht hd hq hf =>
      have hwt := (WindowInv.received (s := ⟨c, []⟩) hw hv hr).sameLink hq.link
      have hlen := hr.deferred_length hq
      obtain ⟨qs, hqs, hdef, -⟩ := hf.recorded hwt (by omega)
      have hseven : qs.length ≤ 7 := by
        rcases hqs with rfl | rfl
        · exact Nat.zero_le 7
        · exact pendingSeqs_length hwt
      rw [hdef, List.length_append, List.length_map]
      omega
  | send data hl h₀ h₁ hq ht hs =>
      obtain ⟨hroom, -, rfl⟩ := queueIFrame_ok hq
      have hwq := hw.queued hroom h₀ h₁
      rw [sendPendingIFrames_eq (s := ⟨c.queued data, []⟩) hwq.va_lt hwq.vs_lt (Nat.zero_le 5)] at hs
      cases hs
      have hseven := pendingSeqs_length hwq
      simp only [List.nil_append, List.length_map]
      omega
  | _ => simp

theorem DecideStep.length {c c' : Conn} {f : Frame} {acts : List Action}
    (h : DecideStep c f c' acts) : acts.length ≤ 10 := by
  cases h with
  | refused =>
      rw [List.length_cons, List.length_cons]
      split <;> simp
  | accepted => simp

theorem Farewell.not_info {c : Conn} {a : Action} (h : Farewell c a) : a.isInfo = false := by
  cases h <;> rfl

/-- A section that sends an I frame sends all that are pending. -/
theorem SectionStep.flushed {c : Conn} {op : Op} {s : Locked} {o : Outcome}
    (h : SectionStep c op s o) (hw : WindowInv c) (hi : ∃ a ∈ s.deferred, a.isInfo = true) :
    s.conn.pendingSeqs = [] := by
  have hnone : ∀ {l : List Action}, (∃ a ∈ l, a.isInfo = true) → (∀ a ∈ l, a.isInfo = false) →
      False := by
    rintro l ⟨a, ha, hai⟩ hl
    rw [hl a ha] at hai
    cases hai
  cases h with
  | relink f =>
      refine (hnone hi fun a ha => ?_).elim
      rcases List.mem_append.mp ha with ha | ha
      · split_ifs at ha
        · rw [List.mem_singleton.mp ha]
          rfl
        · cases ha
      · rw [List.mem_singleton.mp ha]
        rfl
  | teardown pre hne hlen hf =>
      refine (hnone hi fun a ha => ?_).elim
      rcases List.mem_append.mp ha with ha | ha
      · exact (hf a ha).not_info
      · rcases List.mem_pair.mp ha with rfl | rfl <;> rfl
  | reestablish =>
      refine (hnone hi fun a ha => ?_).elim
      rcases List.mem_pair.mp ha with rfl | rfl <;> rfl
  | data f hl hty hv hr ht hd hq hf =>
      have hwt := (WindowInv.received (s := ⟨c, []⟩) hw hv hr).sameLink hq.link
      rcases hf.pending hwt (Nat.le_trans (hr.deferred_length hq) (by decide)) with rfl | hp
      · obtain ⟨l, hl, -, hno⟩ := hq.emits
        refine (hnone hi fun a ha => ?_).elim
        rw [hl] at ha
        rcases List.mem_append.mp ha with ha | ha
        · rcases hr.mem ha with h | rfl
          · cases h
          · rfl
        · exact (hno a ha).2
      · exact hp
  | send data hl h₀ h₁ hq ht hs =>
      obtain ⟨hroom, -, rfl⟩ := queueIFrame_ok hq
      have hwq := hw.queued hroom h₀ h₁
      rw [sendPendingIFrames_eq (s := ⟨c.queued data, []⟩) hwq.va_lt hwq.vs_lt (Nat.zero_le 5)] at hs
      cases hs
      exact pendingSeqs_noteSent hwq
  | t2Ack a hl hp he hinfo =>
      refine (hnone hi fun b hb => ?_).elim
      rw [List.mem_singleton.mp hb]
      exact hinfo
  | reject | collision | dial | release | busyOn | busyOff | retry | poll | t3Poll =>
      refine (hnone hi fun a ha => ?_).elim
      rw [List.mem_singleton.mp ha]
      rfl
  | _ => exact (hnone hi (by simp)).elim

/-- A `send_data` that fails has queued nothing. -/
theorem SectionStep.unqueued {c : Conn} {data : List Byte} {s : Locked} {ret : EspErr}
    (h : SectionStep c (.sendData data) s (.returned ret)) (hret : ret ≠ .ok) : s.conn = c := by
  cases h with
  | ignored => rfl
  | teardown pre _ _ _ hop =>
      rcases hop with ⟨h, -⟩ | ⟨f, h, -⟩ <;> cases h
  | send => exact absurd rfl hret

/-! ### All calls in flight -/

/-- A second section, on top of what the first has recorded. -/
theorem resumed_length {y : Sys} (h : SysInv y) {b : Buffer} {rest : Resume} {batch : List Entry}
    (ht : ⟨b, some rest, batch⟩ ∈ y.tasks) (hlen : batch.length ≤ 10) :
    batch.length + (y.resumed ⟨b, some rest, batch⟩ rest).2.length ≤ 10 := by
  cases rest with
  | decide f =>
      obtain rfl := h.undecided _ ht f rfl
      simpa [Sys.resumed, Locked.resume] using (decide_cases y.conn f).length
  | finish => simpa [Sys.resumed, Locked.resume] using hlen

/-- No call holds more than ten actions. -/
theorem Sys.ReachableVia.batch_length {ok : Sys → Move → Prop} {y : Sys}
    (h : ReachableVia ok y) : ∀ t ∈ y.tasks, t.batch.length ≤ 10 := by
  induction h with
  | init => simp
  | @step y m _ h ih =>
      intro t ht
      have hinv := h.sysInv
      cases m with
      | call op heap =>
          simp only [Sys.step] at ht
          obtain ⟨c', ret, hr, -⟩ | ⟨c₀, b, s, o, hr, hm, -, -, -, hsec⟩ :=
            opCall_cases heap y.conn op hinv.window
          · rw [hr] at ht
            exact ih t ht
          · rw [hr] at ht
            rcases List.mem_append.mp ht with ht | ht
            · exact ih t ht
            · rw [List.mem_singleton.mp ht, List.length_map]
              exact hsec.deferred_length (hm.window hinv.window)
      | refuse | fire => exact ih t ht
      | relock i =>
          simp only [Sys.step] at ht
          split at ht
          · next b rest batch heq =>
            have hmem := List.mem_of_getElem? heq
            rcases List.mem_or_eq_of_mem_set ht with ht | rfl
            · exact ih t ht
            · rw [List.length_append, List.length_map]
              exact resumed_length hinv hmem (ih _ hmem)
          · exact ih t ht
      | invoke i =>
          simp only [Sys.step] at ht
          split at ht
          · next b e batch heq =>
            rcases List.mem_or_eq_of_mem_set ht with ht | rfl
            · exact ih t ht
            · have hlen := ih _ (List.mem_of_getElem? heq)
              rw [List.length_cons] at hlen
              dsimp only
              omega
          · exact ih t ht
      | finish i =>
          simp only [Sys.step] at ht
          split at ht
          · exact ih t (List.mem_of_mem_eraseIdx ht)
          · exact ih t ht

/-- **Batches never overflow.** In every reachable state, whatever calls are in
flight: each batch is shorter than the buffer, so that `defer_action`, which
only ever appends to it, has found room every time; a section that sends an
I frame leaves none pending; and a `send_data` that returns an error has left
the queue as it was. -/
theorem batches_never_full {y : Sys} (h : y.Reachable) :
    (∀ t ∈ y.tasks, t.batch.length < maxDeferredActions) ∧
    (∀ (op : Op) (heap : Bool), (op.call heap y.conn).batch.length < maxDeferredActions ∧
      ((∃ a ∈ (op.call heap y.conn).batch, a.isInfo = true) →
        (op.call heap y.conn).conn.pendingSeqs = [])) ∧
    (∀ m, (y.records m).length < maxDeferredActions) ∧
    ∀ data heap ret, ((Op.sendData data).call heap y.conn).outcome = .returned ret → ret ≠ .ok →
      ((Op.sendData data).call heap y.conn).conn.vs = y.conn.vs ∧
        ((Op.sendData data).call heap y.conn).conn.txQueue = y.conn.txQueue := by
  have hinv := h.sysInv
  have hlt : ∀ {n : Nat}, n ≤ 10 → n < maxDeferredActions :=
    fun hn => Nat.lt_of_le_of_lt hn (by decide)
  refine ⟨fun t ht => hlt (h.batch_length t ht), fun op heap => ?_, fun m => hlt ?_,
    fun data heap ret => ?_⟩
  · obtain ⟨c', ret, hr, -⟩ | ⟨c₀, b, s, o, hr, hm, -, -, -, hsec⟩ :=
      opCall_cases heap y.conn op hinv.window
    · rw [hr]
      exact ⟨hlt (Nat.zero_le 10), fun ⟨a, ha, _⟩ => absurd ha List.not_mem_nil⟩
    · rw [hr]
      have hw := hm.window hinv.window
      exact ⟨hlt (hsec.deferred_length hw), hsec.flushed hw⟩
  · have hmove := move_cases hinv m
    generalize (y.step m).conn = c', y.records m = acts at hmove
    cases hmove with
    | minor => exact Nat.zero_le 10
    | locked op heap hr hm hp hb hs => exact hs.deferred_length (hm.window hinv.window)
    | decided f hf hd => exact hd.length
  · obtain ⟨c', ret', hr, hm, -⟩ | ⟨c₀, b, s, o, hr, hm, -, -, -, hsec⟩ :=
      opCall_cases heap y.conn (.sendData data) hinv.window
    · rw [hr]
      obtain ⟨p, t1, t2, t3, r, rfl⟩ := hm
      exact fun _ _ => ⟨rfl, rfl⟩
    · rw [hr]
      rintro rfl hret
      rw [hsec.unqueued hret]
      obtain ⟨p, t1, t2, t3, r, rfl⟩ := hm
      exact ⟨rfl, rfl⟩

/-- In timer recovery, with a payload outstanding and three calls in flight. -/
theorem batches_never_full_recovery :
    (∀ t ∈ sampleRecovery.tasks, t.batch.length < maxDeferredActions) ∧
      ((Op.sendData [1]).call true sampleRecovery.conn).conn.pendingSeqs = [] :=
  have h : sampleRecovery.Reachable := Sys.Reachable.run sys_init_sample _
  ⟨(batches_never_full h).1, ((batches_never_full h).2.1 (.sendData [1]) true).2 (by decide)⟩

end EspAx25
