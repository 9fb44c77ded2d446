import EspAx25.Conn.Order

/-!
# EspAx25.Conn.Log

Every locked section keeps the invariant of the log: it resets the session, or
records nothing whose order matters, or acknowledges and consumes and then
flushes the pending I frames, in the order of the window.
-/

namespace EspAx25

open Cyclic Conn Locked History

/-! ### The end of a section -/

theorem seqRange_pairwise {a b : Nat} (ha : a < 8) (hb : b < 8) :
    (seqRange a b).Pairwise fun i j => arc 8 a i < arc 8 a j := by
  have h : ∀ a < 8, ∀ b < 8, (seqRange a b).Pairwise fun i j => arc 8 a i < arc 8 a j := by
    decide
  exact h a ha b hb

/-- `send_pending_i_frames` sends no slot before its predecessors. -/
theorem pendingSeqs_order {c : Conn} (hw : WindowInv c) {before after : List Nat} {q : Nat}
    (h : c.pendingSeqs = before ++ q :: after) : Mem 8 c.va c.vs q ∧
      ∀ i, Mem 8 c.va c.vs i → arc 8 c.va i < arc 8 c.va q →
        (c.txQueue i).transmitted = true ∨ i ∈ before := by
  have hmem := fun {i : Nat} => mem_pendingSeqs (q := i) hw.va_lt hw.vs_lt
  obtain ⟨hbusy, hq, -, -⟩ := hmem.mp (h ▸ List.mem_append_right before List.mem_cons_self)
  refine ⟨hq, fun i hi hd => ?_⟩
  cases ht : (c.txQueue i).transmitted with
  | true => exact Or.inl rfl
  | false =>
      have hmi : i ∈ c.pendingSeqs := hmem.mpr ⟨hbusy, hi, (hw.inUse i).mpr hi, ht⟩
      have hpair : (before ++ q :: after).Pairwise fun i j => arc 8 c.va i < arc 8 c.va j := by
        rw [← h]
        unfold pendingSeqs
        rw [hbusy]
        exact (seqRange_pairwise hw.va_lt hw.vs_lt).filter _
      rw [h] at hmi
      rcases List.mem_append.mp hmi with hmi | hmi
      · exact Or.inr hmi
      · -- the slots from `q` on are not closer
        exfalso
        rcases List.mem_cons.mp hmi with rfl | hmi
        · exact Nat.lt_irrefl _ hd
        · have := List.rel_of_pairwise_cons (List.pairwise_append.mp hpair).2.1 hmi
          omega

theorem noteSent_transmitted {c : Conn} {qs : List Nat} {i : Nat}
    (h : ((c.noteSent qs).txQueue i).transmitted = true) :
    i ∈ qs ∨ (c.txQueue i).transmitted = true := by
  unfold noteSent at h
  split_ifs at h
  · exact Or.inr h
  · by_cases hi : i ∈ qs
    · exact Or.inl hi
    · simp only [stopTimerT3, startTimerT1, mapSlots, hi, if_false] at h
      exact Or.inr h

/-- What `Flush` records: nothing, or all pending slots. -/
theorem Flush.recorded {t s : Locked} (h : Flush t s) (hw : WindowInv t.conn)
    (hlen : t.deferred.length ≤ 5) : ∃ qs, (qs = [] ∨ qs = t.conn.pendingSeqs) ∧
      s.deferred = t.deferred ++ qs.map t.conn.slotFrame ∧
      ∀ i, (s.conn.txQueue i).transmitted = true →
        i ∈ qs ∨ (t.conn.txQueue i).transmitted = true := by
  have hsend := sendPendingIFrames_eq hw.va_lt hw.vs_lt hlen
  cases h with
  | none => exact ⟨[], Or.inl rfl, by simp, fun i hi => Or.inr hi⟩
  | sent =>
      rw [hsend]
      exact ⟨_, Or.inr rfl, rfl, fun i => noteSent_transmitted⟩
  | restarted =>
      rw [hsend]
      exact ⟨_, Or.inr rfl, rfl, fun i hi => noteSent_transmitted (by exact hi)⟩

/-- The I frames at the end of a section. -/
theorem LogInv.flush {t s : Locked} {g : Ghost} (h : LogInv t.conn g) (hw : WindowInv t.conn)
    (hf : Flush t s) (hlen : t.deferred.length ≤ 5) :
    ∃ qs : List Nat, (∀ q ∈ qs, Mem 8 t.conn.va t.conn.vs q) ∧
      s.deferred = t.deferred ++ qs.map t.conn.slotFrame ∧
      LogInv s.conn { g with
        recorded := fun i => g.recorded i || decide (i ∈ qs)
        log := g.log ++ qs.map (g.slotEntry t.conn) } := by
  obtain ⟨qs, hqs, hdef, hmark⟩ := hf.recorded hw hlen
  have hlink := (hf.transfer hw.va_lt hw.vs_lt).link
  have horder : ∀ before q after, qs = before ++ q :: after → Mem 8 t.conn.va t.conn.vs q ∧
      ∀ i, Mem 8 t.conn.va t.conn.vs i → arc 8 t.conn.va i < arc 8 t.conn.va q →
        g.recorded i = true ∨ i ∈ before := by
    intro before q after hq
    rcases hqs with rfl | rfl
    · simp at hq
    · obtain ⟨hm, hb⟩ := pendingSeqs_order hw hq
      exact ⟨hm, fun i hi hd => (hb i hi hd).imp_left (h.transmitted i hi)⟩
  refine ⟨qs, fun q hq => ?_, hdef, (h.slots hw qs horder).congr hlink.va hlink.vs
    (fun i _ => hlink.data i) fun i hi ht => ?_⟩
  · obtain ⟨before, after, rfl⟩ := List.append_of_mem hq
    exact (horder before q after rfl).1
  · show (g.recorded i || decide (i ∈ qs)) = true
    rcases hmark i ht with hq | ht
    · simp [hq]
    · simp [h.transmitted i hi ht]

/-! ### Sections that keep the session -/

theorem recordsSlot_append (k l : List Action) (i : Nat) :
    recordsSlot (k ++ l) i = (recordsSlot k i || recordsSlot l i) := by
  unfold recordsSlot
  exact List.any_append

theorem recordsSlot_of_no_info {l : List Action} (h : ∀ a ∈ l, a.isInfo = false) (i : Nat) :
    recordsSlot l i = false := by
  unfold recordsSlot
  rw [List.any_eq_false]
  intro a ha
  have hi := h a ha
  cases a with
  | frame f =>
      replace hi : (f.type == .i) = false := hi
      simp [hi]
  | _ => exact Bool.false_ne_true

theorem recordsSlot_slots {c : Conn} (hw : WindowInv c) {qs : List Nat}
    (hqs : ∀ q ∈ qs, Mem 8 c.va c.vs q) (i : Nat) :
    recordsSlot (qs.map c.slotFrame) i = decide (i ∈ qs) := by
  induction qs with
  | nil => simp [recordsSlot]
  | cons q qs ih =>
      obtain ⟨f, hf, hi, hns, -⟩ := slotFrame_eq hw (hqs q List.mem_cons_self)
      have ih := ih fun x hx => hqs x (List.mem_cons_of_mem _ hx)
      have hhead : recordsSlot [c.slotFrame q] i = decide (i = q) := by
        rw [Bool.eq_iff_iff, decide_eq_true_eq, eq_comm (a := i)]
        simp [recordsSlot, hf, hi, hns]
      rw [List.map_cons, ← List.singleton_append, recordsSlot_append, hhead, ih]
      simp

/-- The ghost state after a section that kept the session, put together from the
changes of the window and the actions recorded. -/
theorem LogInv.assemble {c c' : Conn} {g : Ghost} {acts : List Action} {r : Nat → Bool}
    {k : List Entry} (hr : ranReset c.state c'.state acts = false)
    (h : LogInv c' { g with
      base := g.base + arc 8 c.va c'.va, got := g.got + arc 8 c.vr c'.vr
      recorded := r, log := g.log ++ k })
    (hrec : ∀ i, Mem 8 c'.va c'.vs i →
      ((decide (Mem 8 c.va c.vs i) && g.recorded i) || recordsSlot acts i) = r i)
    (hk : k = acts.map (Ghost.entry { g with
      base := g.base + arc 8 c.va c'.va, got := g.got + arc 8 c.vr c'.vr } c')) :
    LogInv c' ((g.next c c' acts).record c' acts) := by
  have hnext : g.next c c' acts = { g with
      base := g.base + arc 8 c.va c'.va
      got := g.got + arc 8 c.vr c'.vr
      recorded := fun i =>
        (decide (Mem 8 c.va c.vs i) && g.recorded i) || recordsSlot acts i } := by
    unfold Ghost.next
    rw [hr]
    rfl
  rw [hnext]
  subst hk
  exact h.congr_recorded hrec

theorem arc_mod8_succ {n : Nat} (h : n < 8) : arc 8 n (mod8 (n + 1)) = 1 := by
  have := arc_succ h h (by simp)
  simpa [mod8] using this

/-- An I or S frame is accounted for. -/
theorem LogInv.received {c : Conn} {f : Frame} {s₁ : Locked} {g : Ghost} (hw : WindowInv c)
    (h : LogInv c g) (hv : c.isValidNr f.nr = true)
    (hall : ∀ i, Mem 8 c.va f.nr i → g.recorded i = true) (hr : Received ⟨c, []⟩ f s₁) :
    LogInv s₁.conn { g with
      base := g.base + arc 8 c.va f.nr, got := g.got + arc 8 c.vr s₁.conn.vr
      log := g.log ++ s₁.deferred.map fun a =>
        ⟨a, g.session, g.got + arc 8 c.vr s₁.conn.vr - 1⟩ } := by
  obtain ⟨hva, hvs, hq, hvr⟩ := hr.vars
  have hack : LogInv s₁.conn { g with base := g.base + arc 8 c.va f.nr } := by
    have hack := h.ack hw f.nr_lt hv hall
    refine hack.congr hva hvs (fun i _ => by rw [hq]) fun i hi ht => ?_
    exact hack.transmitted i hi (hq ▸ ht)
  have hone := arc_mod8_succ hw.vr_lt
  rcases hr.deferred with hd | ⟨hd, hvr'⟩
  · rw [hd, List.map_nil, List.append_nil]
    rcases hvr with hvr | hvr
    · rw [hvr, arc_self]
      exact hack
    · rw [hvr, hone]
      exact hack.consume_empty
  · rw [hd, hvr', hone]
    exact hack.consume f.payload

theorem Emits.not_ordered {c : Conn} {a : Action} (h : Emits c a) (hi : a.isInfo = false) :
    a.ordered = false := by
  have hd : a.isData = false := by cases h <;> rfl
  simp [Action.ordered, hi, hd, h.isUa]

/-- The number of an I frame is that of its slot. -/
theorem Ghost.entry_slotFrame {c c' : Conn} (hw : WindowInv c) (g : Ghost) {q : Nat}
    (hq : Mem 8 c.va c.vs q) (hva : c'.va = c.va) :
    g.entry c' (c.slotFrame q) = g.slotEntry c q := by
  obtain ⟨f, hf, hi, hns, -⟩ := slotFrame_eq hw hq
  simp only [Ghost.entry, Ghost.slotEntry, hf, Ghost.number, hi, if_true, hns, hva]

/-- A section that receives an I or S frame with a valid N(R). -/
theorem LogInv.dataSection {c : Conn} {f : Frame} {s₁ t s : Locked} {g : Ghost}
    (hw : WindowInv c) (h : LogInv c g) (hv : c.isValidNr f.nr = true)
    (hall : ∀ i, Mem 8 c.va f.nr i → g.recorded i = true) (hr : Received ⟨c, []⟩ f s₁)
    (hq : Quiet 2 s₁ t) (hf : Flush t s)
    (hreset : ranReset c.state s.conn.state s.deferred = false) :
    LogInv s.conn ((g.next c s.conn s.deferred).record s.conn s.deferred) := by
  have hw₁ : WindowInv s₁.conn := WindowInv.received (s := ⟨c, []⟩) hw hv hr
  have hwt := hw₁.sameLink hq.link
  have hlink := (hf.transfer hwt.va_lt hwt.vs_lt).link
  obtain ⟨hva₁, hvs₁, -, -⟩ := hr.vars
  have hva : s.conn.va = f.nr := (hlink.va.trans hq.link.va).trans hva₁
  have hvs : s.conn.vs = c.vs := (hlink.vs.trans hq.link.vs).trans hvs₁
  have hvr : s.conn.vr = s₁.conn.vr := hlink.vr.trans hq.link.vr
  obtain ⟨l, hl, hlen, hem⟩ := hq.emits
  have hlen₁ : s₁.deferred.length ≤ 1 := by
    rcases hr.deferred with hd | ⟨hd, -⟩ <;> simp [hd]
  -- the entries of this section, as the machine stamps them
  let G : Ghost := { g with
    base := g.base + arc 8 c.va f.nr, got := g.got + arc 8 c.vr s₁.conn.vr }
  have hrec := h.received hw hv hall hr
  have hquiet : LogInv t.conn { G with
      log := g.log ++ s₁.deferred.map (G.entry s.conn) ++ l.map (G.entry s.conn) } := by
    have hstamp : (s₁.deferred.map fun a =>
        (⟨a, g.session, g.got + arc 8 c.vr s₁.conn.vr - 1⟩ : Entry)) =
          s₁.deferred.map (G.entry s.conn) := by
      rcases hr.deferred with hd | ⟨hd, -⟩ <;> rw [hd] <;> rfl
    rw [hstamp] at hrec
    refine (hrec.congr hq.link.va hq.link.vs (fun i _ => hq.link.data i) fun i hi ht =>
      hrec.transmitted i hi (hq.marks i ht)).others fun e he => ?_
    obtain ⟨a, ha, rfl⟩ := List.mem_map.mp he
    exact ⟨(hem a ha).1.not_ordered (hem a ha).2, Nat.le_refl _⟩
  obtain ⟨qs, hqs, hdef, hinv⟩ := hquiet.flush hwt hf (by
    rw [hl, List.length_append]
    omega)
  rw [hl] at hdef
  have hslots : qs.map (G.slotEntry t.conn) = (qs.map t.conn.slotFrame).map (G.entry s.conn) := by
    rw [List.map_map]
    refine List.map_congr_left fun q hmem => ?_
    exact (G.entry_slotFrame hwt (hqs q hmem) hlink.va).symm
  refine LogInv.assemble (r := fun i => g.recorded i || decide (i ∈ qs))
    (k := s.deferred.map (G.entry s.conn)) hreset ?_ ?_ ?_
  · rw [hva, hvr, hdef, List.map_append, List.map_append, ← hslots, ← List.append_assoc,
      ← List.append_assoc]
    exact hinv
  · intro i hi
    rw [hva, hvs] at hi
    have hd := (isValidNr_iff hw.va_lt hw.vs_lt f.nr_lt).mp hv
    have hold := ((mem_cut hw.va_lt hw.vs_lt f.nr_lt hd).mp hi).1
    have hno : recordsSlot (s₁.deferred ++ l) i = false := by
      refine recordsSlot_of_no_info (fun a ha => ?_) i
      rcases List.mem_append.mp ha with ha | ha
      · rcases hr.deferred with hd | ⟨hd, -⟩ <;> rw [hd] at ha
        · cases ha
        · rw [List.mem_singleton.mp ha]
          rfl
      · exact (hem a ha).2
    rw [hdef, recordsSlot_append, hno, recordsSlot_slots hwt hqs, decide_eq_true hold]
    rfl
  · rw [hva, hvr]

/-- A section that accepts a payload. -/
theorem LogInv.sendSection {c : Conn} {s : Locked} {g : Ghost} {data : List Byte}
    (hw : WindowInv c) (h : LogInv c g) (h₀ : 0 < data.length)
    (h₁ : data.length ≤ maxInfoLen)
    (hroom : c.outstandingFrames < c.config.windowSize.toNat)
    (hs : sendPendingIFrames ⟨c.queued data, []⟩ = (s, .ok))
    (hreset : ranReset c.state s.conn.state s.deferred = false) :
    LogInv s.conn (((g.next c s.conn s.deferred).accept (.sendData data) (.returned .ok)).record
      s.conn s.deferred) := by
  have hw₁ := hw.queued hroom h₀ h₁
  have hf : Flush ⟨c.queued data, []⟩ s := by
    have hsent := Flush.sent (t := ⟨c.queued data, []⟩)
    rwa [hs] at hsent
  have hlink := (hf.transfer hw₁.va_lt hw₁.vs_lt).link
  have hva : s.conn.va = c.va := hlink.va
  have hvr : s.conn.vr = c.vr := hlink.vr
  let G : Ghost := { g with
    accepted := Function.update g.accepted g.session (g.accepted g.session ++ [data]) }
  have hghost : (g.next c s.conn s.deferred).accept (.sendData data) (.returned .ok) =
      G.next c s.conn s.deferred := by
    unfold Ghost.next
    rw [hreset]
    rfl
  obtain ⟨qs, hqs, hdef, hinv⟩ := (h.queue hw data hroom).flush hw₁ hf (Nat.zero_le 5)
  rw [List.nil_append] at hdef
  have hslots : qs.map (G.slotEntry (c.queued data)) =
      (qs.map (c.queued data).slotFrame).map (G.entry s.conn) := by
    rw [List.map_map]
    refine List.map_congr_left fun q hmem => ?_
    exact (G.entry_slotFrame hw₁ (hqs q hmem) hlink.va).symm
  rw [hghost]
  refine LogInv.assemble (r := fun i => (decide (i ≠ c.vs) && g.recorded i) || decide (i ∈ qs))
    (k := s.deferred.map (G.entry s.conn)) hreset ?_ ?_ ?_
  · rw [hva, hvr, arc_self, arc_self, hdef, ← hslots]
    exact hinv
  · -- a slot of the new window was in the old one, or has just been filled
    intro i hi
    rw [hdef, recordsSlot_slots hw₁ hqs]
    congr 2
    rw [hva, show s.conn.vs = (c.vs + 1) % 8 from hlink.vs] at hi
    rw [outstandingFrames_eq hw.va_lt hw.vs_lt] at hroom
    have hsize := hw.size_le
    rcases (mem_succ_right hw.va_lt hw.vs_lt (by omega)).mp hi with hm | rfl
    · rw [decide_eq_true hm, decide_eq_true]
      intro heq
      subst heq
      exact not_mem_right hm
    · rw [decide_eq_false not_mem_right, decide_eq_false (by simp)]
  · rw [hva, hvr, arc_self, arc_self]
    rfl

/-! ### Every section -/

theorem not_ua_of_not_ranReset {st st' : ConnState} {acts : List Action}
    (h : ranReset st st' acts = false) : ∀ a ∈ acts, a.isUa = false := by
  intro a ha
  cases hu : a.isUa with
  | false => rfl
  | true =>
      have : acts.any Action.isUa = true := List.any_eq_true.mpr ⟨a, ha, hu⟩
      rw [ranReset, this] at h
      cases h

/-- A section that records no I frame and no payload: it resets the variables,
or leaves the window as it is. -/
theorem LogInv.plainSection {c c' : Conn} {g : Ghost} {acts : List Action} (h : LogInv c g)
    (hacts : ∀ a ∈ acts, a.isInfo = false ∧ a.isData = false)
    (hzero : ranReset c.state c'.state acts = true → c'.vs = 0 ∧ c'.va = 0)
    (hsame : ranReset c.state c'.state acts = false → c'.va = c.va ∧ c'.vs = c.vs ∧
      c'.vr = c.vr ∧ ∀ i, Mem 8 c.va c.vs i → c'.txQueue i = c.txQueue i) :
    LogInv c' ((g.next c c' acts).record c' acts) := by
  cases hr : ranReset c.state c'.state acts with
  | true =>
      obtain ⟨hvs, hva⟩ := hzero hr
      have hnext : g.next c c' acts =
          { g with session := g.session + 1, base := 0, got := 0, recorded := fun _ => false } := by
        unfold Ghost.next
        rw [hr]
        rfl
      rw [hnext]
      refine h.reset hvs hva fun e he => ?_
      obtain ⟨a, ha, rfl⟩ := List.mem_map.mp he
      exact ⟨rfl, hacts a ha⟩
  | false =>
      obtain ⟨hva, hvs, hvr, hq⟩ := hsame hr
      have hsec : LogInv c' g :=
        h.congr hva hvs (fun i hi => by rw [hq i hi]) fun i hi ht =>
          h.transmitted i hi (hq i hi ▸ ht)
      refine LogInv.assemble hr ?_ (r := g.recorded) (k := acts.map _) (fun i hi => ?_) rfl
      · rw [hva, hvr, arc_self, arc_self]
        refine hsec.others fun e he => ?_
        obtain ⟨a, ha, rfl⟩ := List.mem_map.mp he
        obtain ⟨hi, hd⟩ := hacts a ha
        exact ⟨by simp [Ghost.entry, Action.ordered, hi, hd, not_ua_of_not_ranReset hr a ha],
          Nat.le_refl _⟩
      · rw [recordsSlot_of_no_info (fun a ha => (hacts a ha).1), Bool.or_false]
        rw [hva, hvs] at hi
        rw [decide_eq_true hi, Bool.true_and]

theorem Farewell.plain {c : Conn} {a : Action} (h : Farewell c a) :
    a.isInfo = false ∧ a.isData = false := by
  cases h <;> exact ⟨rfl, rfl⟩

theorem Ghost.accept_of_ne {g : Ghost} {op : Op} {o : Outcome}
    (h : ∀ data, op = .sendData data → o ≠ .returned .ok) : g.accept op o = g := by
  unfold Ghost.accept
  split
  · exact absurd rfl (h _ rfl)
  · rfl

/-- The section is that of an I or S frame with a valid N(R). -/
def DataSection (c : Conn) (op : Op) (s : Locked) : Prop :=
  ∃ f s₁ t, op = .onFrame f ∧ c.Linked ∧ (f.type = .s ∨ f.type = .i) ∧
    c.isValidNr f.nr = true ∧ Received ⟨c, []⟩ f s₁ ∧ Transfer s₁ s ∧ Quiet 2 s₁ t ∧ Flush t s

/-- The other sections record neither I frames nor payloads. -/
theorem SectionStep.no_transfer {c : Conn} {op : Op} {s : Locked} {o : Outcome}
    (hsec : SectionStep c op s o) (hnosend : ∀ data, op = .sendData data → o ≠ .returned .ok)
    (hnodata : ¬ DataSection c op s) : ∀ a ∈ s.deferred, a.isInfo = false ∧ a.isData = false := by
  intro a ha
  cases hsec with
  | data f hl hty hv hr ht hd hq hf =>
      exact absurd ⟨f, _, _, rfl, hl, hty, hv, hr, ht, hq, hf⟩ hnodata
  | send data => exact absurd rfl (hnosend data rfl)
  | relink f =>
      rcases List.mem_append.mp ha with ha | ha
      · split_ifs at ha
        · rw [List.mem_singleton.mp ha]
          exact ⟨rfl, rfl⟩
        · cases ha
      · rw [List.mem_singleton.mp ha]
        exact ⟨rfl, rfl⟩
  | teardown pre hne hlen hf =>
      rcases List.mem_append.mp ha with ha | ha
      · exact (hf a ha).plain
      · simp only [List.mem_cons, List.not_mem_nil, or_false] at ha
        rcases ha with rfl | rfl <;> exact ⟨rfl, rfl⟩
  | reestablish =>
      simp only [List.mem_cons, List.not_mem_nil, or_false] at ha
      rcases ha with rfl | rfl <;> exact ⟨rfl, rfl⟩
  | t2Ack b hl hp he hi =>
      rw [List.mem_singleton.mp ha]
      exact ⟨hi, by cases he <;> rfl⟩
  | collision | dial | reject | release | busyOn | busyOff | retry | poll | t3Poll =>
      rw [List.mem_singleton.mp ha]
      exact ⟨rfl, rfl⟩
  | _ => cases ha

/-- Sections other than those of `LogInv.dataSection` and `LogInv.sendSection`. -/
theorem SectionStep.plain {c : Conn} {op : Op} {s : Locked} {o : Outcome} {g : Ghost}
    (hsec : SectionStep c op s o) (h : LogInv c g)
    (hnosend : ∀ data, op = .sendData data → o ≠ .returned .ok)
    (hnodata : ¬ DataSection c op s) :
    LogInv s.conn ((g.next c s.conn s.deferred).record s.conn s.deferred) := by
  have hzero := fun hr => (hsec.vars_of_ranReset hr)
  have hsame : ∀ {c' : Conn}, c'.va = c.va → c'.vs = c.vs → c'.vr = c.vr →
      c'.txQueue = c.txQueue → c'.va = c.va ∧ c'.vs = c.vs ∧ c'.vr = c.vr ∧
        ∀ i, Mem 8 c.va c.vs i → c'.txQueue i = c.txQueue i :=
    fun h₁ h₂ h₃ h₄ => ⟨h₁, h₂, h₃, fun i _ => by rw [h₄]⟩
  refine h.plainSection (hsec.no_transfer hnosend hnodata)
    (fun hr => ⟨(hzero hr).1, (hzero hr).2.1⟩) ?_
  · -- a section that does not reset the variables does not touch the window
    intro hr
    cases hsec with
    | data f hl hty hv hr ht hd hq hf =>
        exact absurd ⟨f, _, _, rfl, hl, hty, hv, hr, ht, hq, hf⟩ hnodata
    | send data => exact absurd rfl (hnosend data rfl)
    | request f =>
        obtain ⟨p, hp⟩ := adopt_eq { c with remoteAddr := f.source, remoteAddrSet := true } f
        rw [requested, hp]
        exact hsame rfl rfl rfl rfl
    | opened f hst => simp [hst, ranReset, ConnState.unnumbered, linkUp, Conn.cleared] at hr
    | collision f | relink f => simp [ranReset, isUa_uFrame] at hr
    | teardown pre hne =>
        simp [ranReset, ConnState.unnumbered, torn, Conn.cleared, hne] at hr
    | reestablish f c₀ msg ret hl hc =>
        rcases hl with hst | hst <;>
          simp [ranReset, hst, ConnState.unnumbered, reestablishing, startTimerT1, Conn.cleared]
            at hr
    | dial a ds hst =>
        simp [ranReset, hst, ConnState.unnumbered, dialing, startTimerT1, Conn.cleared] at hr
    | _ => exact hsame rfl rfl rfl rfl

/-- **Every section keeps the log in order**, if no N(R) acknowledges a payload
that was never recorded. -/
theorem SectionStep.log {c : Conn} {op : Op} {s : Locked} {o : Outcome} {g : Ghost}
    (hsec : SectionStep c op s o) (hbody : op.body ⟨c, []⟩ = (s, o)) (hp : op.precheck c = none)
    (hw : WindowInv c) (h : LogInv c g)
    (hall : ∀ f, op = .onFrame f → c.Linked → f.type = .s ∨ f.type = .i →
      c.isValidNr f.nr = true → ∀ i, Mem 8 c.va f.nr i → g.recorded i = true) :
    LogInv s.conn
      (((g.next c s.conn s.deferred).accept op o).record s.conn s.deferred) := by
  by_cases hsend : ∃ data, op = .sendData data ∧ o = .returned .ok
  · obtain ⟨data, rfl, rfl⟩ := hsend
    obtain ⟨hl, hq, hs⟩ := sendData_ok hbody
    obtain ⟨hroom, -, -⟩ := queueIFrame_ok hq
    obtain ⟨h₀, h₁⟩ := precheck_sendData hp
    have ht := transfer_sendPendingIFrames ⟨c.queued data, []⟩ hw.va_lt (mod8_lt _)
    rw [hs] at ht
    exact h.sendSection hw h₀ h₁ hroom hs
      (ranReset_of_linked hl (ht.link.linked hl) (ht.no_ua (by simp)))
  · have hnosend : ∀ data, op = .sendData data → o ≠ .returned .ok :=
      fun data ho hr => hsend ⟨data, ho, hr⟩
    rw [Ghost.accept_of_ne hnosend]
    by_cases hdata : DataSection c op s
    · obtain ⟨f, s₁, t, rfl, hl, hty, hv, hr, ht, hq, hf⟩ := hdata
      have hl₁ : s.conn.Linked := ht.link.linked (by unfold Linked; rw [hr.state]; exact hl)
      exact h.dataSection hw hv (hall f rfl hl hty hv) hr hq hf
        (ranReset_of_linked hl hl₁ (ht.no_ua hr.no_ua))
    · exact hsec.plain h hnosend hdata

/-- Only a call that receives an I frame records a payload. -/
theorem SectionStep.no_payload {c : Conn} {op : Op} {s : Locked} {o : Outcome}
    (hsec : SectionStep c op s o) (hbody : op.body ⟨c, []⟩ = (s, o)) (hw : WindowInv c)
    (hop : ∀ f, op = .onFrame f → f.type ≠ .i) : ∀ a ∈ s.deferred, a.isData = false := by
  by_cases hsend : ∃ data, op = .sendData data ∧ o = .returned .ok
  · obtain ⟨data, rfl, rfl⟩ := hsend
    have ht := transfer_sendPendingIFrames ⟨c.queued data, []⟩ hw.va_lt (mod8_lt _)
    rw [(sendData_ok hbody).2.2] at ht
    obtain ⟨l, hdef, hem⟩ := ht.emits
    intro a ha
    rw [hdef, List.nil_append] at ha
    obtain ⟨g, rfl⟩ := (hem a ha).exists_frame
    rfl
  · by_cases hdata : DataSection c op s
    · obtain ⟨f, s₁, t, rfl, -, -, -, hr, ht, -, -⟩ := hdata
      obtain ⟨l, hdef, hem⟩ := ht.emits
      intro a ha
      cases hr with
      | ack =>
          rw [hdef] at ha
          rcases List.mem_append.mp ha with ha | ha
          · cases ha
          · obtain ⟨g, rfl⟩ := (hem a ha).exists_frame
            rfl
      | data hi => exact absurd hi (hop f rfl)
    · exact fun a ha => (hsec.no_transfer (fun data ho hr => hsend ⟨data, ho, hr⟩) hdata a ha).2

theorem DecideStep.log {c c' : Conn} {f : Frame} {acts : List Action} {g : Ghost}
    (hdec : DecideStep c f c' acts) (hidle : IdleReset c) (h : LogInv c g) :
    LogInv c' ((g.next c c' acts).record c' acts) := by
  cases hdec with
  | accepted hr =>
      refine h.plainSection (fun a ha => ?_) (fun _ => ⟨rfl, rfl⟩) fun hr => ?_
      · rw [List.mem_singleton.mp ha]
        exact ⟨rfl, rfl⟩
      · simp [ranReset, isUa_uFrame] at hr
  | refused hr =>
      refine h.plainSection (fun a ha => ?_) (fun _ => ⟨rfl, rfl⟩) fun hr => ?_
      · simp only [List.mem_cons] at ha
        rcases ha with rfl | rfl | ha
        · exact ⟨rfl, rfl⟩
        · exact ⟨rfl, rfl⟩
        · split_ifs at ha
          · cases ha
          · rw [List.mem_singleton.mp ha]
            exact ⟨rfl, rfl⟩
      · -- without a session the variables were 0 before
        have hst : c.state = .disconnected := by
          by_contra hst
          simp [ranReset, ConnState.unnumbered, torn, Conn.cleared, hst] at hr
        obtain ⟨hvs, hva, hvr⟩ := hidle (Or.inl hst)
        refine ⟨hva.symm, hvs.symm, hvr.symm, fun i hi => ?_⟩
        rw [hva, hvs] at hi
        exact absurd hi not_mem_self

end EspAx25
