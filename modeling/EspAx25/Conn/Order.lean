import EspAx25.History
import EspAx25.Conn.Loss

/-!
# EspAx25.Conn.Order

The order in which a connection records its I frames, payloads and UAs.

`Follows` is what the peer and the application may rely on: I frames carry the
payloads that `send_data` accepted, without a gap before a first transmission;
payloads are passed on in the order of V(R); and the UA that opens a session
comes before its I frames. The log of the locked sections is in this order in
every state (`LogInv`), provided that no N(R) acknowledges a payload that was
never recorded. Whether the application sees it is a question of the drains
(`EspAx25.Conn.Drain`).
-/

namespace EspAx25

open Cyclic Conn Locked History

/-! ### The law -/

/-- The action passes a payload to `on_data`. -/
def Action.isData : Action → Bool
  | .data _ => true
  | _ => false

/-- The actions whose order matters. -/
def Action.ordered (a : Action) : Bool := a.isInfo || a.isData || a.isUa

/-- What the peer gets to see, and what the application does. -/
inductive Stream
  | sent
  | passed

/-- The actions of a stream whose order matters. -/
def Action.inStream (a : Action) : Stream → Bool
  | .sent => a.isInfo || a.isUa
  | .passed => a.isData

/-- What entry `e` may rely on if `before` has been invoked ahead of it. -/
structure Follows (accepted : Nat → List (List Byte)) (before : List Entry) (e : Entry) :
    Prop where
  /-- An I frame carries the payload of its number, and the one before was sent. -/
  info : ∀ f, e.action = .frame f → f.type = .i →
    (accepted e.session)[e.num]? = some f.payload ∧ f.ns = e.num % 8 ∧
      (∀ d ∈ before, d.action.isInfo = true → d.session ≤ e.session) ∧
      (e.num = 0 ∨
        ∃ d ∈ before, d.action.isInfo = true ∧ d.session = e.session ∧ d.num + 1 = e.num)
  /-- A payload comes after all that were consumed before it. -/
  data : e.action.isData = true → ∀ d ∈ before, d.action.isData = true →
    d.session < e.session ∨ d.session = e.session ∧ d.num < e.num
  /-- A UA comes ahead of the session that it opens. -/
  ua : e.action.isUa = true → ∀ d ∈ before, d.action.isInfo = true → d.session ≠ e.session

/-- The entries are in order. -/
def InOrder (accepted : Nat → List (List Byte)) (l : List Entry) : Prop :=
  Ordered (Follows accepted) l

theorem Action.isInfo_frame {a : Action} {f : Frame} (ha : a = .frame f) (hf : f.type = .i) :
    a.isInfo = true := by
  subst ha
  simp [isInfo, hf]

theorem Action.not_ordered {a : Action} (h : a.ordered = false) :
    a.isInfo = false ∧ a.isData = false ∧ a.isUa = false := by
  simpa [ordered, and_assoc] using h

/-- Nothing is asked of the other actions. -/
theorem follows_of_unordered {accepted : Nat → List (List Byte)} {before : List Entry} {e : Entry}
    (h : e.action.ordered = false) : Follows accepted before e := by
  obtain ⟨h₁, h₂, h₃⟩ := Action.not_ordered h
  refine ⟨fun f hf hi => ?_, fun hd => ?_, fun hu => ?_⟩
  · cases (Action.isInfo_frame hf hi).symm.trans h₁
  · cases hd.symm.trans h₂
  · cases hu.symm.trans h₃

theorem Action.inStream_of_unordered {a : Action} (h : a.ordered = false) (s : Stream) :
    a.inStream s = false := by
  obtain ⟨h₁, h₂, h₃⟩ := Action.not_ordered h
  cases s with
  | sent => simp [inStream, h₁, h₃]
  | passed => exact h₂

theorem Action.inStream_sent {a : Action} (h : a.inStream .sent = true) : a.isData = false := by
  cases a with
  | data => cases h
  | _ => rfl

/-- An entry is compared with those of its own stream. -/
theorem follows_inStream {accepted : Nat → List (List Byte)} {before : List Entry} {e : Entry}
    {s : Stream} (he : e.action.inStream s = true) :
    Follows accepted (before.filter (·.action.inStream s)) e ↔ Follows accepted before e := by
  cases s with
  | sent =>
      have hinfo : ∀ d : Entry, d.action.isInfo = true → d.action.inStream .sent = true := by
        intro d hd
        simp [Action.inStream, hd]
      have hdata : ¬ e.action.isData = true := by
        rw [Action.inStream_sent he]
        exact Bool.false_ne_true
      constructor
      · intro hboth
        obtain ⟨h₁, -, h₃⟩ := hboth
        refine ⟨fun f hf hi => ?_, fun hd => absurd hd hdata,
          fun hu d hm hx => h₃ hu d (List.mem_filter.mpr ⟨hm, hinfo d hx⟩) hx⟩
        obtain ⟨hp, hn, hs, hprev⟩ := h₁ f hf hi
        refine ⟨hp, hn, fun d hm hx => hs d (List.mem_filter.mpr ⟨hm, hinfo d hx⟩) hx,
          hprev.imp_right ?_⟩
        intro hsome
        obtain ⟨d, hm, hx⟩ := hsome
        exact ⟨d, List.mem_of_mem_filter hm, hx⟩
      · intro hboth
        obtain ⟨h₁, -, h₃⟩ := hboth
        refine ⟨fun f hf hi => ?_, fun hd => absurd hd hdata,
          fun hu d hm hx => h₃ hu d (List.mem_of_mem_filter hm) hx⟩
        obtain ⟨hp, hn, hs, hprev⟩ := h₁ f hf hi
        refine ⟨hp, hn, fun d hm hx => hs d (List.mem_of_mem_filter hm) hx, hprev.imp_right ?_⟩
        intro hsome
        obtain ⟨d, hm, hx⟩ := hsome
        exact ⟨d, List.mem_filter.mpr ⟨hm, hinfo d hx.1⟩, hx⟩
  | passed =>
      -- a payload is no frame
      have hframe : (∀ f, e.action ≠ .frame f) ∧ ¬ e.action.isUa = true := by
        cases ha : e.action with
        | data => exact ⟨nofun, Bool.false_ne_true⟩
        | _ =>
            rw [ha] at he
            cases he
      constructor
      · intro hboth
        exact ⟨fun f hf => absurd hf (hframe.1 f),
          fun hd d hm hx => hboth.data hd d (List.mem_filter.mpr ⟨hm, hx⟩) hx,
          fun hu => absurd hu hframe.2⟩
      · intro hboth
        exact ⟨fun f hf => absurd hf (hframe.1 f),
          fun hd d hm hx => hboth.data hd d (List.mem_of_mem_filter hm) hx,
          fun hu => absurd hu hframe.2⟩

/-- The entries are in order if those of each stream are. -/
theorem inOrder_streams {accepted : Nat → List (List Byte)} {l : List Entry} :
    (∀ s, InOrder accepted (l.filter (·.action.inStream s))) ↔ InOrder accepted l := by
  refine ordered_streams (p := fun s (e : Entry) => e.action.inStream s) (fun _ e hno => ?_)
    fun _ _ _ => follows_inStream
  refine follows_of_unordered ?_
  have hsent := hno .sent
  have hpassed := hno .passed
  simp only [Action.inStream, Bool.or_eq_false_iff] at hsent hpassed
  simp [Action.ordered, hsent, hpassed]

/-- A payload accepted later changes nothing for what is in order already. -/
theorem InOrder.accept {accepted accepted' : Nat → List (List Byte)} {l : List Entry}
    (h : InOrder accepted l) (hacc : ∀ k, accepted k <+: accepted' k) : InOrder accepted' l := by
  refine Ordered.mono h fun before e he => ⟨fun f hf hi => ?_, he.data, he.ua⟩
  obtain ⟨hp, hrest⟩ := he.info f hf hi
  refine ⟨?_, hrest⟩
  obtain ⟨k, hk⟩ := hacc e.session
  rw [← hk, List.getElem?_append_left (List.getElem?_eq_some_iff.mp hp).1]
  exact hp

/-! ### The invariant of the log -/

/-- Payload `n` of the current session is in the log as an I frame. -/
def Ghost.Sent (g : Ghost) (n : Nat) : Prop :=
  ∃ e ∈ g.log, e.action.isInfo = true ∧ e.session = g.session ∧ e.num = n

/-- The log is in order, and agrees with the window: the payloads recorded so
far are the acknowledged ones and an initial part of the window. -/
structure LogInv (c : Conn) (g : Ghost) : Prop where
  inOrder : InOrder g.accepted g.log
  sessions : ∀ e ∈ g.log, e.session ≤ g.session
  base_mod : g.base % 8 = c.va
  acked : ∀ n < g.base, g.Sent n
  recorded : ∀ i, Mem 8 c.va c.vs i → g.recorded i = true → g.Sent (g.base + arc 8 c.va i)
  initial : ∀ i j, Mem 8 c.va c.vs i → Mem 8 c.va c.vs j → arc 8 c.va i ≤ arc 8 c.va j →
    g.recorded j = true → g.recorded i = true
  transmitted : ∀ i, Mem 8 c.va c.vs i → (c.txQueue i).transmitted = true → g.recorded i = true
  payload : ∀ i, Mem 8 c.va c.vs i →
    (g.accepted g.session)[g.base + arc 8 c.va i]? = some (c.txQueue i).data
  length : (g.accepted g.session).length = g.base + arc 8 c.va c.vs
  future : ∀ k, g.session < k → g.accepted k = []
  got : ∀ e ∈ g.log, e.action.isData = true → e.session = g.session → e.num < g.got

theorem Ghost.Sent.mono {g g' : Ghost} {n : Nat} (h : g.Sent n) (hs : g'.session = g.session)
    (hl : ∃ k, g'.log = g.log ++ k) : g'.Sent n := by
  obtain ⟨e, he, hi, hse, hn⟩ := h
  obtain ⟨k, hk⟩ := hl
  exact ⟨e, hk ▸ List.mem_append_left k he, hi, hse.trans hs.symm, hn⟩

namespace LogInv

variable {c c' : Conn} {g : Ghost}

/-- Only the window matters: the payloads in it, and that marks mean what they
say. -/
theorem congr (h : LogInv c g) (hva : c'.va = c.va) (hvs : c'.vs = c.vs)
    (hdata : ∀ i, Mem 8 c.va c.vs i → (c'.txQueue i).data = (c.txQueue i).data)
    (hmark : ∀ i, Mem 8 c.va c.vs i → (c'.txQueue i).transmitted = true → g.recorded i = true) :
    LogInv c' g := by
  obtain ⟨h₁, h₂, h₃, h₄, h₅, h₆, -, h₈, h₉, h₁₀, h₁₁⟩ := h
  refine ⟨h₁, h₂, hva ▸ h₃, h₄, by rwa [hva, hvs], by rwa [hva, hvs], by rwa [hva, hvs],
    fun i hi => ?_, by rwa [hva, hvs], h₁₀, h₁₁⟩
  rw [hva, hvs] at hi
  rw [hva, hdata i hi]
  exact h₈ i hi

/-- Of the ghost state, what is recorded outside the window does not matter. -/
theorem congr_recorded (h : LogInv c g) {r : Nat → Bool}
    (hr : ∀ i, Mem 8 c.va c.vs i → r i = g.recorded i) : LogInv c { g with recorded := r } where
  inOrder := h.inOrder
  sessions := h.sessions
  base_mod := h.base_mod
  acked := h.acked
  recorded := fun i hi hri => h.recorded i hi (hr i hi ▸ hri)
  initial := fun i j hi hj hd hrj => (hr i hi).trans (h.initial i j hi hj hd (hr j hj ▸ hrj))
  transmitted := fun i hi ht => (hr i hi).trans (h.transmitted i hi ht)
  payload := h.payload
  length := h.length
  future := h.future
  got := h.got

/-- An action whose order does not matter is recorded. -/
theorem other (h : LogInv c g) {e : Entry} (ho : e.action.ordered = false)
    (hs : e.session ≤ g.session) : LogInv c { g with log := g.log ++ [e] } where
  inOrder := ordered_snoc.mpr ⟨h.inOrder, follows_of_unordered ho⟩
  sessions := by
    intro d hd
    rcases List.mem_append.mp hd with hd | hd
    · exact h.sessions d hd
    · rw [List.mem_singleton.mp hd]
      exact hs
  base_mod := h.base_mod
  acked := fun n hn => (h.acked n hn).mono rfl ⟨_, rfl⟩
  recorded := fun i hi hr => (h.recorded i hi hr).mono rfl ⟨_, rfl⟩
  initial := h.initial
  transmitted := h.transmitted
  payload := h.payload
  length := h.length
  future := h.future
  got := by
    intro d hd hx
    rcases List.mem_append.mp hd with hd | hd
    · exact h.got d hd hx
    · rw [List.mem_singleton.mp hd, (Action.not_ordered ho).2.1] at hx
      cases hx

theorem others (h : LogInv c g) {k : List Entry}
    (hk : ∀ e ∈ k, e.action.ordered = false ∧ e.session ≤ g.session) :
    LogInv c { g with log := g.log ++ k } := by
  induction k using List.reverseRecOn with
  | nil => simpa using h
  | append_singleton k e ih =>
      have hlast := hk e (by simp)
      have h := (ih fun d hd => hk d (by simp [hd])).other hlast.1 hlast.2
      simpa using h

/-- An I frame is consumed, and its payload passed on. -/
theorem consume (h : LogInv c g) (p : List Byte) :
    LogInv c { g with got := g.got + 1, log := g.log ++ [⟨.data p, g.session, g.got⟩] } where
  inOrder := by
    refine ordered_snoc.mpr ⟨h.inOrder, nofun, fun _ d hd hx => ?_, nofun⟩
    rcases Nat.lt_or_eq_of_le (h.sessions d hd) with hs | hs
    · exact Or.inl hs
    · exact Or.inr ⟨hs, h.got d hd hx hs⟩
  sessions := by
    intro d hd
    rcases List.mem_append.mp hd with hd | hd
    · exact h.sessions d hd
    · obtain rfl := List.mem_singleton.mp hd
      exact Nat.le_refl _
  base_mod := h.base_mod
  acked := fun n hn => (h.acked n hn).mono rfl ⟨_, rfl⟩
  recorded := fun i hi hr => (h.recorded i hi hr).mono rfl ⟨_, rfl⟩
  initial := h.initial
  transmitted := h.transmitted
  payload := h.payload
  length := h.length
  future := h.future
  got := by
    intro d hd hx hs
    rcases List.mem_append.mp hd with hd | hd
    · exact Nat.lt_succ_of_lt (h.got d hd hx hs)
    · rw [List.mem_singleton.mp hd]
      exact Nat.lt_succ_self _

/-- An I frame without a payload is consumed. -/
theorem consume_empty (h : LogInv c g) : LogInv c { g with got := g.got + 1 } :=
  { h with got := fun e he hx hs => Nat.lt_succ_of_lt (h.got e he hx hs) }

end LogInv

/-! ### I frames -/

/-- The entry that records slot `q` in context `c`. -/
def Ghost.slotEntry (g : Ghost) (c : Conn) (q : Nat) : Entry :=
  ⟨c.slotFrame q, g.session, g.base + arc 8 c.va q⟩

namespace LogInv

variable {c : Conn} {g : Ghost}

/-- Whatever precedes a slot that may be sent has been sent. -/
theorem sent_before (hw : WindowInv c) (h : LogInv c g) {q : Nat} (hq : Mem 8 c.va c.vs q)
    (hbefore : ∀ i, Mem 8 c.va c.vs i → arc 8 c.va i < arc 8 c.va q → g.recorded i = true) :
    g.base + arc 8 c.va q = 0 ∨ ∃ n, g.Sent n ∧ n + 1 = g.base + arc 8 c.va q := by
  by_cases hd : arc 8 c.va q = 0
  · -- the first slot of the window comes after the acknowledged payloads
    rw [hd, Nat.add_zero]
    rcases Nat.eq_zero_or_pos g.base with hb | hb
    · exact Or.inl hb
    · exact Or.inr ⟨g.base - 1, h.acked _ (by omega), by omega⟩
  · have hlt := hq.2
    have hvs := arc_lt (a := c.va) hw.vs_lt
    obtain ⟨i, hi, hdi⟩ := exists_arc_eq hw.va_lt (k := arc 8 c.va q - 1) (by omega)
    have hmem : Mem 8 c.va c.vs i := ⟨hi, by omega⟩
    exact Or.inr ⟨_, h.recorded i hmem (hbefore i hmem (by omega)), by omega⟩

/-- A slot is sent, all slots before it having been sent. -/
theorem slot (hw : WindowInv c) (h : LogInv c g) {q : Nat} (hq : Mem 8 c.va c.vs q)
    (hbefore : ∀ i, Mem 8 c.va c.vs i → arc 8 c.va i < arc 8 c.va q → g.recorded i = true) :
    LogInv c { g with
      recorded := fun i => g.recorded i || decide (i = q)
      log := g.log ++ [g.slotEntry c q] } := by
  obtain ⟨f, hf, hi, hns, hpay⟩ := slotFrame_eq hw hq
  have hinfo : (g.slotEntry c q).action.isInfo = true := Action.isInfo_frame hf hi
  have hfollow : Follows g.accepted g.log (g.slotEntry c q) := by
    refine ⟨fun f' hf' _ => ?_, fun hd => ?_, fun hu => ?_⟩
    · obtain rfl : f = f' := Action.frame.inj (hf.symm.trans hf')
      refine ⟨?_, ?_, fun d hd _ => h.sessions d hd, ?_⟩
      · rw [hpay]
        exact h.payload q hq
      · rw [hns]
        exact (add_arc_mod hw.va_lt hq.1 h.base_mod).symm
      · rcases h.sent_before hw hq hbefore with h₀ | ⟨n, ⟨d, hd, hdi, hds, rfl⟩, hn⟩
        · exact Or.inl h₀
        · exact Or.inr ⟨d, hd, hdi, hds, hn⟩
    · simp [Ghost.slotEntry, hf, Action.isData] at hd
    · simp [Ghost.slotEntry, hf, Action.isUa, hi] at hu
  have hnew : ∀ i, (g.recorded i || decide (i = q)) = true → g.recorded i = true ∨ i = q := by
    intro i hr
    simpa using hr
  refine ⟨ordered_snoc.mpr ⟨h.inOrder, hfollow⟩, fun d hd => ?_, h.base_mod,
    fun n hn => (h.acked n hn).mono rfl ⟨_, rfl⟩, fun i hm hr => ?_, fun i j hm hm' hd hr => ?_,
    fun i hm ht => ?_, h.payload, h.length, h.future, fun d hd hx hs => ?_⟩
  · rcases List.mem_append.mp hd with hd | hd
    · exact h.sessions d hd
    · obtain rfl := List.mem_singleton.mp hd
      exact Nat.le_refl _
  · rcases hnew i hr with hr | rfl
    · exact (h.recorded i hm hr).mono rfl ⟨_, rfl⟩
    · exact ⟨_, List.mem_append_right _ (List.mem_singleton.mpr rfl), hinfo, rfl, rfl⟩
  · -- below `q` everything was recorded already
    show (g.recorded i || decide (i = q)) = true
    rw [Bool.or_eq_true, decide_eq_true_eq]
    rcases hnew j hr with hr | rfl
    · exact Or.inl (h.initial i j hm hm' hd hr)
    · rcases Nat.lt_or_eq_of_le hd with hlt | heq
      · exact Or.inl (hbefore i hm hlt)
      · exact Or.inr (arc_inj hw.va_lt hm.1 hm'.1 heq)
  · show (g.recorded i || decide (i = q)) = true
    rw [h.transmitted i hm ht]
    rfl
  · rcases List.mem_append.mp hd with hd | hd
    · exact h.got d hd hx hs
    · rw [List.mem_singleton.mp hd] at hx
      simp [Ghost.slotEntry, hf, Action.isData] at hx

/-- Slots are sent one after the other, none before its predecessors. -/
theorem slots (hw : WindowInv c) (h : LogInv c g) (qs : List Nat)
    (hqs : ∀ before q after, qs = before ++ q :: after → Mem 8 c.va c.vs q ∧
      ∀ i, Mem 8 c.va c.vs i → arc 8 c.va i < arc 8 c.va q → g.recorded i = true ∨ i ∈ before) :
    LogInv c { g with
      recorded := fun i => g.recorded i || decide (i ∈ qs)
      log := g.log ++ qs.map (g.slotEntry c) } := by
  induction qs using List.reverseRecOn with
  | nil => simpa using h
  | append_singleton qs q ih =>
      have hqs' := ih fun before x after hx => hqs before x (after ++ [q]) (by rw [hx]; simp)
      obtain ⟨hq, hbefore⟩ := hqs qs q [] rfl
      have hslot := hqs'.slot hw hq fun i hi hd => by
        rcases hbefore i hi hd with hr | hr <;> simp [hr]
      have hlog : g.log ++ (qs ++ [q]).map (g.slotEntry c) =
          g.log ++ qs.map (g.slotEntry c) ++ [g.slotEntry c q] := by simp
      rw [hlog]
      refine hslot.congr_recorded fun i _ => ?_
      simp [Bool.or_assoc]

/-! ### Acknowledgements, new payloads, resets -/

/-- A valid N(R) that acknowledges nothing unsent. -/
theorem ack (hw : WindowInv c) (h : LogInv c g) {nr : Nat} (hn : nr < 8)
    (hv : c.isValidNr nr = true) (hall : ∀ i, Mem 8 c.va nr i → g.recorded i = true) :
    LogInv (c.ackConn nr) { g with base := g.base + arc 8 c.va nr } := by
  have hd := (isValidNr_iff hw.va_lt hw.vs_lt hn).mp hv
  have hlen := arc_add hw.va_lt hw.vs_lt hn hd
  -- a slot that stays is as far from the old V(A) as from the new one
  have hstay : ∀ i, Mem 8 nr c.vs i → Mem 8 c.va c.vs i ∧
      arc 8 c.va i = arc 8 c.va nr + arc 8 nr i := by
    intro i hi
    obtain ⟨hm, hnot⟩ := (mem_cut hw.va_lt hw.vs_lt hn hd).mp hi
    have hle : arc 8 c.va nr ≤ arc 8 c.va i := Nat.le_of_not_lt fun hlt => hnot ⟨hm.1, hlt⟩
    exact ⟨hm, (arc_add hw.va_lt hm.1 hn hle).symm⟩
  have hslot : ∀ i, ((c.ackConn nr).txQueue i).data = (c.txQueue i).data ∧
      ((c.ackConn nr).txQueue i).transmitted = (c.txQueue i).transmitted := by
    intro i
    simp only [ackConn, mapSlots]
    split <;> exact ⟨rfl, rfl⟩
  refine ⟨h.inOrder, h.sessions, add_arc_mod hw.va_lt hn h.base_mod, fun n hnb => ?_,
    fun i hi hr => ?_, fun i j hi hj hij hr => ?_, fun i hi ht => ?_, fun i hi => ?_, ?_, h.future,
    h.got⟩
  · rcases Nat.lt_or_ge n g.base with hlt | hge
    · exact h.acked n hlt
    · -- acknowledged just now
      replace hnb : n < g.base + arc 8 c.va nr := hnb
      have hnr := arc_lt (a := c.va) hn
      obtain ⟨i, hi, hdi⟩ := exists_arc_eq hw.va_lt (k := n - g.base) (by omega)
      have hmem : Mem 8 c.va nr i := ⟨hi, by omega⟩
      have hsent := h.recorded i ⟨hi, by omega⟩ (hall i hmem)
      rwa [hdi, Nat.add_sub_cancel' hge] at hsent
  · obtain ⟨hm, heq⟩ := hstay i hi
    have hsent := h.recorded i hm hr
    rwa [heq, ← Nat.add_assoc] at hsent
  · obtain ⟨hmi, hei⟩ := hstay i hi
    obtain ⟨hmj, hej⟩ := hstay j hj
    replace hij : arc 8 nr i ≤ arc 8 nr j := hij
    exact h.initial i j hmi hmj (by omega) hr
  · exact h.transmitted i (hstay i hi).1 ((hslot i).2 ▸ ht)
  · obtain ⟨hm, heq⟩ := hstay i hi
    have hpay := h.payload i hm
    rw [heq, ← Nat.add_assoc] at hpay
    exact hpay.trans (congrArg some (hslot i).1.symm)
  · have hlength := h.length
    rw [← hlen, ← Nat.add_assoc] at hlength
    exact hlength

/-- `send_data` puts a payload into slot V(S). -/
theorem queue (hw : WindowInv c) (h : LogInv c g) (data : List Byte)
    (hroom : c.outstandingFrames < c.config.windowSize.toNat) :
    LogInv (c.queued data) { g with
      recorded := fun i => decide (i ≠ c.vs) && g.recorded i
      accepted := Function.update g.accepted g.session (g.accepted g.session ++ [data]) } := by
  rw [outstandingFrames_eq hw.va_lt hw.vs_lt] at hroom
  have hsize := hw.size_le
  have harc : arc 8 c.va ((c.vs + 1) % 8) = arc 8 c.va c.vs + 1 :=
    arc_succ hw.va_lt hw.vs_lt (by omega)
  have hmem : ∀ i, Mem 8 c.va ((c.vs + 1) % 8) i ↔ Mem 8 c.va c.vs i ∨ i = c.vs :=
    fun i => mem_succ_right hw.va_lt hw.vs_lt (by omega)
  have hold : ∀ i, Mem 8 c.va c.vs i → i ≠ c.vs := by
    rintro i hi rfl
    exact not_mem_right hi
  have hne : ∀ i, i ≠ c.vs → (c.queued data).txQueue i = c.txQueue i := by
    intro i hi
    simp [queued, hi]
  have hnew : (c.queued data).txQueue c.vs =
      { data := data, len := data.length, ns := c.vs, inUse := true, transmitted := false } := by
    simp [queued]
  have hacc : ∀ k, g.accepted k <+:
      Function.update g.accepted g.session (g.accepted g.session ++ [data]) k := by
    intro k
    by_cases hk : k = g.session
    · subst hk
      simp
    · simp [hk]
  -- a slot of the old window, from a recorded slot of the new one
  have hrec : ∀ i, Mem 8 c.va ((c.vs + 1) % 8) i →
      (decide (i ≠ c.vs) && g.recorded i) = true → Mem 8 c.va c.vs i ∧ g.recorded i = true := by
    intro i hi hr
    rw [Bool.and_eq_true, decide_eq_true_eq] at hr
    exact ⟨((hmem i).mp hi).resolve_right hr.1, hr.2⟩
  refine ⟨h.inOrder.accept hacc, h.sessions, h.base_mod, h.acked, fun i hi hr => ?_,
    fun i j hi hj hij hr => ?_, fun i hi ht => ?_, fun i hi => ?_, ?_, fun k hk => ?_, h.got⟩
  · obtain ⟨hm, hr⟩ := hrec i hi hr
    exact h.recorded i hm hr
  · obtain ⟨hmj, hr⟩ := hrec j hj hr
    replace hij : arc 8 c.va i ≤ arc 8 c.va j := hij
    have hmi : Mem 8 c.va c.vs i := ⟨hi.1, Nat.lt_of_le_of_lt hij hmj.2⟩
    show (decide (i ≠ c.vs) && g.recorded i) = true
    rw [h.initial i j hmi hmj hij hr, decide_eq_true (hold i hmi)]
    rfl
  · by_cases hi' : i = c.vs
    · rw [hi', hnew] at ht
      cases ht
    · have hm := ((hmem i).mp hi).resolve_right hi'
      rw [hne i hi'] at ht
      show (decide (i ≠ c.vs) && g.recorded i) = true
      rw [h.transmitted i hm ht, decide_eq_true hi']
      rfl
  · show (Function.update g.accepted g.session _ g.session)[g.base + arc 8 c.va i]? = _
    rw [Function.update_self]
    rcases (hmem i).mp hi with hm | rfl
    · rw [hne i (hold i hm), List.getElem?_append_left]
      · exact h.payload i hm
      · rw [h.length]
        exact Nat.add_lt_add_left hm.2 _
    · rw [hnew, ← h.length, List.getElem?_concat_length]
  · show (Function.update g.accepted g.session _ g.session).length =
      g.base + arc 8 c.va ((c.vs + 1) % 8)
    rw [Function.update_self, harc, List.length_append, h.length]
    rfl
  · have hk' : k ≠ g.session := Nat.ne_of_gt hk
    show Function.update g.accepted g.session _ k = []
    rw [Function.update_of_ne hk']
    exact h.future k hk

/-- The sequence variables are reset; no I frame and no payload is recorded. -/
theorem reset {c' : Conn} (h : LogInv c g) (hvs : c'.vs = 0) (hva : c'.va = 0) {k : List Entry}
    (hk : ∀ e ∈ k, e.session = g.session + 1 ∧ e.action.isInfo = false ∧
      e.action.isData = false) :
    LogInv c' { g with
      session := g.session + 1, base := 0, got := 0, recorded := fun _ => false
      log := g.log ++ k } := by
  have hnone : ∀ i, ¬ Mem 8 c'.va c'.vs i := by
    intro i
    rw [hva, hvs]
    exact not_mem_self
  refine ⟨Ordered.append h.inOrder fun before e after he => ?_, fun e he => ?_, hva.symm,
    nofun, fun i hi => absurd hi (hnone i), fun i _ hi => absurd hi (hnone i),
    fun i hi => absurd hi (hnone i), fun i hi => absurd hi (hnone i), ?_, fun n hn => ?_,
    fun e he hx hs => ?_⟩
  · obtain ⟨hs, hi, hd⟩ := hk e (by rw [he]; simp)
    refine ⟨fun f hf hf' => ?_, fun hx => ?_, fun _ d hd hx => ?_⟩
    · cases (Action.isInfo_frame hf hf').symm.trans hi
    · cases hx.symm.trans hd
    · -- no I frame has the number of the session that begins
      rcases List.mem_append.mp hd with hd | hd
      · rw [hs]
        exact Nat.ne_of_lt (Nat.lt_succ_of_le (h.sessions d hd))
      · have := (hk d (by rw [he]; simp [hd])).2.1
        cases hx.symm.trans this
  · rcases List.mem_append.mp he with he | he
    · exact Nat.le_succ_of_le (h.sessions e he)
    · exact Nat.le_of_eq (hk e he).1
  · show (g.accepted (g.session + 1)).length = 0 + arc 8 c'.va c'.vs
    rw [h.future _ (Nat.lt_succ_self _), hva, hvs]
    rfl
  · exact h.future n (Nat.lt_of_succ_lt hn)
  · rcases List.mem_append.mp he with he | he
    · exact absurd hs (Nat.ne_of_lt (Nat.lt_succ_of_le (h.sessions e he)))
    · cases hx.symm.trans (hk e he).2.2

end LogInv

end EspAx25
