import EspAx25.LogSink.Owner

/-!
# EspAx25.LogSink.Steps

A step that keeps to the condition leaves every sink at a stage of its life: one lemma for each
step that a connection, a sender task or `log_vprintf` can make.
-/

namespace EspAx25.LogSink

variable {n depth : Nat} {κ : Type} {s t : Server n κ} {owner : Fin (n + 1) → Stage κ}

/-! ### The stage that a task finds its sink at -/

/-- The stage that the place of a connection's task belongs to. -/
def Client.StageIs (c : κ) : Client n → Stage κ → Prop
  | .found _, st => st = .found c
  | .created _ q, st => st = .created c q
  | .assigned _ q, st | .failed _ q, st => st = .assigned c q
  | .spawned _ q, st | .connected _ q, st => st = .served c q
  | .leaving _, st => ∃ q, st = .leaving c q
  | .stopping _ q, st => st = .leaving c q
  | .idle, _ | .called, _ | .rejected, _ | .cleared _, _ => False

theorem Owned.stage (h : Owned s owner) {c : κ} {i : Fin (n + 1)} (hc : (s.client c).idx = some i) :
    (s.client c).StageIs c (owner i) := by
  have hsink := h.sink i
  have hclient := h.client c i hc
  cases hst : owner i with
  | console | free | ending =>
      rw [hst] at hclient
      cases hclient
  | found d =>
      rw [hst] at hclient hsink
      cases hclient
      rw [hsink.2]
      rfl
  | created d q =>
      rw [hst] at hclient hsink
      cases hclient
      rw [hsink.2.1]
      rfl
  | assigned d q =>
      rw [hst] at hclient hsink
      cases hclient
      rcases hsink.2 with hphase | hphase <;> rw [hphase] <;> rfl
  | served d q =>
      rw [hst] at hclient hsink
      cases hclient
      rcases hsink.2.1 with hphase | hphase <;> rw [hphase] <;> rfl
  | leaving d q =>
      rw [hst] at hclient hsink
      cases hclient
      rcases hsink.2.2.2.1 with hphase | hphase <;> rw [hphase]
      · exact ⟨q, rfl⟩
      · rfl

theorem Owned.at_place (h : Owned s owner) {c : κ} {p : Client n} {i : Fin (n + 1)}
    (hc : s.client c = p) (hp : p.idx = some i) : p.StageIs c (owner i) := by
  subst hc
  exact h.stage hp

/-- Before the sentinel, a sender task works with the queue that was created for it. -/
theorem Owned.sends (h : Owned s owner) {q : Nat} {i : Fin (n + 1)}
    (hq : (s.sender q).idx = some i) (hc : (owner i).client ≠ none) : Sends s i q := by
  have hsink := h.sink i
  have htask := h.task q i hq
  cases hst : owner i with
  | console | free | ending =>
      rw [hst] at hc
      exact absurd rfl hc
  | found | created | assigned =>
      rw [hst] at htask
      cases htask
  | served c r =>
      rw [hst] at htask hsink
      cases htask
      exact hsink.2.2
  | leaving c r =>
      rw [hst] at htask hsink
      cases htask
      exact hsink.2.2.2.2

theorem Owned.ends (h : Owned s owner) {q : Nat} {i : Fin (n + 1)}
    (hq : (s.sender q).idx = some i) (hc : (owner i).client = none) :
    owner i = .ending q ∧ (s.sinks i).active = false ∧ (s.sinks i).queue = some q ∧
      (Sends s i q ∨ s.sender q = .draining i q ∨ s.sender q = .deleting i q ∨
        s.sender q = .clearing i) := by
  have hsink := h.sink i
  have htask := h.task q i hq
  cases hst : owner i with
  | console | free =>
      rw [hst] at htask
      cases htask
  | found | created | assigned | served | leaving =>
      rw [hst] at hc
      cases hc
  | ending r =>
      rw [hst] at htask hsink
      cases htask
      exact ⟨rfl, hsink⟩

/-- The queue of a sender task is the one of its sink. -/
theorem Owned.queue (h : Owned s owner) {q : Nat} {i : Fin (n + 1)}
    (hq : (s.sender q).idx = some i) :
    (owner i).queue = some q ∧ (s.sinks i).queue = some q := by
  have hsink := h.sink i
  have htask := h.task q i hq
  cases hst : owner i with
  | console | free | found | created | assigned =>
      rw [hst] at htask
      cases htask
  | served c r =>
      rw [hst] at htask hsink
      cases htask
      exact ⟨rfl, hsink.1.2.1⟩
  | leaving c r =>
      rw [hst] at htask hsink
      cases htask
      exact ⟨rfl, hsink.2.1⟩
  | ending r =>
      rw [hst] at htask hsink
      cases htask
      exact ⟨rfl, hsink.2.1⟩

/-- A sender task that has a queue has the one that was created for it. -/
theorem Owned.own_queue (h : Owned s owner) {q r : Nat} {i : Fin (n + 1)}
    (hq : s.sender q = .loop i r ∨ (∃ line, s.sender q = .writing i r line) ∨
      s.sender q = .draining i r ∨ s.sender q = .deleting i r) : r = q := by
  have hidx : (s.sender q).idx = some i := by
    rcases hq with hq | ⟨line, hq⟩ | hq | hq <;> rw [hq] <;> rfl
  have hplace : Sends s i q ∨ s.sender q = .draining i q ∨ s.sender q = .deleting i q ∨
      s.sender q = .clearing i := by
    by_cases hc : (owner i).client = none
    · exact (h.ends hidx hc).2.2.2
    · exact .inl (h.sends hidx hc)
  unfold Sends at hplace
  rcases hq with hq | ⟨line, hq⟩ | hq | hq <;> rw [hq] at hplace <;> simp_all

/-- After the sentinel the sender task has the sink to itself. -/
theorem Owned.ended (h : Owned s owner) {i : Fin (n + 1)} {q r : Nat}
    (hq : s.sender q = .draining i r ∨ s.sender q = .deleting i r ∨ s.sender q = .clearing i) :
    (s.sender q).idx = some i ∧ owner i = .ending q ∧ (s.sinks i).active = false ∧
      (s.sinks i).queue = some q := by
  have hidx : (s.sender q).idx = some i := by rcases hq with hq | hq | hq <;> rw [hq] <;> rfl
  have hnone : (owner i).client = none := by
    by_contra hsome
    have hsends := h.sends hidx hsome
    unfold Sends at hsends
    rcases hq with hq | hq | hq <;> rw [hq] at hsends <;> simp at hsends
  obtain ⟨hst, hactive, hqueue, -⟩ := h.ends hidx hnone
  exact ⟨hidx, hst, hactive, hqueue⟩

/-- A sink that looks free to an undisturbed connection is free. -/
theorem Owned.free (h : Owned s owner) {c : κ} (hok : Undisturbed s (.find c)) {i : Fin (n + 1)}
    (hfind : s.findFreeSink = some i) : owner i = .free := by
  obtain ⟨hsenders, hclients⟩ := hok i hfind
  have hsink := h.sink i
  have hactive := findFreeSink_some hfind
  cases hst : owner i with
  | free => rfl
  | console =>
      rw [hst] at hsink
      rw [show (s.sinks i).active = true from hsink] at hactive
      cases hactive
  | found d | created d | assigned d | served d | leaving d =>
      rw [hst] at hsink
      exact absurd (hsink.client_idx rfl) (hclients d)
  | ending q =>
      have hlt : q < s.calls := h.bound i q (by rw [hst]; rfl)
      rw [hst] at hsink
      exact absurd (hsink.task_idx rfl) (hsenders q hlt)

/-! ### Steps of the connections -/

variable [DecidableEq κ]

theorem owned_connect (h : Owned s owner) {c : κ} {p : Client n} (hc : (s.client c).idx = none)
    (hp : p.idx = none) (hcleared : ∀ q, p ≠ .cleared q) : Owned (s.goto c p) owner := by
  refine h.keep rfl (fun d i hidx => ?_) rfl (fun _ _ _ => rfl) rfl fun d q hd => ?_
  · by_cases hdc : d = c
    · subst hdc
      rw [goto_self, hc, hp] at hidx
      rcases hidx with hidx | hidx <;> cases hidx
    · exact goto_of_ne s hdc p
  · by_cases hdc : d = c
    · subst hdc
      rw [goto_self] at hd
      exact absurd hd (hcleared q)
    · rwa [goto_of_ne s hdc] at hd

theorem owned_find (h : Owned s owner) {c : κ} (hc : s.client c = .called)
    (hok : Undisturbed s (.find c)) {i : Fin (n + 1)} (hfind : s.findFreeSink = some i) :
    Owned (s.goto c (.found i)) (Function.update owner i (.found c)) := by
  have hfree := h.free hok hfind
  refine h.goto_sink (t := s) (.inr ⟨by rw [hc]; rfl, hfree⟩) (.inl ⟨rfl, rfl⟩) ⟨rfl, rfl, rfl, rfl⟩
    (fun _ _ => rfl) ⟨findFreeSink_some hfind, goto_self s c _⟩ (by rw [hfree]; rfl) (.inr rfl)
    fun _ hp => (by cases hp)

theorem owned_createQueue (h : Owned s owner) {c : κ} {i : Fin (n + 1)} (hc : s.client c = .found i) :
    Owned (({ s with calls := s.calls + 1 }.setQueue s.calls (some [])).goto c
      (.created i s.calls)) (Function.update owner i (.created c s.calls)) := by
  have hst : owner i = .found c := h.at_place hc rfl
  have hsink := h.sink i
  rw [hst] at hsink
  refine h.goto (.inl (by rw [hc]; rfl)) (.inl ⟨rfl, rfl⟩) rfl
    ⟨hsink.1, goto_self _ c _, [], Function.update_self _ _ _, List.not_mem_nil⟩
    (fun _ _ => rfl) (fun _ _ _ _ => rfl) (fun q j _ hq => ?_) (fun q hq => ?_) (fun q hq => ?_)
    (Nat.le_succ _) fun _ hp => (by cases hp)
  · exact Function.update_of_ne (Nat.ne_of_lt (h.bound j q hq)) _ _
  · have hq' := h.task q i hq
    rw [hst] at hq'
    cases hq'
  · cases hq
    exact .inr ⟨rfl, Nat.lt_succ_self _⟩

theorem owned_noQueue (h : Owned s owner) {c : κ} {i : Fin (n + 1)} (hc : s.client c = .found i) :
    Owned (s.goto c .rejected) (Function.update owner i .free) := by
  have hst : owner i = .found c := h.at_place hc rfl
  have hsink := h.sink i
  rw [hst] at hsink
  exact h.goto_sink (t := s) (.inl (by rw [hc]; rfl)) (.inr rfl) ⟨rfl, rfl, rfl, rfl⟩
    (fun _ _ => rfl) hsink.1 (by rw [hst]; rfl) (.inr rfl) fun _ hp => (by cases hp)

theorem owned_assign (h : Owned s owner) {c : κ} {i : Fin (n + 1)} {q : Nat}
    (hc : s.client c = .created i q) :
    Owned (((s.setSink i (some q) none (some c)).setSinkActive i true).goto c (.assigned i q))
      (Function.update owner i (.assigned c q)) := by
  have hst : owner i = .created c q := h.at_place hc rfl
  have hsink := h.sink i
  rw [hst] at hsink
  obtain ⟨hclient, hsender, hqueues, hcalls⟩ :=
    setSinkActive_others (s.setSink i (some q) none (some c)) i true
  have hnew : ((s.setSink i (some q) none (some c)).setSinkActive i true).sinks i =
      ⟨true, some q, none, some c⟩ := by
    rw [setSinkActive_self, setSink_self]
  refine h.goto_sink (.inl (by rw [hc]; rfl)) (.inl ⟨rfl, rfl⟩) ⟨hclient, hsender, hqueues, hcalls⟩
    (fun j hj => ?_) ⟨⟨congrArg Sink.active hnew, congrArg Sink.queue hnew,
      congrArg Sink.tcpConn hnew, ?_⟩, .inl (goto_self _ c _)⟩ (by rw [hst]; rfl)
    (.inl (by rw [hst]; rfl)) fun _ hp => (by cases hp)
  · rw [setSinkActive_of_ne _ _ _ _ hj, setSink_of_ne _ _ _ _ _ _ hj]
  · obtain ⟨items, hitems, hno⟩ := hsink.2.2
    exact ⟨items, (congrFun hqueues q).trans hitems, hno⟩

theorem owned_createTask (h : Owned s owner) {c : κ} {i : Fin (n + 1)} {q : Nat}
    (hc : s.client c = .assigned i q) :
    Owned ((s.gotoSender q (.start i)).goto c (.spawned i q))
      (Function.update owner i (.served c q)) := by
  have hst : owner i = .assigned c q := h.at_place hc rfl
  have hsink := h.sink i
  rw [hst] at hsink
  have hqueue : (owner i).queue = some q := by rw [hst]; rfl
  -- no task has this number yet
  have hnone : (s.sender q).idx = none := by
    cases hidx : (s.sender q).idx with
    | none => rfl
    | some j =>
        have htask := h.task q j hidx
        have hj : j = i := h.distinct j i q (h.queue hidx).1 hqueue
        rw [hj, hst] at htask
        cases htask
  refine h.goto (.inl (by rw [hc]; rfl)) (.inl ⟨rfl, rfl⟩) rfl
    ⟨hsink.1, .inl (goto_self _ c _), .inl (gotoSender_self s q _)⟩ (fun _ _ => rfl)
    (fun r j hj hidx => ?_) (fun _ _ _ _ => rfl) (fun r hr => ?_) (fun r hr => ?_) (Nat.le_refl _)
    fun _ hp => (by cases hp)
  · by_cases hrq : r = q
    · subst hrq
      rw [gotoSender_self, hnone] at hidx
      rcases hidx with hidx | hidx <;> cases hidx
      exact absurd rfl hj
    · exact gotoSender_of_ne s hrq _
  · by_cases hrq : r = q
    · rw [hrq]
      rfl
    · rw [gotoSender_of_ne s hrq] at hr
      have htask := h.task r i hr
      rw [hst] at htask
      cases htask
  · cases hr
    exact .inl hqueue

theorem owned_noTask (h : Owned s owner) {c : κ} {i : Fin (n + 1)} {q : Nat}
    (hc : s.client c = .assigned i q) :
    Owned (s.goto c (.failed i q)) (Function.update owner i (.assigned c q)) := by
  have hst : owner i = .assigned c q := h.at_place hc rfl
  have hsink := h.sink i
  rw [hst] at hsink
  exact h.goto_sink (t := s) (.inl (by rw [hc]; rfl)) (.inl ⟨rfl, rfl⟩) ⟨rfl, rfl, rfl, rfl⟩
    (fun _ _ => rfl) ⟨hsink.1, .inr (goto_self s c _)⟩ (by rw [hst]) (.inl (by rw [hst]))
    fun _ hp => (by cases hp)

theorem owned_setTask (h : Owned s owner) {c : κ} {i : Fin (n + 1)} {q : Nat}
    (hc : s.client c = .spawned i q) :
    Owned ((s.setSink i (s.sinks i).queue (some q) (s.sinks i).tcpConn).goto c (.connected i q))
      (Function.update owner i (.served c q)) := by
  have hst : owner i = .served c q := h.at_place hc rfl
  have hsink := h.sink i
  rw [hst] at hsink
  obtain ⟨⟨hactive, hqueue, hconn, hopen⟩, -, hsends⟩ := hsink
  have hnew := setSink_self s i (s.sinks i).queue (some q) (s.sinks i).tcpConn
  exact h.goto_sink (.inl (by rw [hc]; rfl)) (.inl ⟨rfl, rfl⟩) ⟨rfl, rfl, rfl, rfl⟩
    (fun j hj => setSink_of_ne _ _ _ _ _ _ hj)
    ⟨⟨(congrArg Sink.active hnew).trans hactive, (congrArg Sink.queue hnew).trans hqueue,
      (congrArg Sink.tcpConn hnew).trans hconn, hopen⟩, .inr (goto_self _ c _), hsends⟩
    (by rw [hst]) (.inl (by rw [hst])) fun _ hp => (by cases hp)

theorem owned_clear (h : Owned s owner) {c : κ} {i : Fin (n + 1)} {q : Nat}
    (hc : s.client c = .failed i q) :
    Owned (((s.setSink i none (s.sinks i).task none).setSinkActive i false).goto c (.cleared q))
      (Function.update owner i .free) := by
  have hst : owner i = .assigned c q := h.at_place hc rfl
  refine h.goto_sink (.inl (by rw [hc]; rfl)) (.inr rfl)
    (setSinkActive_others (s.setSink i none (s.sinks i).task none) i false) (fun j hj => ?_)
    (congrArg Sink.active (setSinkActive_self _ i false)) (by rw [hst]; rfl) (.inr rfl)
    fun r hp => ?_
  · rw [setSinkActive_of_ne _ _ _ _ hj, setSink_of_ne _ _ _ _ _ _ hj]
  · cases hp
    exact ⟨by rw [hst]; rfl, rfl⟩

theorem owned_drop (h : Owned s owner) {c : κ} {q : Nat} (hc : s.client c = .cleared q) :
    Owned ((s.setQueue q none).goto c .rejected) owner := by
  have hqueues : Owned (s.setQueue q none) owner :=
    h.keep rfl (fun _ _ _ => rfl) rfl (fun r i hr => Function.update_of_ne (fun heq : r = q =>
      (h.cleared c q hc).2 i (heq ▸ hr)) _ _) rfl fun _ _ hd => hd
  exact owned_connect hqueues (by rw [show (s.setQueue q none).client c = _ from hc]; rfl) rfl
    fun _ hp => (by cases hp)

theorem owned_disconnect (h : Owned s owner) {c : κ} {i : Fin (n + 1)} {q : Nat}
    (hc : s.client c = .connected i q) :
    Owned ((s.setSinkActive i false).goto c (.leaving i))
      (Function.update owner i (.leaving c q)) := by
  have hst : owner i = .served c q := h.at_place hc rfl
  have hsink := h.sink i
  rw [hst] at hsink
  obtain ⟨⟨-, hqueue, -, hopen⟩, -, hsends⟩ := hsink
  have hnew := setSinkActive_self s i false
  obtain ⟨hclient, hsender, hqueues, hcalls⟩ := setSinkActive_others s i false
  refine h.goto_sink (.inl (by rw [hc]; rfl)) (.inl ⟨rfl, rfl⟩) ⟨hclient, hsender, hqueues, hcalls⟩
    (fun j hj => setSinkActive_of_ne _ _ _ _ hj)
    ⟨congrArg Sink.active hnew, (congrArg Sink.queue hnew).trans hqueue, ?_,
      .inl (goto_self _ c _), ?_⟩ (by rw [hst]; rfl) (.inl (by rw [hst]; rfl))
    fun _ hp => (by cases hp)
  · obtain ⟨items, hitems, hno⟩ := hopen
    exact ⟨items, (congrFun hqueues q).trans hitems, hno⟩
  · change (s.setSinkActive i false).sender q = _ ∨ (s.setSinkActive i false).sender q = _ ∨
      ∃ line, (s.setSinkActive i false).sender q = _
    rw [hsender]
    exact hsends

theorem owned_readQueue (h : Owned s owner) {c : κ} {i : Fin (n + 1)} {q : Nat}
    (hc : s.client c = .leaving i) (hread : (s.sinks i).queue = some q) :
    Owned (s.goto c (.stopping i q)) (Function.update owner i (.leaving c q)) := by
  obtain ⟨r, hst⟩ : ∃ r, owner i = .leaving c r := h.at_place hc rfl
  have hsink := h.sink i
  rw [hst] at hsink
  obtain ⟨hactive, hqueue, hopen, -, hsends⟩ := hsink
  rw [hread] at hqueue
  cases hqueue
  exact h.goto_sink (t := s) (.inl (by rw [hc]; rfl)) (.inl ⟨rfl, rfl⟩) ⟨rfl, rfl, rfl, rfl⟩
    (fun _ _ => rfl) ⟨hactive, hread, hopen, .inr (goto_self s c _), hsends⟩ (by rw [hst])
    (.inl (by rw [hst])) fun _ hp => (by cases hp)

theorem owned_sentinel (h : Owned s owner) {c : κ} {i : Fin (n + 1)} {q : Nat}
    (items : Option (List (Option String))) (hc : s.client c = .stopping i q) :
    Owned ((s.setQueue q items).goto c .idle) (Function.update owner i (.ending q)) := by
  have hst : owner i = .leaving c q := h.at_place hc rfl
  have hsink := h.sink i
  rw [hst] at hsink
  obtain ⟨hactive, hqueue, -, -, hsends⟩ := hsink
  have howner : (owner i).queue = some q := by rw [hst]; rfl
  refine h.goto (.inl (by rw [hc]; rfl)) (.inr rfl) rfl ⟨hactive, hqueue, .inl hsends⟩
    (fun _ _ => rfl) (fun _ _ _ _ => rfl) (fun r j hj hr => ?_) (fun r hr => ?_)
    (fun r hr => .inl ?_) (Nat.le_refl _) fun _ hp => (by cases hp)
  · refine Function.update_of_ne (fun heq : r = q => hj ?_) _ _
    exact h.distinct j i q (heq ▸ hr) howner
  · have htask := h.task r i hr
    rw [hst] at htask
    exact htask
  · cases hr
    exact howner

/-! ### Steps of the sender tasks -/

omit [DecidableEq κ] in
/-- The queue of another sink is not the queue of this one. -/
theorem Owned.other_queue (h : Owned s owner) {i j : Fin (n + 1)} {q r : Nat}
    (hq : (owner i).queue = some q) (hj : j ≠ i) (hr : (owner j).queue = some r)
    (items : Option (List (Option String))) : (s.setQueue q items).queues r = s.queues r := by
  refine Function.update_of_ne (fun heq : r = q => hj ?_) _ _
  exact h.distinct j i q (heq ▸ hr) hq

omit [DecidableEq κ] in
/-- Before the sentinel a sender task goes from one place to another, and may take a line out of
its queue. -/
theorem owned_sends (h : Owned s owner) {i : Fin (n + 1)} {q : Nat} {p : Sender n}
    (hold : Sends s i q) (hp : Sends (t.gotoSender q p) i q)
    (ht : t.client = s.client ∧ t.sender = s.sender ∧ t.calls = s.calls) (hsinks : t.sinks = s.sinks)
    (hqueues : ∀ r j, j ≠ i → (owner j).queue = some r → t.queues r = s.queues r)
    (hopen : Open s q → Open t q) : Owned (t.gotoSender q p) owner := by
  have hidx : p.idx = some i := by
    have hidx := hp.idx
    rwa [gotoSender_self] at hidx
  have hsink := h.sink i
  have htask := h.task q i hold.idx
  have hnew : SinkIs (t.gotoSender q p) i (owner i) := by
    cases hst : owner i with
    | console | free | found | created | assigned =>
        rw [hst] at htask
        cases htask
    | served c r =>
        rw [hst] at htask hsink
        cases htask
        obtain ⟨⟨hactive, hqueue, hconn, ho⟩, hclient, -⟩ := hsink
        refine ⟨⟨?_, ?_, ?_, hopen ho⟩, ?_, hp⟩
        · rwa [show (t.gotoSender q p).sinks = s.sinks from hsinks]
        · rwa [show (t.gotoSender q p).sinks = s.sinks from hsinks]
        · rwa [show (t.gotoSender q p).sinks = s.sinks from hsinks]
        · rwa [show (t.gotoSender q p).client = s.client from ht.1]
    | leaving c r =>
        rw [hst] at htask hsink
        cases htask
        obtain ⟨hactive, hqueue, ho, hclient, -⟩ := hsink
        refine ⟨?_, ?_, hopen ho, ?_, hp⟩
        · rwa [show (t.gotoSender q p).sinks = s.sinks from hsinks]
        · rwa [show (t.gotoSender q p).sinks = s.sinks from hsinks]
        · rwa [show (t.gotoSender q p).client = s.client from ht.1]
    | ending r =>
        rw [hst] at htask hsink
        cases htask
        obtain ⟨hactive, hqueue, -⟩ := hsink
        refine ⟨?_, ?_, .inl hp⟩
        · rwa [show (t.gotoSender q p).sinks = s.sinks from hsinks]
        · rwa [show (t.gotoSender q p).sinks = s.sinks from hsinks]
  have hall : Owned (t.gotoSender q p) (Function.update owner i (owner i)) :=
    h.gotoSender hold.idx (.inl ⟨hidx, htask⟩) ht (fun j _ => congrFun hsinks j) hnew hqueues rfl
      (.inl rfl)
  rwa [Function.update_eq_self] at hall

omit [DecidableEq κ] in
theorem owned_start (h : Owned s owner) {i : Fin (n + 1)} {q r : Nat} (hq : s.sender q = .start i)
    (hread : (s.sinks i).queue = some r) : Owned (s.gotoSender q (.loop i r)) owner := by
  obtain ⟨-, hqueue⟩ := h.queue (q := q) (i := i) (by rw [hq]; rfl)
  rw [hread] at hqueue
  cases hqueue
  exact owned_sends (t := s) h (.inl hq) (.inr (.inl (gotoSender_self s q _))) ⟨rfl, rfl, rfl⟩ rfl
    (fun _ _ _ _ => rfl) fun ho => ho

omit [DecidableEq κ] in
theorem owned_receive (h : Owned s owner) {i : Fin (n + 1)} {q r : Nat} {line : String}
    {items : List (Option String)} (hq : s.sender q = .loop i r)
    (hqueue : s.queues r = some (some line :: items)) :
    Owned ((s.setQueue r (some items)).gotoSender q (.writing i r line)) owner := by
  obtain rfl : r = q := h.own_queue (.inl hq)
  have hsends : Sends s i r := .inr (.inl hq)
  refine owned_sends h hsends (.inr (.inr ⟨line, gotoSender_self _ r _⟩)) ⟨rfl, rfl, rfl⟩ rfl
    (fun q j hj hr => h.other_queue (h.queue hsends.idx).1 hj hr _) fun ⟨items', hitems, hno⟩ => ?_
  rw [hqueue] at hitems
  cases hitems
  exact ⟨items, Function.update_self _ _ _, fun hmem => hno (List.mem_cons_of_mem _ hmem)⟩

omit [DecidableEq κ] in
theorem owned_received_sentinel (h : Owned s owner) {i : Fin (n + 1)} {q r : Nat}
    {items : List (Option String)} (hq : s.sender q = .loop i r)
    (hqueue : s.queues r = some (none :: items)) :
    Owned ((s.setQueue r (some items)).gotoSender q (.draining i r))
      (Function.update owner i (.ending q)) := by
  obtain rfl : r = q := h.own_queue (.inl hq)
  have hidx : (s.sender r).idx = some i := by rw [hq]; rfl
  have hclosed : ¬ Open s r := by
    rintro ⟨items', hitems, hno⟩
    rw [hqueue] at hitems
    cases hitems
    exact hno List.mem_cons_self
  have hsink := h.sink i
  have htask := h.task r i hidx
  cases hst : owner i with
  | console | free | found | created | assigned =>
      rw [hst] at htask
      cases htask
  | served c q =>
      rw [hst] at htask hsink
      cases htask
      exact absurd hsink.1.2.2.2 hclosed
  | leaving c q =>
      rw [hst] at htask hsink
      cases htask
      exact absurd hsink.2.2.1 hclosed
  | ending q =>
      rw [hst] at htask hsink
      cases htask
      exact h.gotoSender hidx (.inl ⟨rfl, rfl⟩) ⟨rfl, rfl, rfl⟩ (fun _ _ => rfl)
        ⟨hsink.1, hsink.2.1, .inr (.inl (gotoSender_self _ r _))⟩
        (fun q j hj hr => h.other_queue (h.queue hidx).1 hj hr _) (by rw [hst]) (.inl (by rw [hst]))

omit [DecidableEq κ] in
theorem owned_write (h : Owned s owner) {i : Fin (n + 1)} {q r : Nat} {line : String}
    (hq : s.sender q = .writing i r line) (written : List (κ × String)) :
    Owned ({ s with written := written }.gotoSender q (.loop i r)) owner := by
  obtain rfl : r = q := h.own_queue (.inr (.inl ⟨line, hq⟩))
  exact owned_sends h (.inr (.inr ⟨line, hq⟩)) (.inr (.inl (gotoSender_self _ r _)))
    ⟨rfl, rfl, rfl⟩ rfl (fun _ _ _ _ => rfl) fun ho => ho

omit [DecidableEq κ] in
/-- A sender task that has seen the sentinel goes on. -/
theorem owned_ends (h : Owned s owner) {i : Fin (n + 1)} {q : Nat} {p : Sender n}
    (hold : s.sender q = .draining i q ∨ s.sender q = .deleting i q)
    (hp : p = .deleting i q ∨ p = .clearing i)
    (ht : t.client = s.client ∧ t.sender = s.sender ∧ t.calls = s.calls) (hsinks : t.sinks = s.sinks)
    (hqueues : ∀ r j, j ≠ i → (owner j).queue = some r → t.queues r = s.queues r) :
    Owned (t.gotoSender q p) (Function.update owner i (.ending q)) := by
  obtain ⟨hidx, hst, hactive, hqueue⟩ := h.ended (q := q) (i := i) (r := q) (by
    rcases hold with hq | hq
    · exact .inl hq
    · exact .inr (.inl hq))
  have hpidx : p.idx = some i := by rcases hp with rfl | rfl <;> rfl
  refine h.gotoSender hidx (.inl ⟨hpidx, rfl⟩) ht (fun j _ => congrFun hsinks j) ⟨?_, ?_, ?_⟩
    hqueues (by rw [hst]) (.inl (by rw [hst]))
  · rwa [show (t.gotoSender q p).sinks = s.sinks from hsinks]
  · rwa [show (t.gotoSender q p).sinks = s.sinks from hsinks]
  · rcases hp with rfl | rfl
    · exact .inr (.inr (.inl (gotoSender_self t q _)))
    · exact .inr (.inr (.inr (gotoSender_self t q _)))

omit [DecidableEq κ] in
theorem owned_remove (h : Owned s owner) {i : Fin (n + 1)} {q : Nat} (hq : s.sender q = .clearing i) :
    Owned (((s.setSinkActive i false).setSink i none none none).gotoSender q .none)
      (Function.update owner i .free) := by
  obtain ⟨hidx, hst, -⟩ := h.ended (r := q) (.inr (.inr hq))
  obtain ⟨hclient, hsender, hqueues, hcalls⟩ := setSinkActive_others s i false
  refine h.gotoSender hidx (.inr rfl) ⟨hclient, hsender, hcalls⟩ (fun j hj => ?_) ?_
    (fun r j _ _ => congrFun hqueues r) (by rw [hst]; rfl) (.inr rfl)
  · rw [setSink_of_ne _ _ _ _ _ _ hj, setSinkActive_of_ne _ _ _ _ hj]
  · change (((s.setSinkActive i false).setSink i none none none).sinks i).active = false
    rw [setSink_self, setSinkActive_self]

/-! ### Steps that only change queues -/

omit [DecidableEq κ] in
theorem owned_queues (h : Owned s owner) {queues : Nat → Option (List (Option String))}
    (hopen : ∀ q, Open s q → Open { s with queues := queues } q) :
    Owned { s with queues := queues } owner := by
  refine ⟨fun i => ?_, h.client, h.task, h.distinct, h.bound, h.cleared⟩
  have hsink := h.sink i
  cases hst : owner i with
  | console | free | found | ending =>
      rw [hst] at hsink
      exact hsink
  | created c q =>
      rw [hst] at hsink
      exact ⟨hsink.1, hsink.2.1, hopen q hsink.2.2⟩
  | assigned c q =>
      rw [hst] at hsink
      obtain ⟨⟨hactive, hqueue, hconn, ho⟩, hclient⟩ := hsink
      exact ⟨⟨hactive, hqueue, hconn, hopen q ho⟩, hclient⟩
  | served c q =>
      rw [hst] at hsink
      obtain ⟨⟨hactive, hqueue, hconn, ho⟩, hclient, hsends⟩ := hsink
      exact ⟨⟨hactive, hqueue, hconn, hopen q ho⟩, hclient, hsends⟩
  | leaving c q =>
      rw [hst] at hsink
      obtain ⟨hactive, hqueue, ho, hclient, hsends⟩ := hsink
      exact ⟨hactive, hqueue, hopen q ho, hclient, hsends⟩

omit [DecidableEq κ] in
/-- Something is taken out of a queue. -/
theorem owned_pop (h : Owned s owner) {q : Nat} {item : Option String}
    {items : List (Option String)} (hqueue : s.queues q = some (item :: items)) :
    Owned (s.setQueue q (some items)) owner := by
  refine owned_queues h fun r ⟨items', hitems, hno⟩ => ?_
  by_cases hr : r = q
  · subst hr
    rw [hqueue] at hitems
    cases hitems
    exact ⟨items, Function.update_self _ _ _, fun hmem => hno (List.mem_cons_of_mem _ hmem)⟩
  · exact ⟨items', (Function.update_of_ne hr _ _).trans hitems, hno⟩

omit [DecidableEq κ] in
/-- `log_vprintf` sends no sentinel. -/
theorem open_post (line : String) (i : Fin (n + 1)) {queues : Nat → Option (List (Option String))}
    {q : Nat} (h : Open { s with queues := queues } q) :
    Open { s with queues := s.post depth line queues i } q := by
  obtain ⟨items, hitems, hno⟩ := h
  have hitems : queues q = some items := hitems
  unfold Server.post
  split
  · next r _ hr =>
      split
      · next items' hitems' =>
          split_ifs
          · by_cases hrq : q = r
            · subst hrq
              rw [hitems] at hitems'
              cases hitems'
              refine ⟨items ++ [some line], Function.update_self _ _ _, fun hmem => ?_⟩
              rcases List.mem_append.mp hmem with hmem | hmem
              · exact hno hmem
              · cases List.mem_singleton.mp hmem
            · exact ⟨items, (Function.update_of_ne hrq _ _).trans hitems, hno⟩
          · exact ⟨items, hitems, hno⟩
      · exact ⟨items, hitems, hno⟩
  · exact ⟨items, hitems, hno⟩

omit [DecidableEq κ] in
theorem owned_log (h : Owned s owner) (line : String) : Owned (s.logVprintf depth line) owner := by
  unfold Server.logVprintf
  split_ifs
  · exact h
  · refine owned_queues h fun q hq => ?_
    have hall : ∀ (is : List (Fin (n + 1))) (queues : Nat → Option (List (Option String))),
        Open { s with queues := queues } q →
        Open { s with queues := is.foldl (s.post depth line) queues } q := by
      intro is
      induction is with
      | nil => exact fun _ hqueues => hqueues
      | cons i is ih => exact fun _ hqueues => ih _ (open_post line i hqueues)
    exact hall _ _ hq

/-! ### Every step -/

/-- There are stages that the state agrees with. -/
def OwnedBySome (s : Server n κ) : Prop := ∃ owner : Fin (n + 1) → Stage κ, Owned s owner

omit [DecidableEq κ] in
theorem Owned.some (h : Owned s owner) : OwnedBySome s := ⟨owner, h⟩

theorem owned_step {s' : Server n κ} {op : Op κ} (h : OwnedBySome s) (hok : Undisturbed s op)
    (hs : step depth s op = some s') : OwnedBySome s' := by
  obtain ⟨owner, h⟩ := h
  cases op with
  | connect c =>
      dsimp only [step] at hs
      split_ifs at hs with hc
      cases hs
      exact (owned_connect h (by rw [hc]; rfl) rfl fun _ hp => (by cases hp)).some
  | find c =>
      dsimp only [step] at hs
      split_ifs at hs with hc
      cases hfind : s.findFreeSink with
      | some i =>
          rw [hfind] at hs
          cases hs
          exact (owned_find h hc hok hfind).some
      | none =>
          rw [hfind] at hs
          cases hs
          exact (owned_connect h (by rw [hc]; rfl) rfl fun _ hp => (by cases hp)).some
  | createQueue c ok =>
      dsimp only [step] at hs
      split at hs
      · next hc =>
          split_ifs at hs <;> cases hs
          · exact (owned_createQueue h hc).some
          · exact (owned_noQueue h hc).some
      · cases hs
  | assign c =>
      dsimp only [step] at hs
      split at hs
      · next hc =>
          cases hs
          exact (owned_assign h hc).some
      · cases hs
  | createTask c ok =>
      dsimp only [step] at hs
      split at hs
      · next hc =>
          split_ifs at hs <;> cases hs
          · exact (owned_createTask h hc).some
          · exact (owned_noTask h hc).some
      · cases hs
  | setTask c =>
      dsimp only [step] at hs
      split at hs
      · next hc =>
          cases hs
          exact (owned_setTask h hc).some
      · cases hs
  | clear c =>
      dsimp only [step] at hs
      split at hs
      · next hc =>
          cases hs
          exact (owned_clear h hc).some
      · cases hs
  | drop c =>
      dsimp only [step] at hs
      split at hs
      · next hc =>
          cases hs
          exact (owned_drop h hc).some
      · cases hs
  | disconnect c =>
      dsimp only [step] at hs
      split at hs
      · next hc =>
          cases hs
          exact (owned_connect h (by rw [hc]; rfl) rfl fun _ hp => (by cases hp)).some
      · next hc =>
          cases hs
          exact (owned_disconnect h hc).some
      · cases hs
  | readQueue c =>
      dsimp only [step] at hs
      split at hs
      · next hc =>
          split at hs
          · next hread =>
              cases hs
              exact (owned_readQueue h hc hread).some
          · cases hs
      · cases hs
  | sentinel c =>
      dsimp only [step] at hs
      split at hs
      · next hc =>
          split at hs
          · split_ifs at hs
            cases hs
            exact (owned_sentinel h _ hc).some
          · cases hs
      · cases hs
  | log line =>
      cases hs
      exact (owned_log h line).some
  | console =>
      dsimp only [step] at hs
      split at hs
      · next hqueue =>
          cases hs
          exact (owned_pop h hqueue).some
      · cases hs
  | start j =>
      dsimp only [step] at hs
      split at hs
      · next hj =>
          split at hs
          · next hread =>
              cases hs
              exact (owned_start h hj hread).some
          · cases hs
      · cases hs
  | receive j =>
      dsimp only [step] at hs
      split at hs
      · next hj =>
          split at hs
          · next hqueue =>
              cases hs
              exact (owned_received_sentinel h hj hqueue).some
          · next hqueue =>
              cases hs
              exact (owned_receive h hj hqueue).some
          · cases hs
      · cases hs
  | write j sockOpen =>
      dsimp only [step] at hs
      split at hs
      · next hj =>
          split at hs <;> cases hs
          · exact (owned_write h hj _).some
          · exact (owned_write h hj s.written).some
      · cases hs
  | drain j =>
      dsimp only [step] at hs
      split at hs
      · next i q hj =>
          obtain rfl : q = j := h.own_queue (.inr (.inr (.inl hj)))
          split at hs
          · next hqueue =>
              cases hs
              exact (owned_pop h hqueue).some
          · cases hs
            exact (owned_ends (t := s) h (.inl hj) (.inl rfl) ⟨rfl, rfl, rfl⟩ rfl
              fun _ _ _ _ => rfl).some
          · cases hs
      · cases hs
  | delete j =>
      dsimp only [step] at hs
      split at hs
      · next i q hj =>
          obtain rfl : q = j := h.own_queue (.inr (.inr (.inr hj)))
          cases hs
          have hidx : (s.sender q).idx = some i := by rw [hj]; rfl
          exact (owned_ends (t := s.setQueue q none) h (.inr hj) (.inr rfl) ⟨rfl, rfl, rfl⟩ rfl
            fun r k hk hr => h.other_queue (h.queue hidx).1 hk hr _).some
      · cases hs
  | remove j =>
      dsimp only [step] at hs
      split at hs
      · next hj =>
          cases hs
          exact (owned_remove h hj).some
      · cases hs

end EspAx25.LogSink
