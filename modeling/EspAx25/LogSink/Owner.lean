import EspAx25.LogSink.Table

/-!
# EspAx25.LogSink.Owner

Who owns a sink.

`on_tcp_connected` looks for a sink and takes it in two critical sections, and
`on_tcp_disconnected` makes the sink look free before its sender task has cleared it. As long as
no connection comes upon a sink at such a moment, every sink is at one stage of one life: the
invariant is that there is an assignment of stages that the whole state agrees with.
-/

namespace EspAx25.LogSink

variable {n : Nat} {κ : Type}

/-- The stages of a sink: it belongs to the console, to nobody, to a connection from its look-up
until its `on_tcp_disconnected` returns, and to its sender task after that. -/
inductive Stage (κ : Type)
  | console
  | free
  | found (c : κ)
  | created (c : κ) (q : Nat)
  | assigned (c : κ) (q : Nat)
  | served (c : κ) (q : Nat)
  | leaving (c : κ) (q : Nat)
  | ending (q : Nat)

namespace Stage

/-- The connection that has the sink. -/
def client : Stage κ → Option κ
  | found c | created c _ | assigned c _ | served c _ | leaving c _ => some c
  | _ => none

/-- The queue that belongs to the sink. -/
def queue : Stage κ → Option Nat
  | console => some 0
  | created _ q | assigned _ q | served _ q | leaving _ q | ending q => some q
  | _ => none

/-- The sender task that has not cleared the sink. -/
def task : Stage κ → Option Nat
  | served _ q | leaving _ q | ending q => some q
  | _ => none

end Stage

/-- The queue exists, and nobody has sent the sentinel. -/
def Open (s : Server n κ) (q : Nat) : Prop := ∃ items, s.queues q = some items ∧ none ∉ items

/-- The sender task has not seen the sentinel. -/
def Sends (s : Server n κ) (i : Fin (n + 1)) (q : Nat) : Prop :=
  s.sender q = .start i ∨ s.sender q = .loop i q ∨ ∃ line, s.sender q = .writing i q line

/-- The sink posts to the queue and belongs to the connection. -/
def Serves (s : Server n κ) (i : Fin (n + 1)) (c : κ) (q : Nat) : Prop :=
  (s.sinks i).active = true ∧ (s.sinks i).queue = some q ∧ (s.sinks i).tcpConn = some c ∧ Open s q

/-- What a stage says about the state. -/
def SinkIs (s : Server n κ) (i : Fin (n + 1)) : Stage κ → Prop
  | .console => (s.sinks i).active = true
  | .free => (s.sinks i).active = false
  | .found c => (s.sinks i).active = false ∧ s.client c = .found i
  | .created c q => (s.sinks i).active = false ∧ s.client c = .created i q ∧ Open s q
  | .assigned c q => Serves s i c q ∧ (s.client c = .assigned i q ∨ s.client c = .failed i q)
  | .served c q =>
    Serves s i c q ∧ (s.client c = .spawned i q ∨ s.client c = .connected i q) ∧ Sends s i q
  | .leaving c q =>
    (s.sinks i).active = false ∧ (s.sinks i).queue = some q ∧ Open s q ∧
      (s.client c = .leaving i ∨ s.client c = .stopping i q) ∧ Sends s i q
  | .ending q =>
    (s.sinks i).active = false ∧ (s.sinks i).queue = some q ∧
      (Sends s i q ∨ s.sender q = .draining i q ∨ s.sender q = .deleting i q ∨
        s.sender q = .clearing i)

theorem Sends.idx {s : Server n κ} {i : Fin (n + 1)} {q : Nat} (h : Sends s i q) :
    (s.sender q).idx = some i := by
  rcases h with h | h | ⟨line, h⟩ <;> rw [h] <;> rfl

/-- The connection of a stage has the sink. -/
theorem SinkIs.client_idx {s : Server n κ} {i : Fin (n + 1)} {st : Stage κ} (h : SinkIs s i st)
    {c : κ} (hc : st.client = some c) : (s.client c).idx = some i := by
  cases st with
  | console | free | ending => cases hc
  | found d =>
      cases hc
      rw [h.2]
      rfl
  | created d q =>
      cases hc
      rw [h.2.1]
      rfl
  | assigned d q =>
      cases hc
      rcases h.2 with h | h <;> rw [h] <;> rfl
  | served d q =>
      cases hc
      rcases h.2.1 with h | h <;> rw [h] <;> rfl
  | leaving d q =>
      cases hc
      rcases h.2.2.2.1 with h | h <;> rw [h] <;> rfl

/-- The sender task of a stage has to clear the sink. -/
theorem SinkIs.task_idx {s : Server n κ} {i : Fin (n + 1)} {st : Stage κ} (h : SinkIs s i st)
    {q : Nat} (hq : st.task = some q) : (s.sender q).idx = some i := by
  cases st with
  | console | free | found | created | assigned => cases hq
  | served c r =>
      cases hq
      exact h.2.2.idx
  | leaving c r =>
      cases hq
      exact h.2.2.2.2.idx
  | ending r =>
      cases hq
      rcases h.2.2 with h | h | h | h
      · exact h.idx
      all_goals
        rw [h]
        rfl

/-- What a stage says depends only on the sink, its connection, its queue and its task. -/
theorem SinkIs.congr {s s' : Server n κ} {i : Fin (n + 1)} {st : Stage κ} (h : SinkIs s i st)
    (hsink : s'.sinks i = s.sinks i)
    (hclient : ∀ c, st.client = some c → s'.client c = s.client c)
    (hqueue : ∀ q, st.queue = some q → s'.queues q = s.queues q)
    (htask : ∀ q, st.task = some q → s'.sender q = s.sender q) : SinkIs s' i st := by
  cases st with
  | console | free =>
      simp only [SinkIs, hsink] at h ⊢
      exact h
  | found c =>
      simp only [SinkIs, hsink, hclient c rfl] at h ⊢
      exact h
  | created c q =>
      simp only [SinkIs, Open, hsink, hclient c rfl, hqueue q rfl] at h ⊢
      exact h
  | assigned c q =>
      simp only [SinkIs, Serves, Open, hsink, hclient c rfl, hqueue q rfl] at h ⊢
      exact h
  | served c q | leaving c q =>
      simp only [SinkIs, Serves, Open, Sends, hsink, hclient c rfl, hqueue q rfl, htask q rfl] at h ⊢
      exact h
  | ending q =>
      simp only [SinkIs, Sends, hsink, htask q rfl] at h ⊢
      exact h

/-- Every sink is at its stage; connections, sender tasks and queues belong to one sink; and a
queue that is going to be deleted belongs to none. -/
structure Owned (s : Server n κ) (owner : Fin (n + 1) → Stage κ) : Prop where
  sink : ∀ i, SinkIs s i (owner i)
  client : ∀ c i, (s.client c).idx = some i → (owner i).client = some c
  task : ∀ q i, (s.sender q).idx = some i → (owner i).task = some q
  distinct : ∀ i i' q, (owner i).queue = some q → (owner i').queue = some q → i = i'
  bound : ∀ i q, (owner i).queue = some q → q < s.calls
  cleared : ∀ c q, s.client c = .cleared q → q < s.calls ∧ ∀ i, (owner i).queue ≠ some q

theorem owned_init : Owned (Server.init : Server n κ)
    (Function.update (fun _ => .free) 0 .console) := by
  refine ⟨fun i => ?_, fun _ _ h => (by cases h), fun _ _ h => (by cases h), fun i i' q hi hi' => ?_,
    fun i q hi => ?_, fun _ _ h => (by cases h)⟩
  · by_cases hi : i = 0
    · subst hi
      rw [Function.update_self]
      simp only [SinkIs, Server.init, Function.update_self]
    · rw [Function.update_of_ne hi]
      simp only [SinkIs, Server.init, Function.update_of_ne hi]
  · have hzero : ∀ j : Fin (n + 1), (Function.update (fun _ => Stage.free) 0 Stage.console j :
        Stage κ).queue = some q → j = 0 := by
      intro j hj
      by_contra hne
      rw [Function.update_of_ne hne] at hj
      cases hj
    rw [hzero i hi, hzero i' hi']
  · by_cases hzero : i = 0
    · subst hzero
      rw [Function.update_self] at hi
      cases hi
      exact Nat.one_pos
    · rw [Function.update_of_ne hzero] at hi
      cases hi

/-- **One sink goes to another stage.** The step changes nothing that belongs to another sink. -/
theorem Owned.update {s s' : Server n κ} {owner : Fin (n + 1) → Stage κ} (h : Owned s owner)
    {i : Fin (n + 1)} {st : Stage κ} (hsink : SinkIs s' i st)
    (hsinks : ∀ j, j ≠ i → s'.sinks j = s.sinks j)
    (hclients : ∀ c j, j ≠ i → ((s.client c).idx = some j ∨ (s'.client c).idx = some j) →
      s'.client c = s.client c)
    (hsenders : ∀ q j, j ≠ i → ((s.sender q).idx = some j ∨ (s'.sender q).idx = some j) →
      s'.sender q = s.sender q)
    (hqueues : ∀ q j, j ≠ i → (owner j).queue = some q → s'.queues q = s.queues q)
    (hclient : ∀ c, (s'.client c).idx = some i → st.client = some c)
    (htask : ∀ q, (s'.sender q).idx = some i → st.task = some q)
    (hqueue : ∀ q, st.queue = some q → (owner i).queue = some q ∨ q = s.calls ∧ q < s'.calls)
    (hcalls : s.calls ≤ s'.calls)
    (hcleared : ∀ c q, s'.client c = .cleared q →
      s.client c = .cleared q ∨ (owner i).queue = some q ∧ st.queue = none) :
    Owned s' (Function.update owner i st) := by
  have hother : ∀ {j}, j ≠ i → Function.update owner i st j = owner j :=
    fun hj => Function.update_of_ne hj _ _
  have hfresh : ∀ {q j}, j ≠ i → st.queue = some q → (owner j).queue ≠ some q := by
    intro q j hj hq hq'
    rcases hqueue q hq with hold | ⟨hnew, -⟩
    · exact hj (h.distinct j i q hq' hold)
    · have hlt := h.bound j q hq'
      omega
  refine ⟨fun j => ?_, fun c j hj => ?_, fun q j hj => ?_, fun j j' q hj hj' => ?_,
    fun j q hj => ?_, fun c q hc => ?_⟩
  · by_cases hij : j = i
    · subst hij
      rwa [Function.update_self]
    · rw [hother hij]
      exact (h.sink j).congr (hsinks j hij)
        (fun c hc => hclients c j hij (.inl ((h.sink j).client_idx hc)))
        (fun q hq => hqueues q j hij hq)
        fun q hq => hsenders q j hij (.inl ((h.sink j).task_idx hq))
  · by_cases hij : j = i
    · subst hij
      rw [Function.update_self]
      exact hclient c hj
    · rw [hother hij]
      rw [hclients c j hij (.inr hj)] at hj
      exact h.client c j hj
  · by_cases hij : j = i
    · subst hij
      rw [Function.update_self]
      exact htask q hj
    · rw [hother hij]
      rw [hsenders q j hij (.inr hj)] at hj
      exact h.task q j hj
  · by_cases hij : j = i
    · by_cases hij' : j' = i
      · rw [hij, hij']
      · subst hij
        rw [Function.update_self] at hj
        rw [hother hij'] at hj'
        exact absurd hj' (hfresh hij' hj)
    · by_cases hij' : j' = i
      · subst hij'
        rw [Function.update_self] at hj'
        rw [hother hij] at hj
        exact absurd hj (hfresh hij hj')
      · rw [hother hij] at hj
        rw [hother hij'] at hj'
        exact h.distinct j j' q hj hj'
  · by_cases hij : j = i
    · subst hij
      rw [Function.update_self] at hj
      rcases hqueue q hj with hold | ⟨-, hlt⟩
      · exact Nat.lt_of_lt_of_le (h.bound j q hold) hcalls
      · exact hlt
    · rw [hother hij] at hj
      exact Nat.lt_of_lt_of_le (h.bound j q hj) hcalls
  · rcases hcleared c q hc with hbefore | ⟨hqueue', hst⟩
    · obtain ⟨hlt, hno⟩ := h.cleared c q hbefore
      refine ⟨Nat.lt_of_lt_of_le hlt hcalls, fun j hj => ?_⟩
      by_cases hij : j = i
      · subst hij
        rw [Function.update_self] at hj
        rcases hqueue q hj with hold | ⟨hnew, -⟩
        · exact hno j hold
        · omega
      · rw [hother hij] at hj
        exact hno j hj
    · refine ⟨Nat.lt_of_lt_of_le (h.bound i q hqueue') hcalls, fun j hj => ?_⟩
      by_cases hij : j = i
      · subst hij
        rw [Function.update_self, hst] at hj
        cases hj
      · rw [hother hij] at hj
        exact hij (h.distinct j i q hj hqueue')

/-- No stage changes. -/
theorem Owned.keep {s s' : Server n κ} {owner : Fin (n + 1) → Stage κ} (h : Owned s owner)
    (hsinks : s'.sinks = s.sinks)
    (hclients : ∀ c i, ((s.client c).idx = some i ∨ (s'.client c).idx = some i) →
      s'.client c = s.client c)
    (hsenders : s'.sender = s.sender)
    (hqueues : ∀ q i, (owner i).queue = some q → s'.queues q = s.queues q)
    (hcalls : s'.calls = s.calls)
    (hcleared : ∀ c q, s'.client c = .cleared q → s.client c = .cleared q) : Owned s' owner := by
  refine ⟨fun i => ?_, fun c i hi => ?_, fun q i hi => ?_, h.distinct, fun i q hi => ?_,
    fun c q hc => hcalls ▸ h.cleared c q (hcleared c q hc)⟩
  · exact (h.sink i).congr (congrFun hsinks i)
      (fun c hc => hclients c i (.inl ((h.sink i).client_idx hc))) (fun q hq => hqueues q i hq)
      fun q _ => congrFun hsenders q
  · rw [hclients c i (.inr hi)] at hi
    exact h.client c i hi
  · rw [hsenders] at hi
    exact h.task q i hi
  · rw [hcalls]
    exact h.bound i q hi

section Steps

variable [DecidableEq κ] {s : Server n κ} {owner : Fin (n + 1) → Stage κ}

/-- **The condition**: a connection that looks for a free sink does not come upon one that a
sender task still has to clear or that another connection has found. -/
def Undisturbed (s : Server n κ) : Op κ → Prop
  | .find _ => ∀ i, s.findFreeSink = some i →
    (∀ q < s.calls, (s.sender q).idx ≠ some i) ∧ ∀ c, (s.client c).idx ≠ some i
  | _ => True

instance [Fintype κ] (s : Server n κ) (op : Op κ) : Decidable (Undisturbed s op) := by
  cases op <;> unfold Undisturbed <;> infer_instance

omit [DecidableEq κ] in
theorem findFreeSink_some {i : Fin (n + 1)} (h : s.findFreeSink = some i) :
    (s.sinks i).active = false := by
  have hfound := List.find?_some h
  simp only [Bool.and_eq_true, Bool.not_eq_true'] at hfound
  exact hfound.2

theorem goto_self (s : Server n κ) (c : κ) (p : Client n) : (s.goto c p).client c = p :=
  Function.update_self _ _ _

theorem goto_of_ne (s : Server n κ) {c d : κ} (h : d ≠ c) (p : Client n) :
    (s.goto c p).client d = s.client d := Function.update_of_ne h _ _

omit [DecidableEq κ] in
theorem gotoSender_self (s : Server n κ) (q : Nat) (p : Sender n) : (s.gotoSender q p).sender q = p :=
  Function.update_self _ _ _

omit [DecidableEq κ] in
theorem gotoSender_of_ne (s : Server n κ) {q r : Nat} (h : r ≠ q) (p : Sender n) :
    (s.gotoSender q p).sender r = s.sender r := Function.update_of_ne h _ _

/-- The connection of a sink, or one that takes a free sink, goes on. -/
theorem Owned.goto (h : Owned s owner) {t : Server n κ} {c : κ} {p : Client n} {i : Fin (n + 1)}
    {st : Stage κ}
    (hold : (s.client c).idx = some i ∨ (s.client c).idx = none ∧ owner i = .free)
    (hnew : p.idx = some i ∧ st.client = some c ∨ p.idx = none)
    (hclient : t.client = s.client) (hsink : SinkIs (t.goto c p) i st)
    (hsinks : ∀ j, j ≠ i → t.sinks j = s.sinks j)
    (hsenders : ∀ q j, j ≠ i → ((s.sender q).idx = some j ∨ (t.sender q).idx = some j) →
      t.sender q = s.sender q)
    (hqueues : ∀ q j, j ≠ i → (owner j).queue = some q → t.queues q = s.queues q)
    (htask : ∀ q, (t.sender q).idx = some i → st.task = some q)
    (hqueue : ∀ q, st.queue = some q → (owner i).queue = some q ∨ q = s.calls ∧ q < t.calls)
    (hcalls : s.calls ≤ t.calls)
    (hcleared : ∀ q, p = .cleared q → (owner i).queue = some q ∧ st.queue = none) :
    Owned (t.goto c p) (Function.update owner i st) := by
  have hothers : ∀ d, d ≠ c → (t.goto c p).client d = s.client d := by
    intro d hd
    rw [goto_of_ne t hd, hclient]
  refine h.update hsink hsinks (fun d j hj hidx => ?_) hsenders hqueues (fun d hidx => ?_) htask
    hqueue hcalls fun d q hd => ?_
  · by_cases hdc : d = c
    · subst hdc
      rw [goto_self] at hidx
      rcases hidx with hidx | hidx
      · rcases hold with hold | ⟨hold, -⟩ <;> rw [hold] at hidx <;> cases hidx
        exact absurd rfl hj
      · rcases hnew with ⟨hnew, -⟩ | hnew <;> rw [hnew] at hidx <;> cases hidx
        exact absurd rfl hj
    · exact hothers d hdc
  · by_cases hdc : d = c
    · subst hdc
      rw [goto_self] at hidx
      rcases hnew with ⟨-, hst⟩ | hnew
      · exact hst
      · rw [hnew] at hidx
        cases hidx
    · rw [hothers d hdc] at hidx
      have hd := h.client d i hidx
      rcases hold with hold | ⟨-, hfree⟩
      · rw [h.client c i hold] at hd
        exact absurd (Option.some.inj hd).symm hdc
      · rw [hfree] at hd
        cases hd
  · by_cases hdc : d = c
    · subst hdc
      rw [goto_self] at hd
      exact .inr (hcleared q hd)
    · rw [hothers d hdc] at hd
      exact .inl hd

/-- The connection of a sink goes on and touches nothing but the sink. -/
theorem Owned.goto_sink (h : Owned s owner) {t : Server n κ} {c : κ} {p : Client n}
    {i : Fin (n + 1)} {st : Stage κ}
    (hold : (s.client c).idx = some i ∨ (s.client c).idx = none ∧ owner i = .free)
    (hnew : p.idx = some i ∧ st.client = some c ∨ p.idx = none)
    (ht : t.client = s.client ∧ t.sender = s.sender ∧ t.queues = s.queues ∧ t.calls = s.calls)
    (hsinks : ∀ j, j ≠ i → t.sinks j = s.sinks j) (hsink : SinkIs (t.goto c p) i st)
    (htask : st.task = (owner i).task) (hqueue : st.queue = (owner i).queue ∨ st.queue = none)
    (hcleared : ∀ q, p = .cleared q → (owner i).queue = some q ∧ st.queue = none) :
    Owned (t.goto c p) (Function.update owner i st) := by
  obtain ⟨hclient, hsender, hqueues, hcalls⟩ := ht
  refine h.goto hold hnew hclient hsink hsinks (fun q j _ _ => congrFun hsender q)
    (fun q j _ _ => congrFun hqueues q) (fun q hq => ?_) (fun q hq => ?_) hcalls.ge hcleared
  · rw [hsender] at hq
    rw [htask]
    exact h.task q i hq
  · rcases hqueue with hqueue | hqueue <;> rw [hqueue] at hq
    · exact .inl hq
    · cases hq

omit [DecidableEq κ] in
/-- The sender task of a sink goes on. -/
theorem Owned.gotoSender (h : Owned s owner) {t : Server n κ} {q : Nat} {p : Sender n}
    {i : Fin (n + 1)} {st : Stage κ} (hold : (s.sender q).idx = some i)
    (hnew : p.idx = some i ∧ st.task = some q ∨ p.idx = none)
    (ht : t.client = s.client ∧ t.sender = s.sender ∧ t.calls = s.calls)
    (hsinks : ∀ j, j ≠ i → t.sinks j = s.sinks j) (hsink : SinkIs (t.gotoSender q p) i st)
    (hqueues : ∀ r j, j ≠ i → (owner j).queue = some r → t.queues r = s.queues r)
    (hclient : st.client = (owner i).client)
    (hqueue : st.queue = (owner i).queue ∨ st.queue = none) :
    Owned (t.gotoSender q p) (Function.update owner i st) := by
  obtain ⟨htclient, htsender, hcalls⟩ := ht
  have hothers : ∀ r, r ≠ q → (t.gotoSender q p).sender r = s.sender r := by
    intro r hr
    rw [gotoSender_of_ne t hr, htsender]
  have howner := h.task q i hold
  refine h.update hsink hsinks (fun d j _ _ => congrFun htclient d) (fun r j hj hidx => ?_) hqueues
    (fun d hidx => ?_) (fun r hidx => ?_) (fun r hr => ?_) hcalls.ge fun d r hd => ?_
  · by_cases hrq : r = q
    · subst hrq
      rw [gotoSender_self, hold] at hidx
      rcases hidx with hidx | hidx
      · exact absurd (Option.some.inj hidx).symm hj
      · rcases hnew with ⟨hnew, -⟩ | hnew <;> rw [hnew] at hidx <;> cases hidx
        exact absurd rfl hj
    · exact hothers r hrq
  · rw [show (t.gotoSender q p).client = s.client from htclient] at hidx
    rw [hclient]
    exact h.client d i hidx
  · by_cases hrq : r = q
    · subst hrq
      rw [gotoSender_self] at hidx
      rcases hnew with ⟨-, hst⟩ | hnew
      · exact hst
      · rw [hnew] at hidx
        cases hidx
    · rw [hothers r hrq] at hidx
      rw [h.task r i hidx] at howner
      exact absurd (Option.some.inj howner) hrq
  · rcases hqueue with hqueue | hqueue <;> rw [hqueue] at hr
    · exact .inl hr
    · cases hr
  · rw [show (t.gotoSender q p).client = s.client from htclient] at hd
    exact .inl hd

end Steps

end EspAx25.LogSink
