import EspAx25.LogSink.Steps

/-!
# EspAx25.LogSink.Apart

The sinks over whole runs of the log server.
-/

namespace EspAx25.LogSink

open Transition

variable {n depth : Nat} {κ : Type} [DecidableEq κ] {s : Server n κ} {owner : Fin (n + 1) → Stage κ}

theorem owned_run (h : Reach (· = Server.init) (step depth) Undisturbed s) : OwnedBySome s :=
  h.invariant (fun _ hs => hs ▸ owned_init.some) fun _ _ _ hs hok hstep => owned_step hs hok hstep

/-! ### The condition is exact -/

/-- The sink that a connection has been given, and the queue. -/
def Client.taken : Client n → Option (Fin (n + 1) × Nat)
  | .assigned i q | .failed i q | .spawned i q | .connected i q => Option.some (i, q)
  | _ => none

/-- A sink that a connection has been given is not still to be cleared by another sender task; no
two connections have one sink; and after `on_tcp_connected`, until `on_tcp_disconnected`,
the sink is active with the connection's own live queue. -/
structure SinksApart (s : Server n κ) : Prop where
  cleared : ∀ c i q, (s.client c).taken = Option.some (i, q) →
    ∀ r, (s.sender r).idx = Option.some i → r = q
  unshared : ∀ c d i, (s.client c).idx = Option.some i → (s.client d).idx = Option.some i → c = d
  serves : ∀ c i q, s.client c = .connected i q → Serves s i c q

omit [DecidableEq κ] in
theorem Owned.apart (h : Owned s owner) : SinksApart s := by
  refine ⟨fun c i q hc r hr => ?_, fun c d i hc hd => ?_, fun c i q hc => ?_⟩
  · have htask := h.task r i hr
    cases hplace : s.client c with
    | assigned j p | failed j p =>
        rw [hplace] at hc
        cases hc
        have hst : owner i = .assigned c q := h.at_place hplace rfl
        rw [hst] at htask
        cases htask
    | spawned j p | connected j p =>
        rw [hplace] at hc
        cases hc
        have hst : owner i = .served c q := h.at_place hplace rfl
        rw [hst] at htask
        cases htask
        rfl
    | _ =>
        rw [hplace] at hc
        cases hc
  · have hd := h.client d i hd
    rw [h.client c i hc] at hd
    exact Option.some.inj hd
  · have hst : owner i = .served c q := h.at_place hc rfl
    have hsink := h.sink i
    rw [hst] at hsink
    exact hsink.1

theorem one_step {s' : Server n κ} (op : Op κ) (hok : Undisturbed s op)
    (hs : step depth s op = some s') : Reach (· = s) (step depth) Undisturbed s' := by
  have hstart : Reach (· = s) (step depth) Undisturbed s := .start rfl
  exact hstart.next op hok hs

/-- A connection that has found a sink with a sender task is given it. -/
theorem given_uncleared {c : κ} {i : Fin (n + 1)} {r : Nat} (hc : s.client c = .found i)
    (hr : (s.sender r).idx = some i) (hlt : r < s.calls) :
    ∃ s', Reach (· = s) (step depth) Undisturbed s' ∧ ¬ SinksApart s' := by
  let s₁ : Server n κ :=
    ({ s with calls := s.calls + 1 }.setQueue s.calls (some [])).goto c (.created i s.calls)
  let s₂ : Server n κ :=
    ((s₁.setSink i (some s.calls) none (some c)).setSinkActive i true).goto c (.assigned i s.calls)
  have hcreate : step depth s (.createQueue c true) = some s₁ := by
    dsimp only [step]
    rw [hc]
    rfl
  have hassign : step depth s₁ (.assign c) = some s₂ := by
    dsimp only [step]
    rw [show s₁.client c = .created i s.calls from goto_self _ c _]
  refine ⟨s₂, (one_step (.createQueue c true) trivial hcreate).next (.assign c) trivial hassign,
    fun hapart => ?_⟩
  have hsender : s₂.sender = s.sender :=
    (setSinkActive_others (s₁.setSink i (some s.calls) none (some c)) i true).2.1
  have heq := hapart.cleared c i s.calls (by
    rw [show s₂.client c = .assigned i s.calls from goto_self _ c _]
    rfl) r (by rw [hsender]; exact hr)
  omega

/-- **The sinks are kept apart exactly in the runs that keep to the condition.** In such a run,
whatever connections come and go and whatever is logged, no sink is given to a connection
while the sender task of the previous one has not cleared it, no two connections get one sink,
and a connection keeps its sink, active and with its own live queue, from the end of
`on_tcp_connected` to its own `on_tcp_disconnected`. A step that breaks the condition can be
continued, by steps that keep to it, to a state where this is not so. -/
theorem sinks_apart_exact (depth : Nat) :
    (∀ s : Server n κ, Reach (· = Server.init) (step depth) Undisturbed s → SinksApart s) ∧
    ∀ (s s' : Server n κ) (op : Op κ), Reach (· = Server.init) (step depth) Undisturbed s →
      step depth s op = some s' → ¬ Undisturbed s op →
        ∃ s'', Reach (· = s') (step depth) Undisturbed s'' ∧ ¬ SinksApart s'' := by
  constructor
  · intro s h
    obtain ⟨owner, howner⟩ := owned_run h
    exact howner.apart
  · intro s s' op _ hs hno
    cases op with
    | find c =>
        simp only [Undisturbed, not_forall] at hno
        obtain ⟨i, hfind, hno⟩ := hno
        dsimp only [step] at hs
        split_ifs at hs with hc
        rw [hfind] at hs
        cases hs
        rw [not_and_or, not_forall, not_forall] at hno
        rcases hno with ⟨r, hr⟩ | ⟨d, hd⟩
        · rw [Classical.not_imp, not_not] at hr
          exact given_uncleared (s := s.goto c (.found i)) (goto_self s c _) hr.2 hr.1
        · rw [not_not] at hd
          refine ⟨s.goto c (.found i), .start rfl, fun hapart => ?_⟩
          have hne : d ≠ c := by
            rintro rfl
            rw [hc] at hd
            cases hd
          refine hne (hapart.unshared d c i ?_ ?_)
          · rwa [goto_of_ne s hne]
          · rw [goto_self]
            rfl
    | _ => exact absurd trivial hno

/-! ### One sink -/

/-- A connection gets a sink with a sender task, which starts. -/
def connecting (c : κ) (j : Nat) : List (Op κ) :=
  [.connect c, .find c, .createQueue c true, .assign c, .createTask c true, .setTask c, .start j]

/-- The client leaves. -/
def disconnecting (c : κ) : List (Op κ) := [.disconnect c, .readQueue c, .sentinel c]

/-- The sender task comes to the sentinel and clears its sink. -/
def ending (j : Nat) : List (Op κ) := [.receive j, .drain j, .delete j, .remove j]

/-- The client is back before the sender task has cleared the sink, which then clears the sink of
the new session. And two clients that look for a sink at the same time get the same one. -/
theorem sink_given_twice :
    (∃ s : Server 1 Unit, Reach (· = Server.init) (step 4) Always s ∧ ¬ SinksApart s ∧
      s.client () = .connected 1 2 ∧ (s.sinks 1).active = false ∧ (s.sinks 1).queue = none) ∧
    ∃ s : Server 2 Bool, Reach (· = Server.init) (step 4) Always s ∧ ¬ SinksApart s ∧
      s.client true = .found 1 ∧ s.client false = .found 1 := by
  constructor
  · have hrun : (replay (step 4) Always (Server.init : Server 1 Unit)
        (connecting () 1 ++ disconnecting () ++ connecting () 2 ++ ending 1)).map (fun s =>
          (s.client (), (s.sinks 1).active, (s.sinks 1).queue)) =
            Option.some (.connected 1 2, false, none) := by decide +kernel
    obtain ⟨s, hs, heq⟩ := Option.map_eq_some_iff.1 hrun
    simp only [Prod.mk.injEq] at heq
    obtain ⟨hclient, hactive, hqueue⟩ := heq
    refine ⟨s, Reach.replay (.start rfl) hs, fun hapart => ?_, hclient, hactive, hqueue⟩
    have hserves := (hapart.serves () 1 2 hclient).1
    rw [hactive] at hserves
    cases hserves
  · have hrun : (replay (step 4) Always (Server.init : Server 2 Bool)
        [.connect true, .connect false, .find true, .find false]).map (fun s =>
          (s.client true, s.client false)) = Option.some (.found 1, .found 1) := by decide +kernel
    obtain ⟨s, hs, heq⟩ := Option.map_eq_some_iff.1 hrun
    simp only [Prod.mk.injEq] at heq
    obtain ⟨htrue, hfalse⟩ := heq
    refine ⟨s, Reach.replay (.start rfl) hs, fun hapart => ?_, htrue, hfalse⟩
    have hsame := hapart.unshared true false 1 (by rw [htrue]; rfl) (by rw [hfalse]; rfl)
    cases hsame

/-- The sender task clears the sink before the client is back. -/
theorem sinks_apart_exact_reconnect :
    ∃ s : Server 1 Unit, s.client () = .connected 1 2 ∧ SinksApart s := by
  have hrun : (replay (step 4) Undisturbed (Server.init : Server 1 Unit)
      (connecting () 1 ++ disconnecting () ++ ending 1 ++ connecting () 2)).map (fun s => s.client ()) =
        Option.some (.connected 1 2) := by decide +kernel
  obtain ⟨s, hs, hclient⟩ := Option.map_eq_some_iff.1 hrun
  exact ⟨s, hclient, (sinks_apart_exact 4).1 s (Reach.replay (.start rfl) hs)⟩

end EspAx25.LogSink
