import EspAx25.Agwpe.Manager

/-!
# EspAx25.Agwpe.EntryPoints

The entry points of a managed client: `ax25_agwpe_server_client_agwpe_in`,
`ax25_agwpe_server_client_ax25_in` and `ax25_agwpe_server_client_ax25_out`.

Each of them looks up its argument under the mutex, gives the mutex back and works on the
client. It takes no reference, unlike `manager_router_on_frame`, so the client may leave the
table in the meantime, and be freed. `entry_points_exact` says that this is all that can go
wrong.
-/

namespace EspAx25.Manager

open Tally Transition

variable {n : Nat} {π : Type} [DecidableEq π]

/-- **The condition**: no client is taken out of the table while an entry point works on
it. -/
def Undisturbed (s : State n π) (e : Event n π) : Prop := ∀ c ∈ s.lookedUp, ¬ TakesOut s e c

instance (s : State n π) (e : Event n π) : Decidable (Undisturbed s e) :=
  inferInstanceAs (Decidable (∀ c ∈ s.lookedUp, ¬ TakesOut s e c))

/-- A client stays in its slot unless it is taken out. -/
theorem stays_step {s s' : State n π} {e : Event n π} (h : Conserved s) (hs : step s e = some s')
    {i : Fin n} {c : Client π} (hi : s.clients i = some c) (hno : ¬ TakesOut s e c) :
    s'.clients i = some c := by
  rcases clients_cases h hs i with hsame | hnone | ⟨d, hd, -, hout⟩
  · rw [hsame, hi]
  · rw [hnone] at hi
    cases hi
  · rw [hi] at hd
    exact absurd (Option.some.inj hd ▸ hout) hno

/-- What is taken out is going to be freed, and the entry points keep it. -/
theorem takesOut_step {s s' : State n π} {e : Event n π} {c : Client π} (hout : TakesOut s e c)
    (hs : step s e = some s') : c ∈ s'.toFree ∧ s'.lookedUp = s.lookedUp := by
  cases e with
  | remove p =>
      obtain ⟨i, hfind, hzero⟩ := hout
      simp only [step] at hs
      split_ifs at hs
      cases hs
      unfold State.remove
      rw [hfind]
      dsimp only
      rw [if_pos hzero]
      exact ⟨List.mem_cons_self, rfl⟩
  | release t ts =>
      obtain ⟨hc, hlast, hpending, hptr⟩ := hout
      simp only [step] at hs
      split_ifs at hs
      cases hs
      have hone := given_back_eq_zero (s.clientRefcnt t.idx)
      unfold State.release
      generalize (if 0 < s.clientRefcnt t.idx then s.clientRefcnt t.idx - 1
        else s.clientRefcnt t.idx) = refcnt at hone ⊢
      dsimp only
      rw [hc]
      dsimp only
      rw [if_pos ⟨hone.2 hlast, hpending, hptr⟩]
      exact ⟨List.mem_cons_self, rfl⟩
  | deinitRound =>
      obtain ⟨i, hi, hzero⟩ := hout
      simp only [step] at hs
      split_ifs at hs
      cases hs
      refine ⟨List.mem_append_left _ (List.mem_filterMap.2 ⟨i, List.mem_finRange i, ?_⟩), rfl⟩
      rw [if_pos hzero, hi]
  | add _ | place _ | callback | collect | deinitStart | deinitEnd | deinit _ | free _ | lookUp _
  | operate _ | leave _ => exact absurd hout id

/-! ### Every run -/

/-- An entry point works on a client of the table. -/
structure Guarded (s : State n π) : Prop where
  conserved : Conserved s
  lookedUp : ∀ c ∈ s.lookedUp, ∃ i, s.clients i = some c
  usedAfterFree : s.usedAfterFree = false

theorem guarded_step {s s' : State n π} {e : Event n π} (h : Guarded s) (hok : Undisturbed s e)
    (hs : step s e = some s') : Guarded s' := by
  have hcons := conserved_step h.conserved hs
  have hstays : ∀ c ∈ s.lookedUp, ∃ i, s'.clients i = some c := by
    intro c hc
    obtain ⟨i, hi⟩ := h.lookedUp c hc
    exact ⟨i, stays_step h.conserved hs hi (hok c hc)⟩
  cases e with
  | lookUp p =>
      simp only [step] at hs
      split_ifs at hs
      · cases hs
        exact h
      · cases hfind : s.hasClient p with
        | none =>
            simp only [hfind] at hs
            cases hs
            exact h
        | some c =>
            simp only [hfind] at hs
            cases hs
            obtain ⟨i, hi, -⟩ := State.hasClient_some hfind
            refine ⟨hcons, fun d hd => ?_, h.usedAfterFree⟩
            rcases List.mem_cons.1 hd with rfl | hd
            · exact ⟨i, hi⟩
            · exact h.lookedUp d hd
  | operate c =>
      simp only [step] at hs
      split_ifs at hs with hc
      cases hs
      obtain ⟨i, hi⟩ := h.lookedUp c hc
      have hfrees := (h.conserved.of_table hi).2.2.2.2.2
      refine ⟨hcons, h.lookedUp, ?_⟩
      dsimp only
      rw [h.usedAfterFree, hfrees]
      rfl
  | leave c =>
      simp only [step] at hs
      split_ifs at hs
      cases hs
      exact ⟨hcons, fun d hd => h.lookedUp d (List.mem_of_mem_erase hd), h.usedAfterFree⟩
  | place c =>
      simp only [step] at hs
      split_ifs at hs
      cases hs
      have hsame : (s.place c).lookedUp = s.lookedUp ∧
          (s.place c).usedAfterFree = s.usedAfterFree := by
        unfold State.place
        dsimp only
        split <;> exact ⟨rfl, rfl⟩
      exact ⟨hcons, fun d hd => hstays d (hsame.1 ▸ hd), hsame.2.trans h.usedAfterFree⟩
  | remove p =>
      simp only [step] at hs
      split_ifs at hs
      cases hs
      have hsame : (s.remove p).lookedUp = s.lookedUp ∧
          (s.remove p).usedAfterFree = s.usedAfterFree := by
        unfold State.remove
        split
        · exact ⟨rfl, rfl⟩
        · dsimp only
          split_ifs <;> exact ⟨rfl, rfl⟩
      exact ⟨hcons, fun d hd => hstays d (hsame.1 ▸ hd), hsame.2.trans h.usedAfterFree⟩
  | release t ts =>
      simp only [step] at hs
      split_ifs at hs
      cases hs
      have hsame : (s.release t ts).lookedUp = s.lookedUp ∧
          (s.release t ts).usedAfterFree = s.usedAfterFree := by
        unfold State.release
        dsimp only
        split
        · split_ifs <;> exact ⟨rfl, rfl⟩
        · exact ⟨rfl, rfl⟩
      exact ⟨hcons, fun d hd => hstays d (hsame.1 ▸ hd), hsame.2.trans h.usedAfterFree⟩
  | add _ | callback | collect | deinitStart | deinitRound | deinitEnd | deinit _ | free _ =>
      simp only [step] at hs
      split_ifs at hs
      cases hs
      exact ⟨hcons, hstays, h.usedAfterFree⟩

/-- **An entry point uses a freed client exactly when the client is taken out of the table
in the meantime.** In every run that takes out no client that an entry point works on, no
entry point works on a client that has been freed; and every step that takes out such a
client can be continued to a state where one has. -/
theorem entry_points_exact :
    (∀ s : State n π, Reach IsInit step Undisturbed s → s.usedAfterFree = false) ∧
    ∀ (s s' : State n π) (e : Event n π), Reach IsInit step Always s → step s e = some s' →
      ¬ Undisturbed s e → ∃ s'', Reach (· = s') step Always s'' ∧ s''.usedAfterFree = true := by
  constructor
  · intro s h
    have hguarded : Guarded s :=
      h.invariant (fun s hs => ⟨conserved_init hs, by subst hs; exact fun c hc => (by cases hc),
        by subst hs; rfl⟩) fun _ _ _ hs hok hstep => guarded_step hs hok hstep
    exact hguarded.usedAfterFree
  · intro s s' e _ hs hno
    simp only [Undisturbed, not_forall, not_not] at hno
    obtain ⟨c, hc, hout⟩ := hno
    obtain ⟨hfree, hlookedUp⟩ := takesOut_step hout hs
    -- the client is deinitialised and freed before the entry point goes on
    let s₁ : State n π := { s' with
      toFree := s'.toFree.erase c, deinited := c :: s'.deinited
      deinits := Function.update s'.deinits c.id (s'.deinits c.id + 1) }
    let s₂ : State n π := { s₁ with
      deinited := s₁.deinited.erase c
      frees := Function.update s₁.frees c.id (s₁.frees c.id + 1) }
    let s₃ : State n π := { s₂ with
      usedAfterFree := s₂.usedAfterFree || decide (0 < s₂.frees c.id) }
    have hdeinit : step s' (.deinit c) = some s₁ := if_pos hfree
    have hfreed : step s₁ (.free c) = some s₂ := if_pos (List.mem_cons_self (a := c))
    have hmem : c ∈ s₂.lookedUp := by
      rw [show s₂.lookedUp = s.lookedUp from hlookedUp]
      exact hc
    have hoperate : step s₂ (.operate c) = some s₃ := if_pos hmem
    have hstart : Reach (· = s') step Always s' := .start rfl
    refine ⟨s₃, ((hstart.next _ trivial hdeinit).next _ trivial hfreed).next _ trivial hoperate, ?_⟩
    have hcount : 0 < s₂.frees c.id := by
      simp only [s₂, Function.update_self]
      exact Nat.succ_pos _
    simp only [s₃, hcount, decide_true, Bool.or_true]

/-! ### One client -/

/-- A client is added, and an entry point looks it up. -/
def lookedUpOnce : List (Event 1 Unit) := [.add (), .place ⟨(), 0⟩, .lookUp ()]

/-- It is removed and freed, and the entry point works on it. -/
def removedInBetween : List (Event 1 Unit) :=
  lookedUpOnce ++ [.remove (), .deinit ⟨(), 0⟩, .free ⟨(), 0⟩, .operate ⟨(), 0⟩]

theorem entry_point_uses_freed :
    ¬ ∀ s : State 1 Unit, Reach IsInit step Always s → s.usedAfterFree = false := by
  intro hall
  have hrun : (replay step Always State.init removedInBetween).map (fun s => s.usedAfterFree) =
      some true := by decide +kernel
  obtain ⟨s, hs, htrue⟩ := Option.map_eq_some_iff.1 hrun
  rw [hall s (Reach.replay (.start rfl) hs)] at htrue
  cases htrue

/-- Removed after the entry point has come to its end. -/
theorem entry_points_exact_after :
    ∃ s : State 1 Unit,
      replay step Undisturbed State.init
        (lookedUpOnce ++ [.operate ⟨(), 0⟩, .leave ⟨(), 0⟩, .remove (), .deinit ⟨(), 0⟩,
          .free ⟨(), 0⟩]) = some s ∧ s.usedAfterFree = false := by
  have hrun : (replay step Undisturbed (State.init : State 1 Unit)
      (lookedUpOnce ++ [.operate ⟨(), 0⟩, .leave ⟨(), 0⟩, .remove (), .deinit ⟨(), 0⟩,
        .free ⟨(), 0⟩])).isSome = true := by decide +kernel
  obtain ⟨s, hs⟩ := Option.isSome_iff_exists.1 hrun
  exact ⟨s, hs, entry_points_exact.1 s (Reach.replay (.start rfl) hs)⟩

end EspAx25.Manager
