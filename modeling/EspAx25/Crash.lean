import Mathlib.Algebra.Ring.Nat
import Mathlib.Data.List.Basic
import Mathlib.Tactic.SplitIfs

/-!
# EspAx25.Crash

Programs that make calls on a persistent state. A call takes effect at once and as
a whole, or it is refused with an error, or the power goes before it. What the
program itself keeps in memory is lost with the power, so a program that is cut off
has no result, only the state that it leaves behind.

A program that returns at the first error is described by its atoms: pieces that are
done as a whole or not at all. Whatever becomes of its calls, it leaves the effect
of the atoms that it got through (`Does`).
-/

namespace Crash

variable {σ δ ε ε' α β : Type}

/-- What becomes of a call. -/
inductive Fate (δ : Type)
  | done
  | refused (reason : δ)
  | lost
  deriving Repr, DecidableEq

/-- What becomes of the calls to come, in order. Those past the end of the list are done. -/
abbrev Fates (δ : Type) := List (Fate δ)

/-- A program: its result (none when it is cut off), the state that it leaves, and the
fates that it has not used. -/
def Prog (σ δ α : Type) := σ → Fates δ → Option α × σ × Fates δ

instance : Monad (Prog σ δ) where
  pure a := fun s t => (some a, s, t)
  bind m k := fun s t =>
    match m s t with
    | (some a, s', t') => k a s' t'
    | (none, s', t') => (none, s', t')

/-- A call that maps the state to a result and a new state. `err` is the error that it
returns when it is refused. -/
def call (err : δ → ε) (f : σ → Except ε α × σ) : Prog σ δ (Except ε α) := fun s t =>
  match t with
  | [] => (some (f s).1, (f s).2, [])
  | .done :: t => (some (f s).1, (f s).2, t)
  | .refused e :: t => (some (.error (err e)), s, t)
  | .lost :: t => (none, s, t)

/-- `m`, and `k` unless `m` returns an error, which is then the result. -/
def tryThen (m : Prog σ δ (Except ε α)) (k : α → Prog σ δ (Except ε β)) :
    Prog σ δ (Except ε β) :=
  m >>= fun r => match r with
    | .ok a => k a
    | .error e => pure (.error e)

/-- The same program with the error told in another way. -/
def mapError (f : ε → ε') (m : Prog σ δ (Except ε α)) : Prog σ δ (Except ε' α) :=
  m >>= fun r => match r with
    | .ok a => pure (.ok a)
    | .error e => pure (.error (f e))

theorem bind_run_some {m : Prog σ δ α} {k : α → Prog σ δ β} {s s' : σ} {t t' : Fates δ} {a : α}
    (h : m s t = (some a, s', t')) : (m >>= k) s t = k a s' t' := by
  change (match m s t with
    | (some a, s', t') => k a s' t'
    | (none, s', t') => (none, s', t')) = _
  rw [h]

theorem bind_run_none {m : Prog σ δ α} {k : α → Prog σ δ β} {s s' : σ} {t t' : Fates δ}
    (h : m s t = (none, s', t')) : (m >>= k) s t = (none, s', t') := by
  change (match m s t with
    | (some a, s', t') => k a s' t'
    | (none, s', t') => (none, s', t')) = _
  rw [h]

/-- A result comes from the last part of a program. -/
theorem bind_result {m : Prog σ δ α} {k : α → Prog σ δ β} {s : σ} {t : Fates δ} {b : β}
    (h : ((m >>= k) s t).1 = some b) :
    ∃ a s' t', m s t = (some a, s', t') ∧ (k a s' t').1 = some b := by
  rcases hm : m s t with ⟨_ | a, s', t'⟩
  · rw [bind_run_none hm] at h
    cases h
  · rw [bind_run_some hm] at h
    exact ⟨a, s', t', rfl, h⟩

/-- What comes after the last call does not touch the state. -/
theorem bind_leaves {m : Prog σ δ α} {k : α → Prog σ δ β} (hk : ∀ a s t, (k a s t).2 = (s, t))
    (s : σ) (t : Fates δ) : ((m >>= k) s t).2 = (m s t).2 := by
  rcases hm : m s t with ⟨_ | a, s', t'⟩
  · rw [bind_run_none hm]
  · rw [bind_run_some hm, hk]

/-! ### How far the calls get -/

/-- The next `n` calls are all done. -/
def Reaches : Fates δ → Nat → Prop
  | _, 0 => True
  | [], _ + 1 => True
  | .done :: t, n + 1 => Reaches t n
  | .refused _ :: _, _ + 1 => False
  | .lost :: _, _ + 1 => False

instance Reaches.decidable : (t : Fates δ) → (n : Nat) → Decidable (Reaches t n)
  | [], 0 => .isTrue trivial
  | _ :: _, 0 => .isTrue trivial
  | [], _ + 1 => .isTrue trivial
  | .done :: t, n + 1 => Reaches.decidable t n
  | .refused _ :: _, _ + 1 => .isFalse id
  | .lost :: _, _ + 1 => .isFalse id

@[simp] theorem reaches_nil (n : Nat) : Reaches ([] : Fates δ) n := by
  cases n <;> trivial

@[simp] theorem reaches_zero (t : Fates δ) : Reaches t 0 := by
  cases t <;> trivial

/-- Getting through `m + n` calls is getting through `m`, and then through `n`. -/
theorem reaches_add (t : Fates δ) (m n : Nat) :
    Reaches t (m + n) ↔ Reaches t m ∧ Reaches (t.drop m) n := by
  induction m generalizing t with
  | zero => simp
  | succ m ih =>
      rw [show m + 1 + n = m + n + 1 by omega]
      cases t with
      | nil => simp
      | cons f t =>
          cases f with
          | done => exact ih t
          | refused e => exact ⟨False.elim, fun h => h.1⟩
          | lost => exact ⟨False.elim, fun h => h.1⟩

theorem Reaches.mono {t : Fates δ} {m n : Nat} (h : Reaches t n) (hmn : m ≤ n) : Reaches t m := by
  rw [show n = m + (n - m) by omega] at h
  exact ((reaches_add t m (n - m)).mp h).1

/-- A run that does not succeed, and leaves the state `s`. -/
def Stops (r : Option (Except ε Unit) × σ × Fates δ) (s : σ) : Prop :=
  r.1 ≠ some (.ok ()) ∧ r.2.1 = s

theorem stops_error (e : ε) (s : σ) (t : Fates δ) :
    Stops (some (Except.error e : Except ε Unit), s, t) s := ⟨fun h => (by cases h), rfl⟩

theorem stops_none (s : σ) (t : Fates δ) :
    Stops ((none : Option (Except ε Unit)), s, t) s := ⟨fun h => (by cases h), rfl⟩

theorem call_done (err : δ → ε) (f : σ → Except ε α × σ) (s : σ) {t : Fates δ}
    (h : Reaches t 1) : call err f s t = (some (f s).1, (f s).2, t.drop 1) := by
  cases t with
  | nil => rfl
  | cons x t =>
      cases x with
      | done => rfl
      | refused e => exact h.elim
      | lost => exact h.elim

/-- A call that is not done leaves the state as it is. -/
theorem call_not_done (err : δ → ε) (f : σ → Except ε α × σ) (s : σ) {t : Fates δ}
    (h : ¬ Reaches t 1) :
    (∃ e, call err f s t = (some (.error (err e)), s, t.drop 1)) ∨
      call err f s t = (none, s, t.drop 1) := by
  cases t with
  | nil => exact absurd (reaches_nil 1) h
  | cons x t =>
      cases x with
      | done => exact absurd (reaches_zero t) h
      | refused e => exact .inl ⟨e, rfl⟩
      | lost => exact .inr rfl

theorem call_stops (err : δ → ε) (f : σ → Except ε Unit × σ) (s : σ) {t : Fates δ}
    (h : ¬ Reaches t 1) : Stops (call err f s t) s := by
  obtain ⟨e, hcall⟩ | hcall := call_not_done err f s h
  · rw [hcall]
    exact stops_error _ s _
  · rw [hcall]
    exact stops_none s _

/-- So does the beginning of a longer program. -/
theorem call_bind_not_done (err : δ → ε) (f : σ → Except ε α × σ)
    (k : Except ε α → Prog σ δ β) (s : σ) {t : Fates δ} (h : ¬ Reaches t 1) :
    (∃ e, (call err f >>= k) s t = k (.error (err e)) s (t.drop 1)) ∨
      (call err f >>= k) s t = (none, s, t.drop 1) := by
  obtain ⟨e, hcall⟩ | hcall := call_not_done err f s h
  · exact .inl ⟨e, bind_run_some hcall⟩
  · exact .inr (bind_run_none hcall)

/-- A program that begins with a call and passes its error on stops with it. -/
theorem call_bind_stops {err : δ → ε'} {f : σ → Except ε' α × σ}
    {k : Except ε' α → Prog σ δ (Except ε Unit)} {s : σ} {t : Fates δ} (h : ¬ Reaches t 1)
    (hk : ∀ e, Stops (k (.error (err e)) s (t.drop 1)) s) : Stops ((call err f >>= k) s t) s := by
  obtain ⟨e, hcall⟩ | hcall := call_bind_not_done err f k s h
  · rw [hcall]
    exact hk e
  · rw [hcall]
    exact stops_none s _

/-! ### Atoms -/

/-- A piece of a program that is done as a whole or not at all: the number of its calls,
the states in which it succeeds if they are all done, and what it does to the state. -/
structure Atom (σ : Type) where
  calls : Nat
  ready : σ → Bool
  effect : σ → σ

/-- The effect of atoms that are done one after the other. -/
def effects (as : List (Atom σ)) (s : σ) : σ := as.foldl (fun s a => a.effect s) s

/-- The calls of all atoms together. -/
def totalCalls (as : List (Atom σ)) : Nat := (as.map Atom.calls).sum

/-- How many of the atoms are got through. -/
def progress : List (Atom σ) → σ → Fates δ → Nat
  | [], _, _ => 0
  | a :: as, s, t =>
    if a.ready s ∧ Reaches t a.calls then progress as (a.effect s) (t.drop a.calls) + 1 else 0

@[simp] theorem effects_nil (s : σ) : effects [] s = s := rfl

@[simp] theorem effects_cons (a : Atom σ) (as : List (Atom σ)) (s : σ) :
    effects (a :: as) s = effects as (a.effect s) := rfl

theorem effects_append (as bs : List (Atom σ)) (s : σ) :
    effects (as ++ bs) s = effects bs (effects as s) := List.foldl_append ..

/-- What every atom keeps, all of them together keep. -/
theorem effects_invariant {I : σ → Prop} {as : List (Atom σ)}
    (h : ∀ a ∈ as, ∀ s, I s → I (a.effect s)) {s : σ} (hs : I s) : I (effects as s) := by
  induction as generalizing s with
  | nil => exact hs
  | cons a as ih =>
      exact ih (fun b hb => h b (List.mem_cons_of_mem _ hb)) (h a List.mem_cons_self s hs)

theorem totalCalls_append (as bs : List (Atom σ)) :
    totalCalls (as ++ bs) = totalCalls as + totalCalls bs := by
  simp [totalCalls]

/-- Atoms of one call each. -/
theorem totalCalls_single {as : List (Atom σ)} (h : ∀ a ∈ as, a.calls = 1) :
    totalCalls as = as.length := by
  induction as with
  | nil => rfl
  | cons a as ih =>
      rw [List.forall_mem_cons] at h
      have := ih h.2
      simp only [totalCalls, List.map_cons, List.sum_cons, List.length_cons] at this ⊢
      rw [h.1, this, Nat.add_comm]

theorem progress_le (as : List (Atom σ)) (s : σ) (t : Fates δ) :
    progress as s t ≤ as.length := by
  induction as generalizing s t with
  | nil => exact Nat.le_refl _
  | cons a as ih =>
      unfold progress
      split_ifs
      · exact Nat.succ_le_succ (ih _ _)
      · exact Nat.zero_le _

/-- The first atoms are got through before the others are begun. -/
theorem progress_append (as bs : List (Atom σ)) (s : σ) (t : Fates δ) :
    progress (as ++ bs) s t =
      if progress as s t = as.length then
        as.length + progress bs (effects as s) (t.drop (totalCalls as))
      else progress as s t := by
  induction as generalizing s t with
  | nil => simp [progress, totalCalls]
  | cons a as ih =>
      by_cases hgo : a.ready s ∧ Reaches t a.calls
      · have hcons := fun cs : List (Atom σ) =>
          show progress (a :: cs) s t = progress cs (a.effect s) (t.drop a.calls) + 1 from
            if_pos hgo
        rw [List.cons_append, hcons, hcons, ih, List.length_cons, effects_cons]
        simp only [Nat.add_right_cancel_iff, totalCalls, List.map_cons, List.sum_cons,
          List.drop_drop]
        split_ifs
        · omega
        · rfl
      · have hcons := fun cs : List (Atom σ) =>
          show progress (a :: cs) s t = 0 from if_neg hgo
        rw [List.cons_append, hcons, hcons, if_neg (by simp)]

/-- Each of the atoms finds the state ready that those before it leave. -/
def AllReady : List (Atom σ) → σ → Prop
  | [], _ => True
  | a :: as, s => a.ready s ∧ AllReady as (a.effect s)

theorem allReady_of_forall {as : List (Atom σ)} (h : ∀ a ∈ as, ∀ s, a.ready s = true) (s : σ) :
    AllReady as s := by
  induction as generalizing s with
  | nil => trivial
  | cons a as ih =>
      rw [List.forall_mem_cons] at h
      exact ⟨h.1 s, ih h.2 _⟩

theorem allReady_append (as bs : List (Atom σ)) (s : σ) :
    AllReady (as ++ bs) s ↔ AllReady as s ∧ AllReady bs (effects as s) := by
  induction as generalizing s with
  | nil => simp [AllReady]
  | cons a as ih =>
      rw [List.cons_append, AllReady, AllReady, ih, and_assoc]
      rfl

/-- The first `n` atoms are got through when they find the state ready and all their calls
are done. -/
theorem le_progress_iff {as : List (Atom σ)} {s : σ} {t : Fates δ} {n : Nat} (hn : n ≤ as.length) :
    n ≤ progress as s t ↔ AllReady (as.take n) s ∧ Reaches t (totalCalls (as.take n)) := by
  induction as generalizing s t n with
  | nil =>
      rw [List.length_nil] at hn
      simp [Nat.le_zero.mp hn, AllReady, totalCalls]
  | cons a as ih =>
      cases n with
      | zero => simp [AllReady, totalCalls]
      | succ n =>
          have hcalls : totalCalls ((a :: as).take (n + 1)) = a.calls + totalCalls (as.take n) := by
            simp [totalCalls]
          rw [hcalls, reaches_add, List.take_succ_cons, AllReady]
          by_cases hgo : a.ready s ∧ Reaches t a.calls
          · rw [show progress (a :: as) s t = progress as (a.effect s) (t.drop a.calls) + 1 from
              if_pos hgo, Nat.add_le_add_iff_right, ih (Nat.le_of_succ_le_succ hn)]
            exact ⟨fun h => ⟨⟨hgo.1, h.1⟩, hgo.2, h.2⟩, fun h => ⟨h.1.2, h.2.2⟩⟩
          · rw [show progress (a :: as) s t = 0 from if_neg hgo]
            exact ⟨fun h => by omega, fun h => absurd ⟨h.1.1, h.2.1⟩ hgo⟩

theorem progress_eq_length_iff {as : List (Atom σ)} {s : σ} {t : Fates δ} :
    progress as s t = as.length ↔ AllReady as s ∧ Reaches t (totalCalls as) := by
  have h := le_progress_iff (s := s) (t := t) (Nat.le_refl as.length)
  rw [List.take_length] at h
  rw [← h]
  exact ⟨fun h => Nat.le_of_eq h.symm, fun h => Nat.le_antisymm (progress_le as s t) h⟩

/-- `m` does `as`: it leaves the effect of the atoms that it gets through, and it succeeds
when these are all of them. -/
structure Does (m : Prog σ δ (Except ε Unit)) (as : List (Atom σ)) : Prop where
  leaves : ∀ s t, (m s t).2.1 = effects (as.take (progress as s t)) s
  succeeds : ∀ s t, (m s t).1 = some (.ok ()) ↔ progress as s t = as.length
  uses : ∀ s t, progress as s t = as.length → (m s t).2.2 = t.drop (totalCalls as)

theorem Does.run {m : Prog σ δ (Except ε Unit)} {as : List (Atom σ)} (h : Does m as) {s : σ}
    {t : Fates δ} (hp : progress as s t = as.length) :
    m s t = (some (.ok ()), effects as s, t.drop (totalCalls as)) := by
  have hleaves := h.leaves s t
  rw [hp, List.take_length] at hleaves
  exact Prod.ext ((h.succeeds s t).mpr hp) (Prod.ext hleaves (h.uses s t hp))

theorem Does.nil : Does (pure (.ok ()) : Prog σ δ (Except ε Unit)) [] :=
  ⟨fun _ _ => rfl, fun _ _ => ⟨fun _ => rfl, fun _ => rfl⟩, fun _ _ _ => rfl⟩

/-- A single atom, from what it does when it is got through and when it is not. -/
theorem Does.single {m : Prog σ δ (Except ε Unit)} {a : Atom σ}
    (hgo : ∀ s t, a.ready s → Reaches t a.calls →
      m s t = (some (.ok ()), a.effect s, t.drop a.calls))
    (hstop : ∀ s t, ¬ (a.ready s ∧ Reaches t a.calls) → Stops (m s t) s) : Does m [a] := by
  have hprogress : ∀ s t, progress [a] s (t : Fates δ) =
      if a.ready s ∧ Reaches t a.calls then 1 else 0 := fun _ _ => rfl
  refine ⟨fun s t => ?_, fun s t => ?_, fun s t hp => ?_⟩
  · rw [hprogress]
    split_ifs with h
    · rw [hgo s t h.1 h.2]
      rfl
    · exact (hstop s t h).2
  · rw [hprogress]
    split_ifs with h
    · exact ⟨fun _ => rfl, fun _ => by rw [hgo s t h.1 h.2]⟩
    · exact ⟨fun hok => absurd hok (hstop s t h).1, fun h => (by cases h)⟩
  · rw [hprogress] at hp
    split_ifs at hp with h
    · rw [hgo s t h.1 h.2]
      simp [totalCalls]

/-- A call that never fails by itself. -/
theorem Does.call (err : δ → ε) (g : σ → σ) :
    Does (Crash.call err fun s => (.ok (), g s)) [⟨1, fun _ => true, g⟩] :=
  .single (fun s _ _ ht => call_done err _ s ht) fun s _ hnot =>
    call_stops err _ s fun ht => hnot ⟨rfl, ht⟩

/-- What a program that fails or is cut off is followed by, is not run. -/
theorem tryThen_of_not_ok {m : Prog σ δ (Except ε Unit)} {k : Unit → Prog σ δ (Except ε Unit)}
    {s : σ} {t : Fates δ} (h : (m s t).1 ≠ some (.ok ())) :
    (tryThen m k s t).1 ≠ some (.ok ()) ∧ (tryThen m k s t).2.1 = (m s t).2.1 := by
  unfold tryThen
  rcases hm : m s t with ⟨_ | e | u, s', t'⟩
  · rw [bind_run_none hm]
    exact ⟨fun h => (by cases h), rfl⟩
  · rw [bind_run_some hm]
    exact ⟨fun h => (by cases h), rfl⟩
  · exact absurd (by rw [hm]) h

theorem Does.tryThen {m : Prog σ δ (Except ε Unit)} {k : Unit → Prog σ δ (Except ε Unit)}
    {as bs : List (Atom σ)} (hm : Does m as) (hk : Does (k ()) bs) :
    Does (Crash.tryThen m k) (as ++ bs) := by
  have hrun : ∀ s t, progress as s t = as.length →
      Crash.tryThen m k s t = k () (effects as s) (t.drop (totalCalls as)) := by
    intro s t hp
    unfold Crash.tryThen
    rw [bind_run_some (hm.run hp)]
  have hstop : ∀ s t, progress as s t ≠ as.length → (m s t).1 ≠ some (.ok ()) :=
    fun s t hp hok => hp ((hm.succeeds s t).mp hok)
  refine ⟨fun s t => ?_, fun s t => ?_, fun s t hp => ?_⟩
  · rw [progress_append]
    split_ifs with h
    · rw [hrun s t h, hk.leaves, List.take_length_add_append, effects_append]
    · rw [(tryThen_of_not_ok (hstop s t h)).2, hm.leaves,
        List.take_append_of_le_length (progress_le as s t)]
  · rw [progress_append, List.length_append]
    split_ifs with h
    · rw [hrun s t h, hk.succeeds]
      omega
    · have := progress_le as s t
      exact ⟨fun hok => absurd hok (tryThen_of_not_ok (hstop s t h)).1, fun h => by omega⟩
  · rw [progress_append, List.length_append] at hp
    split_ifs at hp with h
    · rw [hrun s t h, hk.uses _ _ (by omega), List.drop_drop, totalCalls_append]
    · have := progress_le as s t
      omega

theorem Does.mapError {f : ε → ε'} {m : Prog σ δ (Except ε Unit)} {as : List (Atom σ)}
    (hm : Does m as) : Does (Crash.mapError f m) as := by
  have hrun : ∀ s t, (Crash.mapError f m s t).2 = (m s t).2 ∧
      ((Crash.mapError f m s t).1 = some (.ok ()) ↔ (m s t).1 = some (.ok ())) := by
    intro s t
    unfold Crash.mapError
    rcases hr : m s t with ⟨_ | e | u, s', t'⟩
    · rw [bind_run_none hr]
      exact ⟨rfl, ⟨fun h => (by cases h), fun h => (by cases h)⟩⟩
    · rw [bind_run_some hr]
      exact ⟨rfl, ⟨fun h => (by cases h), fun h => (by cases h)⟩⟩
    · rw [bind_run_some hr]
      exact ⟨rfl, ⟨fun _ => rfl, fun _ => rfl⟩⟩
  refine ⟨fun s t => ?_, fun s t => ?_, fun s t hp => ?_⟩
  · rw [(hrun s t).1]
    exact hm.leaves s t
  · rw [(hrun s t).2]
    exact hm.succeeds s t
  · rw [(hrun s t).1]
    exact hm.uses s t hp

end Crash
