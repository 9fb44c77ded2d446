import Mathlib.Data.List.Induction

/-!
# EspAx25.History

Histories: lists that grow at their end, where each element has to fit what came
before it.

`Ordered R l` says that every element `e` of `l` satisfies `R before e` for the
elements `before` it. Where `R` compares an element with its own stream only, each
stream may be judged by itself (`ordered_streams`), so a history that is only known
stream by stream can still be judged.

`Separated p q l` is the law of brackets without nesting: between two elements
that open one (`p`) there is an element that closes it (`q`). A history that is
`Closed` may be continued with a `p`, and no other may (`separated_append_cons`).
-/

namespace History

variable {α β : Type*} {R : List α → α → Prop} {l k : List α} {e : α}

/-- Each element fits the elements before it. -/
def Ordered (R : List α → α → Prop) (l : List α) : Prop :=
  ∀ before e after, l = before ++ e :: after → R before e

theorem ordered_nil : Ordered R [] := by
  intro before e after h
  simp at h

theorem Ordered.of_append (h : Ordered R (l ++ k)) : Ordered R l := by
  rintro before e after rfl
  exact h before e (after ++ k) (by simp)

/-- Where an element stands in a history that has just grown: it is the new one,
or it was there before. -/
theorem snoc_cases {before after : List α} {d : α} (h : l ++ [e] = before ++ d :: after) :
    (before = l ∧ d = e ∧ after = []) ∨ ∃ rest, after = rest ++ [e] ∧ l = before ++ d :: rest := by
  rcases List.eq_nil_or_concat after with rfl | ⟨rest, x, rfl⟩
  · obtain ⟨hl, hd⟩ := List.append_inj' h rfl
    cases hd
    exact Or.inl ⟨hl.symm, rfl, rfl⟩
  · rw [List.concat_eq_append, ← List.cons_append, ← List.append_assoc] at h
    obtain ⟨hl, he⟩ := List.append_inj' h rfl
    cases he
    exact Or.inr ⟨rest, by simp, hl⟩

theorem ordered_snoc : Ordered R (l ++ [e]) ↔ Ordered R l ∧ R l e := by
  refine ⟨fun h => ⟨h.of_append, h l e [] rfl⟩, fun ⟨h, he⟩ before d after hl => ?_⟩
  rcases snoc_cases hl with ⟨rfl, rfl, -⟩ | ⟨rest, -, hl⟩
  · exact he
  · exact h before d rest hl

/-- A batch of elements, each of which fits the history and the batch so far. -/
theorem Ordered.append (h : Ordered R l)
    (hk : ∀ before e after, k = before ++ e :: after → R (l ++ before) e) :
    Ordered R (l ++ k) := by
  induction k using List.reverseRecOn with
  | nil => rwa [List.append_nil]
  | append_singleton k e ih =>
      rw [← List.append_assoc, ordered_snoc]
      refine ⟨ih fun before d after hd => ?_, hk k e [] rfl⟩
      exact hk before d (after ++ [e]) (by rw [hd]; simp)

theorem Ordered.mono {S : List α → α → Prop} (h : Ordered R l)
    (hRS : ∀ before e, R before e → S before e) : Ordered S l :=
  fun before e after hl => hRS before e (h before e after hl)

/-- If `R` compares an element only with its own stream, a history is in order when
every stream of it is. -/
theorem ordered_streams {σ : Type*} {p : σ → α → Bool}
    (hfree : ∀ before e, (∀ s, p s e = false) → R before e)
    (hblind : ∀ s before e, p s e = true → (R (before.filter (p s)) e ↔ R before e)) :
    (∀ s, Ordered R (l.filter (p s))) ↔ Ordered R l := by
  induction l using List.reverseRecOn with
  | nil => exact ⟨fun _ => ordered_nil, fun _ _ => ordered_nil⟩
  | append_singleton l e ih =>
      rw [ordered_snoc, ← ih]
      -- what the last element adds to a stream
      have hsnoc : ∀ s, Ordered R ((l ++ [e]).filter (p s)) ↔
          Ordered R (l.filter (p s)) ∧ (p s e = true → R l e) := by
        intro s
        rw [List.filter_append]
        cases he : p s e with
        | true =>
            rw [List.filter_cons_of_pos he, List.filter_nil, ordered_snoc, hblind s l e he]
            simp
        | false =>
            rw [List.filter_cons_of_neg (by simp [he]), List.filter_nil, List.append_nil]
            simp
      constructor
      · intro h
        refine ⟨fun s => ((hsnoc s).mp (h s)).1, ?_⟩
        by_cases hs : ∃ s, p s e = true
        · obtain ⟨s, hs⟩ := hs
          exact ((hsnoc s).mp (h s)).2 hs
        · exact hfree l e fun s => Bool.eq_false_iff.mpr fun ht => hs ⟨s, ht⟩
      · rintro ⟨h, he⟩ s
        exact (hsnoc s).mpr ⟨h s, fun _ => he⟩

/-! ### Brackets -/

section brackets

variable {p q : α → Prop}

/-- After every `p` there is a `q`. -/
def Closed (p q : α → Prop) (l : List α) : Prop :=
  ∀ before e after, l = before ++ e :: after → p e → ∃ d ∈ after, q d

/-- Between two `p` there is a `q`. -/
def Separated (p q : α → Prop) (l : List α) : Prop :=
  Ordered (fun before e => p e → Closed p q before) l

theorem closed_nil : Closed p q [] := by
  intro before e after h
  simp at h

theorem not_closed_append_cons (he : p e) (hk : ∀ d ∈ k, ¬ q d) : ¬ Closed p q (l ++ e :: k) := by
  intro h
  obtain ⟨d, hd, hq⟩ := h l e k rfl he
  exact hk d hd hq

theorem closed_snoc (hpq : ∀ e, q e → ¬ p e) :
    Closed p q (l ++ [e]) ↔ q e ∨ Closed p q l ∧ ¬ p e := by
  constructor
  · intro h
    by_cases hq : q e
    · exact Or.inl hq
    · refine Or.inr ⟨fun before d after hl hd => ?_, fun hp => ?_⟩
      · obtain ⟨x, hx, hqx⟩ := h before d (after ++ [e]) (by rw [hl]; simp) hd
        rcases List.mem_append.mp hx with hx | hx
        · exact ⟨x, hx, hqx⟩
        · rw [List.mem_singleton.mp hx] at hqx
          exact absurd hqx hq
      · exact not_closed_append_cons hp (by simp) h
  · intro h before d after hl hd
    rcases snoc_cases hl with ⟨rfl, rfl, -⟩ | ⟨rest, rfl, hrest⟩
    · rcases h with h | ⟨-, h⟩
      · exact absurd hd (hpq d h)
      · exact absurd hd h
    · rcases h with h | ⟨h, -⟩
      · exact ⟨e, by simp, h⟩
      · obtain ⟨x, hx, hqx⟩ := h before d rest hrest hd
        exact ⟨x, List.mem_append_left _ hx, hqx⟩

/-- Elements that are neither do not count. -/
theorem closed_append (hpq : ∀ e, q e → ¬ p e) (hk : ∀ e ∈ k, ¬ p e ∧ ¬ q e) :
    Closed p q (l ++ k) ↔ Closed p q l := by
  induction k using List.reverseRecOn with
  | nil => rw [List.append_nil]
  | append_singleton k e ih =>
      have he := hk e (by simp)
      rw [← List.append_assoc, closed_snoc hpq, ih fun d hd => hk d (List.mem_append_left _ hd)]
      exact ⟨fun h => h.elim (fun hq => absurd hq he.2) And.left, fun h => Or.inr ⟨h, he.1⟩⟩

theorem separated_append (hk : ∀ e ∈ k, ¬ p e) : Separated p q (l ++ k) ↔ Separated p q l := by
  refine ⟨Ordered.of_append, fun h => h.append fun before e after hl hp => ?_⟩
  exact absurd hp (hk e (by rw [hl]; simp))

theorem separated_append_cons (he : p e) (hk : ∀ d ∈ k, ¬ p d) :
    Separated p q (l ++ e :: k) ↔ Separated p q l ∧ Closed p q l := by
  rw [← List.singleton_append, ← List.append_assoc, separated_append hk]
  refine ordered_snoc.trans ⟨fun h => ⟨h.1, h.2 he⟩, fun h => ⟨h.1, fun _ => h.2⟩⟩

end brackets

/-! ### Concatenations -/

/-- If only the `i`-th list of a family is not empty, it is their concatenation. -/
theorem flatMap_of_alone {f : β → List α} {b : β} : ∀ {bs : List β} {i : Nat}, bs[i]? = some b →
    (∀ j c, bs[j]? = some c → j ≠ i → f c = []) → bs.flatMap f = f b
  | [], i, hi, _ => by simp at hi
  | c :: bs, 0, hi, h => by
      obtain rfl : c = b := by simpa using hi
      have : bs.flatMap f = [] := by
        rw [List.flatMap_eq_nil_iff]
        intro d hd
        obtain ⟨j, hj⟩ := List.getElem?_of_mem hd
        exact h (j + 1) d hj (Nat.succ_ne_zero j)
      rw [List.flatMap_cons, this, List.append_nil]
  | c :: bs, i + 1, hi, h => by
      have hi : bs[i]? = some b := by simpa using hi
      have hrest := flatMap_of_alone hi fun j d hj hne => h (j + 1) d hj (by simpa using hne)
      rw [List.flatMap_cons, h 0 c rfl (Nat.succ_ne_zero i).symm, List.nil_append, hrest]

theorem flatMap_set {f : β → List α} {b c : β} (hf : f c = f b) : ∀ {bs : List β} {i : Nat},
    bs[i]? = some b → (bs.set i c).flatMap f = bs.flatMap f
  | [], i, hi => by simp at hi
  | d :: bs, 0, hi => by
      obtain rfl : d = b := by simpa using hi
      rw [List.set_cons_zero, List.flatMap_cons, List.flatMap_cons, hf]
  | d :: bs, i + 1, hi => by
      have hi : bs[i]? = some b := by simpa using hi
      rw [List.set_cons_succ, List.flatMap_cons, List.flatMap_cons, flatMap_set hf hi]

theorem flatMap_eraseIdx {f : β → List α} {b : β} (hf : f b = []) : ∀ {bs : List β} {i : Nat},
    bs[i]? = some b → (bs.eraseIdx i).flatMap f = bs.flatMap f
  | [], i, hi => by simp at hi
  | d :: bs, 0, hi => by
      obtain rfl : d = b := by simpa using hi
      rw [List.eraseIdx_cons_zero, List.flatMap_cons, hf, List.nil_append]
  | d :: bs, i + 1, hi => by
      have hi : bs[i]? = some b := by simpa using hi
      rw [List.eraseIdx_cons_succ, List.flatMap_cons, List.flatMap_cons, flatMap_eraseIdx hf hi]

end History
