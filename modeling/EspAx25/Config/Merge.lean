import EspAx25.Config.View

/-!
# EspAx25.Config.Merge

The comparisons of `build_merged_schema`, on pointers that may be null. The loop compares the
first entry with all entries after it before it has looked at their names, so that an entry
without a name is handed to `strcmp` unless something stops the loop in front of it.
-/

namespace EspAx25.Config

/-! ### Comparisons -/

/-- A piece of C that compares strings: what it returns, unless it has compared a null
pointer. -/
inductive Compared (α : Type)
  | null
  | returned (a : α)
  deriving Repr, DecidableEq

/-- `strcmp(a, b) == 0`. -/
def strcmpEq : Option (List Byte) → Option (List Byte) → Compared Bool
  | some a, some b => .returned (a = b)
  | _, _ => .null

/-- The inner loop: an entry against all entries after it. -/
def compareLater (param : Param) : List Param → Compared (Except CfgErr Unit)
  | [] => .returned (.ok ())
  | other :: others =>
    match strcmpEq param.parameter other.parameter with
    | .null => .null
    | .returned true => .returned (.error (.esp .invalidArg))
    | .returned false =>
      match strcmpEq (paramNvsKey param) (paramNvsKey other) with
      | .null => .null
      | .returned true => .returned (.error (.esp .invalidArg))
      | .returned false => compareLater param others

/-- The outer loop. -/
def compareEntries : List Param → Compared (Except CfgErr Unit)
  | [] => .returned (.ok ())
  | param :: others =>
    if param.parameter = none ∨ param.parameter = some [] then
      .returned (.error (.esp .invalidArg))
    else if paramNvsKey param = none ∨ paramNvsKey param = some [] then
      .returned (.error (.esp .invalidArg))
    else
      match compareLater param others with
      | .null => .null
      | .returned (.error e) => .returned (.error e)
      | .returned (.ok ()) => compareEntries others

/-- `build_merged_schema` with its comparisons. -/
def mergeComparing (defaults : List Param) (localSchema : Option (List Param))
    (localSchemaCount : Nat) : Compared (Except CfgErr (List Param)) :=
  if localSchemaCount > 0 ∧ localSchema = none then .returned (.error (.esp .invalidArg))
  else
    let total := defaults.length + localSchemaCount
    if total = 0 ∨ total > 65535 then .returned (.error (.esp .invalidSize))
    else
      let merged := defaults ++ (localSchema.getD []).take localSchemaCount
      match compareEntries merged with
      | .null => .null
      | .returned (.error e) => .returned (.error e)
      | .returned (.ok ()) => .returned (.ok merged)

/-! ### Names and keys -/

/-- The entry has a name that is not empty. -/
def Param.Named (p : Param) : Prop := p.parameter ≠ none ∧ p.parameter ≠ some []

/-- Two entries of one name, or of one key. -/
def Clash (p q : Param) : Prop := q.parameter = p.parameter ∨ paramNvsKey q = paramNvsKey p

/-- All entries have names, and each its own name and its own key. -/
structure WellNamed (schema : List Param) : Prop where
  named : ∀ p ∈ schema, p.Named
  names : schema.Pairwise fun p q => p.parameter ≠ q.parameter
  keys : schema.Pairwise fun p q => paramNvsKey p ≠ paramNvsKey q

/-- An entry without a name that nothing hides from the first one: the entries between them
have names, and none of them clashes with the first. -/
def Exposed (first : Param) (others : List Param) : Prop :=
  ∃ between bare rest, others = between ++ bare :: rest ∧ bare.parameter = none ∧
    ∀ q ∈ between, q.parameter ≠ none ∧ ¬ Clash first q

/-- The first entry has a name, and an entry without one is exposed to it. -/
def NullReached : List Param → Prop
  | [] => False
  | first :: others => first.Named ∧ Exposed first others

theorem strcmpEq_some {a b : Option (List Byte)} (ha : a ≠ none) (hb : b ≠ none) :
    strcmpEq a b = .returned (decide (b = a)) := by
  obtain ⟨s, rfl⟩ := Option.ne_none_iff_exists'.mp ha
  obtain ⟨t, rfl⟩ := Option.ne_none_iff_exists'.mp hb
  simp [strcmpEq, eq_comm]

theorem strcmpEq_none (a : Option (List Byte)) : strcmpEq a none = .null := by
  cases a <;> rfl

/-- Only an entry without a name may be without a key. -/
theorem paramNvsKey_ne_none {p : Param} (h : p.parameter ≠ none) : paramNvsKey p ≠ none := by
  unfold paramNvsKey
  split
  · exact Option.some_ne_none _
  · exact h

theorem paramNvsKey_ne_nil {p : Param} (h : p.parameter ≠ some []) : paramNvsKey p ≠ some [] := by
  unfold paramNvsKey
  split
  · simp
  · exact h

theorem exposed_cons {first q : Param} {others : List Param} :
    Exposed first (q :: others) ↔
      q.parameter = none ∨ q.parameter ≠ none ∧ ¬ Clash first q ∧ Exposed first others := by
  constructor
  · rintro ⟨between, bare, rest, heq, hbare, hbetween⟩
    cases between with
    | nil =>
        cases heq
        exact .inl hbare
    | cons q' between =>
        cases heq
        have hq := hbetween q List.mem_cons_self
        exact .inr ⟨hq.1, hq.2, between, bare, rest, rfl, hbare,
          fun r hr => hbetween r (List.mem_cons_of_mem _ hr)⟩
  · rintro (hnone | ⟨hsome, hclash, between, bare, rest, rfl, hbare, hbetween⟩)
    · exact ⟨[], q, others, rfl, hnone, fun r hr => absurd hr List.not_mem_nil⟩
    · exact ⟨q :: between, bare, rest, rfl, hbare,
        List.forall_mem_cons.mpr ⟨⟨hsome, hclash⟩, hbetween⟩⟩

/-! ### The loops -/

/-- One round of the inner loop. -/
theorem compareLater_cons {param : Param} (hparam : param.parameter ≠ none) (other : Param)
    (others : List Param) :
    (other.parameter = none ∧ compareLater param (other :: others) = .null) ∨
      (other.parameter ≠ none ∧ Clash param other ∧
        compareLater param (other :: others) = .returned (.error (.esp .invalidArg))) ∨
      (other.parameter ≠ none ∧ ¬ Clash param other ∧
        compareLater param (other :: others) = compareLater param others) := by
  by_cases hother : other.parameter = none
  · refine .inl ⟨hother, ?_⟩
    rw [compareLater, hother, strcmpEq_none]
  · rw [compareLater, strcmpEq_some hparam hother,
      strcmpEq_some (paramNvsKey_ne_none hparam) (paramNvsKey_ne_none hother)]
    refine .inr ?_
    by_cases hname : other.parameter = param.parameter
    · exact .inl ⟨hother, .inl hname, by simp [hname]⟩
    · by_cases hkey : paramNvsKey other = paramNvsKey param
      · exact .inl ⟨hother, .inr hkey, by simp [hname, hkey]⟩
      · exact .inr ⟨hother, not_or.mpr ⟨hname, hkey⟩, by simp [hname, hkey]⟩

/-- The inner loop: it compares a null pointer when an entry without a name is exposed; otherwise
it fails when an entry clashes, and when none does, they all have names. -/
theorem compareLater_cases {param : Param} (hparam : param.parameter ≠ none)
    (others : List Param) :
    (Exposed param others ∧ compareLater param others = .null) ∨
      (¬ Exposed param others ∧ (∃ q ∈ others, Clash param q) ∧
        compareLater param others = .returned (.error (.esp .invalidArg))) ∨
      ((∀ q ∈ others, q.parameter ≠ none ∧ ¬ Clash param q) ∧ ¬ Exposed param others ∧
        compareLater param others = .returned (.ok ())) := by
  induction others with
  | nil =>
      refine .inr (.inr ⟨fun q hq => absurd hq List.not_mem_nil, ?_, rfl⟩)
      rintro ⟨between, bare, rest, heq, -⟩
      simp at heq
  | cons other others ih =>
      rw [exposed_cons]
      obtain ⟨hnone, hrun⟩ | ⟨hsome, hclash, hrun⟩ | ⟨hsome, hclash, hrun⟩ :=
        compareLater_cons hparam other others
      · exact .inl ⟨.inl hnone, hrun⟩
      · refine .inr (.inl ⟨?_, ⟨other, List.mem_cons_self, hclash⟩, hrun⟩)
        rintro (hnone | ⟨-, hno, -⟩)
        · exact hsome hnone
        · exact hno hclash
      · rw [hrun]
        have hexposed : (other.parameter = none ∨ other.parameter ≠ none ∧ ¬ Clash param other ∧
            Exposed param others) ↔ Exposed param others := by
          simp [hsome, hclash]
        rw [hexposed]
        obtain h | ⟨hno, ⟨q, hq, hc⟩, hr⟩ | ⟨hall, hno, hr⟩ := ih
        · exact .inl h
        · exact .inr (.inl ⟨hno, ⟨q, List.mem_cons_of_mem _ hq, hc⟩, hr⟩)
        · exact .inr (.inr ⟨List.forall_mem_cons.mpr ⟨⟨hsome, hclash⟩, hall⟩, hno, hr⟩)

/-- What is checked of an entry, in the words of names and clashes. -/
theorem checkEntry_eq_ok_iff {param : Param} {others : List Param} :
    checkEntry param others = .ok () ↔ param.Named ∧ ∀ q ∈ others, ¬ Clash param q := by
  unfold checkEntry Param.Named Clash
  split_ifs with hname hkey hany
  · simp only [false_iff, not_and]
    rintro ⟨hnone, hnil⟩
    exact absurd hname (not_or.mpr ⟨hnone, hnil⟩)
  · rw [not_or] at hname
    exact absurd hkey (not_or.mpr ⟨paramNvsKey_ne_none hname.1, paramNvsKey_ne_nil hname.2⟩)
  · simp only [false_iff, not_and, not_forall]
    obtain ⟨q, hq, hc⟩ := List.any_eq_true.mp hany
    exact fun _ => ⟨q, hq, fun hno => hno (of_decide_eq_true hc)⟩
  · simp only [true_iff]
    exact ⟨not_or.mp hname, fun q hq hc =>
      hany (List.any_eq_true.mpr ⟨q, hq, decide_eq_true hc⟩)⟩

theorem checkEntry_error {param : Param} {others : List Param}
    (h : checkEntry param others ≠ .ok ()) :
    checkEntry param others = .error (.esp .invalidArg) := by
  unfold checkEntry at h ⊢
  split_ifs at h ⊢
  · rfl
  · rfl
  · rfl
  · exact absurd rfl h

theorem checkEntries_eq_ok_iff {schema : List Param} :
    checkEntries schema = .ok () ↔ WellNamed schema := by
  induction schema with
  | nil => exact ⟨fun _ => ⟨by simp, .nil, .nil⟩, fun _ => rfl⟩
  | cons param others ih =>
      have hcons : checkEntries (param :: others) = .ok () ↔
          checkEntry param others = .ok () ∧ checkEntries others = .ok () := by
        rw [checkEntries]
        cases checkEntry param others <;> simp
      rw [hcons, checkEntry_eq_ok_iff, ih]
      constructor
      · rintro ⟨⟨hname, hclash⟩, h⟩
        exact ⟨List.forall_mem_cons.mpr ⟨hname, h.named⟩,
          List.pairwise_cons.mpr ⟨fun q hq heq => hclash q hq (.inl heq.symm), h.names⟩,
          List.pairwise_cons.mpr ⟨fun q hq heq => hclash q hq (.inr heq.symm), h.keys⟩⟩
      · intro h
        obtain ⟨hname, hnamed⟩ := List.forall_mem_cons.mp h.named
        obtain ⟨hn, hnames⟩ := List.pairwise_cons.mp h.names
        obtain ⟨hk, hkeys⟩ := List.pairwise_cons.mp h.keys
        refine ⟨⟨hname, ?_⟩, hnamed, hnames, hkeys⟩
        rintro q hq (heq | heq)
        · exact hn q hq heq.symm
        · exact hk q hq heq.symm

theorem checkEntries_error {schema : List Param} (h : checkEntries schema ≠ .ok ()) :
    checkEntries schema = .error (.esp .invalidArg) := by
  induction schema with
  | nil => exact absurd rfl h
  | cons param others ih =>
      rw [checkEntries] at h ⊢
      by_cases hok : checkEntry param others = .ok ()
      · rw [hok] at h ⊢
        exact ih h
      · rw [checkEntry_error hok]

/-- The outer loop compares a null pointer when the first entry reaches one; otherwise it
returns what `build_merged_schema` is to return. No other entry ever reaches one. -/
theorem compareEntries_cases (schema : List Param) :
    (NullReached schema ∧ compareEntries schema = .null) ∨
      (¬ NullReached schema ∧ compareEntries schema = .returned (checkEntries schema)) := by
  induction schema with
  | nil => exact .inr ⟨id, rfl⟩
  | cons param others ih =>
      by_cases hname : param.Named
      · obtain ⟨hnone, hnil⟩ := hname
        have hrun : compareEntries (param :: others) = match compareLater param others with
            | .null => .null
            | .returned (.error e) => .returned (.error e)
            | .returned (.ok ()) => compareEntries others := by
          rw [compareEntries, if_neg (not_or.mpr ⟨hnone, hnil⟩),
            if_neg (not_or.mpr ⟨paramNvsKey_ne_none hnone, paramNvsKey_ne_nil hnil⟩)]
        obtain ⟨hex, hlater⟩ | ⟨hex, ⟨q, hq, hc⟩, hlater⟩ | ⟨hall, hex, hlater⟩ :=
          compareLater_cases hnone others
        · exact .inl ⟨⟨⟨hnone, hnil⟩, hex⟩, by rw [hrun, hlater]⟩
        · refine .inr ⟨fun h => hex h.2, ?_⟩
          have hbad : checkEntry param others ≠ .ok () := fun hok =>
            (checkEntry_eq_ok_iff.mp hok).2 q hq hc
          rw [hrun, hlater, checkEntries, checkEntry_error hbad]
        · -- all entries after it have names, so none of them reaches a null pointer
          have hnot : ¬ NullReached others := by
            cases others with
            | nil => exact id
            | cons other rest =>
                rintro ⟨-, between, bare, rest', heq, hbare, -⟩
                exact (hall bare (List.mem_cons_of_mem _ (heq ▸ by simp))).1 hbare
          have hok : checkEntry param others = .ok () :=
            checkEntry_eq_ok_iff.mpr ⟨⟨hnone, hnil⟩, fun q hq => (hall q hq).2⟩
          obtain ⟨hreach, -⟩ | ⟨-, hrest⟩ := ih
          · exact absurd hreach hnot
          · exact .inr ⟨fun h => hex h.2, by rw [hrun, hlater, checkEntries, hok]; exact hrest⟩
      · have hbad : checkEntry param others ≠ .ok () := fun hok =>
          hname (checkEntry_eq_ok_iff.mp hok).1
        refine .inr ⟨fun h => hname h.1, ?_⟩
        rw [compareEntries, if_pos (by
          by_contra hno
          exact hname (not_or.mp hno)), checkEntries, checkEntry_error hbad]

/-! ### `build_merged_schema` -/

/-- What is wanted of `build_merged_schema` for a merged schema: it returns the schema if the
entries have names, and names and keys of their own, and else `ESP_ERR_INVALID_ARG`; it
returns, in either case, without having compared a null pointer. -/
def Validates (merged : List Param) (r : Compared (Except CfgErr (List Param))) : Prop :=
  (WellNamed merged → r = .returned (.ok merged)) ∧
    (¬ WellNamed merged → r = .returned (.error (.esp .invalidArg)))

/-- The entries of an array. That of an empty array may be a null pointer. -/
def entriesOf (localSchema : Option (List Param)) : List Param := localSchema.getD []

/-- `build_merged_schema` validates a schema exactly when its first entry does not reach an
entry without a name: when the first entry has no name itself, or when in front of each entry
without a name there is one that has a name and clashes with the first. -/
theorem merge_validates_iff {defaults : List Param} {localSchema : Option (List Param)}
    (hsome : 0 < defaults.length + (entriesOf localSchema).length)
    (hsize : defaults.length + (entriesOf localSchema).length ≤ 65535) :
    Validates (defaults ++ entriesOf localSchema)
        (mergeComparing defaults localSchema (entriesOf localSchema).length) ↔
      ¬ NullReached (defaults ++ entriesOf localSchema) := by
  have harray : ¬ ((entriesOf localSchema).length > 0 ∧ localSchema = none) := by
    rintro ⟨hpos, rfl⟩
    exact absurd hpos (Nat.lt_irrefl 0)
  have hrun : mergeComparing defaults localSchema (entriesOf localSchema).length =
      match compareEntries (defaults ++ entriesOf localSchema) with
      | .null => .null
      | .returned (.error e) => .returned (.error e)
      | .returned (.ok ()) => .returned (.ok (defaults ++ entriesOf localSchema)) := by
    unfold mergeComparing
    dsimp only
    rw [if_neg harray, if_neg (by omega), ← entriesOf, List.take_length]
  rw [hrun]
  obtain ⟨hreach, hnull⟩ | ⟨hreach, hret⟩ :=
    compareEntries_cases (defaults ++ entriesOf localSchema)
  · rw [hnull]
    refine ⟨fun h => ?_, fun h => absurd hreach h⟩
    by_cases hw : WellNamed (defaults ++ entriesOf localSchema)
    · cases h.1 hw
    · cases h.2 hw
  · rw [hret]
    refine ⟨fun _ => hreach, fun _ => ⟨fun hw => ?_, fun hw => ?_⟩⟩
    · rw [checkEntries_eq_ok_iff.mpr hw]
    · rw [checkEntries_error fun hok => hw (checkEntries_eq_ok_iff.mp hok)]

/-- An entry without a name, as `{0}` leaves it. -/
def bareParam : Param := { stringParam "" [] with parameter := none, defaultValue := none }

/-- The entry of an application that has a text besides its call sign. -/
def textParam : Param := stringParam "text" (bytes "TNC")

theorem merge_validates_call :
    Validates (callSchema ++ [textParam]) (mergeComparing callSchema (some [textParam]) 1) := by
  refine (@merge_validates_iff callSchema (some [textParam]) (by decide) (by decide)).mpr ?_
  -- both entries have names
  rintro ⟨-, between, bare, rest, heq, hbare, -⟩
  have heq : [textParam] = between ++ bare :: rest := heq
  have hmem : bare ∈ [textParam] := by
    rw [heq]
    exact List.mem_append_right _ List.mem_cons_self
  rw [List.mem_singleton.mp hmem] at hbare
  revert hbare
  decide

theorem bare_entry_compared :
    ¬ ∀ (defaults : List Param) (localSchema : Option (List Param)),
      0 < defaults.length + (entriesOf localSchema).length →
      defaults.length + (entriesOf localSchema).length ≤ 65535 →
      Validates (defaults ++ entriesOf localSchema)
        (mergeComparing defaults localSchema (entriesOf localSchema).length) := by
  intro h
  have hv := h [stringParam "digi.callsign" []] (some [bareParam]) (by decide) (by decide)
  have hnull : mergeComparing [stringParam "digi.callsign" []] (some [bareParam])
      (entriesOf (some [bareParam])).length = .null := by decide
  rw [hnull] at hv
  by_cases hw : WellNamed ([stringParam "digi.callsign" []] ++ entriesOf (some [bareParam]))
  · cases hv.1 hw
  · cases hv.2 hw

end EspAx25.Config
