import EspAx25.CallText
import EspAx25.Config.Schema

/-!
# EspAx25.Config.IntegerText

Integers as text: the numerals that `strtol` reads to their end, what `%ld` prints, and the
ranges of two integers.
-/

namespace EspAx25.Config

/-! ### Numerals with a sign -/

/-- A decimal numeral, with or without a sign, and the integer it denotes. -/
inductive SignedText : List Byte → Int → Prop
  | plain {t : List Byte} {n : Nat} : Numeral t n → SignedText t n
  | plus {t : List Byte} {n : Nat} : Numeral t n → SignedText (0x2B :: t) n
  | minus {t : List Byte} {n : Nat} : Numeral t n → SignedText (0x2D :: t) (- n)

/-- The same behind white space. -/
def IntegerText (s : List Byte) (v : Int) : Prop :=
  ∃ blanks t, s = blanks ++ t ∧ (∀ c ∈ blanks, isSpace c = true) ∧ SignedText t v

/-- The `long` that `strtol` makes of an integer. -/
def clampLong (v : Int) : Int := max (- 2147483648) (min v 2147483647)

/-- What is behind a sign, if there is one. -/
def unsigned : List Byte → List Byte
  | [] => []
  | c :: rest => if c = 0x2D ∨ c = 0x2B then rest else c :: rest

theorem strtol_eq (s : List Byte) : strtol s =
    if (unsigned (s.dropWhile isSpace)).takeWhile isDigit = [] then (0, s)
    else (clampLong (signedValue (s.dropWhile isSpace)),
      (unsigned (s.dropWhile isSpace)).dropWhile isDigit) := by
  unfold strtol unsigned clampLong
  cases s.dropWhile isSpace <;> rfl

theorem Numeral.exists_cons {t : List Byte} {n : Nat} (h : Numeral t n) :
    ∃ c rest, t = c :: rest ∧ isSpace c = false ∧ c ≠ 0x2D ∧ c ≠ 0x2B := by
  cases t with
  | nil => exact absurd rfl h.ne_nil
  | cons c rest => exact ⟨c, rest, rfl, isDigit_facts c (h.digits c List.mem_cons_self)⟩

/-- What `strtol` sees of a numeral with a sign: no white space, the digits, and the value. -/
theorem SignedText.reads {t : List Byte} {v : Int} (h : SignedText t v) :
    t.dropWhile isSpace = t ∧ signedValue t = v ∧ ∃ n, Numeral (unsigned t) n := by
  cases h with
  | @plain _ n hn =>
      obtain ⟨c, rest, rfl, hspace, hminus, hplus⟩ := Numeral.exists_cons hn
      refine ⟨List.dropWhile_cons_of_neg (by simp [hspace]), ?_, n, ?_⟩
      · rw [signedValue, if_neg hminus, if_neg hplus, hn.digitsValue]
      · rwa [unsigned, if_neg (not_or.mpr ⟨hminus, hplus⟩)]
  | @plus _ n hn =>
      refine ⟨List.dropWhile_cons_of_neg (by decide), ?_, n, ?_⟩
      · rw [signedValue, if_neg (by decide), if_pos rfl, hn.digitsValue]
      · rwa [unsigned, if_pos (.inr rfl)]
  | @minus _ n hn =>
      refine ⟨List.dropWhile_cons_of_neg (by decide), ?_, n, ?_⟩
      · rw [signedValue, if_pos rfl, hn.digitsValue]
      · rwa [unsigned, if_pos (.inl rfl)]

/-- Behind a sign there is a numeral only if there is one with the sign. -/
theorem signedText_of_unsigned {t : List Byte} {n : Nat} (h : Numeral (unsigned t) n) :
    ∃ v, SignedText t v := by
  cases t with
  | nil => exact absurd rfl h.ne_nil
  | cons c rest =>
      rw [unsigned] at h
      split_ifs at h with hsign
      · obtain rfl | rfl := hsign
        · exact ⟨_, .minus h⟩
        · exact ⟨_, .plus h⟩
      · exact ⟨_, .plain h⟩

/-- There is no white space in it. -/
theorem SignedText.not_space {t : List Byte} {v : Int} (h : SignedText t v) :
    ∀ c ∈ t, isSpace c = false := by
  cases h with
  | plain hn => exact fun c hc => (isDigit_facts c (hn.digits c hc)).1
  | plus hn =>
      exact List.forall_mem_cons.mpr ⟨rfl, fun c hc => (isDigit_facts c (hn.digits c hc)).1⟩
  | minus hn =>
      exact List.forall_mem_cons.mpr ⟨rfl, fun c hc => (isDigit_facts c (hn.digits c hc)).1⟩

/-- Nothing in it separates the bounds of a range. -/
theorem SignedText.chars {t : List Byte} {v : Int} (h : SignedText t v) :
    ∀ c ∈ t, c ≠ 0x20 ∧ c ≠ 0x2C := by
  have hdigit : ∀ c : Byte, isDigit c = true → c ≠ 0x20 ∧ c ≠ 0x2C := by
    intro c hc
    have hrange := (isDigit_iff c).mp hc
    simp only [ne_eq, ← UInt8.toNat_inj, UInt8.reduceToNat]
    omega
  cases h with
  | plain hn => exact fun _ hc => hdigit _ (hn.digits _ hc)
  | plus hn => exact List.forall_mem_cons.mpr ⟨by decide, fun _ hc => hdigit _ (hn.digits _ hc)⟩
  | minus hn => exact List.forall_mem_cons.mpr ⟨by decide, fun _ hc => hdigit _ (hn.digits _ hc)⟩

theorem SignedText.ne_nil {t : List Byte} {v : Int} (h : SignedText t v) : t ≠ [] := by
  cases h with
  | plain hn => exact hn.ne_nil
  | plus _ => exact List.cons_ne_nil _ _
  | minus _ => exact List.cons_ne_nil _ _

theorem SignedText.integerText {t : List Byte} {v : Int} (h : SignedText t v) : IntegerText t v :=
  ⟨[], t, rfl, fun _ hc => absurd hc List.not_mem_nil, h⟩

/-! ### `strtol` -/

theorem dropWhile_blanks {blanks : List Byte} (h : ∀ c ∈ blanks, isSpace c = true)
    (t : List Byte) : (blanks ++ t).dropWhile isSpace = t.dropWhile isSpace :=
  List.dropWhile_append_of_pos h

/-- `strtol` reads the text of an integer to its end. -/
theorem strtol_integer {s : List Byte} {v : Int} (h : IntegerText s v) :
    strtol s = (clampLong v, []) := by
  obtain ⟨blanks, t, rfl, hblanks, ht⟩ := h
  obtain ⟨hdrop, hvalue, n, hn⟩ := ht.reads
  rw [strtol_eq, dropWhile_blanks hblanks, hdrop, List.takeWhile_eq_self_iff.mpr hn.digits,
    if_neg hn.ne_nil, hvalue, List.dropWhile_eq_nil_iff.mpr hn.digits]

/-- Besides such texts it takes only the empty one, of which it reads all there is. -/
theorem strtol_end {s : List Byte} (h : (strtol s).2 = []) :
    s = [] ∨ ∃ v, IntegerText s v := by
  rw [strtol_eq] at h
  split_ifs at h with hdigits
  · exact .inl h
  · have hall := List.takeWhile_eq_self_iff.mpr (List.dropWhile_eq_nil_iff.mp h)
    rw [hall] at hdigits
    obtain ⟨n, hn⟩ := numeral_of_digits hdigits (List.dropWhile_eq_nil_iff.mp h)
    obtain ⟨v, hv⟩ := signedText_of_unsigned hn
    exact .inr ⟨v, s.takeWhile isSpace, s.dropWhile isSpace, List.takeWhile_append_dropWhile.symm,
      fun c hc => List.mem_takeWhile_imp hc, hv⟩

theorem not_integerText_nil (v : Int) : ¬ IntegerText [] v := by
  rintro ⟨blanks, t, heq, -, ht⟩
  exact ht.ne_nil (List.append_eq_nil_iff.mp heq.symm).2

theorem clampLong_eq {v : Int} (hlo : - 2147483648 ≤ v) (hhi : v ≤ 2147483647) :
    clampLong v = v := by
  unfold clampLong
  omega

theorem clampLong_bounds (v : Int) : - 2147483648 ≤ clampLong v ∧ clampLong v ≤ 2147483647 := by
  unfold clampLong
  omega

/-- What `strtol` returns is a `long`. -/
theorem strtol_bounds (s : List Byte) :
    - 2147483648 ≤ (strtol s).1 ∧ (strtol s).1 ≤ 2147483647 := by
  rw [strtol_eq]
  split_ifs
  · exact (by decide : (- 2147483648 : Int) ≤ 0 ∧ (0 : Int) ≤ 2147483647)
  · exact clampLong_bounds _

/-! ### `%ld` -/

theorem signedText_decimalInt (v : Int) : SignedText (decimalInt v) v := by
  cases v with
  | ofNat n => exact .plain (numeral_decimal n)
  | negSucc n => exact .minus (numeral_decimal (n + 1))

/-- A `long` prints with at most eleven characters. -/
theorem decimalInt_length {v : Int} (hlo : - 2147483648 ≤ v) (hhi : v ≤ 2147483647) :
    (decimalInt v).length ≤ 11 := by
  have hten : ∀ {n : Nat}, n < 10 ^ 10 → (decimal n).length ≤ 10 := decimal_length (by decide)
  cases v with
  | ofNat n =>
      have hn : n < 10 ^ 10 := by
        have := Int.ofNat_eq_natCast n
        omega
      exact Nat.le_succ_of_le (hten hn)
  | negSucc n => exact Nat.succ_le_succ (hten (by omega))

/-- `strtol` reads what `%ld` has printed. -/
theorem strtol_decimalInt {v : Int} (hlo : - 2147483648 ≤ v) (hhi : v ≤ 2147483647) :
    strtol (decimalInt v) = (v, []) := by
  rw [strtol_integer (signedText_decimalInt v).integerText, clampLong_eq hlo hhi]

/-! ### Ranges -/

/-- A range: two integers of 32 bits with a comma or blanks between them. -/
structure RangeText (range : List Byte) (lo hi : Int) : Prop where
  splits : ∃ a gap b, range = a ++ gap ++ b ∧ gap ≠ [] ∧ (∀ c ∈ gap, c = 0x20 ∨ c = 0x2C) ∧
    SignedText a lo ∧ SignedText b hi
  lo : - 2147483648 ≤ lo ∧ lo ≤ 2147483647
  hi : - 2147483648 ≤ hi ∧ hi ≤ 2147483647

/-- A token goes on up to the next blank. -/
theorem tokens_append {a : List Byte} (ha : ∀ c ∈ a, c ≠ 0x20) (tok s : List Byte) :
    tokens tok (a ++ s) = tokens (tok ++ a) s := by
  induction a generalizing tok with
  | nil => simp
  | cons c a ih =>
      rw [List.forall_mem_cons] at ha
      rw [List.cons_append, tokens, if_neg ha.1, ih ha.2]
      simp

/-- Blanks in front of a token are passed over. -/
theorem tokens_blanks {gap : List Byte} (hgap : ∀ c ∈ gap, c = 0x20) (s : List Byte) :
    tokens [] (gap ++ s) = tokens [] s := by
  induction gap with
  | nil => rfl
  | cons c gap ih =>
      rw [List.forall_mem_cons] at hgap
      rw [List.cons_append, tokens, if_pos hgap.1, if_pos rfl, ih hgap.2]

theorem tokens_gap {tok gap : List Byte} (htok : tok ≠ []) (hne : gap ≠ [])
    (hgap : ∀ c ∈ gap, c = 0x20) (s : List Byte) :
    tokens tok (gap ++ s) = tok :: tokens [] s := by
  cases gap with
  | nil => exact absurd rfl hne
  | cons c gap =>
      rw [List.forall_mem_cons] at hgap
      rw [List.cons_append, tokens, if_pos hgap.1, if_neg htok, tokens_blanks hgap.2]

/-- The commas of a range become blanks. -/
def blanked (range : List Byte) : List Byte := range.map fun c => if c = 0x2C then 0x20 else c

theorem blanked_signed {t : List Byte} {v : Int} (h : SignedText t v) : blanked t = t := by
  calc blanked t = t.map id := List.map_congr_left fun c hc => if_neg (h.chars c hc).2
    _ = t := List.map_id t

theorem RangeText.tokens {range : List Byte} {lo hi : Int} (h : RangeText range lo hi)
    (hshort : range.length < 64) : ∃ a b, rangeTokens range 64 = [a, b] ∧ SignedText a lo ∧ SignedText b hi := by
  obtain ⟨a, gap, b, rfl, hne, hgap, ha, hb⟩ := h.splits
  refine ⟨a, b, ?_, ha, hb⟩
  have hcut : strlcpy (a ++ gap ++ b) 64 = a ++ gap ++ b := List.take_of_length_le (by omega)
  have hblanks : ∀ c ∈ blanked gap, c = 0x20 := by
    intro c hc
    obtain ⟨d, hd, rfl⟩ := List.mem_map.mp hc
    obtain rfl | rfl := hgap d hd
    · rfl
    · rfl
  have hne' : blanked gap ≠ [] := fun hnil => hne (List.map_eq_nil_iff.mp hnil)
  have hmap : blanked (a ++ gap ++ b) = a ++ (blanked gap ++ b) := by
    rw [blanked, List.map_append, List.map_append, ← blanked, ← blanked, ← blanked,
      blanked_signed ha, blanked_signed hb, List.append_assoc]
  have hlast : EspAx25.Config.tokens [] b = [b] := by
    have hb' := tokens_append (fun c hc => (hb.chars c hc).1) [] []
    rw [List.append_nil, List.nil_append] at hb'
    rw [hb', EspAx25.Config.tokens, if_neg hb.ne_nil]
  rw [rangeTokens, hcut, ← blanked, hmap, tokens_append fun c hc => (ha.chars c hc).1,
    List.nil_append, tokens_gap ha.ne_nil hne' hblanks, hlast]

/-- `parse_int_range` reads the two bounds of a range that `tmp` has room for. -/
theorem RangeText.parse {range : List Byte} {lo hi : Int} (h : RangeText range lo hi)
    (hshort : range.length < 64) : parseIntRange range = some (lo, hi) := by
  obtain ⟨a, b, htokens, ha, hb⟩ := h.tokens hshort
  rw [parseIntRange, htokens]
  simp only [strtol_integer ha.integerText, strtol_integer hb.integerText,
    clampLong_eq h.lo.1 h.lo.2, clampLong_eq h.hi.1 h.hi.2]
  rfl

/-- The integer passes the bounds that `parse_int_range` reads of the first 63 characters of the
range, if it finds two. -/
def InRange (range : List Byte) (v : Int) : Prop :=
  ∀ bounds, parseIntRange range = some bounds → bounds.1 ≤ v ∧ v ≤ bounds.2

theorem RangeText.inRange_iff {range : List Byte} {lo hi : Int} (h : RangeText range lo hi)
    (hshort : range.length < 64) (v : Int) : InRange range v ↔ lo ≤ v ∧ v ≤ hi := by
  simp [InRange, h.parse hshort]

end EspAx25.Config
