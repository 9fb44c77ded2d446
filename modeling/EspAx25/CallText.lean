import EspAx25.Agwpe.Callsign

/-!
# EspAx25.CallText

What the callsigns of users go through: `ax25_address_from_string` reads a text,
`ax25_address_to_string` prints one, and on the air an address is seven bytes.

* `Numeral` and `CallText` are the grammar that `ax25_address.h` gives in words:
  "CALLSIGN" or "CALLSIGN-SSID". They mention no function of the code.
* `call_text_grammar` compares the grammar with what `strchr` and `atoi` accept;
  `addressToString_round_trip` is the way back, which always works.
* `callsign_survives_air_iff` says which of the accepted texts come back from the
  wire as they were.
-/

namespace EspAx25

/-! ### The grammar -/

/-- A decimal numeral and the number it denotes. -/
inductive Numeral : List Byte → Nat → Prop
  | digit {c : Byte} : isDigit c = true → Numeral [c] (c.toNat - 0x30)
  | snoc {t : List Byte} {n : Nat} {c : Byte} :
      Numeral t n → isDigit c = true → Numeral (t ++ [c]) (10 * n + (c.toNat - 0x30))

/-- "CALLSIGN" and "CALLSIGN-SSID". -/
inductive CallText : List Byte → List Byte → Nat → Prop
  | call {call : List Byte} :
      call ≠ [] → call.length ≤ 6 → 0x2D ∉ call → CallText call call 0
  | callSsid {call t : List Byte} {n : Nat} :
      call ≠ [] → call.length ≤ 6 → 0x2D ∉ call → Numeral t n → n ≤ 15 →
        CallText (call ++ 0x2D :: t) call n

/-- The address of a callsign and an SSID. -/
def callAddress (call : List Byte) (n : Nat) : Address :=
  { callsign := call.map toUpper, ssid := UInt8.ofNat n }

/-- The text in front of the first dash. -/
def callPart (s : List Byte) : List Byte := s.takeWhile (· ≠ 0x2D)

/-- The text behind the first dash, if there is one. -/
def ssidPart (s : List Byte) : Option (List Byte) := (s.dropWhile (· ≠ 0x2D)).tail?

/-- A callsign that is not empty and, behind a dash, digits only and at least one. -/
def NeatText (s : List Byte) : Prop :=
  callPart s ≠ [] ∧ ∀ t ∈ ssidPart s, t ≠ [] ∧ ∀ c ∈ t, isDigit c = true

/-- A callsign of more than 6 characters, or a number that is no SSID. -/
def RefusedText (s : List Byte) : Prop :=
  6 < (callPart s).length ∨ ∃ t ∈ ssidPart s, atoi t < 0 ∨ 15 < atoi t

/-! ### Numerals -/

theorem Numeral.ne_nil {t : List Byte} {n : Nat} (h : Numeral t n) : t ≠ [] := by
  cases h with
  | digit _ => exact List.cons_ne_nil _ _
  | snoc _ _ => exact List.append_ne_nil_of_right_ne_nil _ (List.cons_ne_nil _ _)

theorem Numeral.digits {t : List Byte} {n : Nat} (h : Numeral t n) :
    ∀ c ∈ t, isDigit c = true := by
  induction h with
  | digit hc => simpa using hc
  | snoc _ hc ih =>
      intro d hd
      rcases List.mem_append.mp hd with hd | hd
      · exact ih d hd
      · rwa [List.mem_singleton.mp hd]

/-- Digits are a numeral. -/
theorem numeral_of_digits {t : List Byte} (hne : t ≠ []) (h : ∀ c ∈ t, isDigit c = true) :
    ∃ n, Numeral t n := by
  induction t using List.reverseRecOn with
  | nil => exact absurd rfl hne
  | append_singleton t c ih =>
      have hc : isDigit c = true := h c (by simp)
      by_cases ht : t = []
      · subst ht
        exact ⟨_, .digit hc⟩
      · obtain ⟨n, hn⟩ := ih ht fun d hd => h d (List.mem_append_left _ hd)
        exact ⟨_, .snoc hn hc⟩

theorem isDigit_iff (c : Byte) : isDigit c = true ↔ 0x30 ≤ c.toNat ∧ c.toNat ≤ 0x39 := by
  simp [isDigit, UInt8.le_iff_toNat_le]

/-- A digit is neither a space nor a sign. -/
theorem isDigit_facts (c : Byte) (h : isDigit c = true) :
    isSpace c = false ∧ c ≠ 0x2D ∧ c ≠ 0x2B := by
  have hc := (isDigit_iff c).mp h
  simp only [isSpace, ne_eq, ← UInt8.toNat_inj, UInt8.le_iff_toNat_le, Bool.or_eq_false_iff,
    Bool.and_eq_false_iff, decide_eq_false_iff_not, UInt8.reduceToNat]
  omega

theorem Numeral.digitsValue {t : List Byte} {n : Nat} (h : Numeral t n) : digitsValue t = n := by
  rw [EspAx25.digitsValue, List.takeWhile_eq_self_iff.mpr h.digits]
  induction h with
  | digit hc =>
      have := ((isDigit_iff _).mp hc).1
      simp only [List.foldl_cons, List.foldl_nil]
      omega
  | snoc _ hc ih =>
      have := ((isDigit_iff _).mp hc).1
      rw [List.foldl_append, ih]
      simp only [List.foldl_cons, List.foldl_nil]
      omega

/-- `atoi` reads a numeral, up to the largest `long`. -/
theorem Numeral.atoi {t : List Byte} {n : Nat} (h : Numeral t n) :
    atoi t = min (n : Int) (2 ^ 31 - 1) := by
  have hvalue := h.digitsValue
  have hdigits := h.digits
  rw [EspAx25.atoi]
  cases t with
  | nil => exact absurd rfl h.ne_nil
  | cons c t =>
      obtain ⟨hspace, hminus, hplus⟩ := isDigit_facts c (hdigits c List.mem_cons_self)
      rw [List.dropWhile_cons_of_neg (by simp [hspace]), signedValue, if_neg hminus, if_neg hplus,
        hvalue]
      omega

theorem digitChar_byte : ∀ d < 10, isDigit (UInt8.ofNat (Nat.digitChar d).toNat) = true ∧
    (UInt8.ofNat (Nat.digitChar d).toNat).toNat - 0x30 = d := by
  decide

/-- What `%d` prints is a numeral. -/
theorem numeral_decimal (n : Nat) : Numeral (decimal n) n := by
  induction n using Nat.strongRecOn with
  | ind n ih =>
      unfold decimal
      rw [Nat.toDigits_eq_if (by decide)]
      split_ifs with hlt
      · have hd := digitChar_byte n hlt
        have h := Numeral.digit hd.1
        rwa [hd.2] at h
      · have hd := digitChar_byte (n % 10) (Nat.mod_lt n (by decide))
        have h := Numeral.snoc (ih (n / 10) (by omega)) hd.1
        rw [hd.2, Nat.div_add_mod] at h
        rw [List.map_append]
        exact h

/-- A small number is read as it was printed. -/
theorem atoi_decimal {n : Nat} (h : n < 16) : atoi (decimal n) = n := by
  rw [(numeral_decimal n).atoi]
  omega

/-! ### The two parts of a text -/

theorem callPart_call {call : List Byte} (h : 0x2D ∉ call) : callPart call = call :=
  List.takeWhile_eq_self_iff.mpr (all_ne_dash h)

theorem ssidPart_call {call : List Byte} (h : 0x2D ∉ call) : ssidPart call = none := by
  rw [ssidPart, List.dropWhile_eq_nil_iff.mpr (all_ne_dash h)]
  rfl

theorem callPart_callSsid {call : List Byte} (h : 0x2D ∉ call) (t : List Byte) :
    callPart (call ++ 0x2D :: t) = call := by
  rw [callPart, List.takeWhile_append_of_pos (all_ne_dash h)]
  exact List.append_nil call

theorem ssidPart_callSsid {call : List Byte} (h : 0x2D ∉ call) (t : List Byte) :
    ssidPart (call ++ 0x2D :: t) = some t := by
  rw [ssidPart, List.dropWhile_append_of_pos (all_ne_dash h)]
  rfl

theorem callPart_no_dash (s : List Byte) : 0x2D ∉ callPart s := by
  intro h
  exact absurd (List.mem_takeWhile_imp h) (by decide)

/-- A text is a callsign, or a callsign, a dash and the rest. -/
theorem text_cases (s : List Byte) :
    ∃ call, 0x2D ∉ call ∧ (s = call ∨ ∃ t, s = call ++ 0x2D :: t) := by
  induction s with
  | nil => exact ⟨[], List.not_mem_nil, .inl rfl⟩
  | cons c s ih =>
      by_cases hc : c = 0x2D
      · exact ⟨[], List.not_mem_nil, .inr ⟨s, by rw [hc, List.nil_append]⟩⟩
      · obtain ⟨call, hdash, hs⟩ := ih
        refine ⟨c :: call, ?_, hs.imp (congrArg _) fun ⟨t, ht⟩ => ⟨t, congrArg _ ht⟩⟩
        exact fun hmem => (List.mem_cons.mp hmem).elim (fun heq => hc heq.symm) hdash

/-! ### What is accepted -/

/-- The number that is read as the SSID. -/
def readSsid (s : List Byte) : Nat := ((ssidPart s).map fun t => (atoi t).toNat).getD 0

/-- `ax25_address_from_string` accepts what it does not refuse. -/
theorem addressFromString_ok_iff (s : List Byte) (a : Address) :
    addressFromString s = (.ok, a) ↔
      ¬ RefusedText s ∧ a = callAddress (callPart s) (readSsid s) := by
  unfold RefusedText readSsid
  obtain ⟨call, hdash, rfl | ⟨t, rfl⟩⟩ := text_cases s
  · rw [addressFromString_no_dash hdash, callPart_call hdash, ssidPart_call hdash, maxCallsignLen]
    by_cases hlong : 6 < s.length
    · simp [hlong]
    · simp [hlong, callAddress, eq_comm]
  · rw [addressFromString_dash hdash, callPart_callSsid hdash, ssidPart_callSsid hdash,
      maxCallsignLen]
    by_cases hlong : 6 < call.length
    · simp [hlong]
    · by_cases hnum : atoi t < 0 ∨ 15 < atoi t
      · simp [hlong, hnum]
      · simp [hlong, hnum, callAddress, eq_comm]

/-- The grammar has the neat texts among the accepted ones. -/
theorem callText_iff (s : List Byte) (a : Address) :
    (∃ call n, CallText s call n ∧ a = callAddress call n) ↔
      NeatText s ∧ ¬ RefusedText s ∧ a = callAddress (callPart s) (readSsid s) := by
  unfold NeatText RefusedText readSsid
  constructor
  · rintro ⟨call, n, htext, rfl⟩
    cases htext with
    | call hne hlen hdash =>
        rw [callPart_call hdash, ssidPart_call hdash]
        simpa [hne] using hlen
    | @callSsid _ t _ hne hlen hdash hnum hn =>
        have hatoi : atoi t = n := by
          rw [hnum.atoi]
          omega
        rw [callPart_callSsid hdash, ssidPart_callSsid hdash]
        refine ⟨⟨hne, ?_⟩, ?_, ?_⟩
        · rintro _ ⟨⟩
          exact ⟨hnum.ne_nil, hnum.digits⟩
        · rintro (hlong | ⟨_, ⟨⟩, hout⟩)
          · omega
          · omega
        · simp [hatoi]
  · obtain ⟨call, hdash, rfl | ⟨t, rfl⟩⟩ := text_cases s
    · rw [callPart_call hdash, ssidPart_call hdash]
      rintro ⟨⟨hne, -⟩, hok, rfl⟩
      exact ⟨s, 0, .call hne (Nat.le_of_not_lt fun hlong => hok (.inl hlong)) hdash, rfl⟩
    · rw [callPart_callSsid hdash, ssidPart_callSsid hdash]
      rintro ⟨⟨hne, hdigits⟩, hok, rfl⟩
      obtain ⟨ht, hall⟩ := hdigits t rfl
      obtain ⟨n, hnum⟩ := numeral_of_digits ht hall
      have hatoi := hnum.atoi
      have hn : n ≤ 15 := by
        by_contra hbig
        exact hok (.inr ⟨t, rfl, .inr (by rw [hatoi]; omega)⟩)
      have hread : (atoi t).toNat = n := by
        rw [hatoi]
        omega
      refine ⟨call, n, .callSsid hne (Nat.le_of_not_lt fun hlong => hok (.inl hlong)) hdash hnum hn,
        ?_⟩
      simp [hread]

/-! ### The way back -/

theorem toUpper_toNat (c : Byte) : (toUpper c).toNat =
    if 0x61 ≤ c.toNat ∧ c.toNat ≤ 0x7A then c.toNat - 0x20 else c.toNat := by
  simp only [toUpper, UInt8.le_iff_toNat_le, UInt8.reduceToNat]
  split_ifs with h
  · rw [UInt8.toNat_sub_of_le _ _ (UInt8.le_iff_toNat_le.mpr (by simp; omega))]
    rfl
  · rfl

theorem toUpper_idem (c : Byte) : toUpper (toUpper c) = toUpper c := by
  rw [← UInt8.toNat_inj, toUpper_toNat, toUpper_toNat]
  split_ifs <;> omega

/-- Nothing in front of the letters comes from a letter. -/
theorem toUpper_eq_iff {d : Byte} (hd : d.toNat < 0x41) (c : Byte) : toUpper c = d ↔ c = d := by
  rw [← UInt8.toNat_inj, ← UInt8.toNat_inj, toUpper_toNat]
  split_ifs <;> omega

/-- An accepted text has been read as a callsign of at most 6 characters and an SSID. -/
theorem addressFromString_ok {s : List Byte} {a : Address} (h : addressFromString s = (.ok, a)) :
    (callPart s).length ≤ 6 ∧ readSsid s < 16 ∧ a = callAddress (callPart s) (readSsid s) := by
  obtain ⟨hok, rfl⟩ := (addressFromString_ok_iff s a).mp h
  refine ⟨Nat.le_of_not_lt fun hlong => hok (.inl hlong), ?_, rfl⟩
  unfold readSsid
  cases hssid : ssidPart s with
  | none => decide
  | some t =>
      have hbig : ¬ 15 < atoi t := fun hbig => hok (.inr ⟨t, hssid, .inr hbig⟩)
      simp only [Option.map_some, Option.getD_some]
      omega

/-- Without an SSID, 10 bytes are enough for the callsign. -/
theorem addressToString_call {a : Address} (hlen : a.callsign.length ≤ 6) (h : a.ssid = 0) :
    addressToString a 10 = .ok a.callsign := by
  rw [addressToString, if_pos h]
  dsimp only
  rw [if_neg (by omega), List.take_of_length_le (by omega)]

/-- With an SSID they are enough, too. -/
theorem addressToString_callSsid {a : Address} (hlen : a.callsign.length ≤ 6) (h : a.ssid ≠ 0)
    (hssid : a.ssid.toNat < 16) :
    addressToString a 10 = .ok (a.callsign ++ 0x2D :: decimal a.ssid.toNat) := by
  have hdigits : (decimal a.ssid.toNat).length ≤ 2 := decimal_length (by decide) (by omega)
  rw [addressToString, if_neg h]
  dsimp only
  rw [if_neg (by omega), List.take_of_length_le]
  rw [List.length_append, List.length_cons]
  omega

/-- **The way back.** What has been read can be printed in 10 bytes, and the print is read
as the same address. -/
theorem addressToString_round_trip {s : List Byte} {a : Address}
    (h : addressFromString s = (.ok, a)) :
    ∃ text, addressToString a 10 = .ok text ∧ addressFromString text = (.ok, a) := by
  obtain ⟨hlen, hn, rfl⟩ := addressFromString_ok h
  have hdash := callPart_no_dash s
  generalize callPart s = call at *
  generalize readSsid s = n at *
  have hdash' : 0x2D ∉ call.map toUpper := by
    intro hmem
    obtain ⟨c, hc, hupper⟩ := List.mem_map.mp hmem
    exact hdash ((toUpper_eq_iff (by decide) c).mp hupper ▸ hc)
  have hidem : (call.map toUpper).map toUpper = call.map toUpper := by
    rw [List.map_map]
    exact List.map_congr_left fun c _ => toUpper_idem c
  have hlen' : (call.map toUpper).length ≤ 6 := by rwa [List.length_map]
  have hfits : ¬ (call.map toUpper).length > maxCallsignLen := Nat.not_lt.mpr hlen'
  have hssid : (callAddress call n).ssid.toNat = n := Nat.mod_eq_of_lt (by omega)
  by_cases hzero : (callAddress call n).ssid = 0
  · refine ⟨call.map toUpper, addressToString_call hlen' hzero, ?_⟩
    have hn : n = 0 := by
      rw [← hssid, hzero]
      rfl
    rw [addressFromString_no_dash hdash', if_neg hfits, hidem, hn]
    rfl
  · refine ⟨_, addressToString_callSsid hlen' hzero (hssid.symm ▸ hn), ?_⟩
    dsimp only [callAddress]
    have hatoi : atoi (decimal (UInt8.ofNat n).toNat) = n := hssid.symm ▸ atoi_decimal hn
    rw [addressFromString_dash hdash', if_neg hfits, hatoi, if_neg (by omega), hidem]
    rfl

/-- **The grammar.** A text is accepted exactly when the grammar has it, and what has been
accepted can be printed and read again: this is so for the neat texts and for those that
are refused. The others are accepted and are no callsigns. -/
theorem call_text_grammar (s : List Byte) :
    ((∀ a, addressFromString s = (.ok, a) ↔
        ∃ call n, CallText s call n ∧ a = callAddress call n) ∧
      ∀ a, addressFromString s = (.ok, a) →
        ∃ text, addressToString a 10 = .ok text ∧ addressFromString text = (.ok, a)) ↔
      NeatText s ∨ RefusedText s := by
  simp only [addressFromString_ok_iff s, callText_iff]
  constructor
  · rintro ⟨hgrammar, -⟩
    by_cases hrefused : RefusedText s
    · exact .inr hrefused
    · exact .inl ((hgrammar _).mp ⟨hrefused, rfl⟩).1
  · intro h
    refine ⟨fun a => ⟨fun ha => ⟨h.resolve_right ha.1, ha⟩, And.right⟩, fun a ha => ?_⟩
    exact addressToString_round_trip ((addressFromString_ok_iff s a).mpr ha)

/-- "A-5x" is accepted. -/
theorem junk_accepted :
    ¬ ∀ s : List Byte,
      (∀ a, addressFromString s = (.ok, a) ↔
        ∃ call n, CallText s call n ∧ a = callAddress call n) ∧
      ∀ a, addressFromString s = (.ok, a) →
        ∃ text, addressToString a 10 = .ok text ∧ addressFromString text = (.ok, a) := by
  intro h
  obtain ⟨_, _, htext, -⟩ := ((h [0x41, 0x2D, 0x35, 0x78]).1 (callAddress [0x41] 5)).mp (by
    decide +kernel)
  have hneat := ((callText_iff [0x41, 0x2D, 0x35, 0x78] _).mp ⟨_, _, htext, rfl⟩).1
  exact absurd ((hneat.2 [0x35, 0x78] rfl).2 0x78 (by decide)) (by decide)

/-! ### On the air -/

/-- A character of a text comes back in upper case if it has 7 bits. -/
theorem wireChar_toUpper (c : Byte) : wireChar (toUpper c) = toUpper c ↔ c < 0x80 := by
  revert c
  exact forall_byte (by decide +kernel)

/-- The decoder gives a callsign back that has neither spaces nor top bits. -/
theorem wire_callsign_iff {call : List Byte} (hnul : 0 ∉ call) :
    (((call.map toUpper).map wireChar).filter (· ≠ 0x20)).takeWhile (· ≠ 0) = call.map toUpper ↔
      ∀ c ∈ call, c ≠ 0x20 ∧ c < 0x80 := by
  constructor
  · intro h c hc
    constructor
    · intro hspace
      have hmem : toUpper c ∈ call.map toUpper := List.mem_map_of_mem hc
      rw [← h] at hmem
      have hkept := List.mem_filter.mp ((List.takeWhile_sublist _).subset hmem)
      exact of_decide_eq_true hkept.2 ((toUpper_eq_iff (by decide) c).mpr hspace)
    · -- What comes back is as long as what was sent: nothing has been dropped.
      have hsub := (List.takeWhile_sublist (· ≠ 0)).trans
        (List.filter_sublist (p := (· ≠ 0x20)) (l := (call.map toUpper).map wireChar))
      have hsame : (call.map toUpper).map wireChar = call.map toUpper := by
        have hlen : call.map toUpper = (call.map toUpper).map wireChar := by
          rw [h] at hsub
          exact hsub.eq_of_length (List.length_map _).symm
        exact hlen.symm
      rw [List.map_map] at hsame
      exact (wireChar_toUpper c).mp (List.map_inj_left.mp hsame c hc)
  · intro h
    have hback : (call.map toUpper).map wireChar = call.map toUpper := by
      rw [List.map_map]
      exact List.map_congr_left fun c hc => (wireChar_toUpper c).mpr (h c hc).2
    rw [hback, List.filter_eq_self.mpr, List.takeWhile_eq_self_iff.mpr]
    · intro b hb
      obtain ⟨c, hc, rfl⟩ := List.mem_map.mp hb
      exact decide_eq_true fun hzero => hnul ((toUpper_eq_iff (by decide) c).mp hzero ▸ hc)
    · intro b hb
      obtain ⟨c, hc, rfl⟩ := List.mem_map.mp hb
      exact decide_eq_true fun hspace => (h c hc).1 ((toUpper_eq_iff (by decide) c).mp hspace)

/-- The address that a callsign and an SSID have on the other side. -/
theorem addressDecode_callAddress {call : List Byte} {n : Nat} (hlen : call.length ≤ 6)
    (hn : n < 16) :
    addressDecode (addressEncode (callAddress call n)) =
      { callAddress call n with
        callsign := (((call.map toUpper).map wireChar).filter (· ≠ 0x20)).takeWhile (· ≠ 0) } := by
  have hlen' : (call.map toUpper).length ≤ 6 := by rwa [List.length_map]
  have hidem : (call.map toUpper).map toUpper = call.map toUpper := by
    rw [List.map_map]
    exact List.map_congr_left fun c _ => toUpper_idem c
  have hssid : (callAddress call n).ssid < 16 := by
    rw [UInt8.lt_iff_toNat_lt]
    exact (Nat.mod_le _ _).trans_lt hn
  obtain ⟨hback, hrep, hlast⟩ := ssidByte_facts (callAddress call n).ssid false false hssid
  have hwire : addressEncode (callAddress call n) =
      wireAddress (call.map toUpper) (ssidByte (callAddress call n).ssid false false) ++ [] := by
    rw [List.append_nil, addressEncode_upper hlen']
    dsimp only [callAddress]
    rw [hidem]
  rw [hwire, addressDecode_chars hlen', hback, hrep, hlast]
  rfl

/-- **Callsigns on the air.** The address of an accepted text comes back from the wire as it
was exactly when its callsign has no space and no character of 8 bits. -/
theorem callsign_survives_air_iff {s : List Byte} {a : Address} (hnul : 0 ∉ s)
    (h : addressFromString s = (.ok, a)) :
    addressEquals (addressDecode (addressEncode a)) a = true ↔
      ∀ c ∈ callPart s, c ≠ 0x20 ∧ c < 0x80 := by
  obtain ⟨hlen, hn, rfl⟩ := addressFromString_ok h
  have hnul' : 0 ∉ callPart s := fun hmem => hnul ((List.takeWhile_sublist _).subset hmem)
  rw [addressDecode_callAddress hlen hn, addressEquals_iff, ← wire_callsign_iff hnul']
  exact and_iff_left rfl

theorem callsign_survives_air_sample :
    addressEquals (addressDecode (addressEncode (callAddress [0x61, 0x42] 5)))
      (callAddress [0x61, 0x42] 5) = true :=
  (callsign_survives_air_iff (s := [0x61, 0x42, 0x2D, 0x35]) (by decide) (by decide +kernel)).mpr
    (by decide +kernel)

/-- "A B" is accepted, and comes back as "AB". -/
theorem space_lost_on_air :
    ¬ ∀ (s : List Byte) (a : Address), 0 ∉ s → addressFromString s = (.ok, a) →
      addressEquals (addressDecode (addressEncode a)) a = true := by
  intro h
  exact absurd (h [0x41, 0x20, 0x42] (callAddress [0x41, 0x20, 0x42] 0) (by decide)
    (by decide +kernel)) (by decide +kernel)

end EspAx25
