import EspAx25.Agwpe.Callsign

/-!
# EspAx25.Config.Schema

The schema of the configuration (`ax25_config.c`): its entries, how the library's
entries and those of the application are merged, and how the text of a value is
checked and normalised.

A C string is the list of its bytes without the NUL, and a pointer that may be null
is an `Option`. Characters are those of the C locale, and `long` has 32 bits.
-/

namespace EspAx25.Config

/-- `AX25_CFG_MAX_PENDING`. -/
def maxPending : Nat := 32

/-- `AX25_CFG_VALUE_MAX_LEN`. -/
def valueMaxLen : Nat := 160

/-- The errors of NVS. `failed` is any other than those that the code tells apart. -/
inductive NvsErr
  | notFound
  | invalidLength
  | typeMismatch
  | failed (code : Nat)
  deriving Repr, DecidableEq

/-- The errors of the module: its own, and those of NVS that it passes on. -/
inductive CfgErr
  | esp (e : EspErr)
  | notSupported
  | nvs (e : NvsErr)
  deriving Repr, DecidableEq

/-- An error with the text that goes into the caller's buffer. -/
structure Failure where
  code : CfgErr
  text : List Byte
  deriving Repr, DecidableEq

/-- `ax25_cfg_type_t`. `other` is a value that is none of the four. -/
inductive CfgType
  | int
  | bool
  | enum
  | string
  | other
  deriving Repr, DecidableEq

/-- `ax25_cfg_param_t`. -/
structure Param where
  parameter : Option (List Byte)
  nvsKey : Option (List Byte)
  defaultValue : Option (List Byte)
  range : Option (List Byte)
  type : CfgType
  hide : Bool
  deriving Repr, DecidableEq

/-! ### Strings -/

/-- The bytes of a string literal. -/
def bytes (s : String) : List Byte := s.toUTF8.data.toList

theorem bytes_inj {s t : String} : bytes s = bytes t ↔ s = t := by
  constructor
  · intro h
    unfold bytes at h
    exact String.toByteArray_inj.mp (ByteArray.ext (Array.toList_inj.mp h))
  · rintro rfl
    rfl

theorem bytes_eq_nil {s : String} : bytes s = [] ↔ s = "" := bytes_inj (t := "")

/-- What `strlcpy` leaves in a buffer of `n` bytes. -/
def strlcpy (src : List Byte) (n : Nat) : List Byte := src.take (n - 1)

/-- `tolower`. -/
def toLower (c : Byte) : Byte := if 0x41 ≤ c ∧ c ≤ 0x5A then c + 0x20 else c

/-- `strtol(s, &end, 10)`: the value, and what `end` points at, which is `s` itself when
there are no digits. -/
def strtol (s : List Byte) : Int × List Byte :=
  let numeral := s.dropWhile isSpace
  let digits := match numeral with
    | c :: rest => if c = 0x2D ∨ c = 0x2B then rest else numeral
    | [] => []
  if digits.takeWhile isDigit = [] then (0, s)
  else
    (max (- 2147483648) (min (signedValue numeral) 2147483647), digits.dropWhile isDigit)

/-- What `%ld` prints. -/
def decimalInt : Int → List Byte
  | .ofNat n => decimal n
  | .negSucc n => 0x2D :: decimal (n + 1)

/-- What `strtok_r(s, " ")` finds, call after call. -/
def tokens : List Byte → List Byte → List (List Byte)
  | tok, [] => if tok = [] then [] else [tok]
  | tok, c :: s =>
    if c = 0x20 then (if tok = [] then tokens [] s else tok :: tokens [] s)
    else tokens (tok ++ [c]) s

/-- The tokens of a range, which blanks or commas separate. `tmp` has `n` bytes. -/
def rangeTokens (range : List Byte) (n : Nat) : List (List Byte) :=
  tokens [] ((strlcpy range n).map fun c => if c = 0x2C then 0x20 else c)

/-- `token_equals_ci`. -/
def tokenEqualsCi (a b : List Byte) : Bool := a.map toLower = b.map toLower

/-! ### Values -/

/-- `parse_int_range`. -/
def parseIntRange (range : List Byte) : Option (Int × Int) :=
  match rangeTokens range 64 with
  | a :: b :: _ =>
    if (strtol a).2 ≠ [] then none
    else if (strtol b).2 ≠ [] then none
    else some ((strtol a).1, (strtol b).1)
  | _ => none

/-- `value_in_enum_range`. -/
def valueInEnumRange (value range : List Byte) : Bool :=
  range ≠ [] && (rangeTokens range 192).any fun tok => tokenEqualsCi tok value

/-- The range of an entry that has one. -/
def Param.givenRange (param : Param) : Option (List Byte) := param.range.filter (· ≠ [])

/-- `normalize_value`. -/
def normalizeValue (param : Param) (value : List Byte) (normalizedLen : Nat) :
    Except Failure (List Byte) :=
  match param.type with
  | .int =>
    let (v, rest) := strtol value
    if rest ≠ [] then
      .error ⟨.esp .invalidArg, bytes "'" ++ value ++ bytes "' is not an integer"⟩
    else
      match param.givenRange.bind parseIntRange with
      | some (minv, maxv) =>
        if v < minv ∨ v > maxv then
          .error ⟨.esp .invalidArg, bytes "'" ++ value ++ bytes "' out of range (" ++
            decimalInt minv ++ bytes ".." ++ decimalInt maxv ++ bytes ")"⟩
        else .ok (strlcpy (decimalInt v) normalizedLen)
      | none => .ok (strlcpy (decimalInt v) normalizedLen)
  | .bool =>
    if tokenEqualsCi value (bytes "1") || tokenEqualsCi value (bytes "true") ||
        tokenEqualsCi value (bytes "yes") then .ok (strlcpy (bytes "1") normalizedLen)
    else if tokenEqualsCi value (bytes "0") || tokenEqualsCi value (bytes "false") ||
        tokenEqualsCi value (bytes "no") then .ok (strlcpy (bytes "0") normalizedLen)
    else .error ⟨.esp .invalidArg, bytes "bool must be 0/1/true/false"⟩
  | .enum =>
    match param.givenRange with
    | none => .error ⟨.esp .invalidArg, bytes "enum range missing"⟩
    | some range =>
      if valueInEnumRange value range then .ok (strlcpy value normalizedLen)
      else
        .error ⟨.esp .invalidArg, bytes "'" ++ value ++ bytes "' not in enum \x7b" ++ range ++
          bytes "\x7d"⟩
  | .string => .ok (strlcpy value normalizedLen)
  | .other => .error ⟨.notSupported, bytes "unsupported type"⟩

theorem strlcpy_length (src : List Byte) {n : Nat} (hn : 0 < n) :
    (strlcpy src n).length < n := by
  rw [strlcpy, List.length_take]
  omega

/-- What `normalize_value` makes of a value that it accepts, type by type. -/
inductive Normalized (param : Param) (value : List Byte) (n : Nat) : List Byte → Prop
  | int : param.type = .int → (strtol value).2 = [] →
      (∀ bounds, param.givenRange.bind parseIntRange = some bounds →
        bounds.1 ≤ (strtol value).1 ∧ (strtol value).1 ≤ bounds.2) →
      Normalized param value n (strlcpy (decimalInt (strtol value).1) n)
  | yes : param.type = .bool → (tokenEqualsCi value (bytes "1") ||
      tokenEqualsCi value (bytes "true") || tokenEqualsCi value (bytes "yes")) = true →
      Normalized param value n (strlcpy (bytes "1") n)
  | no : param.type = .bool → ¬ (tokenEqualsCi value (bytes "1") ||
      tokenEqualsCi value (bytes "true") || tokenEqualsCi value (bytes "yes")) = true →
      (tokenEqualsCi value (bytes "0") || tokenEqualsCi value (bytes "false") ||
        tokenEqualsCi value (bytes "no")) = true → Normalized param value n (strlcpy (bytes "0") n)
  | enum {range : List Byte} : param.type = .enum → param.givenRange = some range →
      valueInEnumRange value range = true → Normalized param value n (strlcpy value n)
  | string : param.type = .string → Normalized param value n (strlcpy value n)

theorem normalizeValue_ok_iff {param : Param} {value v : List Byte} {n : Nat} :
    normalizeValue param value n = .ok v ↔ Normalized param value n v := by
  constructor
  · intro h
    unfold normalizeValue at h
    split at h
    · dsimp only at h
      split_ifs at h with hrest
      rw [ne_eq, Classical.not_not] at hrest
      split at h
      · rename_i htype _ minv maxv hbounds
        split_ifs at h with hout
        cases h
        refine .int htype hrest fun bounds hb => ?_
        cases hbounds.symm.trans hb
        omega
      · rename_i htype _ hbounds
        cases h
        exact .int htype hrest fun bounds hb => by cases hbounds.symm.trans hb
    · split_ifs at h with hyes hno
      · cases h
        exact .yes ‹_› hyes
      · cases h
        exact .no ‹_› hyes hno
    · split at h
      · cases h
      · split_ifs at h with hin
        cases h
        exact .enum ‹_› ‹_› hin
    · cases h
      exact .string ‹_›
    · cases h
  · intro h
    unfold normalizeValue
    cases h with
    | int htype hrest hbounds =>
        rw [htype]
        dsimp only
        rw [if_neg fun hne => hne hrest]
        cases hb : param.givenRange.bind parseIntRange with
        | none => rfl
        | some bounds =>
            have := hbounds bounds hb
            dsimp only
            rw [if_neg (by omega)]
    | yes htype hyes =>
        rw [htype]
        exact if_pos hyes
    | no htype hyes hno =>
        rw [htype]
        exact (if_neg hyes).trans (if_pos hno)
    | enum htype hrange hin =>
        rw [htype, hrange]
        exact if_pos hin
    | string htype => rw [htype]

/-- A normalised value fits in the buffer that it was written to. -/
theorem normalizeValue_length {param : Param} {value v : List Byte} {n : Nat} (hn : 0 < n)
    (h : normalizeValue param value n = .ok v) : v.length < n := by
  cases normalizeValue_ok_iff.mp h with
  | int => exact strlcpy_length _ hn
  | yes => exact strlcpy_length _ hn
  | no => exact strlcpy_length _ hn
  | enum => exact strlcpy_length _ hn
  | string => exact strlcpy_length _ hn

/-! ### The merged schema -/

/-- `param_nvs_key`. -/
def paramNvsKey (p : Param) : Option (List Byte) :=
  match p.nvsKey with
  | some (c :: key) => some (c :: key)
  | _ => p.parameter

/-- What the code passes to NVS as the key of an entry. -/
def Param.key (p : Param) : List Byte := (paramNvsKey p).getD []

/-- `p->default_value != NULL ? p->default_value : ""`. -/
def Param.default (p : Param) : List Byte := p.defaultValue.getD []

/-- What is checked of one entry: that it has a name and a key, and that no entry after it
has either. An entry after it that has no name differs from it here; it fails in its turn. -/
def checkEntry (param : Param) (others : List Param) : Except CfgErr Unit :=
  if param.parameter = none ∨ param.parameter = some [] then .error (.esp .invalidArg)
  else if paramNvsKey param = none ∨ paramNvsKey param = some [] then .error (.esp .invalidArg)
  else if others.any fun other => other.parameter = param.parameter ∨
      paramNvsKey other = paramNvsKey param then .error (.esp .invalidArg)
  else .ok ()

/-- The loop of `build_merged_schema` over the entries. -/
def checkEntries : List Param → Except CfgErr Unit
  | [] => .ok ()
  | param :: others =>
    match checkEntry param others with
    | .error e => .error e
    | .ok () => checkEntries others

/-- `build_merged_schema`. The schema of the library, `ax25_cfg_defaults_schema`, is a
parameter; memory for the merged schema is there. -/
def buildMergedSchema (defaults : List Param) (localSchema : Option (List Param))
    (localSchemaCount : Nat) : Except CfgErr (List Param) :=
  if localSchemaCount > 0 ∧ localSchema = none then .error (.esp .invalidArg)
  else
    let total := defaults.length + localSchemaCount
    if total = 0 ∨ total > 65535 then .error (.esp .invalidSize)
    else
      let merged := defaults ++ (localSchema.getD []).take localSchemaCount
      match checkEntries merged with
      | .error e => .error e
      | .ok () => .ok merged

/-- What an accepted schema is: every entry has a name and a key of its own, and an index
of an entry fits in 16 bits. -/
structure Accepted (schema : List Param) : Prop where
  named : ∀ p ∈ schema, ∃ name, p.parameter = some name
  keyed : ∀ p ∈ schema, ∃ key, paramNvsKey p = some key
  names : schema.Pairwise fun p q => p.parameter ≠ q.parameter
  keys : schema.Pairwise fun p q => p.key ≠ q.key
  size : schema.length ≤ 65535

/-- An index of an entry is one of 16 bits. -/
theorem Accepted.ofNat_toNat {schema : List Param} (hacc : Accepted schema)
    {p : Param} {i : Nat} (hget : schema[i]? = some p) : (UInt16.ofNat i).toNat = i := by
  have hlt := (List.getElem?_eq_some_iff.mp hget).1
  have := hacc.size
  exact UInt16.toNat_ofNat_of_lt (by simp only [UInt16.size]; omega)

theorem checkEntry_ok {param : Param} {others : List Param}
    (h : checkEntry param others = .ok ()) :
    (∃ name, param.parameter = some name) ∧ (∃ key, paramNvsKey param = some key) ∧
      ∀ other ∈ others, param.parameter ≠ other.parameter ∧
        paramNvsKey param ≠ paramNvsKey other := by
  unfold checkEntry at h
  split_ifs at h with hname hkey hany
  refine ⟨Option.ne_none_iff_exists'.mp fun hn => hname (.inl hn),
    Option.ne_none_iff_exists'.mp fun hk => hkey (.inl hk), ?_⟩
  intro other hother
  constructor
  · intro heq
    exact hany (List.any_eq_true.mpr ⟨other, hother, by simp [heq]⟩)
  · intro heq
    exact hany (List.any_eq_true.mpr ⟨other, hother, by simp [heq]⟩)

theorem checkEntries_ok {schema : List Param} (h : checkEntries schema = .ok ()) :
    (∀ p ∈ schema, ∃ name, p.parameter = some name) ∧
      (∀ p ∈ schema, ∃ key, paramNvsKey p = some key) ∧
      (schema.Pairwise fun p q => p.parameter ≠ q.parameter) ∧
      schema.Pairwise fun p q => paramNvsKey p ≠ paramNvsKey q := by
  induction schema with
  | nil => simp
  | cons param others ih =>
      unfold checkEntries at h
      cases hc : checkEntry param others with
      | error e =>
          rw [hc] at h
          cases h
      | ok u =>
          rw [hc] at h
          obtain ⟨hname, hkey, hothers⟩ := checkEntry_ok hc
          obtain ⟨hnamed, hkeyed, hnames, hkeys⟩ := ih h
          exact ⟨List.forall_mem_cons.mpr ⟨hname, hnamed⟩,
            List.forall_mem_cons.mpr ⟨hkey, hkeyed⟩,
            List.pairwise_cons.mpr ⟨fun q hq => (hothers q hq).1, hnames⟩,
            List.pairwise_cons.mpr ⟨fun q hq => (hothers q hq).2, hkeys⟩⟩

/-- `build_merged_schema` returns accepted schemas only. -/
theorem buildMergedSchema_ok {defaults : List Param} {localSchema : Option (List Param)}
    {localSchemaCount : Nat} {schema : List Param}
    (h : buildMergedSchema defaults localSchema localSchemaCount = .ok schema) :
    Accepted schema := by
  unfold buildMergedSchema at h
  dsimp only at h
  split_ifs at h with hnull htotal
  split at h
  · cases h
  · cases h
    rename_i hcheck
    obtain ⟨hnamed, hkeyed, hnames, hkeys⟩ := checkEntries_ok hcheck
    refine ⟨hnamed, hkeyed, hnames, ?_, ?_⟩
    · refine hkeys.imp_of_mem fun {p q} hp hq hne heq => hne ?_
      obtain ⟨k, hk⟩ := hkeyed p hp
      obtain ⟨l, hl⟩ := hkeyed q hq
      simpa [Param.key, hk, hl] using heq
    · rw [List.length_append, List.length_take]
      omega

/-- An entry is known by its key. -/
theorem Accepted.eq_of_key {schema : List Param} (h : Accepted schema) {i j : Nat} {p q : Param}
    (hp : schema[i]? = some p) (hq : schema[j]? = some q) (hkey : p.key = q.key) : i = j := by
  obtain ⟨hi, rfl⟩ := List.getElem?_eq_some_iff.mp hp
  obtain ⟨hj, rfl⟩ := List.getElem?_eq_some_iff.mp hq
  have hne := List.pairwise_iff_getElem.mp h.keys
  obtain hlt | heq | hgt := Nat.lt_trichotomy i j
  · exact absurd hkey (hne i j hi hj hlt)
  · exact heq
  · exact absurd hkey.symm (hne j i hj hi hgt)

/-- `find_param`: the index of the entry of that name. -/
def findParam (schema : List Param) (parameter : List Byte) : Option Nat :=
  schema.findIdx? fun p => p.parameter = some parameter

theorem findParam_some {schema : List Param} {parameter : List Byte} {i : Nat}
    (h : findParam schema parameter = some i) :
    ∃ param, schema[i]? = some param ∧ param.parameter = some parameter := by
  obtain ⟨hi, hname, -⟩ := List.findIdx?_eq_some_iff_getElem.mp h
  exact ⟨schema[i], List.getElem?_eq_getElem hi, of_decide_eq_true hname⟩

/-- Every entry is found by its name. -/
theorem Accepted.findParam {schema : List Param} (h : Accepted schema) {i : Nat} {param : Param}
    {name : List Byte} (hi : schema[i]? = some param) (hname : param.parameter = some name) :
    findParam schema name = some i := by
  obtain ⟨hlt, rfl⟩ := List.getElem?_eq_some_iff.mp hi
  refine List.findIdx?_eq_some_iff_getElem.mpr ⟨hlt, decide_eq_true hname, fun j hj hsame => ?_⟩
  exact List.pairwise_iff_getElem.mp h.names j i (hj.trans hlt) hlt hj
    ((of_decide_eq_true hsame).trans hname.symm)

end EspAx25.Config
