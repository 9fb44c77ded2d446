import EspAx25.Access
import EspAx25.Pieces
import EspAx25.Types

/-!
# EspAx25.Beacon

The text of the beacon (`ax25_beacon.c`): `unescape_text` expands its escape sequences.

* `unescaped` is what a text with escape sequences stands for.
* `unescapeText` is the function as it is written, with its accesses to the two arrays. It looks
  one or two characters ahead, and tests in two ways whether a pair of characters fits.
* `unescapeText_iff` says for which texts and buffers it stays inside of them and writes as much
  as fits.
-/

namespace EspAx25

open Access Pieces

/-! ### The function -/

/-- The arrays of `unescape_text`. -/
inductive UnescapeArray
  | src
  | dst
  deriving DecidableEq

/-- A subtraction in `size_t`, which has 32 bits. -/
def sizeSub (a b : Nat) : Nat := if b ≤ a then a - b else a + 4294967296 - b

/-- `hex_nibble`. -/
def hexNibble (c : Byte) : Int :=
  if 0x30 ≤ c ∧ c ≤ 0x39 then c.toNat - 0x30
  else if 0x61 ≤ c ∧ c ≤ 0x66 then 10 + (c.toNat - 0x61)
  else if 0x41 ≤ c ∧ c ≤ 0x46 then 10 + (c.toNat - 0x41)
  else -1

/-- The variables of the loop: the index of `*p` in `src`, `out_pos`, and what is in `dst`. -/
structure Unescape where
  p : Nat
  outPos : Nat
  dst : List Byte

/-- `dst[out_pos++] = c`. -/
def Unescape.put (u : Unescape) (c : Byte) : Traced UnescapeArray Unescape := do
  touch .dst u.outPos 1
  return { u with outPos := u.outPos + 1, dst := u.dst.set u.outPos c }

section Loop

variable (src : Nat → Byte) (dstLen : Nat)

/-- A character of `src`. One that is read twice is touched once. -/
def readSrc (i : Nat) : Traced UnescapeArray Byte := do
  touch .src i 1
  return src i

/-- `case 'x'`. -/
def unescapeHex (u : Unescape) : Traced UnescapeArray Unescape := do
  let a ← readSrc src (u.p + 1)
  let b ← readSrc src (u.p + 2)
  let hi := hexNibble a
  let lo := hexNibble b
  if hi ≥ 0 ∧ lo ≥ 0 then do
    let u ← u.put (UInt8.ofNat (hi.toNat <<< 4 ||| lo.toNat))
    return { u with p := u.p + 2 }
  else if u.outPos < sizeSub dstLen 3 then do
    let u ← u.put 0x5C
    u.put 0x78
  else u.put 0x5C

/-- The `switch`, with `c` behind the backslash. -/
def unescapeEscape (u : Unescape) (c : Byte) : Traced UnescapeArray Unescape :=
  if c = 0x72 then u.put 0x0D
  else if c = 0x6E then u.put 0x0A
  else if c = 0x74 then u.put 0x09
  else if c = 0x5C then u.put 0x5C
  else if c = 0x78 then unescapeHex src dstLen u
  else if u.outPos < sizeSub dstLen 2 then do
    let u ← u.put 0x5C
    u.put c
  else u.put 0x5C

/-- The body of the loop, with `c` for `*p`. -/
def unescapeRound (u : Unescape) (c : Byte) : Traced UnescapeArray Unescape :=
  if c = 0x5C then do
    let next ← readSrc src (u.p + 1)
    if next ≠ 0 then unescapeEscape src dstLen { u with p := u.p + 1 } next
    else u.put c
  else u.put c

/-- The loop. Each round writes a character, so that `dst_len` rounds are enough. -/
def unescapeLoop : Nat → Unescape → Traced UnescapeArray Unescape
  | 0, u => return u
  | rounds + 1, u => do
    let c ← readSrc src u.p
    if c ≠ 0 ∧ u.outPos < sizeSub dstLen 1 then do
      let u ← unescapeRound src dstLen u c
      unescapeLoop rounds { u with p := u.p + 1 }
    else return u

end Loop

/-- `unescape_text`: the number of characters, and the buffer of `dst_len` bytes. A null pointer
is none. -/
def unescapeText (src : Option (Nat → Byte)) (dst : Option (List Byte)) :
    Traced UnescapeArray (Nat × Option (List Byte)) :=
  match src, dst with
  | _, none => return (0, none)
  | none, some dst =>
    if dst.length = 0 then return (0, some dst)
    else do
      touch .dst 0 1
      return (0, some (dst.set 0 0))
  | some src, some dst =>
    if dst.length = 0 then return (0, some dst)
    else do
      let u ← unescapeLoop src dst.length dst.length ⟨0, 0, dst⟩
      touch .dst u.outPos 1
      return (u.outPos, some (u.dst.set u.outPos 0))

/-! ### What a text stands for -/

/-- The value of a hexadecimal digit. -/
def hexValue (c : Byte) : Option Nat :=
  if 0x30 ≤ c ∧ c ≤ 0x39 then some (c.toNat - 0x30)
  else if 0x61 ≤ c ∧ c ≤ 0x66 then some (c.toNat - 0x57)
  else if 0x41 ≤ c ∧ c ≤ 0x46 then some (c.toNat - 0x37)
  else none

/-- The byte that two hexadecimal digits stand for. -/
def hexPair : List Byte → Option Byte
  | a :: b :: _ => do
    let hi ← hexValue a
    let lo ← hexValue b
    pure (UInt8.ofNat (16 * hi + lo))
  | _ => none

/-- What `\r`, `\n`, `\t` and `\\` stand for, from the second character. -/
def controlChar (c : Byte) : Option Byte :=
  if c = 0x72 then some 0x0D
  else if c = 0x6E then some 0x0A
  else if c = 0x74 then some 0x09
  else if c = 0x5C then some 0x5C
  else none

/-- The pieces of a text: the escape sequences, and the other characters. Sequences that are none
stand for themselves. -/
def escapePiece (c : Byte) (s : List Byte) : Piece Byte :=
  if c ≠ 0x5C then ⟨0, [c]⟩
  else
    match s with
    | [] => ⟨0, [c]⟩
    | e :: t =>
      match controlChar e with
      | some d => ⟨1, [d]⟩
      | none =>
        match (if e = 0x78 then hexPair t else none) with
        | some d => ⟨3, [d]⟩
        | none => ⟨1, [c, e]⟩

/-- What a text stands for. -/
def unescaped (s : List Byte) : List Byte := decode escapePiece s

/-- The string that begins at an index. -/
def CString (src : Nat → Byte) : Nat → List Byte → Prop
  | i, [] => src i = 0
  | i, c :: s => src i = c ∧ c ≠ 0 ∧ CString src (i + 1) s

/-- The pieces, kind by kind. -/
inductive IsPiece : Byte → List Byte → Piece Byte → Prop
  | char {c : Byte} {s : List Byte} : c ≠ 0x5C → IsPiece c s ⟨0, [c]⟩
  | last : IsPiece 0x5C [] ⟨0, [0x5C]⟩
  | control {e d : Byte} {t : List Byte} : controlChar e = some d → IsPiece 0x5C (e :: t) ⟨1, [d]⟩
  | hex {d : Byte} {t : List Byte} : hexPair t = some d → IsPiece 0x5C (0x78 :: t) ⟨3, [d]⟩
  | notHex {t : List Byte} : hexPair t = none → IsPiece 0x5C (0x78 :: t) ⟨1, [0x5C, 0x78]⟩
  | other {e : Byte} {t : List Byte} : controlChar e = none → e ≠ 0x78 →
      IsPiece 0x5C (e :: t) ⟨1, [0x5C, e]⟩

theorem isPiece (c : Byte) (s : List Byte) : IsPiece c s (escapePiece c s) := by
  unfold escapePiece
  by_cases hc : c = 0x5C
  · subst hc
    rw [if_neg (by decide)]
    cases s with
    | nil => exact .last
    | cons e t =>
        dsimp only
        cases hcontrol : controlChar e with
        | some d => exact .control hcontrol
        | none =>
            by_cases he : e = 0x78
            · subst he
              simp only [if_true]
              cases hhex : hexPair t with
              | some d => exact .hex hhex
              | none => exact .notHex hhex
            · simp only [if_neg he]
              exact .other hcontrol he
  · rw [if_pos hc]
    exact .char hc

section Pieces

variable {c : Byte} {s : List Byte} {piece : Piece Byte}

theorem hexPair_eq_some {t : List Byte} {d : Byte} (h : hexPair t = some d) :
    ∃ a b rest hi lo, t = a :: b :: rest ∧ hexValue a = some hi ∧ hexValue b = some lo ∧
      d = UInt8.ofNat (16 * hi + lo) := by
  cases t with
  | nil => cases h
  | cons a t =>
      cases t with
      | nil => cases h
      | cons b rest =>
          simp only [hexPair, Option.bind_eq_bind] at h
          obtain ⟨hi, hhi, h⟩ := Option.bind_eq_some_iff.mp h
          obtain ⟨lo, hlo, h⟩ := Option.bind_eq_some_iff.mp h
          cases h
          exact ⟨a, b, rest, hi, lo, rfl, hhi, hlo, rfl⟩

theorem hexPair_eq_none {a b : Byte} {t : List Byte} (h : hexPair (a :: b :: t) = none) :
    hexValue a = none ∨ hexValue b = none := by
  cases ha : hexValue a with
  | none => exact .inl rfl
  | some hi =>
      cases hb : hexValue b with
      | none => exact .inr rfl
      | some lo =>
          rw [hexPair, ha, hb] at h
          cases h

/-- A piece is a part of the text. -/
theorem IsPiece.more_le (h : IsPiece c s piece) : piece.more ≤ s.length := by
  cases h with
  | char => exact Nat.zero_le _
  | last => exact Nat.zero_le _
  | control => simp
  | hex hhex =>
      obtain ⟨a, b, rest, hi, lo, rfl, -⟩ := hexPair_eq_some hhex
      simp
  | notHex => simp
  | other => simp

/-- A piece stands for no more characters than it has. -/
theorem IsPiece.out_le (h : IsPiece c s piece) : piece.out.length ≤ piece.more + 1 := by
  cases h with
  | char => exact Nat.le_refl _
  | last => exact Nat.le_refl _
  | control => exact Nat.le_succ _
  | hex => exact Nat.succ_le_succ (Nat.zero_le _)
  | notHex => exact Nat.le_refl _
  | other => exact Nat.le_refl _

/-- A piece stands for one character or for a pair that is no escape sequence. -/
theorem IsPiece.out_cases (h : IsPiece c s piece) :
    piece.out.length = 1 ∨ ∃ e, piece.out = [0x5C, e] := by
  cases h with
  | char => exact .inl rfl
  | last => exact .inl rfl
  | control => exact .inl rfl
  | hex => exact .inl rfl
  | notHex => exact .inr ⟨_, rfl⟩
  | other => exact .inr ⟨_, rfl⟩

/-- The pair `\x` is the one without digits. -/
theorem IsPiece.out_notHex (h : IsPiece c s piece) (hout : piece.out = [0x5C, 0x78]) :
    c = 0x5C ∧ ∃ t, s = 0x78 :: t ∧ hexPair t = none ∧ piece.more = 1 := by
  cases h with
  | char => cases hout
  | last => cases hout
  | control => cases hout
  | hex => cases hout
  | notHex hhex => exact ⟨rfl, _, rfl, hhex, rfl⟩
  | other _ he =>
      cases hout
      exact absurd rfl he

end Pieces

/-! ### One round -/

theorem sizeSub_of_le {a b : Nat} (h : b ≤ a) : sizeSub a b = a - b := if_pos h

/-- `hex_nibble` finds the value of a digit, and -1 for another character. -/
theorem hexNibble_eq (c : Byte) :
    (∀ n, hexValue c = some n → hexNibble c = n ∧ n < 16) ∧
      (hexValue c = none → hexNibble c = -1) := by
  unfold hexValue hexNibble
  simp only [UInt8.le_iff_toNat_le, UInt8.reduceToNat]
  split_ifs with hdigit hlower hupper
  · refine ⟨fun n hn => ?_, fun hn => by cases hn⟩
    cases hn
    omega
  · refine ⟨fun n hn => ?_, fun hn => by cases hn⟩
    cases hn
    omega
  · refine ⟨fun n hn => ?_, fun hn => by cases hn⟩
    cases hn
    omega
  · exact ⟨fun n hn => (by cases hn), fun _ => rfl⟩

theorem CString.drop {src : Nat → Byte} {s : List Byte} : ∀ {i k : Nat}, CString src i s →
    k ≤ s.length → CString src (i + k) (s.drop k) := by
  induction s with
  | nil =>
      intro i k h hk
      rw [Nat.le_zero.mp hk]
      exact h
  | cons c s ih =>
      intro i k h hk
      cases k with
      | zero => exact h
      | succ k =>
          rw [List.drop_succ_cons, show i + (k + 1) = i + 1 + k by omega]
          exact ih h.2.2 (Nat.le_of_succ_le_succ hk)

/-- The elements of the two arrays: the text with its NUL, and the buffer. -/
def unescapeArraySize (srcLen dstLen : Nat) : UnescapeArray → Nat
  | .src => srcLen + 1
  | .dst => dstLen

/-- The variables when `out` has been written to the buffer. -/
def writtenTo (dst : List Byte) (p : Nat) (out : List Byte) : Unescape :=
  ⟨p, out.length, out ++ dst.drop out.length⟩

/-- The accesses are in bounds, and in the end `out` has been written. -/
structure Writes (n : Nat) (dst : List Byte) (m : Traced UnescapeArray Unescape) (p : Nat)
    (out : List Byte) : Prop where
  within : Within (unescapeArraySize n dst.length) m
  value : m.value = writtenTo dst p out

section Round

variable {src : Nat → Byte} {n p : Nat} {dst out : List Byte} {c : Byte} {s : List Byte}

theorem set_writtenTo (h : out.length < dst.length) (c : Byte) :
    (out ++ dst.drop out.length).set out.length c = out ++ c :: dst.drop (out.length + 1) := by
  rw [List.set_append_right _ _ (Nat.le_refl _), Nat.sub_self,
    List.drop_eq_getElem_cons h, List.set_cons_zero]

theorem writes_put (h : out.length < dst.length) (p : Nat) (c : Byte) :
    Writes n dst ((writtenTo dst p out).put c) p (out ++ [c]) := by
  refine ⟨within_bind (within_touch h) (within_pure _), ?_⟩
  simp [Unescape.put, writtenTo, set_writtenTo h]

theorem Writes.bind {m : Traced UnescapeArray Unescape} (h : Writes n dst m p out)
    {k : Unescape → Traced UnescapeArray Unescape} {p' : Nat} {out' : List Byte}
    (hk : Writes n dst (k (writtenTo dst p out)) p' out') : Writes n dst (m >>= k) p' out' := by
  refine ⟨within_bind h.within ?_, ?_⟩
  · rw [h.value]
    exact hk.within
  · rw [value_bind, h.value]
    exact hk.value

/-- Two characters one after the other. -/
theorem writes_pair (h : out.length + 1 < dst.length) (p : Nat) (c d : Byte) :
    Writes n dst ((writtenTo dst p out).put c >>= fun u => u.put d) p (out ++ [c, d]) := by
  have hfirst := @writes_put n dst out (by omega) p c
  have hsecond := @writes_put n dst (out ++ [c]) (by simpa using h) p d
  rw [List.append_assoc] at hsecond
  exact hfirst.bind hsecond

theorem writes_read {i : Nat} (hi : i ≤ n) {m : Byte → Traced UnescapeArray Unescape}
    (h : Writes n dst (m (src i)) p out) : Writes n dst (readSrc src i >>= m) p out :=
  ⟨within_bind (within_bind (within_touch (Nat.succ_le_succ hi)) (within_pure _)) h.within,
    h.value⟩

/-- What is written of a piece when there is room for so many characters: the first half of a
pair that does not fit. The pair `\x` is said to want one character more. -/
def fitted (room : Nat) (out : List Byte) : List Byte :=
  if out.length ≤ room ∧ (out = [0x5C, 0x78] → 3 ≤ room) then out else out.take 1

theorem fitted_single (room : Nat) (hroom : 0 < room) (c : Byte) : fitted room [c] = [c] :=
  if_pos ⟨hroom, fun h => by cases h⟩

/-- `case 'x'`, with the digits `a` and `b` or what stands there. -/
theorem unescapeHex_writes (hn : p + 2 ≤ n) (hdst : 3 ≤ dst.length)
    (hroom : out.length < dst.length - 1) :
    (∀ hi lo, hexValue (src (p + 1)) = some hi → hexValue (src (p + 2)) = some lo →
      Writes n dst (unescapeHex src dst.length (writtenTo dst p out)) (p + 2)
        (out ++ [UInt8.ofNat (16 * hi + lo)])) ∧
    ((hexValue (src (p + 1)) = none ∨ hexValue (src (p + 2)) = none) →
      Writes n dst (unescapeHex src dst.length (writtenTo dst p out)) p
        (out ++ fitted (dst.length - 1 - out.length) [0x5C, 0x78])) := by
  refine ⟨fun hi lo hhi hlo => ?_, fun hnone => ?_⟩
  · obtain ⟨hhi, hhi16⟩ := (hexNibble_eq _).1 _ hhi
    obtain ⟨hlo, hlo16⟩ := (hexNibble_eq _).1 _ hlo
    have hbyte : (hi : Int).toNat <<< 4 ||| (lo : Int).toNat = 16 * hi + lo := by
      rw [Int.toNat_natCast, Int.toNat_natCast, ← Nat.shiftLeft_add_eq_or_of_lt hlo16,
        Nat.shiftLeft_eq, Nat.mul_comm]
    refine writes_read (show p + 1 ≤ n by omega) (writes_read hn ?_)
    dsimp only
    rw [hhi, hlo, if_pos ⟨Int.natCast_nonneg _, Int.natCast_nonneg _⟩, hbyte]
    have hput := @writes_put n dst out (by omega) p (UInt8.ofNat (16 * hi + lo))
    refine ⟨within_bind hput.within (within_pure _), ?_⟩
    rw [value_bind, hput.value]
    rfl
  · have hdigits : ¬ (hexNibble (src (p + 1)) ≥ 0 ∧ hexNibble (src (p + 2)) ≥ 0) := by
      rintro ⟨ha, hb⟩
      obtain hnone | hnone := hnone
      · rw [(hexNibble_eq _).2 hnone] at ha
        exact absurd ha (by decide)
      · rw [(hexNibble_eq _).2 hnone] at hb
        exact absurd hb (by decide)
    refine writes_read (show p + 1 ≤ n by omega) (writes_read hn ?_)
    dsimp only
    rw [if_neg hdigits, sizeSub_of_le hdst]
    unfold fitted
    by_cases hfits : out.length < dst.length - 3
    · rw [if_pos (show (writtenTo dst p out).outPos < dst.length - 3 from hfits),
        if_pos ⟨show 2 ≤ dst.length - 1 - out.length by omega, fun _ => by omega⟩]
      exact writes_pair (by omega) p _ _
    · rw [if_neg (show ¬ (writtenTo dst p out).outPos < dst.length - 3 from hfits),
        if_neg fun h => hfits (by have := h.2 rfl; omega)]
      exact writes_put (by omega) p _

theorem unescapeEscape_control {e d : Byte} (h : controlChar e = some d) (u : Unescape) :
    unescapeEscape src dst.length u e = u.put d := by
  unfold controlChar at h
  unfold unescapeEscape
  split_ifs at h ⊢
  all_goals
    cases h
    rfl

theorem unescapeEscape_hex (dstLen : Nat) (u : Unescape) :
    unescapeEscape src dstLen u 0x78 = unescapeHex src dstLen u := rfl

/-- A pair that is no escape sequence, and not `\x`. -/
theorem unescapeEscape_other {e : Byte} (h : controlChar e = none) (he : e ≠ 0x78)
    (hdst : 3 ≤ dst.length) (hroom : out.length < dst.length - 1) :
    Writes n dst (unescapeEscape src dst.length (writtenTo dst p out) e) p
      (out ++ fitted (dst.length - 1 - out.length) [0x5C, e]) := by
  unfold controlChar at h
  unfold unescapeEscape fitted
  split_ifs at h
  simp only [*, if_false]
  rw [sizeSub_of_le (show 2 ≤ dst.length by omega)]
  by_cases hfits : out.length < dst.length - 2
  · rw [if_pos (show (writtenTo dst p out).outPos < dst.length - 2 from hfits),
      if_pos ⟨show 2 ≤ dst.length - 1 - out.length by omega, fun heq => by
        cases heq
        exact absurd rfl he⟩]
    exact writes_pair (by omega) p _ _
  · rw [if_neg (show ¬ (writtenTo dst p out).outPos < dst.length - 2 from hfits),
      if_neg fun hle => hfits (by have : 2 ≤ dst.length - 1 - out.length := hle.1; omega)]
    exact writes_put (by omega) p _

/-- Behind a backslash, a round does what the `switch` does. -/
theorem unescapeRound_escape {e : Byte} {t : List Byte} (hstr : CString src p (0x5C :: e :: t))
    (hn : p + 1 ≤ n) {p' : Nat} {out' : List Byte}
    (h : Writes n dst (unescapeEscape src dst.length (writtenTo dst (p + 1) out) e) p' out') :
    Writes n dst (unescapeRound src dst.length (writtenTo dst p out) 0x5C) p' out' := by
  obtain ⟨-, -, he, hne, -⟩ := hstr
  unfold unescapeRound
  rw [if_pos rfl]
  refine writes_read (show p + 1 ≤ n from hn) ?_
  rw [he, if_pos hne]
  exact h

/-- A round writes the first piece, as far as it is said to fit. -/
theorem unescapeRound_writes (hstr : CString src p (c :: s)) (hn : p + (s.length + 1) = n)
    (hdst : 3 ≤ dst.length) (hroom : out.length < dst.length - 1)
    (hlook : c :: s ≠ [0x5C, 0x78]) :
    Writes n dst (unescapeRound src dst.length (writtenTo dst p out) c)
      (p + (escapePiece c s).more)
      (out ++ fitted (dst.length - 1 - out.length) (escapePiece c s).out) := by
  have hpos : 0 < dst.length - 1 - out.length := by omega
  have hput : ∀ p d, Writes n dst ((writtenTo dst p out).put d) p
      (out ++ fitted (dst.length - 1 - out.length) [d]) := by
    intro p d
    rw [fitted_single _ hpos]
    exact writes_put (by omega) p d
  have hpiece := isPiece c s
  generalize escapePiece c s = piece at hpiece ⊢
  cases hpiece with
  | char hc =>
      unfold unescapeRound
      rw [if_neg hc]
      exact hput p c
  | last =>
      unfold unescapeRound
      rw [if_pos rfl]
      refine writes_read (show p + 1 ≤ n by omega) ?_
      rw [if_neg (fun hne => hne hstr.2.2)]
      exact hput p 0x5C
  | @control e d t hcontrol =>
      refine unescapeRound_escape hstr (by omega) ?_
      rw [unescapeEscape_control hcontrol]
      exact hput (p + 1) d
  | @hex d t hhex =>
      obtain ⟨a, b, rest, hi, lo, rfl, hhi, hlo, rfl⟩ := hexPair_eq_some hhex
      simp only [List.length_cons] at hn
      refine unescapeRound_escape hstr (by omega) ?_
      obtain ⟨-, -, -, -, ha, -, hb, -⟩ := hstr
      rw [unescapeEscape_hex, fitted_single _ hpos]
      exact (unescapeHex_writes (show p + 1 + 2 ≤ n by omega) hdst hroom).1 hi lo
        (by rwa [ha]) (by rwa [hb])
  | @notHex t hhex =>
      refine unescapeRound_escape hstr (by omega) ?_
      obtain ⟨-, -, -, -, ht⟩ := hstr
      rw [unescapeEscape_hex]
      cases t with
      | nil => exact absurd rfl hlook
      | cons a t =>
          simp only [List.length_cons] at hn
          refine (unescapeHex_writes (show p + 1 + 2 ≤ n by omega) hdst hroom).2 ?_
          rw [ht.1]
          cases t with
          | nil =>
              right
              rw [ht.2.2]
              rfl
          | cons b t =>
              rw [ht.2.2.1]
              exact hexPair_eq_none hhex
  | @other e t hcontrol he =>
      exact unescapeRound_escape hstr (by omega) (unescapeEscape_other hcontrol he hdst hroom)

/-- At the end of a text, `\x` makes the code look behind the NUL. -/
theorem unescapeRound_overread (hstr : CString src p [0x5C, 0x78]) (u : Unescape) (hu : u.p = p)
    (dstLen : Nat) :
    ¬ Within (unescapeArraySize (p + 2) dstLen) (unescapeRound src dstLen u 0x5C) := by
  obtain ⟨-, -, hx, hne, -⟩ := hstr
  intro h
  rw [← hu] at hx h
  unfold unescapeRound at h
  rw [if_pos rfl] at h
  have hescape := (within_bind_iff.mp h).2
  have hread : (readSrc src (u.p + 1)).value = 0x78 := hx
  rw [hread, if_pos hne, unescapeEscape_hex] at hescape
  have hrest := (within_bind_iff.mp hescape).2
  have hlook := (within_bind_iff.mp (within_bind_iff.mp hrest).1).1
  have hle := (@within_touch_iff _ (unescapeArraySize (u.p + 2) dstLen) .src (u.p + 1 + 2) 1).mp
    hlook
  simp only [unescapeArraySize] at hle
  omega

end Round

/-! ### The loop -/

/-- What the loop writes when there is room for so many characters, after `skip` characters of the
text. None when it looks behind the end. -/
def copyFrom : Nat → Nat → List Byte → Option (List Byte)
  | _, _, [] => some []
  | skip + 1, room, _ :: s => copyFrom skip room s
  | 0, room, c :: s =>
    if room = 0 then some []
    else if c :: s = [0x5C, 0x78] then none
    else
      let out := fitted room (escapePiece c s).out
      (copyFrom (escapePiece c s).more (room - out.length) s).map (out ++ ·)

theorem copyFrom_eq (skip room : Nat) (s : List Byte) :
    copyFrom skip room s = copyFrom 0 room (s.drop skip) := by
  induction s generalizing skip with
  | nil => simp [copyFrom]
  | cons c s ih =>
      cases skip with
      | zero => rfl
      | succ skip => exact ih skip

theorem copyFrom_zero (s : List Byte) : copyFrom 0 0 s = some [] := by
  cases s with
  | nil => rfl
  | cons c s => exact if_pos rfl

theorem copyFrom_cons {room : Nat} (hroom : 0 < room) {c : Byte} {s : List Byte}
    (hlook : c :: s ≠ [0x5C, 0x78]) :
    copyFrom 0 room (c :: s) =
      (copyFrom 0 (room - (fitted room (escapePiece c s).out).length)
        (s.drop (escapePiece c s).more)).map (fitted room (escapePiece c s).out ++ ·) := by
  rw [copyFrom, if_neg (Nat.pos_iff_ne_zero.mp hroom), if_neg hlook, ← copyFrom_eq]

theorem fitted_length {room : Nat} (hroom : 0 < room) {c : Byte} {s : List Byte} :
    0 < (fitted room (escapePiece c s).out).length ∧
      (fitted room (escapePiece c s).out).length ≤ room := by
  unfold fitted
  have hout := (isPiece c s).out_cases
  split_ifs with hfits
  · refine ⟨?_, hfits.1⟩
    obtain hone | ⟨e, he⟩ := hout
    · omega
    · simp [he]
  · obtain hone | ⟨e, he⟩ := hout
    · rw [List.length_take]
      omega
    · simp only [he, List.take_succ_cons, List.take_zero, List.length_singleton]
      omega

/-- With a character to read and room for one, there is a round. -/
theorem unescapeLoop_round {src : Nat → Byte} {dst : List Byte} (hdst : 3 ≤ dst.length) {p : Nat}
    {out s : List Byte} {c : Byte} (hstr : CString src p (c :: s))
    (hroom : out.length < dst.length - 1) (rounds : Nat) :
    unescapeLoop src dst.length (rounds + 1) (writtenTo dst p out) = (do
      let _ ← readSrc src p
      let u ← unescapeRound src dst.length (writtenTo dst p out) c
      unescapeLoop src dst.length rounds { u with p := u.p + 1 }) := by
  obtain ⟨hc, hne, -⟩ := hstr
  have hgo : src p ≠ 0 ∧ (writtenTo dst p out).outPos < dst.length - 1 := ⟨hc ▸ hne, hroom⟩
  rw [unescapeLoop, sizeSub_of_le (show 1 ≤ dst.length by omega)]
  change (readSrc src p >>= fun _ => if src p ≠ 0 ∧
    (writtenTo dst p out).outPos < dst.length - 1 then
      unescapeRound src dst.length (writtenTo dst p out) (src p) >>= _ else _) = _
  rw [if_pos hgo, hc]

/-- The loop writes what is said, or looks behind the end of the text. -/
theorem unescapeLoop_spec {src : Nat → Byte} {dst : List Byte} (hdst : 3 ≤ dst.length) {n : Nat}
    (rounds : Nat) : ∀ {p : Nat} {out s : List Byte}, CString src p s → p + s.length = n →
      out.length ≤ dst.length - 1 → dst.length - 1 - out.length < rounds →
      match copyFrom 0 (dst.length - 1 - out.length) s with
      | some more => ∃ p', Writes n dst
          (unescapeLoop src dst.length rounds (writtenTo dst p out)) p' (out ++ more)
      | none => ¬ Within (unescapeArraySize n dst.length)
          (unescapeLoop src dst.length rounds (writtenTo dst p out)) := by
  induction rounds with
  | zero =>
      intro p out s _ _ _ hrounds
      exact absurd hrounds (Nat.not_lt_zero _)
  | succ rounds ih =>
      intro p out s hstr hn hout hrounds
      have hdone : Writes n dst (pure (writtenTo dst p out)) p (out ++ []) :=
        ⟨within_pure _, by rw [List.append_nil]; rfl⟩
      cases s with
      | nil =>
          rw [unescapeLoop]
          refine ⟨p, writes_read (Nat.le_of_eq hn) ?_⟩
          rw [if_neg fun h => h.1 hstr]
          exact hdone
      | cons c s =>
          rw [List.length_cons] at hn
          have hp : p ≤ n := by omega
          by_cases hroom : out.length < dst.length - 1
          · rw [unescapeLoop_round hdst hstr hroom]
            by_cases hlook : c :: s = [0x5C, 0x78]
            · -- the round looks behind the end, whatever comes after it
              cases hlook
              rw [copyFrom, if_neg (by omega), if_pos rfl]
              intro h
              have hround := (within_bind_iff.mp (within_bind_iff.mp h).2).1
              rw [← hn] at hround
              exact unescapeRound_overread hstr _ rfl _ hround
            · have hround := unescapeRound_writes hstr hn hdst hroom hlook
              obtain ⟨hsome, hfits⟩ :=
                @fitted_length (dst.length - 1 - out.length) (by omega) c s
              have hmore := (isPiece c s).more_le
              rw [copyFrom_cons (by omega) hlook]
              set piece := escapePiece c s with hpiece
              set text := fitted (dst.length - 1 - out.length) piece.out with htext
              have hroom' : dst.length - 1 - (out ++ text).length =
                  dst.length - 1 - out.length - text.length := by
                rw [List.length_append]
                omega
              have hnext := @ih (p + piece.more + 1) (out ++ text) (s.drop piece.more)
                (by
                  rw [Nat.add_right_comm]
                  exact hstr.2.2.drop hmore)
                (by
                  rw [List.length_drop]
                  omega)
                (by
                  rw [List.length_append]
                  omega)
                (by omega)
              rw [hroom'] at hnext
              cases hcopy : copyFrom 0 (dst.length - 1 - out.length - text.length)
                  (s.drop piece.more) with
              | some more =>
                  rw [hcopy] at hnext
                  obtain ⟨p', hloop⟩ := hnext
                  rw [List.append_assoc] at hloop
                  exact ⟨p', writes_read hp (hround.bind hloop)⟩
              | none =>
                  rw [hcopy] at hnext
                  intro h
                  have hloop := (within_bind_iff.mp (within_bind_iff.mp h).2).2
                  rw [hround.value] at hloop
                  exact hnext hloop
          · have hzero : dst.length - 1 - out.length = 0 := by omega
            rw [hzero, copyFrom_zero]
            rw [unescapeLoop, sizeSub_of_le (show 1 ≤ dst.length by omega)]
            refine ⟨p, writes_read hp ?_⟩
            rw [if_neg fun h => hroom h.2]
            exact hdone

/-! ### As much as fits -/

/-- A text that is copied as it should be when there is room for so many characters: no `\x` at its
end is reached, and a `\x` without digits does not fill the room; unless an `x` comes next. -/
structure PiecesFit (s : List Byte) (room : Nat) : Prop where
  tail : ∀ out, Cut escapePiece s out [0x5C, 0x78] → room ≤ out.length
  pair : ∀ out rest, Cut escapePiece s out (0x5C :: 0x78 :: rest) → hexPair rest = none →
    out.length + 2 = room → (unescaped rest).head? = some 0x78

section Copy

variable {room : Nat} {c : Byte} {s : List Byte}

theorem piecesFit_zero (s : List Byte) : PiecesFit s 0 :=
  ⟨fun _ _ => Nat.zero_le _, fun _ _ _ _ h => absurd h (Nat.succ_ne_zero _)⟩

theorem piecesFit_nil (room : Nat) : PiecesFit [] room := by
  refine ⟨fun out h => ?_, fun out rest h => ?_⟩
  · cases (cut_nil_iff.mp h).2
  · cases (cut_nil_iff.mp h).2

/-- What there is to see at the first piece, and what at the rest. -/
theorem piecesFit_cons_iff (hroom : 0 < room) :
    PiecesFit (c :: s) room ↔ c :: s ≠ [0x5C, 0x78] ∧
      ((escapePiece c s).out = [0x5C, 0x78] → room = 2 →
        (unescaped (s.drop (escapePiece c s).more)).head? = some 0x78) ∧
      ((escapePiece c s).out.length ≤ room →
        PiecesFit (s.drop (escapePiece c s).more) (room - (escapePiece c s).out.length)) := by
  constructor
  · intro h
    refine ⟨fun heq => ?_, fun hout htwo => ?_, fun hle => ⟨fun out hcut => ?_,
      fun out rest hcut hhex hfull => ?_⟩⟩
    · have := h.tail [] (heq ▸ .here _)
      rw [List.length_nil] at this
      omega
    · obtain ⟨rfl, t, rfl, hhex, hmore⟩ := (isPiece c s).out_notHex hout
      rw [hmore]
      exact h.pair [] t (.here _) hhex htwo.symm
    · have := h.tail _ (.later hcut)
      rw [List.length_append] at this
      omega
    · refine h.pair _ rest (.later hcut) hhex ?_
      rw [List.length_append]
      omega
  · rintro ⟨hlook, hpair, hrest⟩
    refine ⟨fun out hcut => ?_, fun out rest hcut hhex hfull => ?_⟩
    · obtain ⟨-, heq⟩ | ⟨more, rfl, hmore⟩ := cut_cons_iff.mp hcut
      · exact absurd heq.symm hlook
      · rw [List.length_append]
        by_cases hle : (escapePiece c s).out.length ≤ room
        · have := (hrest hle).tail more hmore
          omega
        · omega
    · obtain ⟨rfl, heq⟩ | ⟨more, rfl, hmore⟩ := cut_cons_iff.mp hcut
      · cases heq
        have hpiece : escapePiece 0x5C (0x78 :: rest) = ⟨1, [0x5C, 0x78]⟩ := by
          simp [escapePiece, controlChar, hhex]
        rw [hpiece] at hpair
        exact hpair rfl hfull.symm
      · rw [List.length_append] at hfull
        exact (hrest (by omega)).pair more rest hmore hhex (by omega)

/-- A text shorter than the room is copied as it should be unless a `\x` is left at its end. So it
is for a beacon, whose text is a value of the configuration, and whose buffer has 256 bytes. -/
theorem piecesFit_short (hshort : s.length < room) :
    PiecesFit s room ↔ ∀ out, ¬ Cut escapePiece s out [0x5C, 0x78] := by
  have hlen : ∀ {out rest}, Cut escapePiece s out rest → out.length + rest.length ≤ s.length :=
    Cut.length_le fun c s => ⟨(isPiece c s).more_le, (isPiece c s).out_le⟩
  constructor
  · intro h out hcut
    have := h.tail out hcut
    have := hlen hcut
    omega
  · intro h
    refine ⟨fun out hcut => absurd hcut (h out), fun out rest hcut _ hfull => ?_⟩
    have := hlen hcut
    simp only [List.length_cons] at this
    omega

theorem copyFrom_length (s : List Byte) : ∀ {room : Nat} {text : List Byte},
    copyFrom 0 room s = some text → text.length ≤ room := by
  induction s using Pieces.induction escapePiece with
  | nil =>
      intro room text h
      cases h
      exact Nat.zero_le _
  | cons c s ih =>
      intro room text h
      by_cases hroom : 0 < room
      · by_cases hlook : c :: s = [0x5C, 0x78]
        · rw [copyFrom, if_neg (by omega), if_pos hlook] at h
          cases h
        · rw [copyFrom_cons hroom hlook] at h
          obtain ⟨more, hmore, rfl⟩ := Option.map_eq_some_iff.mp h
          have hle := ih hmore
          have := (@fitted_length room hroom c s).2
          rw [List.length_append]
          omega
      · obtain rfl : room = 0 := by omega
        rw [copyFrom_zero] at h
        cases h
        exact Nat.zero_le _

theorem unescaped_cons (c : Byte) (s : List Byte) : unescaped (c :: s) =
    (escapePiece c s).out ++ unescaped (s.drop (escapePiece c s).more) := decode_cons c s

/-- When there is room for one more character, that one is right. -/
theorem copyFrom_one {s : List Byte} (hlook : s ≠ [0x5C, 0x78]) :
    copyFrom 0 1 s = some ((unescaped s).take 1) := by
  cases s with
  | nil => rfl
  | cons c s =>
      obtain ⟨hsome, hone⟩ := @fitted_length 1 Nat.one_pos c s
      have hfitted : fitted 1 (escapePiece c s).out = (escapePiece c s).out.take 1 := by
        unfold fitted
        split_ifs with hkeep
        · exact (List.take_of_length_le hkeep.1).symm
        · rfl
      have hne : (escapePiece c s).out ≠ [] := by
        rintro hnil
        rw [hfitted, hnil] at hsome
        exact absurd hsome (Nat.lt_irrefl 0)
      obtain ⟨d, out, hd⟩ := List.exists_cons_of_ne_nil hne
      rw [copyFrom_cons Nat.one_pos hlook, hfitted, unescaped_cons, hd]
      exact congrArg (Option.map _) (copyFrom_zero _)

/-- With half of the pair, one more character of the rest is written. -/
theorem half_pair_iff {rest : List Byte} :
    (copyFrom 0 (2 - 1) rest).map ([0x5C] ++ ·) = some (([0x5C, 0x78] ++ unescaped rest).take 2) ↔
      (unescaped rest).head? = some 0x78 := by
  by_cases hlook : rest = [0x5C, 0x78]
  · subst hlook
    exact iff_of_false (by decide) (by decide)
  · rw [copyFrom_one hlook]
    cases unescaped rest with
    | nil => simp
    | cons d text => simp

/-- The copy is the beginning of what the text stands for exactly when the pieces fit. -/
theorem copyFrom_eq_iff (s : List Byte) : ∀ {room : Nat},
    copyFrom 0 room s = some ((unescaped s).take room) ↔ PiecesFit s room := by
  induction s using Pieces.induction escapePiece with
  | nil =>
      intro room
      exact iff_of_true (by simp [copyFrom, unescaped]) (piecesFit_nil room)
  | cons c s ih =>
      intro room
      obtain hzero | hroom := Nat.eq_zero_or_pos room
      · subst hzero
        rw [copyFrom_zero, List.take_zero]
        exact iff_of_true rfl (piecesFit_zero _)
      · rw [piecesFit_cons_iff hroom]
        by_cases hlook : c :: s = [0x5C, 0x78]
        · rw [copyFrom, if_neg (by omega), if_pos hlook]
          exact iff_of_false (fun h => by cases h) fun h => h.1 hlook
        · rw [copyFrom_cons hroom hlook, unescaped_cons]
          have hout := (isPiece c s).out_cases
          generalize escapePiece c s = piece at ih hout ⊢
          generalize s.drop piece.more = rest at ih ⊢
          by_cases hkeep : piece.out.length ≤ room ∧ (piece.out = [0x5C, 0x78] → 3 ≤ room)
          · -- the piece is written as a whole
            rw [fitted, if_pos hkeep, List.take_append, List.take_of_length_le hkeep.1,
              Option.map_eq_some_iff]
            simp only [List.append_cancel_left_eq, exists_eq_right]
            rw [ih]
            refine ⟨fun h => ⟨hlook, fun hx htwo => ?_, fun _ => h⟩, fun h => h.2.2 hkeep.1⟩
            have := hkeep.2 hx
            omega
          · obtain ⟨e, he⟩ : ∃ e, piece.out = [0x5C, e] := by
              refine hout.resolve_left fun hone => hkeep ⟨by omega, fun hx => ?_⟩
              rw [hx] at hone
              cases hone
            rw [fitted, if_neg hkeep, he]
            rw [he] at hkeep
            simp only [List.take_succ_cons, List.take_zero, List.length_singleton]
            by_cases hone : room = 1
            · -- half of the pair fills the room
              subst hone
              rw [copyFrom_zero]
              exact iff_of_true rfl ⟨hlook, fun _ h2 => absurd h2 (by decide),
                fun hle => absurd hle (by simp)⟩
            · -- the `\x` fits, and its second half is left out
              have hx : e = 0x78 ∧ room < 3 := by
                by_contra hnot
                refine hkeep ⟨by simp only [List.length_cons, List.length_nil]; omega, ?_⟩
                rintro ⟨⟩
                by_contra hfew
                exact hnot ⟨rfl, by omega⟩
              obtain ⟨rfl, rfl⟩ : e = 0x78 ∧ room = 2 := ⟨hx.1, by omega⟩
              rw [half_pair_iff]
              refine ⟨fun h => ⟨hlook, fun _ _ => h, fun _ => piecesFit_zero _⟩, fun h => ?_⟩
              exact h.2.1 rfl rfl

end Copy

/-! ### The buffer -/

/-- What is left in a buffer when a text and a NUL have been written to it. -/
def filled (dst text : List Byte) : List Byte := text ++ 0 :: dst.drop (text.length + 1)

/-- What is wanted of `unescape_text`: no access is outside of the text with its NUL or outside of
the buffer; it writes as much of what the text stands for as fits in front of a NUL, and returns
how much it was. -/
structure UnescapesText (src : Nat → Byte) (s dst : List Byte) : Prop where
  within : Within (unescapeArraySize s.length dst.length) (unescapeText (some src) (some dst))
  value : (unescapeText (some src) (some dst)).value =
    (((unescaped s).take (dst.length - 1)).length,
      some (filled dst ((unescaped s).take (dst.length - 1))))

section Buffer

variable {src : Nat → Byte} {s dst : List Byte}

/-- The whole call, from the loop. -/
theorem unescapeText_spec (hstr : CString src 0 s) (hdst : 3 ≤ dst.length) :
    match copyFrom 0 (dst.length - 1) s with
    | some text =>
      Within (unescapeArraySize s.length dst.length) (unescapeText (some src) (some dst)) ∧
        (unescapeText (some src) (some dst)).value = (text.length, some (filled dst text))
    | none =>
      ¬ Within (unescapeArraySize s.length dst.length) (unescapeText (some src) (some dst)) := by
  have hloop := @unescapeLoop_spec src dst hdst s.length dst.length 0 [] s hstr (Nat.zero_add _)
    (Nat.zero_le _) (by rw [List.length_nil]; omega)
  rw [List.length_nil, Nat.sub_zero] at hloop
  unfold unescapeText
  dsimp only
  rw [if_neg (by omega)]
  cases hcopy : copyFrom 0 (dst.length - 1) s with
  | none =>
      rw [hcopy] at hloop
      exact fun h => hloop (within_bind_iff.mp h).1
  | some text =>
      rw [hcopy] at hloop
      obtain ⟨p, hwithin, hvalue⟩ := hloop
      have hlen := copyFrom_length s hcopy
      rw [List.nil_append] at hvalue
      change (unescapeLoop src dst.length dst.length ⟨0, 0, dst⟩).value = _ at hvalue
      refine ⟨within_bind hwithin (within_bind (within_touch ?_) (within_pure _)), ?_⟩
      · rw [hvalue]
        exact show text.length + 1 ≤ dst.length by omega
      · rw [value_bind, hvalue]
        refine Prod.ext rfl (congrArg some ?_)
        exact set_writtenTo (show text.length < dst.length by omega) 0

/-- For every text and every buffer of three bytes or more: the text is copied as it should be
exactly when its pieces fit. -/
theorem unescapeText_iff (hstr : CString src 0 s) (hdst : 3 ≤ dst.length) :
    UnescapesText src s dst ↔ PiecesFit s (dst.length - 1) := by
  have hspec := unescapeText_spec hstr hdst
  rw [← copyFrom_eq_iff]
  cases hcopy : copyFrom 0 (dst.length - 1) s with
  | none =>
      rw [hcopy] at hspec
      exact iff_of_false (fun h => hspec h.within) fun h => by cases h
  | some text =>
      rw [hcopy] at hspec
      obtain ⟨hwithin, hvalue⟩ := hspec
      constructor
      · intro h
        have hsame := hvalue.symm.trans h.value
        rw [Prod.mk.injEq, Option.some.injEq, filled, filled] at hsame
        exact congrArg some (List.append_inj hsame.2 hsame.1).1
      · intro h
        cases h
        exact ⟨hwithin, hvalue⟩

end Buffer

/-! ### A beacon, and a lone `\x` -/

/-- A string in memory, with zeros behind it. -/
def stringMemory (s : List Byte) : Nat → Byte := fun i => s.getD i 0

/-- The text `Hi\r` with a carriage return at its end, in a buffer of eight bytes. -/
theorem unescapeText_greeting :
    UnescapesText (stringMemory [0x48, 0x69, 0x5C, 0x72]) [0x48, 0x69, 0x5C, 0x72]
      (List.replicate 8 0xFF) := by
  refine (unescapeText_iff (by simp [CString, stringMemory]) (by decide)).mpr ?_
  refine (piecesFit_short (by decide)).mpr fun out hcut => ?_
  have hend : ([0x5C, 0x78] : List Byte) <:+ [0x48, 0x69, 0x5C, 0x72] := hcut.suffix
  revert hend
  decide

/-- Of `\xZZ` in a buffer of three bytes, the `x` is lost. -/
example : (unescapeText (some (stringMemory [0x5C, 0x78, 0x5A, 0x5A])) (some [0, 0, 0])).value =
    (2, some [0x5C, 0x5A, 0]) := by
  decide

/-- At a lone `\x`, the byte behind the NUL is read. -/
theorem lone_hex_overread :
    ¬ ∀ (src : Nat → Byte) (s dst : List Byte), CString src 0 s → 3 ≤ dst.length →
      UnescapesText src s dst := by
  intro h
  have hin := (h (stringMemory [0x5C, 0x78]) [0x5C, 0x78] [0, 0, 0] (by
    simp [CString, stringMemory]) (by decide)).within ⟨.src, 3, 1⟩ (by decide)
  revert hin
  decide

end EspAx25
