import Mathlib.Algebra.Group.Int.Defs
import Mathlib.Data.List.DropRight
import EspAx25.Agwpe.Wire
import EspAx25.Codec

/-!
# EspAx25.Agwpe.Callsign

Callsigns as text: `ax25_address_to_string` and `ax25_address_from_string`
(`ax25_address.c`), and the 10-byte fields of AGWPE frames that hold them
(`ax25_agwpe.c`).

A C string is the list of its characters, without the NUL. `isspace` and
`toupper` are those of the C locale, and `int` and `long` have 32 bits.
-/

namespace EspAx25

open Memory

/-- `AX25_MAX_CALLSIGN_LEN`. -/
def maxCallsignLen : Nat := 6

/-! ### Addresses as text -/

/-- What `%d` prints. -/
def decimal (n : Nat) : List Byte := (Nat.toDigits 10 n).map fun c => UInt8.ofNat c.toNat

theorem decimal_length {n k : Nat} (hk : 0 < k) (h : n < 10 ^ k) : (decimal n).length ≤ k := by
  rw [decimal, List.length_map]
  exact (Nat.length_toDigits_le_iff (by decide) hk).mpr h

/-- `ax25_address_to_string`: the string in `buf`, which `snprintf` cuts to its size. -/
def addressToString (addr : Address) (bufLen : Nat) : Except EspErr (List Byte) :=
  if addr.ssid = 0 then
    let requiredLen := addr.callsign.length + 1
    if bufLen < requiredLen then .error .invalidSize
    else .ok (addr.callsign.take (bufLen - 1))
  else
    let requiredLen := addr.callsign.length + 1 + 2 + 1
    if bufLen < requiredLen then .error .invalidSize
    else .ok ((addr.callsign ++ 0x2D :: decimal addr.ssid.toNat).take (bufLen - 1))

/-- `isspace`. -/
def isSpace (c : Byte) : Bool := c = 0x20 || (0x09 ≤ c && c ≤ 0x0D)

/-- `isdigit`. -/
def isDigit (c : Byte) : Bool := 0x30 ≤ c && c ≤ 0x39

/-- The value of the digits that a string starts with. -/
def digitsValue (s : List Byte) : Int :=
  (s.takeWhile isDigit).foldl (fun n c => 10 * n + (c.toNat - 0x30)) (0 : Nat)

/-- A sign, and as many digits as there are. -/
def signedValue : List Byte → Int
  | [] => 0
  | c :: s =>
    if c = 0x2D then - digitsValue s else if c = 0x2B then digitsValue s else digitsValue (c :: s)

/-- `atoi`, which stops at the largest and the smallest `long`, as `strtol` does. -/
def atoi (s : List Byte) : Int :=
  max (- 2 ^ 31) (min (signedValue (s.dropWhile isSpace)) (2 ^ 31 - 1))

/-- `ax25_address_from_string`. After an error the address is what has been filled in
so far. -/
def addressFromString (callsignSsid : List Byte) : EspErr × Address :=
  let callsign := callsignSsid.takeWhile (· ≠ 0x2D)
  -- `dash_pos`
  match callsignSsid.dropWhile (· ≠ 0x2D) with
  | _ :: ssidStr =>
    if callsign.length > maxCallsignLen then (.invalidArg, {})
    else
      let addr : Address := { callsign := callsign.map toUpper }
      let ssid := atoi ssidStr
      if ssid < 0 ∨ ssid > 15 then (.invalidArg, addr)
      else (.ok, { addr with ssid := UInt8.ofNat ssid.toNat })
  | [] =>
    if callsign.length > maxCallsignLen then (.invalidArg, {})
    else (.ok, { callsign := callsign.map toUpper })

/-! ### The fields of AGWPE frames -/

/-- `agwpe_set_callsign`. -/
def agwpeSetCallsign (call : List Byte) : Fin agwpeCallsignLen → Byte :=
  fill agwpeCallsignLen 0 (call.take (agwpeCallsignLen - 1))

/-- `agwpe_get_callsign`. -/
def agwpeGetCallsign (src : Fin agwpeCallsignLen → Byte) : List Byte :=
  (List.ofFn src).takeWhile (· ≠ 0)

/-- `ax25_addr_to_agwpe_call`. The string fits in the buffer of any address: the
callsign has at most 6 characters. -/
def ax25AddrToAgwpeCall (addr : Address) : Fin agwpeCallsignLen → Byte :=
  agwpeSetCallsign ((addressToString addr agwpeCallsignLen).toOption.getD [])

/-- A field gives back the callsign that was put into it, if it has at most 9
characters. -/
theorem agwpeGetCallsign_set {call : List Byte} (hlen : call.length < agwpeCallsignLen)
    (hnul : 0 ∉ call) : agwpeGetCallsign (agwpeSetCallsign call) = call := by
  unfold agwpeGetCallsign agwpeSetCallsign
  rw [List.take_of_length_le (Nat.le_sub_one_of_lt hlen)]
  exact takeWhile_ofFn_fill (by decide) (fun c hc => decide_eq_true fun h => hnul (h ▸ hc))
    (Nat.le_of_lt hlen)

/-! ### Reading numbers -/

theorem digitsValue_append_spaces (s : List Byte) (k : Nat) :
    digitsValue (s ++ List.replicate k 0x20) = digitsValue s := by
  have hspaces : (List.replicate k (0x20 : Byte)).takeWhile isDigit = [] := by
    cases k with
    | zero => rfl
    | succ k => rfl
  have htake : (s ++ List.replicate k 0x20).takeWhile isDigit = s.takeWhile isDigit := by
    rw [List.takeWhile_append, hspaces, List.append_nil]
    split_ifs with hall
    · exact ((List.takeWhile_prefix _).eq_of_length hall).symm
    · rfl
  rw [digitsValue, htake, digitsValue]

/-- Spaces after a number do not change it. -/
theorem atoi_append_spaces (s : List Byte) (k : Nat) :
    atoi (s ++ List.replicate k 0x20) = atoi s := by
  have hdrop : (List.replicate k (0x20 : Byte)).dropWhile isSpace = [] := by
    rw [List.dropWhile_eq_nil_iff]
    intro c hc
    rw [List.eq_of_mem_replicate hc]
    rfl
  have hsigned : signedValue ((s ++ List.replicate k 0x20).dropWhile isSpace) =
      signedValue (s.dropWhile isSpace) := by
    rw [List.dropWhile_append, hdrop]
    cases s.dropWhile isSpace with
    | nil => rfl
    | cons c t =>
        simp only [List.isEmpty_cons, Bool.false_eq_true, if_false, List.cons_append, signedValue,
          digitsValue_append_spaces]
        rw [← List.cons_append, digitsValue_append_spaces]
  rw [atoi, hsigned, atoi]

/-! ### The dash -/

theorem all_ne_dash {callsign : List Byte} (h : 0x2D ∉ callsign) :
    ∀ c ∈ callsign, decide (c ≠ 0x2D) = true :=
  fun _ hc => decide_eq_true fun heq => h (heq ▸ hc)

/-- A string is read in two parts, split at its first dash. -/
theorem addressFromString_dash {callsign : List Byte} (h : 0x2D ∉ callsign) (ssidStr : List Byte) :
    addressFromString (callsign ++ 0x2D :: ssidStr) =
      if callsign.length > maxCallsignLen then (.invalidArg, {})
      else if atoi ssidStr < 0 ∨ atoi ssidStr > 15 then
        (.invalidArg, { callsign := callsign.map toUpper })
      else
        (.ok,
          { callsign := callsign.map toUpper, ssid := UInt8.ofNat (atoi ssidStr).toNat }) := by
  have hne := all_ne_dash h
  unfold addressFromString
  rw [List.takeWhile_append_of_pos hne, List.dropWhile_append_of_pos hne]
  simp only [ne_eq, not_true_eq_false, decide_false, Bool.false_eq_true, not_false_eq_true,
    List.takeWhile_cons_of_neg, List.dropWhile_cons_of_neg, List.append_nil]

/-- A string without a dash is a callsign. -/
theorem addressFromString_no_dash {callsign : List Byte} (h : 0x2D ∉ callsign) :
    addressFromString callsign =
      if callsign.length > maxCallsignLen then (.invalidArg, {})
      else (.ok, { callsign := callsign.map toUpper }) := by
  have hne := all_ne_dash h
  unfold addressFromString
  rw [List.takeWhile_eq_self_iff.mpr hne, List.dropWhile_eq_nil_iff.mpr hne]

end EspAx25
