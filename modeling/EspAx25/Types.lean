import Mathlib.Data.List.Basic

/-!
# EspAx25.Types

The shared data model of the stack (`include/ax25_types.h`): addresses, frames
and the control-byte constants.

A C array with a separate count is a `List` here: the digipeater array with
`num_digipeaters`, the payload with `payload_len`, and the callsign up to its
terminating NUL. Everything that the code does with the count (`num > 8`,
`len > 256`) is then a test of the list's length.
-/

namespace EspAx25

/-- A byte on the wire. -/
abbrev Byte := UInt8

/-- A property of all bytes can be checked byte by byte. -/
theorem forall_byte {p : Byte → Prop} (h : ∀ n < 256, p (UInt8.ofNat n)) (c : Byte) : p c := by
  have := h c.toNat c.toNat_lt
  rwa [UInt8.ofNat_toNat] at this

/-- The `esp_err_t` codes that the modelled functions return or report. -/
inductive EspErr
  | ok
  | noMem
  | invalidArg
  | invalidState
  | invalidSize
  | invalidResponse
  | timeout
  | notAllowed
  | notFound
  deriving Repr, DecidableEq

/-- `AX25_MAX_DIGIPEATERS`. -/
def maxDigipeaters : Nat := 8

/-- `AX25_MAX_INFO_LEN`. -/
def maxInfoLen : Nat := 256

/-- `AX25_ADDRESS_LEN`. -/
def addressLen : Nat := 7

/-- `AX25_BUFFER_SIZE`: 338 bytes. -/
def bufferSize : Nat := addressLen * (2 + maxDigipeaters) + 2 + maxInfoLen + 10

/-- `AX25_PID_NONE`. -/
def pidNone : Byte := 0xF0

/-! ### Control bytes -/

/-- `AX25_CTRL_UI`. -/
def ctrlUi : Byte := 0x03
/-- `AX25_CTRL_SABM`. -/
def ctrlSabm : Byte := 0x2F
/-- `AX25_CTRL_DISC`. -/
def ctrlDisc : Byte := 0x43
/-- `AX25_CTRL_DM`. -/
def ctrlDm : Byte := 0x0F
/-- `AX25_CTRL_UA`. -/
def ctrlUa : Byte := 0x63
/-- `AX25_CTRL_FRMR`. -/
def ctrlFrmr : Byte := 0x87
/-- `AX25_CTRL_RR_MASK`. -/
def ctrlRr : Byte := 0x01
/-- `AX25_CTRL_RNR_MASK`. -/
def ctrlRnr : Byte := 0x05
/-- `AX25_CTRL_REJ_MASK`. -/
def ctrlRej : Byte := 0x09
/-- `AX25_CTRL_PF_BIT`. -/
def ctrlPfBit : Byte := 0x10

/-! ### Addresses and frames -/

/-- `ax25_address_t`. The callsign is the C string, without its NUL. The
default value is the address after `memset(addr, 0, ...)`. -/
structure Address where
  callsign : List Byte := []
  ssid : Byte := 0
  hasBeenRepeated : Bool := false
  isLast : Bool := false
  deriving Repr, DecidableEq, Inhabited

/-- `ax25_address_equals`: callsign and SSID only, not the two flag bits. -/
def addressEquals (a b : Address) : Bool :=
  a.callsign == b.callsign && a.ssid == b.ssid

/-- `ax25_frame_type_t`. -/
inductive FrameType
  | ui
  | i
  | s
  | u
  | unknown
  deriving Repr, DecidableEq

/-- `ax25_frame_t`. The `type` is a field of its own: a caller of the
connection layer may hand in a frame whose type and control byte disagree. -/
structure Frame where
  destination : Address
  source : Address
  digipeaters : List Address
  isCommand : Bool
  type : FrameType
  control : Byte
  pid : Byte
  payload : List Byte
  deriving Repr, DecidableEq

/-! ### Address equality is an equivalence -/

@[simp] theorem addressEquals_refl (a : Address) : addressEquals a a = true := by
  simp [addressEquals]

theorem addressEquals_iff {a b : Address} :
    addressEquals a b = true ↔ a.callsign = b.callsign ∧ a.ssid = b.ssid := by
  simp [addressEquals]

theorem addressEquals_symm {a b : Address} (h : addressEquals a b = true) :
    addressEquals b a = true := by
  rw [addressEquals_iff] at h ⊢
  exact ⟨h.1.symm, h.2.symm⟩

theorem addressEquals_trans {a b c : Address} (h : addressEquals a b = true)
    (h' : addressEquals b c = true) : addressEquals a c = true := by
  rw [addressEquals_iff] at h h' ⊢
  exact ⟨h.1.trans h'.1, h.2.trans h'.2⟩

end EspAx25
