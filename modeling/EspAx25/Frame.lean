import EspAx25.Types

/-!
# EspAx25.Frame

The control-byte helpers of `ax25_frame.c`: building the control byte of an
I or S frame from its sequence numbers and reading them back.

The connection layer only ever meets a sequence number through one of these
functions, so the bit arithmetic is discharged once, by the `extract_build`
lemmas at the end of the file.
-/

namespace EspAx25

/-- `ax25_frame_init`: an all-zero frame of unknown type. -/
def frameInit : Frame :=
  { destination := {}, source := {}, digipeaters := [], isCommand := false,
    type := .unknown, control := 0, pid := pidNone, payload := [] }

/-- `ax25_frame_identify_type`. -/
def frameIdentifyType (control : Byte) : FrameType :=
  if control &&& 0x01 = 0 then .i
  else if control &&& 0x03 = 0x01 then .s
  else if control &&& 0x03 = 0x03 then
    if control &&& 0xEF = ctrlUi then .ui else .u
  else .unknown

/-- `ax25_frame_has_pf`. -/
def frameHasPf (control : Byte) : Bool :=
  control &&& ctrlPfBit != 0

/-- `ax25_frame_extract_ns`. -/
def frameExtractNs (control : Byte) : Nat :=
  ((control >>> 1) &&& 0x07).toNat

/-- `ax25_frame_extract_nr`. -/
def frameExtractNr (control : Byte) : Nat :=
  ((control >>> 5) &&& 0x07).toNat

/-- The P/F bit of a control byte that is being built. -/
def pfBits (pf : Bool) : Byte := if pf then ctrlPfBit else 0

/-- `ax25_frame_build_i_control`. -/
def frameBuildIControl (ns nr : Nat) (pf : Bool) : Byte :=
  (UInt8.ofNat ns &&& 0x07) <<< 1 ||| (UInt8.ofNat nr &&& 0x07) <<< 5 ||| pfBits pf

/-- The body that the three S-frame builders share. -/
def frameBuildSControl (mask : Byte) (nr : Nat) (pf : Bool) : Byte :=
  mask ||| (UInt8.ofNat nr &&& 0x07) <<< 5 ||| pfBits pf

/-- `ax25_frame_build_rr_control`. -/
def frameBuildRrControl : Nat → Bool → Byte := frameBuildSControl ctrlRr

/-- `ax25_frame_build_rnr_control`. -/
def frameBuildRnrControl : Nat → Bool → Byte := frameBuildSControl ctrlRnr

/-- `ax25_frame_build_rej_control`. -/
def frameBuildRejControl : Nat → Bool → Byte := frameBuildSControl ctrlRej

/-! ### Reading back what was built -/

theorem frameExtractNr_lt (control : Byte) : frameExtractNr control < 8 := by
  unfold frameExtractNr
  rw [UInt8.toNat_and]
  exact Nat.lt_of_le_of_lt Nat.and_le_right (by decide)

theorem extractNs_buildI {ns nr : Nat} (hns : ns < 8) (hnr : nr < 8) (pf : Bool) :
    frameExtractNs (frameBuildIControl ns nr pf) = ns := by
  have h : ∀ ns < 8, ∀ nr < 8, ∀ pf,
      frameExtractNs (frameBuildIControl ns nr pf) = ns := by decide
  exact h ns hns nr hnr pf

theorem extractNr_buildI {ns nr : Nat} (hns : ns < 8) (hnr : nr < 8) (pf : Bool) :
    frameExtractNr (frameBuildIControl ns nr pf) = nr := by
  have h : ∀ ns < 8, ∀ nr < 8, ∀ pf,
      frameExtractNr (frameBuildIControl ns nr pf) = nr := by decide
  exact h ns hns nr hnr pf

theorem hasPf_buildI {ns nr : Nat} (hns : ns < 8) (hnr : nr < 8) (pf : Bool) :
    frameHasPf (frameBuildIControl ns nr pf) = pf := by
  have h : ∀ ns < 8, ∀ nr < 8, ∀ pf, frameHasPf (frameBuildIControl ns nr pf) = pf := by decide
  exact h ns hns nr hnr pf

/-- The three S-frame builders. -/
def IsSMask (mask : Byte) : Prop := mask = ctrlRr ∨ mask = ctrlRnr ∨ mask = ctrlRej

theorem extractNr_buildS {mask : Byte} (hm : IsSMask mask) {nr : Nat} (hnr : nr < 8) (pf : Bool) :
    frameExtractNr (frameBuildSControl mask nr pf) = nr := by
  rcases hm with rfl | rfl | rfl
  · have h : ∀ nr < 8, ∀ pf, frameExtractNr (frameBuildSControl ctrlRr nr pf) = nr := by decide
    exact h nr hnr pf
  · have h : ∀ nr < 8, ∀ pf, frameExtractNr (frameBuildSControl ctrlRnr nr pf) = nr := by decide
    exact h nr hnr pf
  · have h : ∀ nr < 8, ∀ pf, frameExtractNr (frameBuildSControl ctrlRej nr pf) = nr := by decide
    exact h nr hnr pf

theorem sType_buildS {mask : Byte} (hm : IsSMask mask) {nr : Nat} (hnr : nr < 8) (pf : Bool) :
    frameBuildSControl mask nr pf &&& 0x0F = mask := by
  rcases hm with rfl | rfl | rfl
  · have h : ∀ nr < 8, ∀ pf, frameBuildSControl ctrlRr nr pf &&& 0x0F = ctrlRr := by decide
    exact h nr hnr pf
  · have h : ∀ nr < 8, ∀ pf, frameBuildSControl ctrlRnr nr pf &&& 0x0F = ctrlRnr := by decide
    exact h nr hnr pf
  · have h : ∀ nr < 8, ∀ pf, frameBuildSControl ctrlRej nr pf &&& 0x0F = ctrlRej := by decide
    exact h nr hnr pf

theorem hasPf_buildS {mask : Byte} (hm : IsSMask mask) {nr : Nat} (hnr : nr < 8) (pf : Bool) :
    frameHasPf (frameBuildSControl mask nr pf) = pf := by
  rcases hm with rfl | rfl | rfl
  · have h : ∀ nr < 8, ∀ pf, frameHasPf (frameBuildSControl ctrlRr nr pf) = pf := by decide
    exact h nr hnr pf
  · have h : ∀ nr < 8, ∀ pf, frameHasPf (frameBuildSControl ctrlRnr nr pf) = pf := by decide
    exact h nr hnr pf
  · have h : ∀ nr < 8, ∀ pf, frameHasPf (frameBuildSControl ctrlRej nr pf) = pf := by decide
    exact h nr hnr pf

end EspAx25
