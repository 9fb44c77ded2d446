import EspAx25.Access
import EspAx25.Agwpe.Wire

/-!
# EspAx25.Agwpe.Length

The lengths in `agwpe_frame_encode` and `agwpe_frame_decode`.

`data_len` has 32 bits and comes from the network or from the caller, and so has the sum of
it and the size of the header: it wraps from 2^32 - 36 on. The two functions are written
here with every access to the bytes on the wire and to `frame->data`. They compute what
`agwpeFrameEncode` and `agwpeFrameDecode` compute; whether their checks are good enough
for their accesses is `agwpe_lengths_iff`.

The fields of the header are always there, and the accesses to them are left out.
-/

namespace EspAx25

open Access

/-- The bytes on the wire, of which the caller says how many there are, and
`frame->data`. -/
inductive AgwpeArray
  | wire
  | data
  deriving DecidableEq

def agwpeArraySize (wireLen : Nat) : AgwpeArray → Nat
  | .wire => wireLen
  | .data => agwpeMaxDataLen

/-- The fields of a header on the wire, in the order in which both functions go through
them. -/
def agwpeTouchHeader : Traced AgwpeArray Unit := do
  touch .wire 0 1
  touch .wire 4 1
  touch .wire 6 1
  touch .wire 8 agwpeCallsignLen
  touch .wire 18 agwpeCallsignLen
  touch .wire 28 4
  touch .wire 32 4

/-! ### Decoding -/

/-- The data of a frame, if the header says that there is any. -/
def agwpeDecodeDataAt (data : List Byte) (header : AgwpeHeader) :
    Traced AgwpeArray (Except EspErr AgwpeFrame) :=
  if 0 < header.dataLen then
    if data.length < (agwpeHeaderSize + header.dataLen.toNat) % wordSize then
      return .error .invalidSize
    else do
      let copyLen := min header.dataLen.toNat agwpeMaxDataLen
      touch .wire agwpeHeaderSize copyLen
      touch .data 0 copyLen
      return .ok
        { header := { header with dataLen := copyLen.toUInt32 }
          data := Memory.storeAll agwpeFrameInit.data 0 ((data.drop agwpeHeaderSize).take copyLen) }
  else return .ok { agwpeFrameInit with header }

/-- `agwpe_frame_decode`, of `len` bytes. -/
def agwpeFrameDecodeAt (data : List Byte) : Traced AgwpeArray (Except EspErr AgwpeFrame) :=
  if data.length < agwpeHeaderSize then return .error .invalidArg
  else do
    agwpeTouchHeader
    agwpeDecodeDataAt data (agwpeDecodeHeader data)

theorem agwpeFrameDecodeAt_value (data : List Byte) :
    (agwpeFrameDecodeAt data).value = agwpeFrameDecode data := by
  unfold agwpeFrameDecodeAt agwpeFrameDecode agwpeDecodeDataAt
  split_ifs <;> simp_all

/-! ### Encoding -/

/-- `memcpy(&out[0], bytes, ..)`. -/
def overwrite (out bytes : List Byte) : List Byte := bytes ++ out.drop bytes.length

/-- The copy of `data_len` bytes of `frame->data`; those behind the array are unknown, and
are left out. -/
def agwpeEncodeDataAt (frame : AgwpeFrame) : Traced AgwpeArray (List Byte) :=
  if 0 < frame.header.dataLen then do
    touch .data 0 frame.header.dataLen.toNat
    touch .wire agwpeHeaderSize frame.header.dataLen.toNat
    return (List.ofFn frame.data).take frame.header.dataLen.toNat
  else return []

/-- `agwpe_frame_encode`: the result, and the buffer of `out_size` bytes. -/
def agwpeFrameEncodeAt (frame : AgwpeFrame) (out : List Byte) :
    Traced AgwpeArray (Nat × List Byte) :=
  let totalLen := (agwpeHeaderSize + frame.header.dataLen.toNat) % wordSize
  if out.length < totalLen then return (0, out)
  else do
    touch .wire 0 agwpeHeaderSize
    agwpeTouchHeader
    let copied ← agwpeEncodeDataAt frame
    return (totalLen, overwrite out (frame.header.encode ++ copied))

/-- A frame that fits its array is encoded as `agwpeFrameEncode` does it. -/
theorem agwpeFrameEncodeAt_value (frame : AgwpeFrame) (out : List Byte)
    (h : frame.header.dataLen.toNat ≤ agwpeMaxDataLen) :
    (agwpeFrameEncodeAt frame out).value =
      match agwpeFrameEncode frame out.length with
      | none => (0, out)
      | some bytes => (bytes.length, overwrite out bytes) := by
  have hcopied : (agwpeEncodeDataAt frame).value =
      if 0 < frame.header.dataLen then (List.ofFn frame.data).take frame.header.dataLen.toNat
      else [] := by
    unfold agwpeEncodeDataAt
    split_ifs <;> rfl
  have hlen : (agwpeEncodeDataAt frame).value.length = frame.header.dataLen.toNat := by
    rw [hcopied]
    split_ifs with hpos
    · rw [List.length_take, List.length_ofFn, Nat.min_eq_left h]
    · rw [UInt32.lt_iff_toNat_lt] at hpos
      exact (Nat.eq_zero_of_not_pos hpos).symm
  have hsum : (agwpeHeaderSize + frame.header.dataLen.toNat) % wordSize =
      (frame.header.encode ++ (agwpeEncodeDataAt frame).value).length := by
    rw [List.length_append, AgwpeHeader.encode_length, hlen]
    refine Nat.mod_eq_of_lt ?_
    rw [agwpeMaxDataLen] at h
    rw [agwpeHeaderSize, wordSize]
    omega
  unfold agwpeFrameEncodeAt agwpeFrameEncode
  dsimp only
  rw [← hcopied, hsum]
  split_ifs <;> rfl

/-! ### The checks and the accesses -/

theorem within_agwpeTouchHeader {wireLen : Nat} (h : agwpeHeaderSize ≤ wireLen) :
    Within (agwpeArraySize wireLen) agwpeTouchHeader := by
  have hfield (offset length : Nat) (hin : offset + length ≤ agwpeHeaderSize) :
      Within (agwpeArraySize wireLen) (touch AgwpeArray.wire offset length) :=
    within_touch (Nat.le_trans hin h)
  exact within_bind (hfield _ _ (by decide)) <| within_bind (hfield _ _ (by decide)) <|
    within_bind (hfield _ _ (by decide)) <| within_bind (hfield _ _ (by decide)) <|
    within_bind (hfield _ _ (by decide)) <| within_bind (hfield _ _ (by decide)) <|
    hfield _ _ (by decide)

/-- `agwpe_frame_decode` reports a frame that is cut off, with the sum as it should be, and
stays inside of its arrays. Input without a whole header has no `data_len`. -/
structure DecodeLengths (data : List Byte) : Prop where
  refuses : (agwpeFrameDecodeAt data).value = .error .invalidSize ↔
    agwpeHeaderSize ≤ data.length ∧ 0 < (agwpeDecodeHeader data).dataLen ∧
      data.length < agwpeHeaderSize + (agwpeDecodeHeader data).dataLen.toNat
  within : Within (agwpeArraySize data.length) (agwpeFrameDecodeAt data)

/-- `agwpe_frame_encode` refuses a buffer that is too small, with the sum as it should be,
and stays inside of its arrays. -/
structure EncodeLengths (frame : AgwpeFrame) (out : List Byte) : Prop where
  refuses : (agwpeFrameEncodeAt frame out).value.1 = 0 ↔
    out.length < agwpeHeaderSize + frame.header.dataLen.toNat
  within : Within (agwpeArraySize out.length) (agwpeFrameEncodeAt frame out)

theorem decodeLengths_iff {data : List Byte} (h : data.length < wordSize) :
    DecodeLengths data ↔
      data.length < agwpeHeaderSize ∨
        agwpeHeaderSize + (agwpeDecodeHeader data).dataLen.toNat < wordSize := by
  have hword : (agwpeDecodeHeader data).dataLen.toNat < wordSize :=
    (agwpeDecodeHeader data).dataLen.toNat_lt
  have hpos : 0 < (agwpeDecodeHeader data).dataLen ↔ 0 < (agwpeDecodeHeader data).dataLen.toNat :=
    UInt32.lt_iff_toNat_lt
  by_cases hshort : data.length < agwpeHeaderSize
  · have hrun : agwpeFrameDecodeAt data = pure (.error .invalidArg) := if_pos hshort
    refine iff_of_true ⟨?_, hrun ▸ within_pure _⟩ (.inl hshort)
    rw [hrun]
    exact iff_of_false (by rintro ⟨⟩) fun hheader => absurd hheader.1 (Nat.not_le.mpr hshort)
  · have hheader := Nat.le_of_not_lt hshort
    have hrun : agwpeFrameDecodeAt data =
        agwpeTouchHeader >>= fun _ => agwpeDecodeDataAt data (agwpeDecodeHeader data) :=
      if_neg hshort
    by_cases hwrap : agwpeHeaderSize + (agwpeDecodeHeader data).dataLen.toNat < wordSize
    · refine iff_of_true ⟨?_, ?_⟩ (.inr hwrap)
      · rw [hrun, value_bind, agwpeDecodeDataAt, Nat.mod_eq_of_lt hwrap]
        split_ifs with hsome hcut
        · exact iff_of_true rfl ⟨hheader, hsome, hcut⟩
        · exact iff_of_false (by rintro ⟨⟩) fun hlaw => hcut hlaw.2.2
        · exact iff_of_false (by rintro ⟨⟩) fun hlaw => hsome hlaw.2.1
      · rw [hrun]
        refine within_bind (within_agwpeTouchHeader hheader) ?_
        rw [agwpeDecodeDataAt, Nat.mod_eq_of_lt hwrap]
        split_ifs with hsome hcut
        · exact within_pure _
        · have hcopy := Nat.min_le_left (agwpeDecodeHeader data).dataLen.toNat agwpeMaxDataLen
          refine within_bind (within_touch ?_) (within_bind (within_touch ?_) (within_pure _))
          · exact Nat.le_trans (Nat.add_le_add_left hcopy _) (Nat.le_of_not_lt hcut)
          · exact (Nat.zero_add _).trans_le (Nat.min_le_right _ _)
        · exact within_pure _
    · -- the sum wraps to less than a header, which every input has that gets here
      refine iff_of_false (fun hlaw => ?_) fun hcond => hcond.elim hshort hwrap
      have hsome : 0 < (agwpeDecodeHeader data).dataLen := by
        rw [hpos]
        rw [agwpeHeaderSize, wordSize] at hwrap
        omega
      have hpass : ¬ data.length <
          (agwpeHeaderSize + (agwpeDecodeHeader data).dataLen.toNat) % wordSize := by
        rw [agwpeHeaderSize] at hheader hwrap ⊢
        rw [wordSize] at hword hwrap ⊢
        omega
      have herror := hlaw.refuses.mpr ⟨hheader, hsome, by omega⟩
      rw [hrun, value_bind, agwpeDecodeDataAt, if_pos hsome, if_neg hpass] at herror
      cases herror

theorem encodeLengths_iff {frame : AgwpeFrame} {out : List Byte} :
    EncodeLengths frame out ↔
      frame.header.dataLen.toNat ≤ agwpeMaxDataLen ∨
        out.length < (agwpeHeaderSize + frame.header.dataLen.toNat) % wordSize := by
  have hpos : 0 < frame.header.dataLen ↔ 0 < frame.header.dataLen.toNat :=
    UInt32.lt_iff_toNat_lt
  by_cases hfull : out.length < (agwpeHeaderSize + frame.header.dataLen.toNat) % wordSize
  · have hrun : agwpeFrameEncodeAt frame out = pure (0, out) := if_pos hfull
    refine iff_of_true ⟨?_, hrun ▸ within_pure _⟩ (.inr hfull)
    rw [hrun]
    exact iff_of_true rfl (Nat.lt_of_lt_of_le hfull (Nat.mod_le _ _))
  · have hrun : agwpeFrameEncodeAt frame out = (do
        touch .wire 0 agwpeHeaderSize
        agwpeTouchHeader
        let copied ← agwpeEncodeDataAt frame
        return ((agwpeHeaderSize + frame.header.dataLen.toNat) % wordSize,
          overwrite out (frame.header.encode ++ copied))) := if_neg hfull
    constructor
    · -- the copy takes `data_len` bytes from the array, whatever the sum is
      intro hlaw
      have hwithin := hlaw.within
      rw [hrun, within_bind_iff, within_bind_iff, within_bind_iff] at hwithin
      have hcopy := hwithin.2.2.1
      rw [agwpeEncodeDataAt] at hcopy
      split_ifs at hcopy with hsome
      · rw [within_bind_iff, within_touch_iff, Nat.zero_add] at hcopy
        exact .inl hcopy.1
      · rw [hpos] at hsome
        exact .inl (Nat.le_trans (Nat.le_of_not_lt hsome) (Nat.zero_le _))
    · intro hcond
      have hfits := hcond.resolve_right hfull
      have hsum : (agwpeHeaderSize + frame.header.dataLen.toNat) % wordSize =
          agwpeHeaderSize + frame.header.dataLen.toNat := by
        refine Nat.mod_eq_of_lt ?_
        rw [agwpeMaxDataLen] at hfits
        rw [agwpeHeaderSize, wordSize]
        omega
      rw [hsum] at hrun hfull
      have hroom := Nat.le_of_not_lt hfull
      have hheader := Nat.le_trans (Nat.le_add_right _ _) hroom
      refine ⟨?_, ?_⟩
      · rw [hrun]
        exact iff_of_false (Nat.ne_of_gt (Nat.add_pos_left (by decide) _)) hfull
      · rw [hrun]
        refine within_bind (within_touch (by rwa [Nat.zero_add])) <|
          within_bind (within_agwpeTouchHeader hheader) <| within_bind ?_ (within_pure _)
        rw [agwpeEncodeDataAt]
        split_ifs with hsome
        · exact within_bind (within_touch (by rwa [Nat.zero_add])) <|
            within_bind (within_touch hroom) (within_pure _)
        · exact within_pure _

/-- **The lengths of AGWPE frames.** The sum of `data_len` and the size of the header wraps,
and `agwpe_frame_encode` does not look at the size of `frame->data`. The lengths are handled
well if the sum does not wrap in decoding, and if in encoding the data fit the array or the
buffer is too small even for the wrapped sum. -/
theorem agwpe_lengths_iff (data : List Byte) (frame : AgwpeFrame) (out : List Byte)
    (h : data.length < wordSize) :
    (DecodeLengths data ↔
        data.length < agwpeHeaderSize ∨
          agwpeHeaderSize + (agwpeDecodeHeader data).dataLen.toNat < wordSize) ∧
      (EncodeLengths frame out ↔
        frame.header.dataLen.toNat ≤ agwpeMaxDataLen ∨
          out.length < (agwpeHeaderSize + frame.header.dataLen.toNat) % wordSize) :=
  ⟨decodeLengths_iff h, encodeLengths_iff⟩

/-- A header that announces two bytes, and these; a frame without data, and no buffer. -/
theorem agwpe_lengths_sample :
    DecodeLengths (List.replicate 28 0 ++ [2, 0, 0, 0, 0, 0, 0, 0, 0x41, 0x42]) ∧
      EncodeLengths agwpeFrameInit [] :=
  have hboth := agwpe_lengths_iff (List.replicate 28 0 ++ [2, 0, 0, 0, 0, 0, 0, 0, 0x41, 0x42])
    agwpeFrameInit [] (by decide)
  ⟨hboth.1.mpr (.inr (by decide)), hboth.2.mpr (.inl (by decide))⟩

/-- A header alone that announces 2^32 - 1 bytes is taken for a whole frame. -/
theorem agwpe_length_wraps :
    ¬ ∀ (data : List Byte) (frame : AgwpeFrame) (out : List Byte), data.length < wordSize →
      DecodeLengths data ∧ EncodeLengths frame out := by
  intro h
  have hlaw := (h (List.replicate 28 0 ++ [0xFF, 0xFF, 0xFF, 0xFF, 0, 0, 0, 0]) agwpeFrameInit []
    (by decide)).1
  exact absurd (hlaw.refuses.mpr ⟨by decide, by decide, by decide⟩) (by decide +kernel)

end EspAx25
