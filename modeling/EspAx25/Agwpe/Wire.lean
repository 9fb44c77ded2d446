import Mathlib.Algebra.Group.Nat.Defs
import Mathlib.Data.Fintype.Basic
import EspAx25.Memory
import EspAx25.Transducer
import EspAx25.Types

/-!
# EspAx25.Agwpe.Wire

The AGWPE wire format of `ax25_agwpe.c`: a header of 36 bytes, and as many bytes of
data as the header says.

* `agwpe_frame_t` is a packed header followed by an array of 512 bytes. The
  streaming decoder writes the received bytes over it through a byte pointer, so
  its state keeps the 36 bytes of the header as they are in memory (`image`);
  `AgwpeHeader.ofImage` is the structure that the callback sees there, with the
  packed little-endian layout of the target.
* `size_t` has 32 bits: sums that could wrap are written with the wrap-around.
* The streaming decoder stays in sync on any stream of frames
  (`agwpe_stream_in_sync`), and agrees with `agwpe_frame_decode`
  (`agwpe_decoders_agree`).
-/

namespace EspAx25

open Memory Transducer

/-- `AGWPE_HEADER_SIZE`. -/
def agwpeHeaderSize : Nat := 36

/-- `AGWPE_CALLSIGN_LEN`. -/
def agwpeCallsignLen : Nat := 10

/-- `AGWPE_MAX_DATA_LEN`. -/
def agwpeMaxDataLen : Nat := 512

/-- The values of `size_t` and `uint32_t`. -/
def wordSize : Nat := 2 ^ 32

/-! ### Little-endian words -/

/-- `read_le32`. -/
def readLe32 (buf : List Byte) : UInt32 :=
  (buf.getD 0 0).toUInt32 ||| ((buf.getD 1 0).toUInt32 <<< 8) |||
    ((buf.getD 2 0).toUInt32 <<< 16) ||| ((buf.getD 3 0).toUInt32 <<< 24)

/-- `write_le32`. -/
def writeLe32 (val : UInt32) : List Byte :=
  [(val &&& 0xFF).toUInt8, ((val >>> 8) &&& 0xFF).toUInt8, ((val >>> 16) &&& 0xFF).toUInt8,
    ((val >>> 24) &&& 0xFF).toUInt8]

theorem or_two_pow_mul {a k : Nat} (h : a < 2 ^ k) (b : Nat) : a ||| 2 ^ k * b = 2 ^ k * b + a :=
  (Nat.or_comm _ _).trans (Nat.two_pow_add_eq_or_of_lt h b).symm

/-- The value of four bytes. -/
theorem readLe32_toNat (buf : List Byte) : (readLe32 buf).toNat =
    (buf.getD 0 0).toNat + 256 * (buf.getD 1 0).toNat + 65536 * (buf.getD 2 0).toNat +
      16777216 * (buf.getD 3 0).toNat := by
  have h₀ := (buf.getD 0 0).toNat_lt
  have h₁ := (buf.getD 1 0).toNat_lt
  have h₂ := (buf.getD 2 0).toNat_lt
  have h₃ := (buf.getD 3 0).toNat_lt
  simp only [readLe32, UInt32.toNat_or, UInt32.toNat_shiftLeft, UInt8.toNat_toUInt32]
  generalize (buf.getD 0 0).toNat = a at *
  generalize (buf.getD 1 0).toNat = b at *
  generalize (buf.getD 2 0).toNat = c at *
  generalize (buf.getD 3 0).toNat = d at *
  have hb : b <<< ((8 : UInt32).toNat % 32) % 2 ^ 32 = 2 ^ 8 * b := by
    rw [show (8 : UInt32).toNat % 32 = 8 from rfl, Nat.shiftLeft_eq]
    omega
  have hc : c <<< ((16 : UInt32).toNat % 32) % 2 ^ 32 = 2 ^ 16 * c := by
    rw [show (16 : UInt32).toNat % 32 = 16 from rfl, Nat.shiftLeft_eq]
    omega
  have hd : d <<< ((24 : UInt32).toNat % 32) % 2 ^ 32 = 2 ^ 24 * d := by
    rw [show (24 : UInt32).toNat % 32 = 24 from rfl, Nat.shiftLeft_eq]
    omega
  have hab := or_two_pow_mul h₀ b
  have habc := or_two_pow_mul (show 2 ^ 8 * b + a < 2 ^ 16 by omega) c
  have habcd := or_two_pow_mul (show 2 ^ 16 * c + (2 ^ 8 * b + a) < 2 ^ 24 by omega) d
  rw [hb, hc, hd, hab, habc, habcd]
  omega

/-- What is written is read back. -/
theorem readLe32_writeLe32 (val : UInt32) (rest : List Byte) :
    readLe32 (writeLe32 val ++ rest) = val := by
  apply UInt32.toNat_inj.mp
  have hval := val.toNat_lt
  have hbyte : ∀ x : Nat, (x &&& 255) = x % 256 := fun x => Nat.and_two_pow_sub_one_eq_mod x 8
  rw [readLe32_toNat]
  simp only [writeLe32, List.cons_append, List.getD_cons_zero, List.getD_cons_succ,
    UInt32.toNat_toUInt8, UInt32.toNat_and, UInt32.toNat_shiftRight, UInt32.reduceToNat, hbyte,
    Nat.shiftRight_eq_div_pow, Nat.reduceMod]
  omega

/-! ### Frames -/

/-- `agwpe_header_t`. -/
structure AgwpeHeader where
  port : Byte
  reserved1 : Fin 3 → Byte
  dataKind : Byte
  reserved2 : Byte
  pid : Byte
  reserved3 : Byte
  callFrom : Fin agwpeCallsignLen → Byte
  callTo : Fin agwpeCallsignLen → Byte
  dataLen : UInt32
  user : UInt32
  deriving DecidableEq

/-- `agwpe_frame_t`. -/
structure AgwpeFrame where
  header : AgwpeHeader
  data : Fin agwpeMaxDataLen → Byte
  deriving DecidableEq

/-- `agwpe_frame_init`. -/
def agwpeFrameInit : AgwpeFrame :=
  { header :=
      { port := 0, reserved1 := fun _ => 0, dataKind := 0, reserved2 := 0, pid := 0,
        reserved3 := 0, callFrom := fun _ => 0, callTo := fun _ => 0, dataLen := 0, user := 0 }
    data := fun _ => 0 }

/-- The header that stands at a byte pointer: the packed layout. -/
def AgwpeHeader.ofBytes (b : List Byte) : AgwpeHeader :=
  { port := b.getD 0 0
    reserved1 := fun i => b.getD (1 + i) 0
    dataKind := b.getD 4 0
    reserved2 := b.getD 5 0
    pid := b.getD 6 0
    reserved3 := b.getD 7 0
    callFrom := fun i => b.getD (8 + i) 0
    callTo := fun i => b.getD (18 + i) 0
    dataLen := readLe32 (b.drop 28)
    user := readLe32 (b.drop 32) }

/-- The header in the first 36 bytes of a frame in memory. -/
def AgwpeHeader.ofImage (image : Fin agwpeHeaderSize → Byte) : AgwpeHeader :=
  .ofBytes (List.ofFn image)

/-! ### The streaming decoder -/

/-- `agwpe_decoder_state_t`. -/
inductive AgwpeDecoderState
  | header
  | data
  deriving Repr, DecidableEq

/-- `agwpe_decoder_t`. `frame` is kept as `image`, the bytes of its header, and
`data`. -/
structure AgwpeDecoder where
  state : AgwpeDecoderState := .header
  image : Fin agwpeHeaderSize → Byte := fun _ => 0
  data : Fin agwpeMaxDataLen → Byte := fun _ => 0
  bytesReceived : Nat := 0
  dataLenWire : UInt32 := 0
  /-- The callback is not NULL. -/
  callback : Bool

/-- `agwpe_decoder_init`. -/
def agwpeDecoderInit (callback : Bool) : AgwpeDecoder := { callback }

namespace AgwpeDecoder

/-- `agwpe_decoder_reset`. -/
def reset (d : AgwpeDecoder) : AgwpeDecoder :=
  { d with state := .header, bytesReceived := 0, image := fun _ => 0, data := fun _ => 0 }

/-- The frame is complete: callback, then reset. -/
def complete (d : AgwpeDecoder) : AgwpeDecoder × List AgwpeFrame :=
  (d.reset, if d.callback then [⟨.ofImage d.image, d.data⟩] else [])

/-- `agwpe_decoder_process_byte`. -/
def processByte (d : AgwpeDecoder) (byte : Byte) : AgwpeDecoder × List AgwpeFrame :=
  match d.state with
  | .header =>
    let d : AgwpeDecoder :=
      { d with
        image := store d.image d.bytesReceived byte
        bytesReceived := (d.bytesReceived + 1) % wordSize }
    if d.bytesReceived ≥ agwpeHeaderSize then
      let dataLen := readLe32 ((List.ofFn d.image).drop 28)
      let d : AgwpeDecoder := { d with dataLenWire := dataLen }
      let dataLen := if dataLen.toNat > agwpeMaxDataLen then agwpeMaxDataLen.toUInt32 else dataLen
      -- `decoder->frame.header.data_len = data_len`
      let d : AgwpeDecoder := { d with image := storeAll d.image 28 (writeLe32 dataLen) }
      if 0 < d.dataLenWire then ({ d with state := .data, bytesReceived := 0 }, [])
      else d.complete
    else (d, [])
  | .data =>
    let d : AgwpeDecoder :=
      if d.bytesReceived < agwpeMaxDataLen then
        { d with data := store d.data d.bytesReceived byte }
      else d
    let d : AgwpeDecoder := { d with bytesReceived := (d.bytesReceived + 1) % wordSize }
    if d.bytesReceived ≥ d.dataLenWire.toNat then d.complete else (d, [])

/-- `agwpe_decoder_process_bytes`. -/
def processBytes : AgwpeDecoder → List Byte → AgwpeDecoder × List AgwpeFrame := run processByte

/-- A sequence of calls of `agwpe_decoder_process_bytes`. -/
def processChunks : AgwpeDecoder → List (List Byte) → AgwpeDecoder × List AgwpeFrame :=
  run processBytes

end AgwpeDecoder

/-! ### The other two functions -/

/-- The header as `agwpe_frame_encode` writes it. -/
def AgwpeHeader.encode (h : AgwpeHeader) : List Byte :=
  [h.port, 0, 0, 0, h.dataKind, 0, h.pid, 0] ++
    (List.ofFn h.callFrom ++ (List.ofFn h.callTo ++ (writeLe32 h.dataLen ++ writeLe32 h.user)))

/-- `agwpe_frame_encode`, for frames whose `data_len` fits their array; `none` is the
result 0. -/
def agwpeFrameEncode (frame : AgwpeFrame) (outSize : Nat) : Option (List Byte) :=
  let totalLen := (agwpeHeaderSize + frame.header.dataLen.toNat) % wordSize
  if outSize < totalLen then none
  else
    some (frame.header.encode ++
      (if 0 < frame.header.dataLen then
        (List.ofFn frame.data).take frame.header.dataLen.toNat
      else []))

/-- The header fields that `agwpe_frame_decode` reads. -/
def agwpeDecodeHeader (data : List Byte) : AgwpeHeader :=
  { agwpeFrameInit.header with
    port := data.getD 0 0
    dataKind := data.getD 4 0
    pid := data.getD 6 0
    callFrom := fun i => data.getD (8 + i) 0
    callTo := fun i => data.getD (18 + i) 0
    dataLen := readLe32 (data.drop 28)
    user := readLe32 (data.drop 32) }

/-- `agwpe_frame_decode`. -/
def agwpeFrameDecode (data : List Byte) : Except EspErr AgwpeFrame :=
  if data.length < agwpeHeaderSize then .error .invalidArg
  else
    let header := agwpeDecodeHeader data
    if 0 < header.dataLen then
      if data.length < (agwpeHeaderSize + header.dataLen.toNat) % wordSize then
        .error .invalidSize
      else
        let copyLen := min header.dataLen.toNat agwpeMaxDataLen
        .ok
          { header := { header with dataLen := copyLen.toUInt32 }
            data := storeAll agwpeFrameInit.data 0 ((data.drop agwpeHeaderSize).take copyLen) }
    else .ok { agwpeFrameInit with header }

/-! ### The header in memory -/

theorem getD_drop (b : List Byte) (k i : Nat) : (b.drop k).getD i 0 = b.getD (k + i) 0 := by
  simp only [List.getD_eq_getElem?_getD, List.getElem?_drop]

theorem readLe32_congr {b c : List Byte} (h : ∀ i < 4, b.getD i 0 = c.getD i 0) :
    readLe32 b = readLe32 c := by
  simp only [readLe32, h 0 (by decide), h 1 (by decide), h 2 (by decide), h 3 (by decide)]

/-- A store to `data_len` changes that field of the header and no other. -/
theorem AgwpeHeader.ofImage_storeDataLen (image : Fin agwpeHeaderSize → Byte) (val : UInt32) :
    AgwpeHeader.ofImage (storeAll image 28 (writeLe32 val)) =
      { AgwpeHeader.ofImage image with dataLen := val } := by
  have hlen : (writeLe32 val).length = 4 := rfl
  have hget : ∀ j < 28, (List.ofFn (storeAll image 28 (writeLe32 val))).getD j 0 =
      (List.ofFn image).getD j 0 := by
    intro j hj
    rw [getD_ofFn_storeAll, if_neg (by omega)]
  have hdataLen : readLe32 ((List.ofFn (storeAll image 28 (writeLe32 val))).drop 28) = val := by
    refine (readLe32_congr fun i hi => ?_).trans (readLe32_writeLe32 val [])
    rw [getD_drop, getD_ofFn_storeAll, if_pos (by rw [hlen, agwpeHeaderSize]; omega),
      Nat.add_sub_cancel_left, List.append_nil]
  have huser : readLe32 ((List.ofFn (storeAll image 28 (writeLe32 val))).drop 32) =
      readLe32 ((List.ofFn image).drop 32) := by
    refine readLe32_congr fun i _ => ?_
    rw [getD_drop, getD_drop, getD_ofFn_storeAll, if_neg (by omega)]
  simp only [AgwpeHeader.ofImage, AgwpeHeader.ofBytes, AgwpeHeader.mk.injEq, hdataLen, huser,
    and_true]
  refine ⟨hget 0 (by decide), funext fun i => hget _ (by omega), hget 4 (by decide),
    hget 5 (by decide), hget 6 (by decide), hget 7 (by decide), funext fun i => hget _ ?_,
    funext fun i => hget _ ?_⟩
  · have : i.val < 10 := i.isLt
    omega
  · have : i.val < 10 := i.isLt
    omega

/-! ### Frames on the wire -/

/-- A frame as the peer sends it: any 36 bytes, and the data that they announce. -/
structure AgwpeWireFrame where
  header : Fin agwpeHeaderSize → Byte
  payload : List Byte
  length_eq : payload.length = (AgwpeHeader.ofImage header).dataLen.toNat

namespace AgwpeWireFrame

variable (w : AgwpeWireFrame)

def bytes : List Byte := List.ofFn w.header ++ w.payload

/-- What the callback is to see of the frame: its header, with the length clamped to
the array, and as much of the data. -/
def delivered : AgwpeFrame :=
  { header := { AgwpeHeader.ofImage w.header with
                dataLen := (min w.payload.length agwpeMaxDataLen).toUInt32 }
    data := fill agwpeMaxDataLen 0 w.payload }

theorem delivered_dataLen :
    w.delivered.header.dataLen.toNat = min w.payload.length agwpeMaxDataLen := by
  have hmin : min w.payload.length agwpeMaxDataLen ≤ 512 := Nat.min_le_right _ _
  rw [delivered, UInt32.toNat_ofNat', Nat.mod_eq_of_lt (by omega)]

/-- The first `data_len` bytes of the array are those of the frame. -/
theorem delivered_data :
    (List.ofFn w.delivered.data).take w.delivered.header.dataLen.toNat =
      w.payload.take w.delivered.header.dataLen.toNat := by
  rw [delivered_dataLen]
  have hdata : w.delivered.data = fill agwpeMaxDataLen 0 (w.payload.take agwpeMaxDataLen) :=
    (fill_take 0).symm
  have hlen : (w.payload.take agwpeMaxDataLen).length = min w.payload.length agwpeMaxDataLen := by
    rw [List.length_take, Nat.min_comm]
  rw [hdata, ← hlen, take_ofFn_fill 0 (by rw [hlen]; exact Nat.min_le_right _ _), hlen,
    Nat.min_comm, ← List.take_take, List.take_length]

end AgwpeWireFrame

/-! ### One frame -/

namespace AgwpeDecoder

variable {d : AgwpeDecoder}

/-- Header bytes up to the last but one. -/
theorem run_header (l : List Byte) : ∀ {d : AgwpeDecoder}, d.state = .header →
    d.bytesReceived + l.length < agwpeHeaderSize →
      run processByte d l =
        ({ d with
            image := storeAll d.image d.bytesReceived l
            bytesReceived := d.bytesReceived + l.length }, []) := by
  induction l with
  | nil =>
      intro d _ _
      rfl
  | cons b l ih =>
      intro d hs hlen
      rw [List.length_cons] at hlen
      have hmod : (d.bytesReceived + 1) % wordSize = d.bytesReceived + 1 :=
        Nat.mod_eq_of_lt (by rw [wordSize]; rw [agwpeHeaderSize] at hlen; omega)
      have hstep : processByte d b =
          ({ d with
              image := store d.image d.bytesReceived b
              bytesReceived := d.bytesReceived + 1 }, []) := by
        simp only [processByte, hs, hmod]
        rw [if_neg (by omega)]
      have hrest := ih (d := { d with
          image := store d.image d.bytesReceived b
          bytesReceived := d.bytesReceived + 1 }) hs (by dsimp only; omega)
      rw [run_cons, hstep]
      dsimp only at hrest ⊢
      rw [hrest, storeAll, List.length_cons, List.nil_append, Nat.add_assoc, Nat.add_comm 1]

/-- The decoder when it has seen a header. -/
def headed (d : AgwpeDecoder) (w : AgwpeWireFrame) : AgwpeDecoder :=
  { d with
    image := storeAll w.header 28 (writeLe32 (min w.payload.length agwpeMaxDataLen).toUInt32)
    bytesReceived := agwpeHeaderSize
    dataLenWire := (AgwpeHeader.ofImage w.header).dataLen }

theorem clamp_eq (v : UInt32) :
    (if v.toNat > agwpeMaxDataLen then agwpeMaxDataLen.toUInt32 else v) =
      (min v.toNat agwpeMaxDataLen).toUInt32 := by
  split_ifs with h
  · rw [Nat.min_eq_right (by omega)]
  · rw [Nat.min_eq_left (by omega)]
    exact (UInt32.ofNat_toNat).symm

theorem run_wholeHeader (hs : d.state = .header) (hb : d.bytesReceived = 0) (w : AgwpeWireFrame) :
    run processByte d (List.ofFn w.header) =
      if 0 < (AgwpeHeader.ofImage w.header).dataLen then
        ({ d.headed w with state := .data, bytesReceived := 0 }, [])
      else (d.headed w).complete := by
  have hsplit : List.ofFn w.header =
      (List.ofFn w.header).take 35 ++ [w.header ⟨35, by decide⟩] :=
    (List.take_append_drop 35 (List.ofFn w.header)).symm
  have hlen : ((List.ofFn w.header).take 35).length = 35 := by
    rw [List.length_take, List.length_ofFn]
    rfl
  -- the last byte completes the copy of the header
  have hcopy : store (storeAll d.image 0 ((List.ofFn w.header).take 35)) 35
      (w.header ⟨35, by decide⟩) = w.header := by
    have h := storeAll_append ((List.ofFn w.header).take 35) [w.header ⟨35, by decide⟩] d.image 0
    rw [← hsplit, storeAll_ofFn, hlen] at h
    exact h.symm
  have hfirst := run_header ((List.ofFn w.header).take 35) hs
    (by rw [hb, hlen]; decide)
  rw [hsplit, run_append, hfirst, run_singleton]
  simp only [processByte, hs, hb, hlen, Nat.zero_add, hcopy, List.nil_append]
  rw [if_pos (by decide), clamp_eq]
  simp only [headed, w.length_eq]
  rfl

/-- Data bytes up to the last but one. -/
theorem run_data (l : List Byte) : ∀ {d : AgwpeDecoder}, d.state = .data →
    d.bytesReceived + l.length < d.dataLenWire.toNat →
      run processByte d l =
        ({ d with
            data := storeAll d.data d.bytesReceived l
            bytesReceived := d.bytesReceived + l.length }, []) := by
  induction l with
  | nil =>
      intro d _ _
      rfl
  | cons b l ih =>
      intro d hs hlen
      rw [List.length_cons] at hlen
      have hlt := d.dataLenWire.toNat_lt
      have hmod : (d.bytesReceived + 1) % wordSize = d.bytesReceived + 1 :=
        Nat.mod_eq_of_lt (by rw [wordSize]; omega)
      have hstep : processByte d b =
          ({ d with
              data := store d.data d.bytesReceived b
              bytesReceived := d.bytesReceived + 1 }, []) := by
        simp only [processByte, hs]
        split_ifs with hroom h₁ h₂
        · simp only [hmod] at h₁
          omega
        · simp only [hmod]
        · simp only [hmod] at h₂
          omega
        · rw [store_of_le d.data (by omega)]
          simp only [hmod, hs]
      have hrest := ih (d := { d with
          data := store d.data d.bytesReceived b
          bytesReceived := d.bytesReceived + 1 }) hs (by dsimp only; omega)
      rw [run_cons, hstep]
      dsimp only at hrest ⊢
      rw [hrest, storeAll, List.length_cons, List.nil_append, Nat.add_assoc, Nat.add_comm 1]

/-- All data bytes: the frame is complete. -/
theorem run_wholeData (hs : d.state = .data) (hb : d.bytesReceived = 0) {l : List Byte}
    (hlen : l.length = d.dataLenWire.toNat) (hne : l ≠ []) :
    run processByte d l =
      { d with data := storeAll d.data 0 l, bytesReceived := l.length }.complete := by
  obtain ⟨k, b, rfl⟩ : ∃ k b, l = k ++ [b] := by
    rcases List.eq_nil_or_concat l with h | ⟨k, b, h⟩
    · exact absurd h hne
    · exact ⟨k, b, h.trans List.concat_eq_append⟩
  have hlt := d.dataLenWire.toNat_lt
  rw [List.length_append, List.length_singleton] at hlen
  have hmod : (k.length + 1) % wordSize = k.length + 1 :=
    Nat.mod_eq_of_lt (by rw [wordSize]; omega)
  rw [run_append, run_data k hs (by omega), run_singleton, storeAll_append]
  simp only [processByte, hs, hb, Nat.zero_add, List.nil_append, storeAll, List.length_append,
    List.length_singleton]
  split_ifs with hroom h₁ h₂
  · simp only [hmod]
  · simp only [hmod] at h₁
    omega
  · rw [store_of_le _ (by omega)]
    simp only [hmod]
  · simp only [hmod] at h₂
    omega

/-- A decoder between two frames. -/
structure Idle (d : AgwpeDecoder) : Prop where
  state : d.state = .header
  bytesReceived : d.bytesReceived = 0
  data : d.data = fun _ => 0
  callback : d.callback = true

theorem idle_init : Idle (agwpeDecoderInit true) := ⟨rfl, rfl, rfl, rfl⟩

theorem idle_reset (h : d.callback = true) : Idle d.reset := ⟨rfl, rfl, rfl, h⟩

theorem run_frame (h : Idle d) (w : AgwpeWireFrame) :
    Idle (run processByte d w.bytes).1 ∧ (run processByte d w.bytes).2 = [w.delivered] := by
  have hheader : AgwpeHeader.ofImage (d.headed w).image = w.delivered.header :=
    AgwpeHeader.ofImage_storeDataLen _ _
  rw [AgwpeWireFrame.bytes, run_append, run_wholeHeader h.state h.bytesReceived]
  split_ifs with hlen
  · -- the data follow
    have hne : w.payload ≠ [] := by
      intro hnil
      have hzero := w.length_eq
      rw [hnil] at hzero
      rw [UInt32.lt_iff_toNat_lt, ← hzero] at hlen
      exact absurd hlen (by decide)
    rw [run_wholeData (d := { d.headed w with state := .data, bytesReceived := 0 }) rfl rfl
      w.length_eq hne]
    refine ⟨idle_reset h.callback, ?_⟩
    have hdata : storeAll (d.headed w).data 0 w.payload = w.delivered.data := by
      rw [show (d.headed w).data = fun _ => 0 from h.data]
      exact storeAll_clear 0 w.payload
    simp only [complete, List.nil_append]
    rw [if_pos (by exact h.callback), hheader, hdata]
  · -- there are none
    have hnil : w.payload = [] := by
      rw [← List.length_eq_zero_iff, w.length_eq]
      rw [UInt32.lt_iff_toNat_lt] at hlen
      exact Nat.eq_zero_of_not_pos hlen
    rw [hnil, run_nil]
    refine ⟨idle_reset h.callback, ?_⟩
    have hdata : (d.headed w).data = w.delivered.data := by
      rw [show (d.headed w).data = fun _ => 0 from h.data, AgwpeWireFrame.delivered, hnil]
      rfl
    simp only [complete, List.append_nil]
    rw [if_pos (by exact h.callback), hheader, hdata]

theorem run_frames (ws : List AgwpeWireFrame) : ∀ {d : AgwpeDecoder}, Idle d →
    Idle (run processByte d (ws.flatMap AgwpeWireFrame.bytes)).1 ∧
      (run processByte d (ws.flatMap AgwpeWireFrame.bytes)).2 =
        ws.map AgwpeWireFrame.delivered := by
  induction ws with
  | nil =>
      intro d h
      exact ⟨h, rfl⟩
  | cons w ws ih =>
      intro d h
      obtain ⟨hidle, hout⟩ := run_frame h w
      obtain ⟨hidle', hout'⟩ := ih hidle
      rw [List.flatMap_cons, run_append, hout, hout']
      exact ⟨hidle', rfl⟩

end AgwpeDecoder

/-- **The stream stays in sync.** A fresh decoder that is fed any frames in any
chunks calls back once for each, in order, with the header as it was sent, the
length clamped to 512 and that many bytes of the data; and after each frame it is
back in its first state. -/
theorem agwpe_stream_in_sync (ws : List AgwpeWireFrame) (chunks : List (List Byte))
    (hc : chunks.flatten = ws.flatMap AgwpeWireFrame.bytes) :
    let r := (agwpeDecoderInit true).processChunks chunks
    r.2 = ws.map AgwpeWireFrame.delivered ∧
      r.1.state = .header ∧ r.1.bytesReceived = 0 ∧
      (∀ k,
        let d := ((agwpeDecoderInit true).processBytes
          ((ws.take k).flatMap AgwpeWireFrame.bytes)).1
        d.state = .header ∧ d.bytesReceived = 0) ∧
      ∀ w ∈ ws,
        w.delivered.header = { AgwpeHeader.ofImage w.header with
                               dataLen := w.delivered.header.dataLen } ∧
        w.delivered.header.dataLen.toNat = min w.payload.length agwpeMaxDataLen ∧
        (List.ofFn w.delivered.data).take w.delivered.header.dataLen.toNat =
          w.payload.take w.delivered.header.dataLen.toNat := by
  intro r
  have hr : r = run AgwpeDecoder.processByte (agwpeDecoderInit true)
      (ws.flatMap AgwpeWireFrame.bytes) := by
    rw [← hc, ← runChunks_eq]
    rfl
  obtain ⟨hidle, hout⟩ := AgwpeDecoder.run_frames ws AgwpeDecoder.idle_init
  rw [hr]
  refine ⟨hout, hidle.state, hidle.bytesReceived, fun k => ?_, fun w _ =>
    ⟨rfl, w.delivered_dataLen, w.delivered_data⟩⟩
  have hk := (AgwpeDecoder.run_frames (ws.take k) AgwpeDecoder.idle_init).1
  exact ⟨hk.state, hk.bytesReceived⟩

/-- A frame of kind 'D' with two bytes of data. -/
def sampleWireFrame : AgwpeWireFrame where
  header := storeAll (fun _ => 0) 4 [0x44, 0, 0, 0, 0x41, 0, 0, 0, 0, 0, 0, 0, 0, 0, 0x42, 0, 0, 0,
    0, 0, 0, 0, 0, 0, 2]
  payload := [7, 8]
  length_eq := by decide +kernel

/-- Two frames, in chunks that cut a header and the data. -/
theorem agwpe_stream_in_sync_two :
    ((agwpeDecoderInit true).processChunks
      [sampleWireFrame.bytes.take 9, sampleWireFrame.bytes.drop 9 ++ sampleWireFrame.bytes.take 37,
        sampleWireFrame.bytes.drop 37]).2 =
      [sampleWireFrame.delivered, sampleWireFrame.delivered] :=
  (agwpe_stream_in_sync [sampleWireFrame, sampleWireFrame] _ (by decide +kernel)).1

/-! ### The decoders and the encoder agree -/

/-- The named fields, and the data that `data_len` counts. -/
structure AgwpeFrame.Agrees (f g : AgwpeFrame) : Prop where
  port : f.header.port = g.header.port
  dataKind : f.header.dataKind = g.header.dataKind
  pid : f.header.pid = g.header.pid
  callFrom : f.header.callFrom = g.header.callFrom
  callTo : f.header.callTo = g.header.callTo
  dataLen : f.header.dataLen = g.header.dataLen
  user : f.header.user = g.header.user
  data : ∀ i : Fin agwpeMaxDataLen, i.val < g.header.dataLen.toNat → f.data i = g.data i

/-- What `agwpe_frame_decode` makes of the header. -/
def AgwpeHeader.named (h : AgwpeHeader) : AgwpeHeader :=
  { h with reserved1 := fun _ => 0, reserved2 := 0, reserved3 := 0 }

/-- `agwpe_frame_decode` on one complete frame. -/
theorem agwpeFrameDecode_bytes (w : AgwpeWireFrame)
    (hsize : agwpeHeaderSize + w.payload.length < wordSize) :
    agwpeFrameDecode w.bytes =
      .ok { w.delivered with header := w.delivered.header.named } := by
  have hlen : (List.ofFn w.header).length = 36 := List.length_ofFn
  have hbytes : w.bytes.length = 36 + w.payload.length := by
    rw [AgwpeWireFrame.bytes, List.length_append, hlen]
  have hget : ∀ i < 36, w.bytes.getD i 0 = (List.ofFn w.header).getD i 0 := by
    intro i hi
    exact List.getD_append _ _ _ _ (by omega)
  have hword : ∀ k ≤ 32, readLe32 (w.bytes.drop k) = readLe32 ((List.ofFn w.header).drop k) := by
    intro k hk
    refine readLe32_congr fun i hi => ?_
    rw [getD_drop, getD_drop, hget _ (by omega)]
  have hcall : ∀ k ≤ 18, (fun i : Fin agwpeCallsignLen => w.bytes.getD (k + i) 0) =
      fun i : Fin agwpeCallsignLen => (List.ofFn w.header).getD (k + i) 0 := by
    intro k hk
    funext i
    have hi : i.val < 10 := i.isLt
    exact hget _ (by omega)
  -- the header, before its length is clamped
  have hheader : agwpeDecodeHeader w.bytes = (AgwpeHeader.ofImage w.header).named := by
    unfold agwpeDecodeHeader
    rw [hget 0 (by decide), hget 4 (by decide), hget 6 (by decide), hcall 8 (by decide),
      hcall 18 (by decide), hword 28 (by decide), hword 32 (by decide)]
    rfl
  have hdataLen : (AgwpeHeader.ofImage w.header).named.dataLen.toNat = w.payload.length :=
    w.length_eq.symm
  unfold agwpeFrameDecode
  rw [if_neg (by rw [hbytes, agwpeHeaderSize]; omega)]
  dsimp only
  have hfits : ¬ w.bytes.length < agwpeHeaderSize + w.payload.length := by
    rw [hbytes, agwpeHeaderSize]
    omega
  rw [hheader, hdataLen, Nat.mod_eq_of_lt hsize]
  simp only [hfits, if_false]
  split_ifs with hpos
  · have hdrop : w.bytes.drop agwpeHeaderSize = w.payload := by
      rw [AgwpeWireFrame.bytes]
      exact List.drop_left' hlen
    have hdata : storeAll agwpeFrameInit.data 0
        (w.payload.take (min w.payload.length agwpeMaxDataLen)) = w.delivered.data := by
      refine (storeAll_clear 0 _).trans ?_
      rw [Nat.min_comm, ← List.take_take, List.take_length]
      exact fill_take 0
    rw [hdrop, hdata]
    rfl
  · have hnil : w.payload.length = 0 := by
      rw [UInt32.lt_iff_toNat_lt, hdataLen] at hpos
      exact Nat.eq_zero_of_not_pos hpos
    have hzero : (AgwpeHeader.ofImage w.header).named.dataLen = 0 :=
      UInt32.toNat_inj.mp (hdataLen.trans hnil)
    have hdata : w.delivered.data = agwpeFrameInit.data := by
      rw [AgwpeWireFrame.delivered, List.length_eq_zero_iff.mp hnil]
      rfl
    have hlen0 : w.delivered.header.named =
        { (AgwpeHeader.ofImage w.header).named with dataLen := 0 } := by
      simp only [AgwpeWireFrame.delivered, hnil]
      rfl
    rw [hdata, hlen0, ← hzero]

theorem AgwpeHeader.encode_length (h : AgwpeHeader) : h.encode.length = agwpeHeaderSize := by
  simp only [AgwpeHeader.encode, List.length_append, List.length_ofFn, writeLe32,
    List.length_cons, List.length_nil]
  rfl

/-- Reading the header back: the reserved bytes are cleared. -/
theorem AgwpeHeader.ofBytes_encode (h : AgwpeHeader) : AgwpeHeader.ofBytes h.encode = h.named := by
  have hcall : ∀ (f : Fin agwpeCallsignLen → Byte) (pre post : List Byte) (i : Fin agwpeCallsignLen),
      (pre ++ (List.ofFn f ++ post)).getD (pre.length + i) 0 = f i := by
    intro f pre post i
    rw [List.getD_append_right _ _ _ _ (Nat.le_add_right _ _), Nat.add_sub_cancel_left,
      List.getD_append _ _ _ _ (by rw [List.length_ofFn]; exact i.isLt),
      List.getD_eq_getElem _ _ (by rw [List.length_ofFn]; exact i.isLt), List.getElem_ofFn]
  have hfrom : (fun i : Fin agwpeCallsignLen => h.encode.getD (8 + i) 0) = h.callFrom :=
    funext fun i => hcall h.callFrom [h.port, 0, 0, 0, h.dataKind, 0, h.pid, 0] _ i
  have hto : (fun i : Fin agwpeCallsignLen => h.encode.getD (18 + i) 0) = h.callTo := by
    funext i
    have hi := hcall h.callTo ([h.port, 0, 0, 0, h.dataKind, 0, h.pid, 0] ++ List.ofFn h.callFrom)
      (writeLe32 h.dataLen ++ writeLe32 h.user) i
    rw [List.append_assoc] at hi
    rw [← hi, AgwpeHeader.encode]
    congr 1
  have hwords : h.encode.drop 28 = writeLe32 h.dataLen ++ writeLe32 h.user := by
    rw [AgwpeHeader.encode, ← List.append_assoc, ← List.append_assoc]
    refine List.drop_left' ?_
    simp only [List.length_append, List.length_ofFn, List.length_cons, List.length_nil]
    rfl
  have huser : h.encode.drop 32 = writeLe32 h.user ++ [] := by
    rw [show 32 = 28 + 4 from rfl, ← List.drop_drop, hwords, List.append_nil]
    rfl
  have hreserved : (fun i : Fin 3 => h.encode.getD (1 + i) 0) = fun _ => 0 := by
    funext i
    match i with
    | 0 | 1 | 2 => rfl
  simp only [AgwpeHeader.ofBytes, hfrom, hto, hwords, huser, readLe32_writeLe32, hreserved]
  rfl

/-- The wire frame that the encoder writes. -/
theorem agwpeFrameEncode_bytes (f : AgwpeFrame) (h : f.header.dataLen.toNat ≤ agwpeMaxDataLen)
    {outSize : Nat} (hout : agwpeHeaderSize + f.header.dataLen.toNat ≤ outSize) :
    ∃ w : AgwpeWireFrame, agwpeFrameEncode f outSize = some w.bytes ∧
      AgwpeHeader.ofImage w.header = f.header.named ∧
      w.payload = (List.ofFn f.data).take f.header.dataLen.toNat := by
  have himage : List.ofFn (fill agwpeHeaderSize 0 f.header.encode) = f.header.encode := by
    have htake := take_ofFn_fill (n := agwpeHeaderSize) 0 (Nat.le_of_eq f.header.encode_length)
    rwa [f.header.encode_length, List.take_of_length_le (by rw [List.length_ofFn])] at htake
  have hheader : AgwpeHeader.ofImage (fill agwpeHeaderSize 0 f.header.encode) = f.header.named := by
    rw [AgwpeHeader.ofImage, himage, AgwpeHeader.ofBytes_encode]
  have hlen : ((List.ofFn f.data).take f.header.dataLen.toNat).length =
      f.header.dataLen.toNat := by
    rw [List.length_take, List.length_ofFn, Nat.min_eq_left h]
  refine ⟨⟨fill agwpeHeaderSize 0 f.header.encode, _, hlen.trans ?_⟩, ?_, hheader, rfl⟩
  · rw [hheader]
    rfl
  · unfold agwpeFrameEncode AgwpeWireFrame.bytes
    rw [himage]
    have hsize : agwpeHeaderSize + f.header.dataLen.toNat < wordSize := by
      rw [agwpeHeaderSize, wordSize]
      rw [agwpeMaxDataLen] at h
      omega
    rw [Nat.mod_eq_of_lt hsize, if_neg (by omega)]
    split_ifs with hpos
    · rfl
    · have hzero : f.header.dataLen.toNat = 0 := by
        rw [UInt32.lt_iff_toNat_lt] at hpos
        exact Nat.eq_zero_of_not_pos hpos
      have hnil : (List.ofFn f.data).take f.header.dataLen.toNat = [] := by
        rw [hzero, List.take_zero]
      simp only [hnil]

/-- Decoding what was encoded. -/
theorem agwpeFrameDecode_encode (f : AgwpeFrame) (h : f.header.dataLen.toNat ≤ agwpeMaxDataLen)
    {outSize : Nat} (hout : agwpeHeaderSize + f.header.dataLen.toNat ≤ outSize) :
    ∃ bytes g, agwpeFrameEncode f outSize = some bytes ∧ agwpeFrameDecode bytes = .ok g ∧
      g.Agrees f := by
  obtain ⟨w, henc, hheader, hpayload⟩ := agwpeFrameEncode_bytes f h hout
  have hlen : w.payload.length = f.header.dataLen.toNat := by
    rw [w.length_eq, hheader]
    rfl
  have hsize : agwpeHeaderSize + w.payload.length < wordSize := by
    rw [hlen, agwpeHeaderSize, wordSize]
    rw [agwpeMaxDataLen] at h
    omega
  have hdel : w.delivered.header = f.header.named := by
    rw [AgwpeWireFrame.delivered, hheader, hlen, Nat.min_eq_left h]
    simp only [AgwpeHeader.named, UInt32.ofNat_toNat]
  refine ⟨w.bytes, _, henc, agwpeFrameDecode_bytes w hsize, ?_⟩
  rw [hdel]
  refine ⟨rfl, rfl, rfl, rfl, rfl, rfl, rfl, fun i hi => ?_⟩
  have hi' : i.val < w.payload.length := by
    rw [hlen]
    exact hi
  have hdata : w.delivered.data i = w.payload[i.val] := List.getD_eq_getElem _ _ hi'
  refine hdata.trans ?_
  simp only [hpayload, List.getElem_take, List.getElem_ofFn]

/-- **The two decoders and the encoder agree.** `agwpe_frame_decode` returns what
`agwpe_frame_encode` was given, and on one complete frame, of any length that does
not wrap, it delivers what the streaming decoder delivers. -/
theorem agwpe_decoders_agree :
    (∀ f : AgwpeFrame, f.header.dataLen.toNat ≤ agwpeMaxDataLen →
      ∀ outSize, agwpeHeaderSize + f.header.dataLen.toNat ≤ outSize →
        ∃ bytes g, agwpeFrameEncode f outSize = some bytes ∧ agwpeFrameDecode bytes = .ok g ∧
          g.Agrees f) ∧
    ∀ w : AgwpeWireFrame, agwpeHeaderSize + w.payload.length < wordSize →
      ∃ g g', agwpeFrameDecode w.bytes = .ok g ∧
        ((agwpeDecoderInit true).processBytes w.bytes).2 = [g'] ∧
        g.Agrees g' ∧ g.data = g'.data :=
  ⟨fun f h _ hout => agwpeFrameDecode_encode f h hout, fun w hsize =>
    ⟨_, _, agwpeFrameDecode_bytes w hsize, (AgwpeDecoder.run_frame AgwpeDecoder.idle_init w).2,
      ⟨rfl, rfl, rfl, rfl, rfl, rfl, rfl, fun _ _ => rfl⟩, rfl⟩⟩

/-- The decoders on a frame with two bytes of data. -/
theorem agwpe_decoders_agree_sample :
    ∃ g g', agwpeFrameDecode sampleWireFrame.bytes = .ok g ∧
      ((agwpeDecoderInit true).processBytes sampleWireFrame.bytes).2 = [g'] ∧
      g.Agrees g' ∧ g.data = g'.data :=
  agwpe_decoders_agree.2 sampleWireFrame (by decide)

end EspAx25
