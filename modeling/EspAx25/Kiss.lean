import EspAx25.Transducer
import EspAx25.Types

/-!
# EspAx25.Kiss

The KISS framing of `ax25_kiss.c`.

The decoder is a machine over bytes that emits the invocations of its callback;
the assembly buffer `frame_buf` with `frame_len` is the list of the bytes
assembled so far. The encoder writes into a buffer of a given size and returns 0
when it is full, which is `none` here: a successful call has written at least
one byte.

A frame that is encoded and fed to the decoder in any chunks comes out as it went
in (`kiss_stream_roundtrip`), also one with a port and a command of its own unless
the byte of these is a FEND or a FESC (`kiss_roundtrip_iff`). After a stream that is
not a sequence of frames this need not be so: a FEND that arrives inside a frame ends
it and does not open the next one, so the frame after a truncated one is lost
(`kiss_resync_exact`).
-/

namespace EspAx25

open Transducer

/-- `AX25_KISS_FEND`. -/
def kissFend : Byte := 0xC0
/-- `AX25_KISS_FESC`. -/
def kissFesc : Byte := 0xDB
/-- `AX25_KISS_TFEND`. -/
def kissTfend : Byte := 0xDC
/-- `AX25_KISS_TFESC`. -/
def kissTfesc : Byte := 0xDD

/-- `AX25_KISS_MAX_ENCODED_SIZE`. -/
def kissMaxEncodedSize : Nat := bufferSize * 2 + 4

/-! ### The decoder -/

/-- `ax25_kiss_state_t`. -/
inductive KissState
  | waitFend
  | waitPortCmd
  | receiving
  deriving Repr, DecidableEq

/-- `ax25_kiss_decoder_t`. -/
structure KissDecoder where
  state : KissState := .waitFend
  escaped : Bool := false
  port : Byte := 0
  command : Byte := 0
  frameBuf : List Byte := []
  /-- The callback is not NULL. -/
  callback : Bool
  deriving Repr, DecidableEq

/-- One invocation of the frame callback. -/
structure KissFrame where
  port : Byte
  command : Byte
  data : List Byte
  deriving Repr, DecidableEq

/-- `ax25_kiss_decoder_init`. -/
def kissDecoderInit (callback : Bool) : KissDecoder := { callback }

namespace KissDecoder

/-- A decoded byte goes into the buffer, unless it is full. -/
def push (d : KissDecoder) (byte : Byte) : KissDecoder :=
  if d.frameBuf.length < bufferSize then { d with frameBuf := d.frameBuf ++ [byte] }
  else { d with frameBuf := [], state := .waitFend }

/-- `ax25_kiss_decoder_process_byte`. -/
def processByte (d : KissDecoder) (byte : Byte) : KissDecoder × List KissFrame :=
  match d.state with
  | .waitFend =>
    if byte = kissFend then
      ({ d with state := .waitPortCmd, escaped := false, frameBuf := [] }, [])
    else (d, [])
  | .waitPortCmd =>
    if byte = kissFend then (d, [])
    else
      ({ d with port := (byte >>> 4) &&& 0x0F, command := byte &&& 0x0F, state := .receiving }, [])
  | .receiving =>
    if d.escaped then
      if byte = kissTfend then ({ d with escaped := false }.push kissFend, [])
      else if byte = kissTfesc then ({ d with escaped := false }.push kissFesc, [])
      else ({ d with escaped := false, frameBuf := [], state := .waitFend }, [])
    else if byte = kissFesc then ({ d with escaped := true }, [])
    else if byte = kissFend then
      ({ d with frameBuf := [], state := .waitFend },
        if 0 < d.frameBuf.length ∧ d.callback then [⟨d.port, d.command, d.frameBuf⟩] else [])
    else (d.push byte, [])

/-- `ax25_kiss_decoder_process_bytes`. -/
def processBytes : KissDecoder → List Byte → KissDecoder × List KissFrame := run processByte

/-- A sequence of calls of `ax25_kiss_decoder_process_bytes`. -/
def processChunks : KissDecoder → List (List Byte) → KissDecoder × List KissFrame :=
  run processBytes

end KissDecoder

/-! ### The encoder -/

/-- The bytes that stand for `byte`. -/
def kissEscape (byte : Byte) : List Byte :=
  if byte = kissFend then [kissFesc, kissTfend]
  else if byte = kissFesc then [kissFesc, kissTfesc]
  else [byte]

/-- `kiss_add_escaped_byte`: `out` is what has been written so far. -/
def kissAddEscapedByte (byte : Byte) (out : List Byte) (outSize : Nat) : Option (List Byte) :=
  if byte = kissFend then
    if out.length + 2 > outSize then none else some (out ++ [kissFesc, kissTfend])
  else if byte = kissFesc then
    if out.length + 2 > outSize then none else some (out ++ [kissFesc, kissTfesc])
  else if out.length + 1 > outSize then none
  else some (out ++ [byte])

/-- `ax25_kiss_encode`. -/
def kissEncode (port command : Byte) (data : List Byte) (outSize : Nat) : Option (List Byte) := do
  if outSize = 0 then none
  else
    let portCmd := ((port &&& 0x0F) <<< 4) ||| (command &&& 0x0F)
    let out ← kissAddEscapedByte portCmd [kissFend] outSize
    let out ← data.foldlM (fun out byte => kissAddEscapedByte byte out outSize) out
    if out.length + 1 > outSize then none else some (out ++ [kissFend])

/-- What a successful call writes. -/
def kissEncoded (port command : Byte) (data : List Byte) : List Byte :=
  kissFend :: (kissEscape (((port &&& 0x0F) <<< 4) ||| (command &&& 0x0F)) ++
    data.flatMap kissEscape ++ [kissFend])

/-- The port/command byte. -/
def kissPortCmd (port command : Byte) : Byte := ((port &&& 0x0F) <<< 4) ||| (command &&& 0x0F)

theorem kissEscape_length_le (byte : Byte) : (kissEscape byte).length ≤ 2 := by
  unfold kissEscape
  split_ifs <;> simp

theorem flatMap_kissEscape_length_le (data : List Byte) :
    (data.flatMap kissEscape).length ≤ 2 * data.length := by
  induction data with
  | nil => exact Nat.le_refl 0
  | cons byte data ih =>
      have := kissEscape_length_le byte
      rw [List.flatMap_cons, List.length_append, List.length_cons]
      omega

/-- A byte is written if what stands for it fits, and not at all if not. -/
theorem kissAddEscapedByte_eq (byte : Byte) (out : List Byte) (outSize : Nat) :
    kissAddEscapedByte byte out outSize =
      if out.length + (kissEscape byte).length ≤ outSize then some (out ++ kissEscape byte)
      else none := by
  unfold kissAddEscapedByte kissEscape
  simp only [gt_iff_lt, ← Nat.not_le, ite_not]
  split_ifs <;> first | rfl | contradiction

theorem foldlM_kissAddEscapedByte {outSize : Nat} (data : List Byte) : ∀ {out : List Byte},
    out.length ≤ outSize →
      data.foldlM (fun out byte => kissAddEscapedByte byte out outSize) out =
        if out.length + (data.flatMap kissEscape).length ≤ outSize then
          some (out ++ data.flatMap kissEscape)
        else none := by
  induction data with
  | nil =>
      intro out h
      simp [h]
  | cons byte data ih =>
      intro out _
      rw [List.foldlM_cons, kissAddEscapedByte_eq, List.flatMap_cons, List.length_append]
      by_cases hbyte : out.length + (kissEscape byte).length ≤ outSize
      · rw [if_pos hbyte, Option.bind_eq_bind, Option.bind_some,
          ih (by rwa [List.length_append]), List.length_append, List.append_assoc, Nat.add_assoc]
      · rw [if_neg hbyte, if_neg (by omega)]
        rfl

/-- A call succeeds if all that it has to write fits. -/
theorem kissEncode_eq (port command : Byte) (data : List Byte) (outSize : Nat) :
    kissEncode port command data outSize =
      if (kissEncoded port command data).length ≤ outSize then
        some (kissEncoded port command data)
      else none := by
  have hlen : (kissEncoded port command data).length =
      1 + (kissEscape (((port &&& 0x0F) <<< 4) ||| (command &&& 0x0F))).length +
        (data.flatMap kissEscape).length + 1 := by
    simp only [kissEncoded, List.length_cons, List.length_append, List.length_nil]
    omega
  unfold kissEncode
  by_cases hzero : outSize = 0
  · rw [if_pos hzero, if_neg (by omega)]
  · rw [if_neg hzero]
    dsimp only
    rw [kissAddEscapedByte_eq]
    have hone : [kissFend].length = 1 := rfl
    by_cases hport : [kissFend].length +
        (kissEscape (((port &&& 0x0F) <<< 4) ||| (command &&& 0x0F))).length ≤ outSize
    · rw [if_pos hport, Option.bind_eq_bind, Option.bind_some,
        foldlM_kissAddEscapedByte data (by rwa [List.length_append]), List.length_append]
      split_ifs with hdata hall hall
      · dsimp only [Option.bind_eq_bind, Option.bind_some]
        rw [if_neg (by simp only [List.length_append]; omega)]
        simp [kissEncoded]
      · dsimp only [Option.bind_eq_bind, Option.bind_some]
        rw [if_pos (by simp only [List.length_append]; omega)]
      · omega
      · rfl
    · rw [if_neg hport, if_neg (by omega)]
      rfl

/-- Four bytes and two for each byte of the frame are enough room. -/
theorem kissEncoded_length_le (port command : Byte) (data : List Byte) :
    (kissEncoded port command data).length ≤ data.length * 2 + 4 := by
  have hport := kissEscape_length_le (((port &&& 0x0F) <<< 4) ||| (command &&& 0x0F))
  have hdata := flatMap_kissEscape_length_le data
  simp only [kissEncoded, List.length_cons, List.length_append, List.length_nil]
  omega

theorem kissEncode_of_room (port command : Byte) {data : List Byte} {outSize : Nat}
    (h : data.length * 2 + 4 ≤ outSize) :
    kissEncode port command data outSize = some (kissEncoded port command data) := by
  rw [kissEncode_eq, if_pos (Nat.le_trans (kissEncoded_length_le port command data) h)]

/-- What the decoder reads in the port/command byte is what the encoder put there. -/
theorem kissPortCmd_facts (port command : Byte) : port < 16 → command < 16 →
    (kissPortCmd port command >>> 4) &&& 0x0F = port ∧ kissPortCmd port command &&& 0x0F = command ∧
      (kissPortCmd port command = kissFend ↔ port = 12 ∧ command = 0) ∧
      (kissPortCmd port command = kissFesc ↔ port = 13 ∧ command = 11) := by
  intro hport hcommand
  have hall : ∀ p < 16, ∀ c < 16,
      (kissPortCmd (UInt8.ofNat p) (UInt8.ofNat c) >>> 4) &&& 0x0F = UInt8.ofNat p ∧
        kissPortCmd (UInt8.ofNat p) (UInt8.ofNat c) &&& 0x0F = UInt8.ofNat c ∧
        (kissPortCmd (UInt8.ofNat p) (UInt8.ofNat c) = kissFend ↔
          UInt8.ofNat p = 12 ∧ UInt8.ofNat c = 0) ∧
        (kissPortCmd (UInt8.ofNat p) (UInt8.ofNat c) = kissFesc ↔
          UInt8.ofNat p = 13 ∧ UInt8.ofNat c = 11) := by
    decide +kernel
  have := hall port.toNat (UInt8.lt_iff_toNat_lt.mp hport) command.toNat
    (UInt8.lt_iff_toNat_lt.mp hcommand)
  rwa [UInt8.ofNat_toNat, UInt8.ofNat_toNat] at this

/-! ### Decoding what was encoded -/

namespace KissDecoder

variable {d : KissDecoder}

/-- While receiving, the bytes that stand for `byte` put it into the buffer. -/
theorem run_escape (hs : d.state = .receiving) (he : d.escaped = false) (byte : Byte)
    (hlen : d.frameBuf.length < bufferSize) :
    run processByte d (kissEscape byte) = ({ d with frameBuf := d.frameBuf ++ [byte] }, []) := by
  unfold kissEscape
  split_ifs with hfend hfesc
  · subst hfend
    simp [run_cons, processByte, hs, he, push, hlen]
  · subst hfesc
    simp [run_cons, processByte, hs, he, push, hlen, show kissTfesc ≠ kissTfend by decide]
  · simp [processByte, hs, he, push, hlen, hfend, hfesc]

theorem run_escaped (data : List Byte) : ∀ {d : KissDecoder}, d.state = .receiving →
    d.escaped = false → d.frameBuf.length + data.length ≤ bufferSize →
      run processByte d (data.flatMap kissEscape) =
        ({ d with frameBuf := d.frameBuf ++ data }, []) := by
  induction data with
  | nil =>
      intro d _ _ _
      simp
  | cons byte data ih =>
      intro d hs he hlen
      rw [List.length_cons] at hlen
      rw [List.flatMap_cons, run_append, run_escape hs he byte (by omega)]
      rw [ih (by exact hs) (by exact he) (by simp; omega)]
      simp

/-- Escaped data and the closing FEND, in a decoder with room for them. -/
theorem run_body (hs : d.state = .receiving) (he : d.escaped = false) (hcb : d.callback = true)
    {data : List Byte} (hne : d.frameBuf ++ data ≠ [])
    (hlen : d.frameBuf.length + data.length ≤ bufferSize) :
    run processByte d (data.flatMap kissEscape ++ [kissFend]) =
      ({ d with state := .waitFend, frameBuf := [] },
        [⟨d.port, d.command, d.frameBuf ++ data⟩]) := by
  have hpos : 0 < (d.frameBuf ++ data).length := List.length_pos_iff.mpr hne
  rw [run_append, run_escaped data hs he hlen, run_singleton]
  simp only [processByte, hs, he, hcb, show kissFend ≠ kissFesc by decide, Bool.false_eq_true,
    if_false, if_true, hpos, and_self, List.nil_append]

/-- One encoded frame, from a decoder between two frames, if the port/command byte needs
no escape. -/
theorem run_kissEncoded_port (hs : d.state = .waitFend) (hcb : d.callback = true)
    {port command : Byte} (hport : port < 16) (hcommand : command < 16)
    (hfend : kissPortCmd port command ≠ kissFend) (hfesc : kissPortCmd port command ≠ kissFesc)
    {data : List Byte} (h₀ : 1 ≤ data.length) (h₁ : data.length ≤ bufferSize) :
    run processByte d (kissEncoded port command data) =
      ({ kissDecoderInit true with port, command }, [⟨port, command, data⟩]) := by
  obtain ⟨hp, hc, -, -⟩ := kissPortCmd_facts port command hport hcommand
  have hescape : kissEscape (kissPortCmd port command) = [kissPortCmd port command] := by
    rw [kissEscape, if_neg hfend, if_neg hfesc]
  -- the opening FEND and the port byte
  have hopen : run processByte d [kissFend, kissPortCmd port command] =
      ({ kissDecoderInit true with state := .receiving, port, command }, []) := by
    simp [run_cons, processByte, hs, hcb, kissDecoderInit, hfend, hp, hc]
  have hne : data ≠ [] := List.length_pos_iff.mp h₀
  have hbody := run_body (d := { kissDecoderInit true with state := .receiving, port, command })
    rfl rfl rfl (show [] ++ data ≠ [] from hne) (by simpa [kissDecoderInit] using h₁)
  have hbytes : kissEncoded port command data =
      [kissFend, kissPortCmd port command] ++ (data.flatMap kissEscape ++ [kissFend]) := by
    rw [kissEncoded, ← kissPortCmd, hescape]
    rfl
  rw [hbytes, run_append, hopen]
  dsimp only at hbody ⊢
  rw [hbody]
  rfl

/-- One encoded frame of port 0, from a decoder between two frames. -/
theorem run_kissEncoded (hs : d.state = .waitFend) (hcb : d.callback = true) {data : List Byte}
    (h₀ : 1 ≤ data.length) (h₁ : data.length ≤ bufferSize) :
    run processByte d (kissEncoded 0 0 data) = (kissDecoderInit true, [⟨0, 0, data⟩]) :=
  run_kissEncoded_port hs hcb (by decide) (by decide) (by decide) (by decide) h₀ h₁

theorem run_stream {frames : List (List Byte)}
    (h : ∀ f ∈ frames, 1 ≤ f.length ∧ f.length ≤ bufferSize) :
    run processByte (kissDecoderInit true) (frames.flatMap (kissEncoded 0 0)) =
      (kissDecoderInit true, frames.map (⟨0, 0, ·⟩)) := by
  induction frames with
  | nil => rfl
  | cons f frames ih =>
      obtain ⟨h₀, h₁⟩ := h f List.mem_cons_self
      rw [List.flatMap_cons, run_append, run_kissEncoded rfl rfl h₀ h₁,
        ih fun f hf => h f (List.mem_cons_of_mem _ hf)]
      rfl

end KissDecoder

/-- **The KISS stream round trip.** Frames of 1 to 338 bytes, encoded one by one
into buffers of the documented size and fed to a fresh decoder in any chunks, are
handed to the callback once each, in order and unchanged, and nothing is left in
the decoder. -/
theorem kiss_stream_roundtrip (frames : List (List Byte))
    (h : ∀ f ∈ frames, 1 ≤ f.length ∧ f.length ≤ 338) (outSize : Nat)
    (hsize : kissMaxEncodedSize ≤ outSize) :
    ∃ encoded, frames.mapM (kissEncode 0 0 · outSize) = some encoded ∧
      ∀ chunks : List (List Byte), chunks.flatten = encoded.flatten →
        (kissDecoderInit true).processChunks chunks =
          (kissDecoderInit true, frames.map (⟨0, 0, ·⟩)) := by
  refine ⟨frames.map (kissEncoded 0 0), ?_, fun chunks hc => ?_⟩
  · -- the documented buffer holds every frame
    have henc : ∀ f ∈ frames, kissEncode 0 0 f outSize = some (kissEncoded 0 0 f) := by
      intro f hf
      have := (h f hf).2
      exact kissEncode_of_room 0 0 (by simp only [kissMaxEncodedSize, bufferSize, addressLen,
        maxDigipeaters, maxInfoLen] at hsize; omega)
    clear h
    induction frames with
    | nil => rfl
    | cons f frames ih =>
        rw [List.mapM_cons, henc f List.mem_cons_self,
          ih fun f hf => henc f (List.mem_cons_of_mem _ hf)]
        rfl
  · rw [KissDecoder.processChunks, KissDecoder.processBytes]
    rw [show run (run KissDecoder.processByte) = runChunks KissDecoder.processByte from rfl,
      runChunks_eq, hc, ← List.flatMap_def]
    exact KissDecoder.run_stream h

/-- Two frames that need escapes, in chunks that cut one of the escapes. -/
theorem kiss_stream_roundtrip_two :
    (kissDecoderInit true).processChunks
        [[0xC0, 0x00, 0xDB], [0xDC, 0x01, 0xC0, 0xC0], [0x00, 0xDB, 0xDD, 0xC0]] =
      (kissDecoderInit true, [⟨0, 0, [0xC0, 0x01]⟩, ⟨0, 0, [0xDB]⟩]) := by
  obtain ⟨encoded, henc, hrun⟩ := kiss_stream_roundtrip [[0xC0, 0x01], [0xDB]] (by decide) 680
    (by decide)
  refine hrun _ ?_
  rw [← Option.some.inj henc]
  decide

/-! ### Ports and commands -/

namespace KissDecoder

variable {d : KissDecoder}

/-- A byte too much is dropped with the frame, and the closing FEND opens another one. -/
theorem run_overfull (hs : d.state = .receiving) (he : d.escaped = false)
    (hfull : d.frameBuf.length = bufferSize) (byte : Byte) :
    (run processByte d (kissEscape byte ++ [kissFend])).2 = [] := by
  have hpush : ∀ e : KissDecoder, e.frameBuf = d.frameBuf → ∀ b : Byte,
      e.push b = { e with frameBuf := [], state := .waitFend } := fun e heq b => by
    rw [push, if_neg (by rw [heq, hfull]; exact Nat.lt_irrefl _)]
  rw [run_append, run_singleton]
  unfold kissEscape
  split_ifs with hfend hfesc
  · simp [run_cons, processByte, hs, he, hpush]
  · simp [run_cons, processByte, hs, he, hpush, show kissTfesc ≠ kissTfend by decide]
  · simp [processByte, hs, he, hpush, hfend, hfesc]

/-- If the port/command byte has been escaped, the decoder takes the FESC for it and what
follows for the first byte of the frame. -/
theorem run_kissEncoded_escaped (hs : d.state = .waitFend) (hcb : d.callback = true)
    {port command t : Byte} (hescape : kissEscape (kissPortCmd port command) = [kissFesc, t])
    (hfend : t ≠ kissFend) (hfesc : t ≠ kissFesc) {data : List Byte} (h₀ : 1 ≤ data.length)
    (h₁ : data.length ≤ bufferSize) :
    (run processByte d (kissEncoded port command data)).2 =
      if data.length < bufferSize then [⟨13, 11, t :: data⟩] else [] := by
  have hopen : run processByte d [kissFend, kissFesc, t] =
      ({ kissDecoderInit true with state := .receiving, port := 13, command := 11,
                                   frameBuf := [t] }, []) := by
    have hroom : 0 < bufferSize := by decide
    simp [run_cons, processByte, push, hs, hcb, kissDecoderInit, hfend, hfesc, hroom,
      show kissFesc ≠ kissFend by decide]
    decide
  have hbytes : kissEncoded port command data =
      [kissFend, kissFesc, t] ++ (data.flatMap kissEscape ++ [kissFend]) := by
    rw [kissEncoded, ← kissPortCmd, hescape]
    rfl
  rw [hbytes, run_append, hopen, List.nil_append]
  split_ifs with hshort
  · rw [run_body rfl rfl rfl (List.cons_ne_nil _ _) (by rw [List.length_singleton]; omega)]
    rfl
  · obtain rfl | ⟨init, last, rfl⟩ := List.eq_nil_or_concat data
    · cases h₀
    · rw [List.concat_eq_append, List.length_append, List.length_singleton] at h₁ hshort
      rw [List.concat_eq_append, List.flatMap_append, List.append_assoc, run_append,
        run_escaped init rfl rfl (by rw [List.length_singleton]; omega), List.nil_append,
        List.flatMap_singleton, run_overfull rfl rfl]
      simp only [List.length_append, List.length_singleton]
      omega

end KissDecoder

/-- **KISS frames of every port.** A frame of 1 to 338 bytes comes out of a decoder between
two frames as it was encoded, unless its port/command byte is FEND or FESC. -/
theorem kiss_roundtrip_iff {port command : Byte} (hport : port < 16) (hcommand : command < 16)
    {data : List Byte} (h₀ : 1 ≤ data.length) (h₁ : data.length ≤ 338) :
    (∀ outSize, data.length * 2 + 4 ≤ outSize → (kissEncode port command data outSize).isSome) ∧
      ∀ outSize encoded, kissEncode port command data outSize = some encoded →
        ∀ d : KissDecoder, d.state = .waitFend → d.callback = true →
          ((d.processBytes encoded).2 = [⟨port, command, data⟩] ↔
            ¬ (port = 12 ∧ command = 0) ∧ ¬ (port = 13 ∧ command = 11)) := by
  refine ⟨fun outSize hroom => ?_, fun outSize encoded henc d hs hcb => ?_⟩
  · rw [kissEncode_of_room port command hroom]
    rfl
  · rw [kissEncode_eq] at henc
    obtain rfl : kissEncoded port command data = encoded := by
      split_ifs at henc
      exact Option.some.inj henc
    obtain ⟨-, -, hfend, hfesc⟩ := kissPortCmd_facts port command hport hcommand
    rw [← hfend, ← hfesc, KissDecoder.processBytes]
    -- what the decoder takes for the frame is one byte longer
    have hlonger : ∀ t : Byte,
        (if data.length < bufferSize then [(⟨13, 11, t :: data⟩ : KissFrame)] else []) ≠
          [⟨port, command, data⟩] := by
      intro t heq
      split_ifs at heq
      simp only [List.cons.injEq, KissFrame.mk.injEq, and_true] at heq
      exact absurd (congrArg List.length heq.2.2) (by simp)
    by_cases hport' : kissPortCmd port command = kissFend
    · have hescape : kissEscape (kissPortCmd port command) = [kissFesc, kissTfend] := by
        rw [kissEscape, if_pos hport']
      rw [KissDecoder.run_kissEncoded_escaped hs hcb hescape (by decide) (by decide) h₀ h₁]
      exact iff_of_false (hlonger _) fun h => h.1 hport'
    · by_cases hport'' : kissPortCmd port command = kissFesc
      · have hescape : kissEscape (kissPortCmd port command) = [kissFesc, kissTfesc] := by
          rw [kissEscape, if_neg hport', if_pos hport'']
        rw [KissDecoder.run_kissEncoded_escaped hs hcb hescape (by decide) (by decide) h₀ h₁]
        exact iff_of_false (hlonger _) fun h => h.2 hport''
      · rw [KissDecoder.run_kissEncoded_port hs hcb hport hcommand hport' hport'' h₀ h₁]
        exact iff_of_true rfl ⟨hport', hport''⟩

/-- Command 1 on port 5, with a FEND in the data. -/
theorem kiss_roundtrip_iff_port :
    ((kissDecoderInit true).processBytes [0xC0, 0x51, 0xDB, 0xDC, 0xC0]).2 = [⟨5, 1, [0xC0]⟩] :=
  ((kiss_roundtrip_iff (by decide) (by decide) (by decide) (by decide)).2 6 _ (by decide) _ rfl
    rfl).mpr (by decide)

/-- A data frame for port 12 comes out as command 11 on port 13. -/
theorem kiss_port_lost :
    ¬ ∀ (port command : Byte) (data : List Byte), port < 16 → command < 16 → 1 ≤ data.length →
      data.length ≤ 338 → ∀ encoded,
        kissEncode port command data kissMaxEncodedSize = some encoded →
          ((kissDecoderInit true).processBytes encoded).2 = [⟨port, command, data⟩] := by
  intro h
  have hlost := h 12 0 [0x42] (by decide) (by decide) (by decide) (by decide)
    [0xC0, 0xDB, 0xDC, 0x42, 0xC0] (by decide)
  rw [show ((kissDecoderInit true).processBytes [0xC0, 0xDB, 0xDC, 0x42, 0xC0]).2 =
    [⟨13, 11, [0xDC, 0x42]⟩] by decide] at hlost
  cases hlost

/-! ### Resynchronisation -/

theorem ne_fend_of_mem_kissEscape {byte b : Byte} (h : b ∈ kissEscape byte) : b ≠ kissFend := by
  unfold kissEscape at h
  split_ifs at h with hfend hfesc
  · rcases List.mem_pair.mp h with rfl | rfl <;> decide
  · rcases List.mem_pair.mp h with rfl | rfl <;> decide
  · rw [List.mem_singleton.mp h]
    exact hfend

/-- There is no FEND between those of a frame. -/
theorem ne_fend_of_mem_body {portCmd b : Byte} {data : List Byte}
    (h : b ∈ kissEscape portCmd ++ data.flatMap kissEscape) : b ≠ kissFend := by
  rcases List.mem_append.mp h with h | h
  · exact ne_fend_of_mem_kissEscape h
  · obtain ⟨c, -, h⟩ := List.mem_flatMap.mp h
    exact ne_fend_of_mem_kissEscape h

namespace KissDecoder

variable {d : KissDecoder} {data : List Byte}

/-- What holds of a decoder with a callback after any bytes: one that has just seen
a FEND has nothing in its buffer. -/
structure Tidy (d : KissDecoder) : Prop where
  callback : d.callback = true
  opening : d.state = .waitPortCmd → d.escaped = false ∧ d.frameBuf = []

theorem Tidy.push {d : KissDecoder} (hcb : d.callback = true) (hs : d.state = .receiving)
    (byte : Byte) : Tidy (d.push byte) := by
  unfold KissDecoder.push
  split_ifs
  · exact ⟨hcb, fun h => by rw [show d.state = _ from h] at hs; cases hs⟩
  · exact ⟨hcb, fun h => by cases h⟩

theorem Tidy.processByte {d : KissDecoder} (h : Tidy d) (byte : Byte) :
    Tidy (d.processByte byte).1 := by
  unfold KissDecoder.processByte
  split
  · split_ifs
    · exact ⟨h.callback, fun _ => ⟨rfl, rfl⟩⟩
    · exact h
  · split_ifs
    · exact h
    · exact ⟨h.callback, fun hs => by cases hs⟩
  · next hs =>
    split_ifs
    · exact Tidy.push (d := { d with escaped := false }) h.callback hs _
    · exact Tidy.push (d := { d with escaped := false }) h.callback hs _
    · exact ⟨h.callback, fun hs => by cases hs⟩
    · exact ⟨h.callback, fun hs' => by rw [show d.state = _ from hs'] at hs; cases hs⟩
    · exact ⟨h.callback, fun hs => by cases hs⟩
    · exact ⟨h.callback, fun hs => by cases hs⟩
    · exact Tidy.push h.callback hs _

/-- A frame that finds the decoder outside of any frame is delivered. -/
theorem run_kissEncoded_of_outside (h : Tidy d) (hs : d.state ≠ .receiving) (h₀ : 1 ≤ data.length)
    (h₁ : data.length ≤ bufferSize) :
    (run KissDecoder.processByte d (kissEncoded 0 0 data)).2 = [⟨0, 0, data⟩] := by
  cases hst : d.state with
  | waitFend => rw [run_kissEncoded hst h.callback h₀ h₁]
  | waitPortCmd =>
      -- the opening FEND is a repeated one: the decoder is where a first one leads
      obtain ⟨he, hb⟩ := h.opening hst
      have hfend : KissDecoder.processByte d kissFend =
          KissDecoder.processByte { d with state := .waitFend } kissFend := by
        obtain ⟨st, esc, port, cmd, buf, cb⟩ := d
        cases hst
        cases he
        cases hb
        rfl
      have hrun : run KissDecoder.processByte d (kissEncoded 0 0 data) =
          run KissDecoder.processByte { d with state := .waitFend } (kissEncoded 0 0 data) := by
        unfold kissEncoded
        rw [run_cons, run_cons, hfend]
      rw [hrun, run_kissEncoded (d := { d with state := .waitFend }) rfl h.callback h₀ h₁]
  | receiving => exact absurd hst hs

/-- A decoder that waits for FEND skips everything up to the closing FEND of a frame. -/
theorem run_skipped (hs : d.state = .waitFend) (data : List Byte) :
    (run KissDecoder.processByte d (kissEscape 0 ++ data.flatMap kissEscape ++ [kissFend])).2 =
      [] := by
  have hskip : run KissDecoder.processByte d (kissEscape 0 ++ data.flatMap kissEscape) =
      (d, []) := by
    refine run_ignored _ fun b hb => ?_
    simp [KissDecoder.processByte, hs, ne_fend_of_mem_body hb]
  rw [run_append, hskip, run_singleton]
  simp [KissDecoder.processByte, hs]

/-- A frame that finds the decoder inside another one is lost: its opening FEND
delivers that one, unless it cuts an escape, and the rest is skipped. -/
theorem run_kissEncoded_of_inside (h : Tidy d) (hs : d.state = .receiving) :
    (run KissDecoder.processByte d (kissEncoded 0 0 data)).2 =
      if d.escaped = false ∧ 0 < d.frameBuf.length then [⟨d.port, d.command, d.frameBuf⟩]
      else [] := by
  rw [show kissEncoded 0 0 data =
    kissFend :: (kissEscape 0 ++ data.flatMap kissEscape ++ [kissFend]) from rfl, run_cons]
  have hcb := h.callback
  cases he : d.escaped with
  | true =>
      have hstep : KissDecoder.processByte d kissFend =
          ({ d with escaped := false, frameBuf := [], state := .waitFend }, []) := by
        simp [KissDecoder.processByte, hs, he, show kissFend ≠ kissTfend by decide,
          show kissFend ≠ kissTfesc by decide]
      rw [hstep]
      dsimp only
      rw [run_skipped rfl]
      simp
  | false =>
      have hstep : KissDecoder.processByte d kissFend =
          ({ d with frameBuf := [], state := .waitFend },
            if 0 < d.frameBuf.length then [⟨d.port, d.command, d.frameBuf⟩] else []) := by
        simp [KissDecoder.processByte, hs, he, hcb, show kissFend ≠ kissFesc by decide]
      rw [hstep]
      dsimp only
      rw [run_skipped rfl, List.append_nil]
      simp

end KissDecoder

/-- **Resynchronisation, exactly when.** After any bytes `g`, an encoded frame of 1
to 338 bytes is the last one that the decoder delivers, if and only if `g` has not
left the decoder inside a frame, or has left it inside a copy of that very frame. -/
theorem kiss_resync_exact (g data : List Byte) (h₀ : 1 ≤ data.length) (h₁ : data.length ≤ 338)
    (outSize : Nat) (hsize : kissMaxEncodedSize ≤ outSize) :
    let d := ((kissDecoderInit true).processBytes g).1
    ∃ encoded, kissEncode 0 0 data outSize = some encoded ∧
      ((∃ earlier, (d.processBytes encoded).2 = earlier ++ [⟨0, 0, data⟩]) ↔
        d.state ≠ .receiving ∨
          d.escaped = false ∧ d.port = 0 ∧ d.command = 0 ∧ d.frameBuf = data) := by
  intro d
  have hroom : data.length * 2 + 4 ≤ outSize := by
    simp only [kissMaxEncodedSize, bufferSize, addressLen, maxDigipeaters, maxInfoLen] at hsize
    omega
  refine ⟨_, kissEncode_of_room 0 0 hroom, ?_⟩
  have hd : KissDecoder.Tidy d :=
    run_invariant _ (fun _ byte h => h.processByte byte) ⟨rfl, fun h => by cases h⟩ g
  rw [KissDecoder.processBytes]
  by_cases hs : d.state = .receiving
  · rw [KissDecoder.run_kissEncoded_of_inside hd hs]
    constructor
    · intro hsome
      obtain ⟨earlier, hout⟩ := hsome
      refine Or.inr ?_
      split_ifs at hout with hopen
      · obtain ⟨-, hlast⟩ := List.append_inj' (show [] ++ [_] = earlier ++ [_] from hout) rfl
        simp only [List.cons.injEq, KissFrame.mk.injEq, and_true] at hlast
        exact ⟨hopen.1, hlast⟩
      · simp at hout
    · rintro (hne | ⟨he, hp, hc, hb⟩)
      · exact absurd hs hne
      · refine ⟨[], ?_⟩
        rw [if_pos ⟨he, by rw [hb]; exact h₀⟩, hp, hc, hb]
        rfl
  · have hout := KissDecoder.run_kissEncoded_of_outside hd hs h₀ h₁
    rw [hout]
    exact ⟨fun _ => Or.inl hs, fun _ => ⟨[], rfl⟩⟩

/-- Noise, an invalid escape and two FENDs ahead of a frame. -/
theorem kiss_resync_exact_noise :
    ∃ encoded, kissEncode 0 0 [0x42] 680 = some encoded ∧
      ∃ earlier, ((((kissDecoderInit true).processBytes
        [0x55, 0xC0, 0x00, 0xDB, 0x01, 0xC0, 0xC0]).1).processBytes encoded).2 =
          earlier ++ [⟨0, 0, [0x42]⟩] := by
  obtain ⟨encoded, henc, hiff⟩ := kiss_resync_exact [0x55, 0xC0, 0x00, 0xDB, 0x01, 0xC0, 0xC0]
    [0x42] (by decide) (by decide) 680 (by decide)
  exact ⟨encoded, henc, hiff.mpr (Or.inl (by decide))⟩

/-- The frame after a truncated one is lost. -/
theorem kiss_frame_lost :
    ¬ ∀ (g data : List Byte), 1 ≤ data.length → data.length ≤ 338 → ∀ encoded,
      kissEncode 0 0 data kissMaxEncodedSize = some encoded →
        ∃ earlier, ((((kissDecoderInit true).processBytes g).1).processBytes encoded).2 =
          earlier ++ [⟨0, 0, data⟩] := by
  intro h
  obtain ⟨earlier, hout⟩ := h [0xC0, 0x00, 0x41] [0x42] (by decide) (by decide)
    [0xC0, 0x00, 0x42, 0xC0] (by decide)
  rw [show (KissDecoder.processBytes _ _).2 = [⟨0, 0, [0x41]⟩] by decide] at hout
  obtain ⟨-, hlast⟩ := List.append_inj' (show [] ++ [_] = earlier ++ [_] from hout) rfl
  cases hlast

end EspAx25
