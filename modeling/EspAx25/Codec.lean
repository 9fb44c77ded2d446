import Mathlib.Data.List.GetD
import Mathlib.Data.List.TakeWhile
import EspAx25.Frame
import EspAx25.Transducer

/-!
# EspAx25.Codec

The wire format: `ax25_address_encode` and `ax25_address_decode`
(`ax25_address.c`), `ax25_frame_build` and `ax25_frame_parse` (`ax25_frame.c`).

* A pointer into the received bytes is the list of the bytes from there on.
* `ax25_frame_build` appends piece by piece to a buffer of `AX25_BUFFER_SIZE`
  bytes and does not look at the results of the appends. They are kept next to
  the buffer here (`appendAll`), so that "no append fails" can be said.
* Both directions meet in `wireAddress`, the seven bytes of a well-formed
  address: that is what the encoder writes (`addressEncode_eq`) and what the
  decoder takes apart (`addressDecode_wire`).
-/

namespace EspAx25

open Transducer

/-! ### Addresses -/

/-- `toupper` in the C locale. -/
def toUpper (c : Byte) : Byte := if 0x61 ≤ c ∧ c ≤ 0x7A then c - 0x20 else c

/-- The last byte of an encoded address. -/
def ssidByte (ssid : Byte) (hasBeenRepeated isLast : Bool) : Byte :=
  (0x60 : Byte) ||| ((ssid &&& 0x0F) <<< 1) ||| (if hasBeenRepeated then 0x80 else 0) |||
    (if isLast then 0x01 else 0)

/-- `ax25_address_encode`. -/
def addressEncode (addr : Address) : List Byte :=
  let char (i : Nat) : Byte :=
    match addr.callsign[i]? with
    | some c => toUpper c
    | none => 0x20
  (List.range 6).map (fun i => char i <<< 1) ++ [ssidByte addr.ssid addr.hasBeenRepeated addr.isLast]

/-- `ax25_address_decode`. Spaces are skipped wherever they are; the callsign ends
at the first NUL, as every later use of the C string does. -/
def addressDecode (in7Bytes : List Byte) : Address :=
  let ssid := in7Bytes.getD 6 0
  { callsign := (((in7Bytes.take 6).map fun b : Byte => b >>> 1).filter (· ≠ 0x20)).takeWhile (· ≠ 0)
    ssid := (ssid >>> 1) &&& 0x0F
    hasBeenRepeated := ssid &&& 0x80 != 0
    isLast := ssid &&& 0x01 != 0 }

/-! ### Building -/

/-- `ax25_buffer_append`; `ax25_buffer_append_byte` is the case of one byte. -/
def bufferAppend (buffer data : List Byte) : List Byte × EspErr :=
  if buffer.length + data.length > bufferSize then (buffer, .invalidSize)
  else (buffer ++ data, .ok)

/-- One append, with its result as the output of a step. -/
def appendStep (buffer data : List Byte) : List Byte × List EspErr :=
  ((bufferAppend buffer data).1, [(bufferAppend buffer data).2])

/-- A sequence of appends to an empty buffer, with their results. -/
def appendAll (pieces : List (List Byte)) : List Byte × List EspErr := run appendStep [] pieces

/-- `addr_buf[6] |= 0x80`, if the C bit is to be set in this address. -/
def setCBit (addrBuf : List Byte) (set : Bool) : List Byte :=
  if set then addrBuf.modify 6 (· ||| 0x80) else addrBuf

/-- `digi.is_last = (i == frame->num_digipeaters - 1)` for every digipeater. -/
def markLast : List Address → List Address
  | [] => []
  | [d] => [{ d with isLast := true }]
  | d :: ds => { d with isLast := false } :: markLast ds

/-- The frame carries a PID. -/
def FrameType.hasPid (t : FrameType) : Bool := t = .i || t = .ui

/-- What `ax25_frame_build` appends, in order. -/
def framePieces (frame : Frame) : List (List Byte) :=
  [setCBit (addressEncode { frame.destination with isLast := false }) frame.isCommand,
    setCBit (addressEncode { frame.source with isLast := frame.digipeaters.isEmpty })
      (!frame.isCommand)] ++
    (markLast frame.digipeaters).map addressEncode ++
    [[frame.control]] ++
    (if frame.type.hasPid then [[frame.pid]] else []) ++
    (if 0 < frame.payload.length then [frame.payload] else [])

/-- `ax25_frame_build`: the result and the contents of the buffer. -/
def frameBuild (frame : Frame) : EspErr × List Byte :=
  if frame.digipeaters.length > maxDigipeaters then (.invalidSize, [])
  else (.ok, (appendAll (framePieces frame)).1)

/-! ### Parsing -/

/-- The loop of `ax25_frame_parse` over the digipeaters, with room for so many
more: the addresses and the bytes after them. -/
def parseDigipeaters : Nat → List Byte → List Address × List Byte
  | 0, rest => ([], rest)
  | room + 1, rest =>
    if addressLen ≤ rest.length then
      let digi := addressDecode rest
      if digi.isLast then ([digi], rest.drop addressLen)
      else
        let (ds, rest) := parseDigipeaters room (rest.drop addressLen)
        (digi :: ds, rest)
    else ([], rest)

/-- `ax25_frame_parse`, after the addresses: control byte, PID and payload. -/
def parseBody (frame : Frame) : List Byte → Except EspErr Frame
  | [] => .error .invalidArg
  | control :: rest =>
    let frame := { frame with control, type := frameIdentifyType control }
    if frame.type.hasPid then
      match rest with
      | [] => .error .invalidArg
      | pid :: rest => .ok { frame with pid, payload := rest.take maxInfoLen }
    else .ok { frame with pid := 0, payload := rest.take maxInfoLen }

/-- `ax25_frame_parse`. -/
def frameParse (data : List Byte) : Except EspErr Frame :=
  if data.length < 15 then .error .invalidArg
  else
    let destination := addressDecode data
    let source := addressDecode (data.drop addressLen)
    let rest := data.drop (2 * addressLen)
    let (digipeaters, rest) :=
      if source.isLast then ([], rest) else parseDigipeaters maxDigipeaters rest
    parseBody
      { frameInit with
        destination := { destination with hasBeenRepeated := false }
        source := { source with hasBeenRepeated := false }
        isCommand := destination.hasBeenRepeated
        digipeaters } rest

/-! ### Well-formed addresses on the wire -/

/-- A printable ASCII character that is neither a space nor a lower-case letter. -/
def CallChar (c : Byte) : Prop := 0x21 ≤ c ∧ c ≤ 0x7E ∧ ¬ (0x61 ≤ c ∧ c ≤ 0x7A)

instance (c : Byte) : Decidable (CallChar c) := inferInstanceAs (Decidable (_ ∧ _))

/-- A callsign that the wire can carry. -/
def IsCallsign (callsign : List Byte) : Prop := callsign.length ≤ 6 ∧ ∀ c ∈ callsign, CallChar c

instance (callsign : List Byte) : Decidable (IsCallsign callsign) :=
  inferInstanceAs (Decidable (_ ∧ _))

/-- The seven bytes of an address: callsign, padding and SSID byte. -/
def wireAddress (callsign : List Byte) (s : Byte) : List Byte :=
  callsign.map (fun c : Byte => c <<< 1) ++ List.replicate (6 - callsign.length) 0x40 ++ [s]

theorem callChar_facts (c : Byte) : CallChar c →
    toUpper c = c ∧ (c <<< 1) >>> 1 = c ∧ c ≠ 0x20 ∧ c ≠ 0 := by
  revert c
  exact forall_byte (by decide +kernel)

theorem ssidByte_facts (ssid : Byte) (h l : Bool) : ssid < 16 →
    (ssidByte ssid h l >>> 1) &&& 0x0F = ssid ∧ (ssidByte ssid h l &&& 0x80 != 0) = h ∧
      (ssidByte ssid h l &&& 0x01 != 0) = l := by
  revert ssid
  exact forall_byte (by revert h l; decide +kernel)

/-- The encoder writes the upper-cased callsign. -/
theorem addressEncode_upper {a : Address} (hlen : a.callsign.length ≤ 6) :
    addressEncode a = wireAddress (a.callsign.map toUpper)
      (ssidByte a.ssid a.hasBeenRepeated a.isLast) := by
  unfold addressEncode wireAddress
  dsimp only
  congr 1
  rw [List.map_map, List.length_map]
  refine List.ext_getElem (by simp; omega) fun i h₁ h₂ => ?_
  rw [List.getElem_map, List.getElem_range]
  by_cases hi : i < a.callsign.length
  · rw [List.getElem_append_left (by simpa using hi), List.getElem_map]
    simp only [List.getElem?_eq_getElem hi]
    rfl
  · rw [List.getElem_append_right (by simpa using hi), List.getElem_replicate]
    simp only [List.getElem?_eq_none (Nat.le_of_not_lt hi)]
    rfl

theorem addressEncode_eq {a : Address} (h : IsCallsign a.callsign) :
    addressEncode a = wireAddress a.callsign (ssidByte a.ssid a.hasBeenRepeated a.isLast) := by
  have hupper : a.callsign.map toUpper = a.callsign :=
    (List.map_congr_left fun c hc => (callChar_facts c (h.2 c hc)).1).trans (List.map_id _)
  rw [addressEncode_upper h.1, hupper]

/-- A character as it comes back from the wire. -/
def wireChar (c : Byte) : Byte := (c <<< 1) >>> 1

/-- The decoder drops the top bit of each character, the spaces, and what is behind a
NUL. -/
theorem addressDecode_chars {callsign : List Byte} (hlen : callsign.length ≤ 6) (s : Byte)
    (rest : List Byte) :
    addressDecode (wireAddress callsign s ++ rest) =
      { callsign := ((callsign.map wireChar).filter (· ≠ 0x20)).takeWhile (· ≠ 0)
        ssid := (s >>> 1) &&& 0x0F, hasBeenRepeated := s &&& 0x80 != 0,
        isLast := s &&& 0x01 != 0 } := by
  have hs : (wireAddress callsign s ++ rest).getD 6 0 = s := by
    unfold wireAddress
    rw [List.append_assoc, List.getD_append_right _ _ _ _ (by simp; omega)]
    rw [show 6 - _ = 0 by simp; omega]
    rfl
  have htake : (wireAddress callsign s ++ rest).take 6 =
      callsign.map (fun c : Byte => c <<< 1) ++ List.replicate (6 - callsign.length) 0x40 := by
    unfold wireAddress
    rw [List.append_assoc, List.take_left' (by simp; omega)]
  have hback : (callsign.map fun c : Byte => c <<< 1).map (fun b : Byte => b >>> 1) =
      callsign.map wireChar := List.map_map
  have hpad : ((List.replicate (6 - callsign.length) (0x40 : Byte)).map
      fun b : Byte => b >>> 1).filter (· ≠ 0x20) = [] := by
    rw [List.map_replicate, List.filter_eq_nil_iff]
    intro b hb
    rw [List.eq_of_mem_replicate hb]
    decide
  unfold addressDecode
  dsimp only
  rw [hs, htake, List.map_append, hback, List.filter_append, hpad, List.append_nil]

/-- Decoding takes a well-formed address apart. -/
theorem addressDecode_wire {callsign : List Byte} (h : IsCallsign callsign) (s : Byte)
    (rest : List Byte) :
    addressDecode (wireAddress callsign s ++ rest) =
      { callsign, ssid := (s >>> 1) &&& 0x0F, hasBeenRepeated := s &&& 0x80 != 0,
        isLast := s &&& 0x01 != 0 } := by
  have hback : callsign.map wireChar = callsign :=
    (List.map_congr_left fun c hc => (callChar_facts c (h.2 c hc)).2.1).trans (List.map_id _)
  rw [addressDecode_chars h.1, hback, List.filter_eq_self.mpr, List.takeWhile_eq_self_iff.mpr]
  · intro c hc
    simpa using (callChar_facts c (h.2 c hc)).2.2.2
  · intro c hc
    simpa using (callChar_facts c (h.2 c hc)).2.2.1

/-- An address that survives the wire. -/
structure Address.Encodable (a : Address) : Prop where
  callsign : IsCallsign a.callsign
  ssid : a.ssid < 16

theorem addressEncode_length (a : Address) : (addressEncode a).length = addressLen := by
  simp only [addressEncode, List.length_append, List.length_map, List.length_range,
    List.length_singleton, addressLen]

/-- The SSID byte of an address is its last, and the flags are in no other. -/
theorem addressEncode_split (a : Address) :
    ∃ w : List Byte, w.length = 6 ∧
      ∀ rep last, addressEncode { a with hasBeenRepeated := rep, isLast := last } =
        w ++ [ssidByte a.ssid rep last] := by
  refine ⟨(addressEncode a).take 6, by rw [List.length_take, addressEncode_length]; rfl,
    fun rep last => ?_⟩
  unfold addressEncode
  rw [List.take_left' (by rw [List.length_map, List.length_range])]

theorem addressDecode_encode {a : Address} (h : a.Encodable) (rest : List Byte) :
    addressDecode (addressEncode a ++ rest) = a := by
  obtain ⟨h₁, h₂, h₃⟩ := ssidByte_facts a.ssid a.hasBeenRepeated a.isLast h.ssid
  rw [addressEncode_eq h.callsign, addressDecode_wire h.callsign, h₁, h₂, h₃]

theorem modify_length_append {α : Type*} (f : α → α) (l : List α) (a : α) (r : List α) :
    (l ++ a :: r).modify l.length f = l ++ f a :: r := by
  induction l with
  | nil => rfl
  | cons b l ih => simpa using ih

theorem ssidByte_repeated (ssid : Byte) (l : Bool) :
    ssidByte ssid true l = ssidByte ssid false l ||| 0x80 ∧ ssidByte ssid false l &&& 0x80 = 0 := by
  revert ssid
  exact forall_byte (by revert l; decide +kernel)

/-- The C bit is the H bit of an address that is not a digipeater. -/
theorem setCBit_encode {a : Address} (hh : a.hasBeenRepeated = false) (set : Bool) :
    setCBit (addressEncode a) set = addressEncode { a with hasBeenRepeated := set } := by
  have hself : { a with hasBeenRepeated := false } = a := by
    obtain ⟨callsign, ssid, rep, last⟩ := a
    subst hh
    rfl
  cases set with
  | false => rw [hself]; rfl
  | true =>
      obtain ⟨w, hw, henc⟩ := addressEncode_split a
      rw [henc true, (ssidByte_repeated _ _).1, ← hself, henc false, setCBit, if_pos rfl, ← hw]
      exact modify_length_append _ w _ []

/-! ### The round trip -/

/-- A frame that survives the wire. -/
structure Frame.Encodable (f : Frame) : Prop where
  destination : f.destination.Encodable
  destinationH : f.destination.hasBeenRepeated = false
  source : f.source.Encodable
  sourceH : f.source.hasBeenRepeated = false
  digipeaters : ∀ d ∈ f.digipeaters, d.Encodable
  numDigipeaters : f.digipeaters.length ≤ maxDigipeaters
  type : f.type = frameIdentifyType f.control
  payload : f.payload.length ≤ maxInfoLen

/-- The frame with the extension bits and the PID that the wire gives it. -/
def Frame.onWire (f : Frame) : Frame :=
  { f with
    destination := { f.destination with isLast := false }
    source := { f.source with isLast := f.digipeaters.isEmpty }
    digipeaters := markLast f.digipeaters
    pid := if f.type.hasPid then f.pid else 0 }

/-- The bytes of a frame. -/
def wireFrame (f : Frame) : List Byte :=
  addressEncode { f.destination with isLast := false, hasBeenRepeated := f.isCommand } ++
    (addressEncode { f.source with isLast := f.digipeaters.isEmpty,
                                   hasBeenRepeated := !f.isCommand } ++
      ((markLast f.digipeaters).flatMap addressEncode ++
        (f.control :: ((if f.type.hasPid then [f.pid] else []) ++ f.payload))))

theorem markLast_length (ds : List Address) : (markLast ds).length = ds.length := by
  induction ds using markLast.induct with
  | case1 | case2 => rfl
  | case3 d ds _ ih => simp [markLast, ih]

theorem flatMap_addressEncode_length (ds : List Address) :
    (ds.flatMap addressEncode).length = addressLen * ds.length := by
  induction ds with
  | nil => rfl
  | cons d ds ih =>
      rw [List.flatMap_cons, List.length_append, addressEncode_length, ih, List.length_cons,
        Nat.mul_succ, Nat.add_comm]

/-- A frame for which `ax25_frame_build` writes everything that it is given. -/
structure Frame.Buildable (f : Frame) : Prop where
  destinationH : f.destination.hasBeenRepeated = false
  sourceH : f.source.hasBeenRepeated = false
  numDigipeaters : f.digipeaters.length ≤ maxDigipeaters
  payload : f.payload.length ≤ maxInfoLen

theorem Frame.Encodable.buildable {f : Frame} (h : f.Encodable) : f.Buildable :=
  ⟨h.destinationH, h.sourceH, h.numDigipeaters, h.payload⟩

theorem framePieces_flatten {f : Frame} (h : f.Buildable) :
    (framePieces f).flatten = wireFrame f := by
  unfold framePieces wireFrame
  rw [setCBit_encode (a := { f.destination with isLast := false }) h.destinationH,
    setCBit_encode (a := { f.source with isLast := f.digipeaters.isEmpty }) h.sourceH]
  have hpay : (if 0 < f.payload.length then [f.payload] else []).flatten = f.payload := by
    split_ifs with hp
    · simp
    · simpa using (List.eq_nil_of_length_eq_zero (by omega : f.payload.length = 0)).symm
  have hpid : (if f.type.hasPid = true then [[f.pid]] else []).flatten =
      if f.type.hasPid then [f.pid] else [] := by
    split_ifs <;> rfl
  simp only [List.flatten_append, hpay, hpid, List.flatMap_def]
  simp

theorem wireFrame_length_le {f : Frame} (h : f.Buildable) :
    (wireFrame f).length ≤ bufferSize := by
  have hd := flatMap_addressEncode_length (markLast f.digipeaters)
  have hnum := h.numDigipeaters
  have hpay := h.payload
  have hpid : (if f.type.hasPid then [f.pid] else []).length ≤ 1 := by split_ifs <;> simp
  unfold wireFrame
  rw [List.length_append, List.length_append, List.length_append, List.length_cons,
    List.length_append, hd, markLast_length, addressEncode_length, addressEncode_length]
  simp only [bufferSize, addressLen, maxDigipeaters, maxInfoLen] at *
  omega

/-- While everything fits, appending piece by piece is concatenation. -/
theorem run_appendStep (pieces : List (List Byte)) : ∀ buffer : List Byte,
    buffer.length + pieces.flatten.length ≤ bufferSize →
      (run appendStep buffer pieces).1 = buffer ++ pieces.flatten ∧
        ∀ e ∈ (run appendStep buffer pieces).2, e = .ok := by
  induction pieces with
  | nil =>
      intro buffer _
      simp
  | cons p pieces ih =>
      intro buffer hlen
      rw [List.flatten_cons, List.length_append] at hlen
      have hfit : appendStep buffer p = (buffer ++ p, [.ok]) := by
        unfold appendStep bufferAppend
        rw [if_neg (by omega)]
      obtain ⟨h₁, h₂⟩ := ih (buffer ++ p) (by rw [List.length_append]; omega)
      rw [run_cons, hfit]
      refine ⟨by rw [h₁]; simp, fun e he => ?_⟩
      rcases List.mem_append.mp he with he | he
      · exact List.mem_singleton.mp he
      · exact h₂ e he

theorem frameBuild_eq {f : Frame} (h : f.Buildable) :
    frameBuild f = (.ok, wireFrame f) ∧ ∀ e ∈ (appendAll (framePieces f)).2, e = .ok := by
  have hfit := run_appendStep (framePieces f) []
    (by rw [framePieces_flatten h]; simpa using wireFrame_length_le h)
  refine ⟨?_, hfit.2⟩
  unfold frameBuild appendAll
  rw [if_neg (Nat.not_lt.mpr h.numDigipeaters), hfit.1, framePieces_flatten h]
  rfl

/-- The loop over the digipeaters finds those that were encoded. -/
theorem parseDigipeaters_encode {ds : List Address} (h : ∀ d ∈ ds, d.Encodable) (hne : ds ≠ [])
    (rest : List Byte) : ∀ room : Nat, ds.length ≤ room →
      parseDigipeaters room ((markLast ds).flatMap addressEncode ++ rest) =
        (markLast ds, rest) := by
  induction ds using markLast.induct with
  | case1 => exact absurd rfl hne
  | case2 d =>
      intro room hroom
      obtain _ | room := room
      · exact absurd hroom (by simp)
      have hd : Address.Encodable { d with isLast := true } :=
        ⟨(h d List.mem_cons_self).callsign, (h d List.mem_cons_self).ssid⟩
      have hlen := addressEncode_length { d with isLast := true }
      simp only [markLast, List.flatMap_cons, List.flatMap_nil, List.append_nil, parseDigipeaters,
        addressDecode_encode hd, List.length_append, hlen, Nat.le_add_right, if_true]
      rw [List.drop_left' hlen]
  | case3 d ds hds ih =>
      intro room hroom
      obtain _ | room := room
      · exact absurd hroom (by simp)
      have hd : Address.Encodable { d with isLast := false } :=
        ⟨(h d List.mem_cons_self).callsign, (h d List.mem_cons_self).ssid⟩
      have hlen := addressEncode_length { d with isLast := false }
      have hrec := ih (fun d hd => h d (List.mem_cons_of_mem _ hd)) hds room
        (by simp at hroom; omega)
      rw [markLast, List.flatMap_cons, List.append_assoc, parseDigipeaters]
      · simp only [addressDecode_encode hd, List.length_append, hlen, Nat.le_add_right, if_true,
          Bool.false_eq_true, if_false]
        rw [List.drop_left' hlen, hrec]
      · exact hds

theorem parseBody_wire {f : Frame} (h : f.Encodable) (g : Frame) :
    parseBody g (f.control :: ((if f.type.hasPid then [f.pid] else []) ++ f.payload)) =
      .ok { g with
        control := f.control, type := f.type, payload := f.payload
        pid := if f.type.hasPid then f.pid else 0 } := by
  have hpay : f.payload.take maxInfoLen = f.payload := List.take_of_length_le h.payload
  simp only [parseBody, ← h.type]
  split_ifs with hp
  · simp only [List.cons_append, List.nil_append, hpay]
  · simp only [List.nil_append, hpay]

theorem frameParse_wireFrame {f : Frame} (h : f.Encodable) :
    frameParse (wireFrame f) = .ok f.onWire := by
  have hdst : Address.Encodable
      { f.destination with isLast := false, hasBeenRepeated := f.isCommand } :=
    ⟨h.destination.callsign, h.destination.ssid⟩
  have hsrc : Address.Encodable
      { f.source with isLast := f.digipeaters.isEmpty, hasBeenRepeated := !f.isCommand } :=
    ⟨h.source.callsign, h.source.ssid⟩
  have hdlen := addressEncode_length
    { f.destination with isLast := false, hasBeenRepeated := f.isCommand }
  have hslen := addressEncode_length
    { f.source with isLast := f.digipeaters.isEmpty, hasBeenRepeated := !f.isCommand }
  have hbody := parseBody_wire h
  unfold wireFrame frameParse
  generalize hb : f.control :: ((if f.type.hasPid = true then [f.pid] else []) ++ f.payload) = body
    at hbody ⊢
  have hpos : 0 < body.length := by
    rw [← hb]
    exact Nat.succ_pos _
  rw [if_neg (by simp only [List.length_append, hdlen, hslen, addressLen]; omega)]
  -- one address after the other
  rw [show 2 * addressLen = addressLen + addressLen from rfl, ← List.drop_drop,
    List.drop_left' hdlen, List.drop_left' hslen, addressDecode_encode hdst,
    addressDecode_encode hsrc]
  dsimp only
  cases hds : f.digipeaters with
  | nil =>
      simp only [List.isEmpty_nil, if_true, markLast, List.flatMap_nil, List.nil_append]
      rw [hbody]
      simp only [Frame.onWire, hds, markLast, List.isEmpty_nil, h.destinationH, h.sourceH]
  | cons d ds =>
      have hdigi := parseDigipeaters_encode h.digipeaters (by rw [hds]; exact List.cons_ne_nil d ds)
        body _ h.numDigipeaters
      rw [hds] at hdigi
      simp only [List.isEmpty_cons, Bool.false_eq_true, if_false, hdigi]
      rw [hbody]
      simp only [Frame.onWire, hds, List.isEmpty_cons, h.destinationH, h.sourceH]

/-! ### What the parser returns -/

theorem parseDigipeaters_length_le (room : Nat) :
    ∀ rest : List Byte, (parseDigipeaters room rest).1.length ≤ room := by
  induction room with
  | zero =>
      intro rest
      exact Nat.le_refl 0
  | succ room ih =>
      intro rest
      rw [parseDigipeaters]
      dsimp only
      split
      · split
        · exact Nat.succ_le_succ (Nat.zero_le room)
        · exact Nat.succ_le_succ (ih _)
      · exact Nat.zero_le _

theorem parseBody_ok {g f : Frame} {rest : List Byte} (h : parseBody g rest = .ok f) :
    f.destination = g.destination ∧ f.source = g.source ∧ f.digipeaters = g.digipeaters ∧
      f.isCommand = g.isCommand ∧ f.payload.length ≤ maxInfoLen := by
  cases rest with
  | nil => cases h
  | cons control rest =>
      simp only [parseBody] at h
      split at h
      · cases rest with
        | nil => cases h
        | cons pid rest =>
            cases h
            exact ⟨rfl, rfl, rfl, rfl, List.length_take_le _ _⟩
      · cases h
        exact ⟨rfl, rfl, rfl, rfl, List.length_take_le _ _⟩

/-- What the parser returns can be built again. It is a command if the C bit of the
destination is set; that of the source is not looked at. -/
theorem frameParse_ok {data : List Byte} {f : Frame} (h : frameParse data = .ok f) :
    f.Buildable ∧ f.isCommand = (data.getD 6 0 &&& 0x80 != 0) := by
  unfold frameParse at h
  split at h
  · cases h
  · cases hlast : (addressDecode (data.drop addressLen)).isLast with
    | true =>
        simp only [hlast, if_true] at h
        obtain ⟨hdst, hsrc, hdigi, hcmd, hpay⟩ := parseBody_ok h
        exact ⟨⟨by rw [hdst], by rw [hsrc], by rw [hdigi]; exact Nat.zero_le _, hpay⟩, hcmd⟩
    | false =>
        simp only [hlast, Bool.false_eq_true, if_false] at h
        obtain ⟨hdst, hsrc, hdigi, hcmd, hpay⟩ := parseBody_ok h
        exact ⟨⟨by rw [hdst], by rw [hsrc], by rw [hdigi]; exact parseDigipeaters_length_le _ _,
          hpay⟩, hcmd⟩

/-- **The frame codec round trip.** Building succeeds, no append fails, and
parsing gives the frame back, with the extension bit on its last address only and
PID 0 if its type has none. -/
theorem frame_codec_roundtrip {f : Frame} (h : f.Encodable) :
    (frameBuild f).1 = .ok ∧ (∀ e ∈ (appendAll (framePieces f)).2, e = .ok) ∧
      (frameBuild f).2.length ≤ 338 ∧ frameParse (frameBuild f).2 = .ok f.onWire := by
  obtain ⟨hb, ha⟩ := frameBuild_eq h.buildable
  rw [hb]
  exact ⟨rfl, ha, wireFrame_length_le h.buildable, frameParse_wireFrame h⟩

/-- An RR with a repeated and an un-repeated digipeater; the PID is not sent. -/
theorem frame_codec_roundtrip_rr :
    let f : Frame :=
      { destination := { callsign := [0x4E, 0x37] }, source := { callsign := [0x41], ssid := 15 }
        digipeaters := [{ callsign := [0x42], hasBeenRepeated := true }, { callsign := [0x43] }]
        isCommand := false, type := .s, control := 0x31, pid := 0xF0, payload := [0xC0] }
    frameParse (frameBuild f).2 =
      .ok { f with
        digipeaters := [{ callsign := [0x42], hasBeenRepeated := true },
          { callsign := [0x43], isLast := true }]
        pid := 0 } :=
  (frame_codec_roundtrip
    ⟨⟨by decide +kernel, by decide⟩, rfl, ⟨by decide +kernel, by decide⟩, rfl,
      fun d hd => by
        rcases List.mem_cons.mp hd with rfl | hd
        · exact ⟨by decide +kernel, by decide⟩
        · rw [List.mem_singleton.mp hd]
          exact ⟨by decide +kernel, by decide⟩,
      by decide, by decide, by decide⟩).2.2.2

end EspAx25
