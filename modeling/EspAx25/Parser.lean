import EspAx25.Access
import EspAx25.Codec

/-!
# EspAx25.Parser

`ax25_frame_parse` on arbitrary bytes.

* The parser keeps a position in the input and compares it with the length in several
  ways. `frameParseAt` is written like that, with every access to the input; it computes
  what `frameParse` computes and stays inside of the input.
* The position of the control byte is a function of the input alone: it stands behind the
  first address after the destination that has the extension bit, and if there is none,
  behind the last whole address that there is room for (`addressCount`).

Main results:

* `parse_accepts_iff`: what is accepted; it is well formed exactly if the address field ends
  in an extension bit and the destination has none, or what follows it is cut off.
* `parse_safe`: no access is outside of the input, and what is returned is in bounds.
-/

namespace EspAx25

open Access

/-! ### The parser with its accesses -/

/-- `ax25_address_decode(data + pos, ..)`. -/
def addressDecodeAt (data : List Byte) (pos : Nat) : Traced Unit Address := do
  touch () pos addressLen
  return addressDecode (data.drop pos)

/-- The loop over the digipeaters, with the position behind them. -/
def parseDigipeatersAt (data : List Byte) : Nat → Nat → Traced Unit (List Address × Nat)
  | 0, pos => return ([], pos)
  | room + 1, pos =>
    if pos + addressLen ≤ data.length then do
      let digi ← addressDecodeAt data pos
      if digi.isLast then return ([digi], pos + addressLen)
      else
        let rest ← parseDigipeatersAt data room (pos + addressLen)
        return (digi :: rest.1, rest.2)
    else return ([], pos)

/-- The digipeaters, if the source is not the last address. -/
def parsePathAt (data : List Byte) (source : Address) : Traced Unit (List Address × Nat) :=
  if source.isLast then return ([], 2 * addressLen)
  else parseDigipeatersAt data maxDigipeaters (2 * addressLen)

/-- `memcpy(frame->payload, data + pos, payload_len)`, if there is a payload. -/
def parsePayloadAt (data : List Byte) (pos : Nat) : Traced Unit (List Byte) :=
  if pos < data.length then do
    let payloadLen :=
      if data.length - pos > maxInfoLen then maxInfoLen else data.length - pos
    touch () pos payloadLen
    return (data.drop pos).take payloadLen
  else return []

/-- The control byte, the PID and the payload. -/
def parseBodyAt (data : List Byte) (frame : Frame) (pos : Nat) :
    Traced Unit (Except EspErr Frame) :=
  if pos ≥ data.length then return .error .invalidArg
  else do
    touch () pos 1
    let control := data.getD pos 0
    let frame := { frame with control, type := frameIdentifyType control }
    if frame.type.hasPid then
      if pos + 1 ≥ data.length then return .error .invalidArg
      else do
        touch () (pos + 1) 1
        let payload ← parsePayloadAt data (pos + 2)
        return .ok { frame with pid := data.getD (pos + 1) 0, payload }
    else do
      let payload ← parsePayloadAt data (pos + 1)
      return .ok { frame with pid := 0, payload }

/-- `ax25_frame_parse`. -/
def frameParseAt (data : List Byte) : Traced Unit (Except EspErr Frame) :=
  if data.length < 15 then return .error .invalidArg
  else do
    let destination ← addressDecodeAt data 0
    let source ← addressDecodeAt data addressLen
    let path ← parsePathAt data source
    parseBodyAt data
      { frameInit with
        destination := { destination with hasBeenRepeated := false }
        source := { source with hasBeenRepeated := false }
        isCommand := destination.hasBeenRepeated
        digipeaters := path.1 } path.2

section Value

variable {data : List Byte}

theorem parseDigipeatersAt_value (room : Nat) : ∀ pos : Nat,
    (parseDigipeaters room (data.drop pos)).1 = (parseDigipeatersAt data room pos).value.1 ∧
      (parseDigipeaters room (data.drop pos)).2 =
        data.drop (parseDigipeatersAt data room pos).value.2 := by
  induction room with
  | zero =>
      intro pos
      exact ⟨rfl, rfl⟩
  | succ room ih =>
      intro pos
      have hlen : addressLen ≤ (data.drop pos).length ↔ pos + addressLen ≤ data.length := by
        rw [List.length_drop, addressLen]
        omega
      obtain ⟨hds, hrest⟩ := ih (pos + addressLen)
      rw [parseDigipeaters, parseDigipeatersAt]
      simp only [hlen]
      split
      · simp only [value_bind, addressDecodeAt, value_pure]
        split
        · exact ⟨rfl, by rw [List.drop_drop]; rfl⟩
        · simp only [List.drop_drop, value_bind, value_pure, hds, hrest, and_self]
      · exact ⟨rfl, rfl⟩

theorem parsePayloadAt_value (pos : Nat) :
    (parsePayloadAt data pos).value = (data.drop pos).take maxInfoLen := by
  unfold parsePayloadAt
  split
  · dsimp only
    split
    · rfl
    · rename_i hle
      simp only [value_bind, value_pure]
      rw [List.take_of_length_le (by rw [List.length_drop]),
        List.take_of_length_le (by rw [List.length_drop]; omega)]
  · rw [value_pure, List.drop_eq_nil_of_le (by omega), List.take_nil]

theorem parseBodyAt_value (frame : Frame) (pos : Nat) :
    (parseBodyAt data frame pos).value = parseBody frame (data.drop pos) := by
  unfold parseBodyAt
  split
  · rw [List.drop_eq_nil_of_le (by omega)]
    rfl
  · rename_i hlt
    have hdrop : data.drop pos = data.getD pos 0 :: data.drop (pos + 1) := by
      rw [List.drop_eq_getElem_cons (by omega), List.getD_eq_getElem _ _ (by omega)]
    rw [hdrop]
    simp only [value_bind, parseBody]
    split
    · split
      · rw [List.drop_eq_nil_of_le (by omega)]
        rfl
      · have hdrop' : data.drop (pos + 1) = data.getD (pos + 1) 0 :: data.drop (pos + 2) := by
          rw [List.drop_eq_getElem_cons (by omega), List.getD_eq_getElem _ _ (by omega)]
        rw [hdrop']
        simp only [value_bind, value_pure, parsePayloadAt_value]
    · simp only [value_bind, value_pure, parsePayloadAt_value]

theorem frameParseAt_value (data : List Byte) : (frameParseAt data).value = frameParse data := by
  unfold frameParseAt frameParse
  split
  · rfl
  · simp only [value_bind, addressDecodeAt, value_pure, parseBodyAt_value, List.drop_zero,
      parsePathAt]
    obtain ⟨hds, hrest⟩ := @parseDigipeatersAt_value data maxDigipeaters (2 * addressLen)
    split
    · rfl
    · rw [hds, hrest]

end Value

/-! ### Inside of the input -/

section Inside

variable {data : List Byte}

/-- The accesses to the input. -/
def InInput (data : List Byte) {α : Type} (m : Traced Unit α) : Prop :=
  Within (fun _ => data.length) m

theorem addressDecodeAt_inside {pos : Nat} (h : pos + addressLen ≤ data.length) :
    InInput data (addressDecodeAt data pos) :=
  within_bind (within_touch h) (within_pure _)

theorem parseDigipeatersAt_inside (room : Nat) : ∀ pos : Nat,
    InInput data (parseDigipeatersAt data room pos) := by
  induction room with
  | zero => exact fun _ => within_pure _
  | succ room ih =>
      intro pos
      rw [parseDigipeatersAt]
      split
      · refine within_bind (addressDecodeAt_inside ‹_›) ?_
        split
        · exact within_pure _
        · exact within_bind (ih _) (within_pure _)
      · exact within_pure _

theorem parsePayloadAt_inside (pos : Nat) : InInput data (parsePayloadAt data pos) := by
  unfold parsePayloadAt
  split
  · refine within_bind (within_touch ?_) (within_pure _)
    split <;> omega
  · exact within_pure _

theorem parseBodyAt_inside (frame : Frame) (pos : Nat) :
    InInput data (parseBodyAt data frame pos) := by
  unfold parseBodyAt
  split
  · exact within_pure _
  · refine within_bind (within_touch (by omega)) ?_
    dsimp only
    split
    · split
      · exact within_pure _
      · refine within_bind (within_touch (by omega)) ?_
        exact within_bind (parsePayloadAt_inside _) (within_pure _)
    · exact within_bind (parsePayloadAt_inside _) (within_pure _)

theorem frameParseAt_inside (data : List Byte) : InInput data (frameParseAt data) := by
  unfold frameParseAt
  split
  · exact within_pure _
  · rename_i hlen
    refine within_bind (addressDecodeAt_inside (by rw [addressLen]; omega)) ?_
    refine within_bind (addressDecodeAt_inside (by rw [addressLen]; omega)) ?_
    refine within_bind ?_ (parseBodyAt_inside _ _)
    unfold parsePathAt
    split
    · exact within_pure _
    · exact parseDigipeatersAt_inside _ _

end Inside

/-! ### Where the address field ends -/

/-- The extension bit of an address; address 0 is the destination. -/
def extensionBit (data : List Byte) (i : Nat) : Bool :=
  data.getD (addressLen * i + 6) 0 &&& 0x01 != 0

/-- The address lies in the input and has its extension bit set. -/
def endsAt (data : List Byte) (i : Nat) : Bool :=
  decide (addressLen * (i + 1) ≤ data.length) && extensionBit data i

/-- The first address with an extension bit, among `room` addresses from address `k` on. -/
def terminator (data : List Byte) (k room : Nat) : Option Nat :=
  (List.range' k room).find? (endsAt data)

/-- The addresses up to the terminator, or all whole ones that there is room for. -/
def addressCount (data : List Byte) (k room : Nat) : Nat :=
  match terminator data k room with
  | some i => i + 1
  | none => min (k + room) (max k (data.length / addressLen))

section Count

variable {data : List Byte}

theorem addressDecode_isLast (k : Nat) :
    (addressDecode (data.drop (addressLen * k))).isLast = extensionBit data k := by
  simp only [addressDecode, extensionBit, List.getD_eq_getElem?_getD, List.getElem?_drop]

theorem addressCount_last {k room : Nat} (h : endsAt data k = true) :
    addressCount data k (room + 1) = k + 1 := by
  rw [addressCount, terminator, List.range'_succ, List.find?_cons_of_pos h]

theorem addressCount_next {k room : Nat} (hlen : addressLen * (k + 1) ≤ data.length)
    (h : endsAt data k = false) :
    addressCount data k (room + 1) = addressCount data (k + 1) room := by
  have hle : k + 1 ≤ data.length / addressLen :=
    (Nat.le_div_iff_mul_le (by decide)).mpr (by rw [Nat.mul_comm]; exact hlen)
  rw [addressCount, addressCount, terminator, terminator, List.range'_succ,
    List.find?_cons_of_neg (by rw [h]; decide)]
  split
  · rfl
  · rw [Nat.max_eq_right hle, Nat.max_eq_right (by omega)]
    omega

theorem addressCount_cut {k room : Nat} (hlen : ¬ addressLen * (k + 1) ≤ data.length) :
    addressCount data k room = k := by
  have hnone : terminator data k room = none := by
    rw [terminator, List.find?_eq_none]
    intro i hi
    have hki := (List.mem_range'_1.mp hi).1
    rw [addressLen] at hlen
    rw [endsAt, decide_eq_false (by rw [addressLen]; omega)]
    exact Bool.false_ne_true
  have hle : data.length / addressLen ≤ k := by
    rw [addressLen] at hlen ⊢
    omega
  rw [addressCount, hnone]
  dsimp only
  omega

/-- The loop takes the addresses up to the terminator. -/
theorem parseDigipeatersAt_count (room : Nat) : ∀ k : Nat,
    (parseDigipeatersAt data room (addressLen * k)).value.2 =
        addressLen * addressCount data k room ∧
      (parseDigipeatersAt data room (addressLen * k)).value.1.length + k =
        addressCount data k room := by
  induction room with
  | zero =>
      intro k
      have hcount : addressCount data k 0 = k := by
        rw [addressCount, terminator, List.range'_zero, List.find?_nil]
        dsimp only
        omega
      rw [hcount]
      exact ⟨rfl, Nat.zero_add k⟩
  | succ room ih =>
      intro k
      rw [parseDigipeatersAt, ← Nat.mul_add_one]
      split
      · rename_i hlen
        simp only [value_bind, addressDecodeAt, value_pure, addressDecode_isLast]
        split
        · rename_i hlast
          rw [addressCount_last (by rw [endsAt, hlast, decide_eq_true hlen]; rfl)]
          exact ⟨rfl, Nat.add_comm 1 k⟩
        · rename_i hlast
          rw [addressCount_next hlen (by rw [endsAt, Bool.eq_false_iff.mpr hlast, Bool.and_false])]
          obtain ⟨hpos, hlength⟩ := ih (k + 1)
          refine ⟨hpos, ?_⟩
          rw [← hlength, value_bind, value_pure, List.length_cons]
          omega
      · rename_i hlen
        rw [addressCount_cut hlen]
        exact ⟨rfl, Nat.zero_add k⟩

end Count

/-! ### What is returned -/

/-- An address as the decoder leaves it. -/
structure Address.Received (a : Address) : Prop where
  length : a.callsign.length ≤ 6
  chars : ∀ c ∈ a.callsign, c ≠ 0x20 ∧ c ≠ 0
  ssid : a.ssid ≤ 15

theorem addressDecode_received (bytes : List Byte) : (addressDecode bytes).Received := by
  have hssid : ∀ s : Byte, (s >>> 1) &&& 0x0F ≤ 15 := forall_byte (by decide +kernel)
  constructor
  · refine Nat.le_trans (List.takeWhile_sublist _).length_le
      (Nat.le_trans (List.length_filter_le _ _) ?_)
    rw [List.length_map, List.length_take]
    exact Nat.min_le_left _ _
  · intro c hc
    have hnul := List.mem_takeWhile_imp hc
    have hspace := (List.mem_filter.mp (List.takeWhile_subset _ hc)).2
    exact ⟨by simpa using hspace, by simpa using hnul⟩
  · exact hssid _

theorem parseDigipeaters_received (room : Nat) : ∀ rest : List Byte,
    ∀ d ∈ (parseDigipeaters room rest).1, d.Received := by
  induction room with
  | zero =>
      intro rest d hd
      cases hd
  | succ room ih =>
      intro rest d hd
      rw [parseDigipeaters] at hd
      dsimp only at hd
      split at hd
      · split at hd
        · rw [List.mem_singleton.mp hd]
          exact addressDecode_received _
        · rcases List.mem_cons.mp hd with rfl | hd
          · exact addressDecode_received _
          · exact ih _ d hd
      · cases hd

/-- What the bytes behind the addresses make of the frame `g`. -/
structure BodyOf (g : Frame) (rest : List Byte) (f : Frame) : Prop where
  destination : f.destination = g.destination
  source : f.source = g.source
  digipeaters : f.digipeaters = g.digipeaters
  control : rest[0]? = some f.control
  type : f.type = frameIdentifyType f.control
  pid : f.type.hasPid = true → rest[1]? = some f.pid
  payload : f.payload = (rest.drop (if f.type.hasPid then 2 else 1)).take maxInfoLen

theorem bodyOf_parseBody {g f : Frame} {rest : List Byte} (h : parseBody g rest = .ok f) :
    BodyOf g rest f := by
  cases rest with
  | nil => cases h
  | cons control rest =>
      simp only [parseBody] at h
      split at h
      · rename_i hpid
        cases rest with
        | nil => cases h
        | cons pid rest =>
            cases h
            exact ⟨rfl, rfl, rfl, rfl, rfl, fun _ => rfl, by rw [if_pos hpid]; rfl⟩
      · rename_i hpid
        cases h
        exact ⟨rfl, rfl, rfl, rfl, rfl, fun hp => absurd hp hpid, by rw [if_neg hpid]; rfl⟩

/-- Nothing is left for the control byte, or for the PID of an I or UI frame. -/
def NoBody : List Byte → Prop
  | [] => True
  | control :: rest => (frameIdentifyType control).hasPid = true ∧ rest = []

theorem parseBody_accepts (g : Frame) (rest : List Byte) :
    (∃ f, parseBody g rest = .ok f) ↔ ¬ NoBody rest := by
  cases rest with
  | nil => simp [parseBody, NoBody]
  | cons control rest =>
      cases hpid : (frameIdentifyType control).hasPid <;> cases rest <;>
        simp [parseBody, NoBody, hpid]

/-- The number of addresses that the parser takes: up to the first after the destination
that has the extension bit, or all whole ones, but not more than ten. -/
def numAddresses (data : List Byte) : Nat := addressCount data 1 (1 + maxDigipeaters)

/-- **The parser takes the addresses, and leaves the rest to `parseBody`.** -/
theorem frameParse_eq {data : List Byte} (h : ¬ data.length < 15) :
    ∃ g : Frame, g.digipeaters.length + 2 = numAddresses data ∧
      g.digipeaters.length ≤ maxDigipeaters ∧
      (∀ a ∈ g.destination :: g.source :: g.digipeaters, a.Received) ∧
      frameParse data = parseBody g (data.drop (addressLen * numAddresses data)) := by
  have hreceived : ∀ bytes rep last,
      Address.Received { addressDecode bytes with hasBeenRepeated := rep, isLast := last } := by
    intro bytes rep last
    have hdecode := addressDecode_received bytes
    exact ⟨hdecode.length, hdecode.chars, hdecode.ssid⟩
  have hwhole : addressLen * (1 + 1) ≤ data.length := by
    rw [addressLen]
    omega
  have hlast := @addressDecode_isLast data 1
  rw [Nat.mul_one] at hlast
  unfold frameParse
  rw [if_neg h]
  dsimp only
  rw [hlast]
  cases hext : extensionBit data 1 with
  | true =>
      have hcount : numAddresses data = 2 :=
        addressCount_last (by rw [endsAt, hext, decide_eq_true hwhole]; rfl)
      rw [hcount, if_pos rfl]
      refine ⟨_, rfl, Nat.zero_le _, ?_, rfl⟩
      intro a ha
      rcases List.mem_cons.mp ha with rfl | ha
      · exact hreceived _ _ _
      · rw [List.mem_singleton.mp ha]
        exact hreceived _ _ _
  | false =>
      have hcount : numAddresses data = addressCount data 2 maxDigipeaters :=
        addressCount_next hwhole (by rw [endsAt, hext, Bool.and_false])
      obtain ⟨hpos, hlength⟩ := @parseDigipeatersAt_count data maxDigipeaters 2
      obtain ⟨hds, hrest⟩ := @parseDigipeatersAt_value data maxDigipeaters (addressLen * 2)
      rw [if_neg Bool.false_ne_true, Nat.mul_comm 2 addressLen, hcount, ← hpos, ← hrest]
      refine ⟨_, ?_, parseDigipeaters_length_le _ _, ?_, rfl⟩
      · dsimp only
        rw [hds, hlength]
      · intro a ha
        rcases List.mem_cons.mp ha with rfl | ha
        · exact hreceived _ _ _
        · rcases List.mem_cons.mp ha with rfl | ha
          · exact hreceived _ _ _
          · exact parseDigipeaters_received _ _ a ha

/-! ### Memory safety and bounds -/

/-- **The parser is safe on any input.** -/
theorem parse_safe (data : List Byte) :
    (frameParseAt data).value = frameParse data ∧ InInput data (frameParseAt data) ∧
    ∀ f, frameParse data = .ok f →
      f.digipeaters.length ≤ maxDigipeaters ∧ f.payload.length ≤ maxInfoLen ∧
      (∀ a ∈ f.destination :: f.source :: f.digipeaters, a.Received) ∧
      f.type = frameIdentifyType f.control ∧ f.type ≠ .unknown ∧
      let size := addressLen * (2 + f.digipeaters.length) + 1 +
        (if f.type.hasPid then 1 else 0) + f.payload.length
      size ≤ data.length ∧ (size = data.length ∨ f.payload.length = maxInfoLen) := by
  refine ⟨frameParseAt_value data, frameParseAt_inside data, ?_⟩
  intro f hf
  by_cases hlen : data.length < 15
  · rw [frameParse, if_pos hlen] at hf
    cases hf
  obtain ⟨g, hcount, hnum, hreceived, heq⟩ := frameParse_eq hlen
  have hbody := bodyOf_parseBody (heq ▸ hf)
  have htype : ∀ c : Byte, frameIdentifyType c ≠ .unknown := forall_byte (by decide +kernel)
  have hpos := hbody.control
  have hpid := hbody.pid
  rw [List.getElem?_drop, ← hcount] at hpos
  rw [List.getElem?_drop, ← hcount] at hpid
  have hpayload : f.payload.length =
      min maxInfoLen (data.length - (addressLen * (g.digipeaters.length + 2) +
        if f.type.hasPid then 2 else 1)) := by
    rw [hbody.payload, List.length_take, List.length_drop, List.length_drop, ← hcount]
    omega
  have hlt := (List.getElem?_eq_some_iff.mp hpos).1
  rw [hbody.digipeaters, hbody.destination, hbody.source]
  refine ⟨hnum, ?_, hreceived, hbody.type, hbody.type ▸ htype _, ?_⟩
  · rw [hpayload]
    exact Nat.min_le_left _ _
  · dsimp only
    simp only [addressLen, maxInfoLen] at *
    split at hpayload
    · rename_i hp
      have hlt' := (List.getElem?_eq_some_iff.mp (hpid hp)).1
      rw [if_pos hp]
      omega
    · rename_i hp
      rw [if_neg hp]
      omega

/-! ### Well-formed address fields -/

/-- The address field is two to ten addresses, of which the last has the extension bit and
no other, and what follows it is taken for the control byte and the PID. -/
structure WellFormed (data : List Byte) (f : Frame) : Prop where
  numDigipeaters : f.digipeaters.length ≤ maxDigipeaters
  extension : ∀ i < f.digipeaters.length + 2,
    extensionBit data i = decide (i = f.digipeaters.length + 1)
  control : data[addressLen * (f.digipeaters.length + 2)]? = some f.control
  pid : f.type.hasPid = true →
    data[addressLen * (f.digipeaters.length + 2) + 1]? = some f.pid

/-- The parser accepts what has fifteen bytes and a body behind the addresses. -/
theorem frameParse_accepts (data : List Byte) :
    (∃ f, frameParse data = .ok f) ↔
      15 ≤ data.length ∧ ¬ NoBody (data.drop (addressLen * numAddresses data)) := by
  by_cases hlen : data.length < 15
  · refine iff_of_false ?_ fun h => absurd hlen (Nat.not_lt.mpr h.1)
    rintro ⟨f, hf⟩
    rw [frameParse, if_pos hlen] at hf
    cases hf
  · obtain ⟨g, -, -, -, heq⟩ := frameParse_eq hlen
    rw [heq, parseBody_accepts, and_iff_right (Nat.not_lt.mp hlen)]

/-- What is accepted is well formed exactly if there is nothing to accept, or the field ends in an
extension bit and the destination has none. -/
theorem wellFormed_iff (data : List Byte) :
    (∀ f, frameParse data = .ok f → WellFormed data f) ↔
      data.length < 15 ∨ NoBody (data.drop (addressLen * numAddresses data)) ∨
        (terminator data 1 (1 + maxDigipeaters)).isSome = true ∧ extensionBit data 0 = false := by
  by_cases hlen : data.length < 15
  · refine iff_of_true (fun f hf => ?_) (.inl hlen)
    rw [frameParse, if_pos hlen] at hf
    cases hf
  obtain ⟨g, hcount, hnum, -, heq⟩ := frameParse_eq hlen
  by_cases hbody : NoBody (data.drop (addressLen * numAddresses data))
  · refine iff_of_true (fun f hf => ?_) (.inr (.inl hbody))
    exact absurd hbody ((parseBody_accepts g _).mp ⟨f, heq ▸ hf⟩)
  constructor
  · intro h
    obtain ⟨f, hf⟩ := (parseBody_accepts g _).mpr hbody
    have hwell := h f (heq.trans hf)
    have hcontrol := (List.getElem?_eq_some_iff.mp hwell.control).1
    refine .inr (.inr ⟨?_, ?_⟩)
    · -- the last address of the field is the terminator
      rw [terminator, List.find?_isSome]
      refine ⟨f.digipeaters.length + 1, ?_, ?_⟩
      · have hle := hwell.numDigipeaters
        rw [List.mem_range'_1]
        omega
      · rw [endsAt, hwell.extension _ (Nat.lt_succ_self _),
          decide_eq_true (Nat.le_of_lt hcontrol), decide_eq_true rfl]
        rfl
    · rw [hwell.extension 0 (Nat.succ_pos _)]
      exact decide_eq_false (Nat.succ_ne_zero _).symm
  · rintro (h | h | ⟨hsome, hdst⟩) f hf
    · exact absurd h hlen
    · exact absurd h hbody
    · have hparsed := bodyOf_parseBody (heq ▸ hf)
      have hcontrol := hparsed.control
      have hpid := hparsed.pid
      rw [List.getElem?_drop, ← hcount, ← hparsed.digipeaters] at hcontrol
      rw [List.getElem?_drop, ← hcount, ← hparsed.digipeaters] at hpid
      obtain ⟨i, hi⟩ := Option.isSome_iff_exists.mp hsome
      obtain ⟨hends, hmem, hbefore⟩ := List.find?_range'_eq_some.mp hi
      rw [endsAt, Bool.and_eq_true, decide_eq_true_eq] at hends
      have hone := (List.mem_range'_1.mp hmem).1
      have hlast : f.digipeaters.length + 1 = i := by
        have hnumber : numAddresses data = i + 1 := by rw [numAddresses, addressCount, hi]
        rw [hparsed.digipeaters]
        omega
      refine ⟨by rw [hparsed.digipeaters]; exact hnum, ?_, hcontrol, hpid⟩
      intro j hj
      rw [hlast]
      by_cases hji : j = i
      · rw [hji, hends.2, decide_eq_true rfl]
      · rw [decide_eq_false hji]
        by_cases hzero : j = 0
        · rw [hzero, hdst]
        · have hnot := hbefore j (by omega) (by omega)
          have hwhole : addressLen * (j + 1) ≤ data.length := by
            rw [addressLen] at hends ⊢
            omega
          simpa [endsAt, hwhole] using hnot

/-- **What is accepted, and when it is well formed.** -/
theorem parse_accepts_iff (data : List Byte) :
    ((∃ f, frameParse data = .ok f) ↔
      15 ≤ data.length ∧ ¬ NoBody (data.drop (addressLen * numAddresses data))) ∧
    ((∀ f, frameParse data = .ok f → WellFormed data f) ↔
      data.length < 15 ∨ NoBody (data.drop (addressLen * numAddresses data)) ∨
        (terminator data 1 (1 + maxDigipeaters)).isSome = true ∧ extensionBit data 0 = false) :=
  ⟨frameParse_accepts data, wellFormed_iff data⟩

/-- An address field of source, destination and nine digipeaters, and a UI frame. -/
def nineDigipeaters : List Byte :=
  (List.replicate 10 (addressEncode { callsign := [0x41] })).flatten ++
    addressEncode { callsign := [0x42], isLast := true } ++ [0x03, 0xF0]

/-- Two addresses without an extension bit. -/
def unterminated : List Byte :=
  addressEncode { callsign := [0x41] } ++ addressEncode { callsign := [0x42] } ++ [0x03, 0xF0]

/-- The extension bit is in the destination already. -/
def destinationLast : List Byte :=
  addressEncode { callsign := [0x41], isLast := true } ++
    addressEncode { callsign := [0x42], isLast := true } ++ [0x03, 0xF0]

/-- The ninth digipeater is taken for the body of an I frame; an unterminated field and
one that ends in the destination are accepted as well. -/
theorem parse_misreads :
    (∃ f, frameParse nineDigipeaters = .ok f ∧ ¬ WellFormed nineDigipeaters f ∧
      f.control = 0x84 ∧ f.payload = nineDigipeaters.drop 72) ∧
    (∃ f, frameParse unterminated = .ok f ∧ ¬ WellFormed unterminated f) ∧
    ∃ f, frameParse destinationLast = .ok f ∧ ¬ WellFormed destinationLast f := by
  refine ⟨⟨_, rfl, fun h => ?_, by decide +kernel, by decide +kernel⟩, ⟨_, rfl, fun h => ?_⟩,
    ⟨_, rfl, fun h => ?_⟩⟩
  · exact absurd (h.extension 9 (by decide +kernel)) (by decide +kernel)
  · exact absurd (h.extension 1 (by decide +kernel)) (by decide +kernel)
  · exact absurd (h.extension 0 (by decide +kernel)) (by decide +kernel)

end EspAx25
