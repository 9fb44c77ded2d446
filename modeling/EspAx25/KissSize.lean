import EspAx25.Access
import EspAx25.Kiss

/-!
# EspAx25.KissSize

`ax25_kiss_encode` on its output buffer.

* `kissEncodeAt` is the encoder as it is written: a position that is threaded through the
  calls, with 0 for a full buffer, and every access to the two arrays. It leaves in the
  buffer what `kissEncode` computes (`kissEncodeAt_spec`).
* `kissEncodedSize` is the size of the result, counted from the input.
* The positions stay below the size of the buffer, so that `pos + 2` wraps for no buffer
  that leaves two bytes of the address space.
-/

namespace EspAx25

open Access

/-! ### The encoder with its accesses -/

/-- The arrays of `ax25_kiss_encode`. -/
inductive KissArray
  | data
  | out
  deriving DecidableEq

/-- `kiss_add_escaped_byte`: the new position, or 0, and the buffer. -/
def kissAddEscapedByteAt (byte : Byte) (out : List Byte) (pos outSize : Nat) :
    Traced KissArray (Nat × List Byte) :=
  if byte = kissFend then
    if pos + 2 > outSize then return (0, out)
    else do
      touch .out pos 1
      touch .out (pos + 1) 1
      return (pos + 2, (out.set pos kissFesc).set (pos + 1) kissTfend)
  else if byte = kissFesc then
    if pos + 2 > outSize then return (0, out)
    else do
      touch .out pos 1
      touch .out (pos + 1) 1
      return (pos + 2, (out.set pos kissFesc).set (pos + 1) kissTfesc)
  else
    if pos + 1 > outSize then return (0, out)
    else do
      touch .out pos 1
      return (pos + 1, out.set pos byte)

/-- The loop over the data bytes from index `i` on. -/
def kissEscapeDataAt (outSize : Nat) :
    List Byte → Nat → List Byte → Nat → Traced KissArray (Nat × List Byte)
  | [], _, out, pos => return (pos, out)
  | byte :: rest, i, out, pos => do
    touch .data i 1
    let r ← kissAddEscapedByteAt byte out pos outSize
    if r.1 = 0 then return (0, r.2) else kissEscapeDataAt outSize rest (i + 1) r.2 r.1

/-- The closing FEND. -/
def kissCloseAt (outSize : Nat) (out : List Byte) (pos : Nat) :
    Traced KissArray (Nat × List Byte) :=
  if pos + 1 > outSize then return (0, out)
  else do
    touch .out pos 1
    return (pos + 1, out.set pos kissFend)

/-- What follows the port/command byte. -/
def kissFrameAt (outSize : Nat) (data out : List Byte) (pos : Nat) :
    Traced KissArray (Nat × List Byte) := do
  let r ← kissEscapeDataAt outSize data 0 out pos
  if r.1 = 0 then return (0, r.2) else kissCloseAt outSize r.2 r.1

/-- `ax25_kiss_encode`: the result and the buffer, of which all bytes are the callee's. -/
def kissEncodeAt (port command : Byte) (data out : List Byte) :
    Traced KissArray (Nat × List Byte) :=
  let outSize := out.length
  if outSize = 0 then return (0, out)
  else if 0 + 1 > outSize then return (0, out)
  else do
    touch .out 0 1
    let r ← kissAddEscapedByteAt (kissPortCmd port command) (out.set 0 kissFend) 1 outSize
    if r.1 = 0 then return (0, r.2) else kissFrameAt outSize data r.2 r.1

/-! ### What it leaves in the buffer -/

/-- The bytes of the two arrays. -/
def kissArraySize (inLen outSize : Nat) : KissArray → Nat
  | .data => inLen
  | .out => outSize

/-- The position and the buffer when `acc` has been written. -/
structure Wrote (outSize : Nat) (acc : List Byte) (r : Nat × List Byte) : Prop where
  pos : r.1 = acc.length
  pos_pos : 0 < acc.length
  start : acc <+: r.2
  size : r.2.length = outSize

/-- The accesses are in bounds, and the result is the one of the abstract encoder: what has
been written, or 0. -/
structure Meets (inLen outSize : Nat) (abs : Option (List Byte))
    (m : Traced KissArray (Nat × List Byte)) : Prop where
  within : Within (kissArraySize inLen outSize) m
  full : abs = none → m.value.1 = 0
  wrote : ∀ acc, abs = some acc → Wrote outSize acc m.value

theorem Wrote.length_le {outSize : Nat} {acc : List Byte} {r : Nat × List Byte}
    (h : Wrote outSize acc r) : acc.length ≤ outSize :=
  h.size ▸ h.start.length_le

/-- One more byte. -/
theorem Wrote.set {outSize : Nat} {acc out : List Byte} {pos : Nat}
    (h : Wrote outSize acc (pos, out)) (hroom : pos + 1 ≤ outSize) (byte : Byte) :
    Wrote outSize (acc ++ [byte]) (pos + 1, out.set pos byte) := by
  obtain ⟨hpos, -, ⟨rest, hout⟩, hsize⟩ := h
  dsimp only at hpos hout hsize
  subst hpos hout
  cases rest with
  | nil =>
      rw [List.append_nil] at hsize
      omega
  | cons c rest =>
      refine ⟨by simp, by simp, ⟨rest, ?_⟩, by simpa using hsize⟩
      simp

section Meets

variable {inLen outSize : Nat} {abs : Option (List Byte)}
  {m : Traced KissArray (Nat × List Byte)}

theorem meets_full (r : Nat × List Byte) (h : r.1 = 0) :
    Meets inLen outSize none (pure r : Traced KissArray _) :=
  ⟨within_pure _, fun _ => h, fun _ hacc => by cases hacc⟩

theorem meets_wrote {acc : List Byte} {r : Nat × List Byte} (h : Wrote outSize acc r) :
    Meets inLen outSize (some acc) (pure r : Traced KissArray _) :=
  ⟨within_pure _, fun hnone => (by cases hnone), fun _ hacc => Option.some.inj hacc ▸ h⟩

/-- An access in bounds before the rest. -/
theorem Meets.touch {region : KissArray} {offset length : Nat} (h : Meets inLen outSize abs m)
    (hin : offset + length ≤ kissArraySize inLen outSize region) :
    Meets inLen outSize abs (Access.touch region offset length >>= fun _ => m) :=
  ⟨within_bind (within_touch hin) h.within, h.full, h.wrote⟩

/-- Position 0 ends the call; otherwise the next part goes on behind what has been written. -/
theorem Meets.andThen {f : List Byte → Option (List Byte)}
    {k : Nat × List Byte → Traced KissArray (Nat × List Byte)} (h : Meets inLen outSize abs m)
    (hk : ∀ acc r, Wrote outSize acc r → Meets inLen outSize (f acc) (k r)) :
    Meets inLen outSize (abs.bind f)
      (m >>= fun r => if r.1 = 0 then pure (0, r.2) else k r) := by
  cases abs with
  | none =>
      have hzero := h.full rfl
      refine ⟨within_bind h.within ?_, fun _ => ?_, fun _ hacc => by cases hacc⟩
      · rw [if_pos hzero]
        exact within_pure _
      · rw [value_bind, if_pos hzero]
        rfl
  | some acc =>
      have hwrote := h.wrote acc rfl
      have hne : m.value.1 ≠ 0 := by
        rw [hwrote.pos]
        exact Nat.pos_iff_ne_zero.mp hwrote.pos_pos
      have hnext := hk acc _ hwrote
      refine ⟨within_bind h.within ?_, ?_, ?_⟩
      · rw [if_neg hne]
        exact hnext.within
      · rw [value_bind, if_neg hne]
        exact hnext.full
      · rw [value_bind, if_neg hne]
        exact hnext.wrote

end Meets

theorem kissAddEscapedByteAt_meets {inLen outSize pos : Nat} {acc out : List Byte} (byte : Byte)
    (h : Wrote outSize acc (pos, out)) :
    Meets inLen outSize (kissAddEscapedByte byte acc outSize)
      (kissAddEscapedByteAt byte out pos outSize) := by
  have hpos : pos = acc.length := h.pos
  -- an escape sequence, if there is room for it
  have hpair : ∀ t : Byte, ¬ pos + 2 > outSize → Meets inLen outSize
      (some (acc ++ [kissFesc, t])) (do
        touch KissArray.out pos 1
        touch KissArray.out (pos + 1) 1
        return (pos + 2, (out.set pos kissFesc).set (pos + 1) t)) := by
    intro t hroom
    have hfirst := h.set (by omega) kissFesc
    have hsecond := hfirst.set (by omega) t
    rw [List.append_assoc] at hsecond
    exact ((meets_wrote hsecond).touch (show pos + 1 + 1 ≤ outSize by omega)).touch
      (show pos + 1 ≤ outSize by omega)
  unfold kissAddEscapedByte kissAddEscapedByteAt
  rw [← hpos]
  split_ifs with hfend hfull hfesc hfull hfull
  · exact meets_full _ rfl
  · exact hpair kissTfend hfull
  · exact meets_full _ rfl
  · exact hpair kissTfesc hfull
  · exact meets_full _ rfl
  · exact (meets_wrote (h.set (Nat.le_of_not_lt hfull) byte)).touch (Nat.le_of_not_lt hfull)

/-- The loop: an induction over the bytes that are left. -/
theorem kissEscapeDataAt_meets {inLen outSize : Nat} (rest : List Byte) : ∀ {i pos : Nat}
    {acc out : List Byte}, i + rest.length ≤ inLen → Wrote outSize acc (pos, out) →
      Meets inLen outSize (rest.foldlM (fun out byte => kissAddEscapedByte byte out outSize) acc)
        (kissEscapeDataAt outSize rest i out pos) := by
  induction rest with
  | nil =>
      intro i pos acc out _ h
      exact meets_wrote h
  | cons byte rest ih =>
      intro i pos acc out hlen h
      rw [List.length_cons] at hlen
      rw [List.foldlM_cons]
      refine Meets.touch ?_ (show i + 1 ≤ inLen by omega)
      exact (kissAddEscapedByteAt_meets byte h).andThen fun acc r hr => ih (by omega) hr

theorem kissCloseAt_meets {inLen outSize pos : Nat} {acc out : List Byte}
    (h : Wrote outSize acc (pos, out)) :
    Meets inLen outSize (if acc.length + 1 > outSize then none else some (acc ++ [kissFend]))
      (kissCloseAt outSize out pos) := by
  have hpos : pos = acc.length := h.pos
  rw [kissCloseAt, ← hpos]
  split_ifs with hfull
  · exact meets_full _ rfl
  · exact (meets_wrote (h.set (Nat.le_of_not_lt hfull) kissFend)).touch (Nat.le_of_not_lt hfull)

/-- **The encoder on its buffer.** Its accesses are in bounds, and it leaves in the buffer
what `kissEncode` computes. -/
theorem kissEncodeAt_meets (port command : Byte) (data out : List Byte) :
    Meets data.length out.length (kissEncode port command data out.length)
      (kissEncodeAt port command data out) := by
  unfold kissEncode kissEncodeAt
  dsimp only
  by_cases hzero : out.length = 0
  · rw [if_pos hzero, if_pos hzero]
    exact meets_full _ rfl
  · rw [if_neg hzero, if_neg hzero, if_neg (by omega)]
    have hopen : Wrote out.length [kissFend] (1, out.set 0 kissFend) := by
      cases out with
      | nil => exact absurd rfl hzero
      | cons c rest => exact ⟨rfl, Nat.one_pos, ⟨rest, rfl⟩, rfl⟩
    refine Meets.touch ?_ (show 0 + 1 ≤ out.length by omega)
    refine (kissAddEscapedByteAt_meets _ hopen).andThen fun acc r hr => ?_
    exact (kissEscapeDataAt_meets data (Nat.le_of_eq (Nat.zero_add _)) hr).andThen fun acc r hr =>
      kissCloseAt_meets hr

/-! ### The size of the result -/

/-- FEND and FESC. -/
def kissSpecial (byte : Byte) : Bool := byte = kissFend || byte = kissFesc

/-- Two FENDs, the port/command byte and the data, with one byte more for each FEND and
FESC among them. -/
def kissEncodedSize (port command : Byte) (data : List Byte) : Nat :=
  3 + data.length + data.countP kissSpecial +
    if kissSpecial (kissPortCmd port command) then 1 else 0

theorem kissEscape_length (byte : Byte) :
    (kissEscape byte).length = 1 + if kissSpecial byte then 1 else 0 := by
  unfold kissEscape kissSpecial
  split_ifs <;> simp_all

theorem flatMap_kissEscape_length (data : List Byte) :
    (data.flatMap kissEscape).length = data.length + data.countP kissSpecial := by
  induction data with
  | nil => rfl
  | cons byte data ih =>
      rw [List.flatMap_cons, List.length_append, ih, kissEscape_length, List.length_cons,
        List.countP_cons]
      omega

/-- What stands between the two FENDs. -/
theorem kissEncoded_eq (port command : Byte) (data : List Byte) :
    kissEncoded port command data =
      kissFend ::
        (kissEscape (kissPortCmd port command) ++ data.flatMap kissEscape ++ [kissFend]) :=
  rfl

theorem kissEncoded_length (port command : Byte) (data : List Byte) :
    (kissEncoded port command data).length = kissEncodedSize port command data := by
  have hport := kissEscape_length (kissPortCmd port command)
  have hdata := flatMap_kissEscape_length data
  rw [kissEncodedSize, kissEncoded_eq, List.length_cons, List.length_append, List.length_append,
    List.length_singleton]
  omega

/-- FEND is what an encoded frame starts and ends with, and nowhere else in it. -/
theorem kissEncoded_fend_iff (port command : Byte) (data : List Byte) {i : Nat}
    (hi : i < (kissEncoded port command data).length) :
    (kissEncoded port command data)[i]? = some kissFend ↔
      i = 0 ∨ i + 1 = (kissEncoded port command data).length := by
  rw [kissEncoded_eq, List.length_cons, List.length_append, List.length_singleton] at *
  have hbody : ∀ b ∈ kissEscape (kissPortCmd port command) ++ data.flatMap kissEscape,
      b ≠ kissFend := fun b hb => ne_fend_of_mem_body hb
  generalize kissEscape (kissPortCmd port command) ++ data.flatMap kissEscape = body at *
  cases i with
  | zero => exact iff_of_true rfl (.inl rfl)
  | succ i =>
      rw [List.getElem?_cons_succ]
      by_cases hlast : i = body.length
      · subst hlast
        exact iff_of_true List.getElem?_concat_length (.inr rfl)
      · have hin : i < body.length := by omega
        rw [List.getElem?_append_left hin, List.getElem?_eq_getElem hin, Option.some.injEq]
        exact iff_of_false (hbody _ (List.getElem_mem hin)) (by omega)

/-- **The size contract of the encoder.** It stays inside of both arrays, fails exactly if
the buffer is smaller than the encoded frame, and otherwise returns the size of the frame,
which starts and ends with its only FENDs. Two bytes for each byte of data and four more
are always enough. -/
theorem kiss_encode_size (port command : Byte) (data out : List Byte) :
    Within (kissArraySize data.length out.length) (kissEncodeAt port command data out) ∧
      ((kissEncodeAt port command data out).value.1 = 0 ↔
        out.length < kissEncodedSize port command data) ∧
      (kissEncodedSize port command data ≤ out.length →
        (kissEncodeAt port command data out).value.1 = kissEncodedSize port command data ∧
        ∀ i < kissEncodedSize port command data,
          (kissEncodeAt port command data out).value.2[i]? = some kissFend ↔
            i = 0 ∨ i + 1 = kissEncodedSize port command data) ∧
      kissEncodedSize port command data ≤ 2 * data.length + 4 := by
  have hmeets := kissEncodeAt_meets port command data out
  have hroom := kissEncoded_length_le port command data
  have hlen := kissEncoded_length port command data
  rw [kissEncode_eq, hlen] at hmeets
  have hwrote (hfits : kissEncodedSize port command data ≤ out.length) :=
    hmeets.wrote _ (if_pos hfits)
  refine ⟨hmeets.within, ⟨fun hzero => ?_, fun hshort => ?_⟩, fun hfits => ⟨?_, fun i hi => ?_⟩, ?_⟩
  · by_contra hfits
    have hpos := (hwrote (Nat.le_of_not_lt hfits)).pos
    rw [hzero, hlen, kissEncodedSize] at hpos
    omega
  · exact hmeets.full (if_neg (Nat.not_le.mpr hshort))
  · rw [(hwrote hfits).pos, hlen]
  · obtain ⟨rest, hout⟩ := (hwrote hfits).start
    rw [← hlen] at hi ⊢
    rw [← hout, List.getElem?_append_left hi, kissEncoded_fend_iff port command data hi]
  · rw [hlen] at hroom
    omega

end EspAx25
