import EspAx25.Agwpe.Convert
import EspAx25.Printing

/-!
# EspAx25.Agwpe.Monitor

`send_monitor_to_client` (`ax25_agwpe_server.c`): the line of text that a monitoring client
gets for a frame.

The line is put together in a buffer of 384 bytes: a header of up to two dozen pieces, each
printed where the one before it has ended, and for I and UI frames the payload, cut to the
room that is left. `monitorPieces` are the pieces in order, one for each call of `snprintf`.

* The header has at most 173 bytes, so it fits, with the NUL behind every piece
  (`monitor_text_fits`).
* A header of more than 126 bytes and a payload of 256 bytes do not fit together. The length
  that the header prints is that of the whole payload all the same (`monitor_complete_iff`).
-/

namespace EspAx25

open Memory Printing

/-- `sizeof(text)`. -/
def monitorTextSize : Nat := 128 + maxInfoLen

/-! ### The pieces -/

/-- What `%02X` prints. -/
def hexByte (c : Byte) : List Byte :=
  let digit := fun n : Nat => UInt8.ofNat (if n < 10 then 0x30 + n else 0x37 + n)
  [digit (c.toNat / 16), digit (c.toNat % 16)]

/-- An address in a buffer of 11 bytes. -/
def monitorCall (a : Address) : List Byte :=
  (addressToString a (agwpeCallsignLen + 1)).toOption.getD []

/-- The pieces of the digipeaters. -/
def digiPieces : Nat → List Address → List (List Byte)
  | _, [] => []
  | i, digi :: digis =>
    (if i > 0 then [literal ","] else []) ++
      (monitorCall digi ::
        ((if digi.hasBeenRepeated then [literal "*"] else []) ++ digiPieces (i + 1) digis))

/-- `pf_label` and `pf`. -/
def pfText (f : Frame) : List Byte :=
  literal (if f.isCommand then "P" else "F") ++
    (literal "=" ++ decimal (if frameHasPf f.control then 1 else 0))

/-- "Len=%d". -/
def lenText (f : Frame) : List Byte := literal "Len=" ++ decimal f.payload.length

/-- `sname`. -/
def sName (control : Byte) : String :=
  let stype := control &&& 0x0F
  if stype = 0x01 then "RR"
  else if stype = 0x05 then "RNR"
  else if stype = 0x09 then "REJ"
  else if stype = 0x0D then "SREJ"
  else "S"

/-- `uname`. -/
def uName (control : Byte) : String :=
  let utype := control &&& 0xEF
  if utype = ctrlSabm &&& 0xEF then "SABM"
  else if utype = 0x6F then "SABME"
  else if utype = ctrlDisc &&& 0xEF then "DISC"
  else if utype = ctrlDm &&& 0xEF then "DM"
  else if utype = ctrlUa &&& 0xEF then "UA"
  else if utype = ctrlFrmr &&& 0xEF then "FRMR"
  else if utype = 0xAF then "XID"
  else if utype = 0xE3 then "TEST"
  else "U"

/-- The frame type description. -/
def typePiece (f : Frame) : List Byte :=
  match f.type with
  | .ui =>
    literal "<UI pid=" ++ (hexByte f.pid ++
      (literal " " ++ (lenText f ++ (literal " " ++ (pfText f ++ literal " >")))))
  | .i =>
    literal "<I S" ++ (decimal (frameExtractNs f.control) ++
      (literal " R" ++ (decimal (frameExtractNr f.control) ++
        (literal " pid=" ++ (hexByte f.pid ++
          (literal " " ++ (lenText f ++ (literal " " ++ (pfText f ++ literal " >")))))))))
  | .s =>
    literal "<" ++ (literal (sName f.control) ++
      (literal " R" ++ (decimal (frameExtractNr f.control) ++
        (literal " " ++ (pfText f ++
          if f.control &&& 0x0F = 0x0D then literal " " ++ (lenText f ++ literal " >")
          else literal " >")))))
  | .u =>
    literal "<" ++ (literal (uName f.control) ++
      (literal " " ++ (pfText f ++
        if f.control &&& 0xEF = 0xAF ∨ f.control &&& 0xEF = 0xE3 then
          literal " " ++ (lenText f ++ literal " >")
        else literal " >")))
  | .unknown => literal "<? >"

/-- What is printed in front of the payload, call by call. -/
def monitorPieces (port : Byte) (f : Frame) : List (List Byte) :=
  (literal " " ++ (decimal (port.toNat + 1) ++ (literal ":Fm " ++ (monitorCall f.source ++
    (literal " To " ++ (monitorCall f.destination ++ literal " ")))))) ::
  ((if 0 < f.digipeaters.length then
      literal "Via " :: (digiPieces 0 f.digipeaters ++ [literal " "])
    else []) ++
  [typePiece f, literal "[--:--:--]\r"])

/-! ### The text -/

/-- `text` after the last `snprintf`. The buffer is on the stack, and not cleared. -/
def monitorHeader (stack : Fin monitorTextSize → Byte) (port : Byte) (f : Frame) :
    Sheet Byte monitorTextSize :=
  Sheet.printAll wordSize 0 { cells := stack } (monitorPieces port f)

/-- `payload_copy`. -/
def payloadCopy (pos payloadLen : Nat) : Nat :=
  if pos + payloadLen + 2 > monitorTextSize then (monitorTextSize + 2 * wordSize - pos - 2) % wordSize
  else payloadLen

/-- `text`. -/
def monitorText (stack : Fin monitorTextSize → Byte) (port : Byte) (f : Frame) :
    Sheet Byte monitorTextSize :=
  let text := monitorHeader stack port f
  let text :=
    if (f.type = .ui ∨ f.type = .i) ∧ 0 < f.payload.length then
      (text.put (f.payload.take (payloadCopy text.pos f.payload.length))).put [0x0D]
    else text
  text.put [0]

/-- `send_monitor_to_client`: the frame for the client. `monitorBuf` says whether there is
a buffer in the pool. -/
def sendMonitorToClient (stack : Fin monitorTextSize → Byte) (monitorBuf : Bool) (port : Byte)
    (frame : Frame) (ownTransmitted : Bool) : Option AgwpeFrame :=
  if ownTransmitted ∧ frame.type ≠ .ui then none
  else if ¬ monitorBuf then none
  else
    let text := monitorText stack port frame
    let dataLen := if text.pos > agwpeMaxDataLen then agwpeMaxDataLen else text.pos
    some
      { header :=
          { agwpeFrameInit.header with
            port
            callFrom := agwpeSetCallsign (monitorCall frame.source)
            callTo := agwpeSetCallsign (monitorCall frame.destination)
            dataKind :=
              match frame.type with
              | .ui => if ownTransmitted then 0x54 else 0x55
              | .i => 0x49
              | _ => 0x53
            pid := if frame.type = .ui ∨ frame.type = .i then frame.pid else agwpeFrameInit.header.pid
            dataLen := dataLen.toUInt32 }
        data := storeAll agwpeFrameInit.data 0 ((List.ofFn text.cells).take dataLen) }

/-! ### Lengths -/

/-- A frame as it is monitored. -/
structure Frame.Monitored (f : Frame) : Prop where
  source : f.source.callsign.length ≤ maxCallsignLen
  destination : f.destination.callsign.length ≤ maxCallsignLen
  digipeaters : ∀ digi ∈ f.digipeaters, digi.callsign.length ≤ maxCallsignLen
  numDigipeaters : f.digipeaters.length ≤ maxDigipeaters
  payload : f.payload.length ≤ maxInfoLen

/-- The length of the path with its separators, behind "Via ". -/
def viaLength : List Address → Nat
  | [] => 0
  | digi :: digis =>
    (monitorCall digi).length + (if digi.hasBeenRepeated then 2 else 1) + viaLength digis

/-- The length of the text in front of the payload of a UI or an I frame. -/
def monitorHeaderLength (port : Byte) (f : Frame) : Nat :=
  10 + (decimal (port.toNat + 1)).length + (monitorCall f.source).length +
    (monitorCall f.destination).length +
    (if f.digipeaters = [] then 0 else 4 + viaLength f.digipeaters) +
    ((if f.type = .ui then 21 else 26) + (decimal f.payload.length).length) + 11

theorem monitorCall_length (a : Address) : (monitorCall a).length ≤ 10 := by
  unfold monitorCall addressToString
  dsimp only
  split_ifs
  · exact Nat.zero_le _
  · exact Nat.le_trans (List.length_take_le _ _) (by decide)
  · exact Nat.zero_le _
  · exact Nat.le_trans (List.length_take_le _ _) (by decide)

theorem digit_length : ∀ n < 8, (decimal n).length = 1 := by decide +kernel

theorem extractNs_lt (control : Byte) : frameExtractNs control < 8 := by
  unfold frameExtractNs
  rw [UInt8.toNat_and]
  exact Nat.lt_of_le_of_lt Nat.and_le_right (by decide)

theorem pfText_length (f : Frame) : (pfText f).length = 3 := by
  unfold pfText
  cases f.isCommand with
  | true => cases frameHasPf f.control with
    | true => rfl
    | false => rfl
  | false => cases frameHasPf f.control with
    | true => rfl
    | false => rfl

theorem lenText_length (f : Frame) : (lenText f).length = 4 + (decimal f.payload.length).length :=
  List.length_append

theorem sName_length (control : Byte) : (literal (sName control)).length ≤ 4 := by
  unfold sName
  dsimp only
  split_ifs <;> decide

theorem uName_length (control : Byte) : (literal (uName control)).length ≤ 5 := by
  unfold uName
  dsimp only
  split_ifs <;> decide

/-- The description of a UI or an I frame. -/
theorem typePiece_length {f : Frame} (h : f.type = .ui ∨ f.type = .i) :
    (typePiece f).length =
      (if f.type = .ui then 21 else 26) + (decimal f.payload.length).length := by
  have hns := digit_length _ (extractNs_lt f.control)
  have hnr := digit_length _ (frameExtractNr_lt f.control)
  have hhex : (hexByte f.pid).length = 2 := rfl
  unfold typePiece
  rcases h with h | h
  · simp only [h, if_true, List.length_append, hhex, lenText_length, pfText_length,
      show (literal "<UI pid=").length = 8 from rfl, show (literal " ").length = 1 from rfl,
      show (literal " >").length = 2 from rfl]
    omega
  · simp only [h, if_false, reduceCtorEq, List.length_append, hhex, hns, hnr, lenText_length,
      pfText_length, show (literal "<I S").length = 4 from rfl,
      show (literal " R").length = 2 from rfl, show (literal " pid=").length = 5 from rfl,
      show (literal " ").length = 1 from rfl, show (literal " >").length = 2 from rfl]
    omega

/-- The description of any frame. -/
theorem typePiece_length_le {f : Frame} (h : f.payload.length ≤ maxInfoLen) :
    (typePiece f).length ≤ 29 := by
  have hlen : (decimal f.payload.length).length ≤ 3 :=
    decimal_length (by decide) (Nat.lt_of_le_of_lt h (by decide))
  have hnr := digit_length _ (frameExtractNr_lt f.control)
  cases htype : f.type with
  | ui =>
      rw [typePiece_length (.inl htype), if_pos htype]
      omega
  | i =>
      rw [typePiece_length (.inr htype), if_neg (by rw [htype]; decide)]
      omega
  | s =>
      have hname := sName_length f.control
      simp only [typePiece, htype, List.length_append, hnr, pfText_length, apply_ite List.length,
        lenText_length, show (literal "<").length = 1 from rfl,
        show (literal " R").length = 2 from rfl, show (literal " ").length = 1 from rfl,
        show (literal " >").length = 2 from rfl]
      split_ifs <;> omega
  | u =>
      have hname := uName_length f.control
      simp only [typePiece, htype, List.length_append, pfText_length, apply_ite List.length,
        lenText_length, show (literal "<").length = 1 from rfl,
        show (literal " ").length = 1 from rfl, show (literal " >").length = 2 from rfl]
      split_ifs <;> omega
  | unknown =>
      rw [typePiece, htype]
      exact (show (literal "<? >").length ≤ 29 by decide)

/-- The pieces of the digipeaters: a comma in front of each but the first. -/
theorem digiPieces_length (digis : List Address) : ∀ i,
    (digiPieces i digis).flatten.length + (if i = 0 ∧ digis ≠ [] then 1 else 0) =
      viaLength digis := by
  induction digis with
  | nil =>
      intro i
      simp [digiPieces, viaLength]
  | cons digi digis ih =>
      intro i
      have hrest := ih (i + 1)
      rw [if_neg (by simp), Nat.add_zero] at hrest
      simp only [digiPieces, List.flatten_append, List.flatten_cons, List.length_append, hrest,
        viaLength]
      have hcomma : (literal ",").length = 1 := rfl
      have hstar : (literal "*").length = 1 := rfl
      cases i with
      | zero => cases digi.hasBeenRepeated <;> simp [hstar] <;> omega
      | succ i => cases digi.hasBeenRepeated <;> simp [hcomma, hstar] <;> omega

theorem viaLength_le (digis : List Address) : viaLength digis ≤ 12 * digis.length := by
  induction digis with
  | nil => exact Nat.le_refl 0
  | cons digi digis ih =>
      have hcall := monitorCall_length digi
      simp only [viaLength, List.length_cons] at *
      split_ifs <;> omega

/-- The header without the description. -/
theorem monitorPieces_length (port : Byte) (f : Frame) :
    (monitorPieces port f).flatten.length =
      10 + (decimal (port.toNat + 1)).length + (monitorCall f.source).length +
        (monitorCall f.destination).length +
        (if f.digipeaters = [] then 0 else 4 + viaLength f.digipeaters) + (typePiece f).length +
        11 := by
  have hvia := digiPieces_length f.digipeaters 0
  simp only [monitorPieces, List.flatten_cons, List.flatten_append, List.length_append,
    List.flatten_nil, List.append_nil, show (literal " ").length = 1 from rfl,
    show (literal ":Fm ").length = 4 from rfl, show (literal " To ").length = 4 from rfl,
    show (literal "[--:--:--]\r").length = 11 from rfl]
  by_cases hnil : f.digipeaters = []
  · simp only [hnil, List.length_nil, Nat.lt_irrefl, if_true, if_false, List.flatten_nil]
    omega
  · rw [if_pos ⟨rfl, hnil⟩] at hvia
    simp only [List.length_pos_of_ne_nil hnil, hnil, if_true, if_false, List.flatten_cons,
      List.flatten_append, List.flatten_nil, List.append_nil, List.length_append,
      show (literal " ").length = 1 from rfl, show (literal "Via ").length = 4 from rfl]
    omega

/-- Every header leaves room. -/
theorem monitorPieces_fit {f : Frame} (h : f.Monitored) (port : Byte) :
    (monitorPieces port f).flatten.length ≤ 173 := by
  have hport : (decimal (port.toNat + 1)).length ≤ 3 := by
    have := port.toNat_lt
    exact decimal_length (by decide) (by omega)
  have hsource := monitorCall_length f.source
  have hdestination := monitorCall_length f.destination
  have hvia := viaLength_le f.digipeaters
  have hnum := h.numDigipeaters
  have htype := typePiece_length_le h.payload
  rw [monitorPieces_length]
  rw [maxDigipeaters] at hnum
  split_ifs <;> omega

/-! ### What is in the buffer -/

section Text

variable {f : Frame} (h : f.Monitored) (stack : Fin monitorTextSize → Byte) (port : Byte)

include h

theorem monitorHeader_fits : (monitorHeader stack port f).Fits ∧
    (monitorHeader stack port f).text = (monitorPieces port f).flatten := by
  have hlen := monitorPieces_fit h port
  refine Sheet.printAll_fits (by decide) (Sheet.fits_blank stack) ?_
  exact show 0 + (monitorPieces port f).flatten.length < 384 by omega

theorem monitorHeader_pos :
    (monitorHeader stack port f).pos = (monitorPieces port f).flatten.length := by
  obtain ⟨hfits, htext⟩ := monitorHeader_fits h stack port
  rw [← htext, Sheet.text_length hfits.pos]

omit h in
/-- The cut leaves room for the CR and the NUL. -/
theorem payloadCopy_eq {pos : Nat} (hpos : pos + 2 ≤ monitorTextSize) (payloadLen : Nat) :
    payloadCopy pos payloadLen = min payloadLen (monitorTextSize - 2 - pos) := by
  have hsize : monitorTextSize < wordSize := by decide
  unfold payloadCopy
  split_ifs with hlong
  · rw [show monitorTextSize + 2 * wordSize - pos - 2 =
      (monitorTextSize - 2 - pos) + wordSize * 2 by omega, Nat.add_mul_mod_self_left,
      Nat.mod_eq_of_lt (by omega)]
    omega
  · omega

/-- What stands behind the header. -/
def monitorTail (pos : Nat) (f : Frame) : List Byte :=
  if (f.type = .ui ∨ f.type = .i) ∧ 0 < f.payload.length then
    f.payload.take (monitorTextSize - 2 - pos) ++ [0x0D, 0]
  else [0]

/-- Everything that is written is written in the buffer. -/
theorem monitorText_fits : (monitorText stack port f).Fits ∧
    (monitorText stack port f).text = (monitorPieces port f).flatten ++
      monitorTail (monitorPieces port f).flatten.length f := by
  obtain ⟨hfits, htext⟩ := monitorHeader_fits h stack port
  have hpos := monitorHeader_pos h stack port
  have hlen := monitorPieces_fit h port
  have hsize : monitorTextSize = 384 := rfl
  unfold monitorText monitorTail
  dsimp only
  split_ifs with hpay
  · rw [payloadCopy_eq (by omega), hpos]
    generalize hcut : f.payload.take
      (min f.payload.length (monitorTextSize - 2 - (monitorPieces port f).flatten.length)) = cut
    have hcut' : f.payload.take (monitorTextSize - 2 - (monitorPieces port f).flatten.length) =
        cut := by
      rw [← hcut, List.take_eq_take_min, Nat.min_comm]
    have hlenCut : cut.length ≤ monitorTextSize - 2 - (monitorPieces port f).flatten.length := by
      rw [← hcut', List.length_take]
      exact Nat.min_le_left _ _
    obtain ⟨hfits₁, htext₁⟩ := Sheet.put_fits hfits (l := cut) (by omega)
    obtain ⟨hfits₂, htext₂⟩ := Sheet.put_fits hfits₁ (l := [0x0D]) (by
      rw [Sheet.put_pos, List.length_singleton]
      omega)
    obtain ⟨hfits₃, htext₃⟩ := Sheet.put_fits hfits₂ (l := [0]) (by
      rw [Sheet.put_pos, Sheet.put_pos, List.length_singleton, List.length_singleton]
      omega)
    refine ⟨hfits₃, ?_⟩
    rw [htext₃, htext₂, htext₁, htext, hcut']
    simp only [List.append_assoc, List.cons_append, List.nil_append]
  · obtain ⟨hfits₁, htext₁⟩ := Sheet.put_fits hfits (l := [0]) (by
      rw [List.length_singleton]
      omega)
    exact ⟨hfits₁, by rw [htext₁, htext]⟩

/-- The client gets what is in the buffer. -/
theorem sendMonitorToClient_contents {monitorBuf ownTransmitted : Bool} {g : AgwpeFrame}
    (hsend : sendMonitorToClient stack monitorBuf port f ownTransmitted = some g) :
    g.contents = (monitorText stack port f).text ∧
      g.header.dataLen.toNat = (monitorText stack port f).pos := by
  have hpos := (monitorText_fits h stack port).1.pos
  have hsize : monitorTextSize ≤ agwpeMaxDataLen := by decide
  have hword : monitorTextSize < 2 ^ 32 := by decide
  rw [sendMonitorToClient] at hsend
  by_cases hown : ownTransmitted = true ∧ f.type ≠ .ui
  · rw [if_pos hown] at hsend
    cases hsend
  by_cases hbuf : ¬ monitorBuf = true
  · rw [if_neg hown, if_pos hbuf] at hsend
    cases hsend
  rw [if_neg hown, if_neg hbuf] at hsend
  have hg := Option.some.inj hsend
  generalize monitorText stack port f = text at *
  have hall : (if text.pos > agwpeMaxDataLen then agwpeMaxDataLen else text.pos) = text.pos :=
    if_neg (Nat.not_lt.mpr (Nat.le_trans hpos hsize))
  have hdataLen : g.header.dataLen.toNat = text.pos := by
    rw [← hg]
    dsimp only
    rw [hall]
    exact UInt32.toNat_ofNat_of_lt' (Nat.lt_of_le_of_lt hpos hword)
  have hlen : text.text.length = text.pos := Sheet.text_length hpos
  refine ⟨?_, hdataLen⟩
  rw [AgwpeFrame.contents, hdataLen, ← hg]
  dsimp only
  rw [hall]
  have htake := take_ofFn_storeAll agwpeFrameInit.data (i := 0) (l := text.text) (by
    rw [hlen, Nat.zero_add]
    exact Nat.le_trans hpos hsize)
  rw [Nat.zero_add, hlen] at htake
  rw [← Sheet.text, htake, List.take_zero, List.nil_append]

end Text

/-- **Nothing is printed outside of the buffer.** Every call of `snprintf` has the room that
it is told and prints all of its text, every position is in the buffer, the room for the
payload is not negative, and the frame gets at most what the buffer holds. -/
theorem monitor_text_fits {f : Frame} (h : f.Monitored) (stack : Fin monitorTextSize → Byte)
    (port : Byte) :
    (∀ c ∈ (monitorText stack port f).calls, c.Complete monitorTextSize) ∧
      (∀ p ∈ (monitorText stack port f).positions, p ≤ monitorTextSize) ∧
      (monitorHeader stack port f).pos + 2 ≤ monitorTextSize ∧
      ∀ monitorBuf ownTransmitted g,
        sendMonitorToClient stack monitorBuf port f ownTransmitted = some g →
          g.header.dataLen.toNat ≤ monitorTextSize := by
  have hfits := (monitorText_fits h stack port).1
  refine ⟨hfits.calls, hfits.positions, ?_, fun monitorBuf ownTransmitted g hsend => ?_⟩
  · have hlen := monitorPieces_fit h port
    have hsize : monitorTextSize = 384 := rfl
    rw [monitorHeader_pos h]
    omega
  · rw [(sendMonitorToClient_contents h stack port hsend).2]
    exact hfits.pos

theorem monitor_text_fits_ui :
    (∀ c ∈ (monitorText (fun _ => 0xAA) 255 sampleUiFrame).calls, c.Complete monitorTextSize) ∧
      (∀ p ∈ (monitorText (fun _ => 0xAA) 255 sampleUiFrame).positions, p ≤ monitorTextSize) ∧
      (monitorHeader (fun _ => 0xAA) 255 sampleUiFrame).pos + 2 ≤ monitorTextSize ∧
      ∀ monitorBuf ownTransmitted g,
        sendMonitorToClient (fun _ => 0xAA) monitorBuf 255 sampleUiFrame ownTransmitted = some g →
          g.header.dataLen.toNat ≤ monitorTextSize :=
  monitor_text_fits ⟨by decide, by decide, by decide, by decide, by decide⟩ (fun _ => 0xAA) 255

/-! ### The payload -/

/-- The data say how long the payload is, and end with so many bytes of it, a CR and a
NUL. -/
def MonitorComplete (f : Frame) (g : AgwpeFrame) : Prop :=
  (∃ before after, g.contents = before ++ (lenText f ++ 0x20 :: after)) ∧
    f.payload ++ [0x0D, 0] <:+ g.contents

/-- What is left of a payload that has been cut ends, together with the header in front of
it, with the whole payload all the same: it repeats the end of the header. -/
def MonitorRepeats (port : Byte) (f : Frame) : Prop :=
  f.payload <:+ ((monitorPieces port f).flatten ++ f.payload).take (monitorTextSize - 2)

instance (port : Byte) (f : Frame) : Decidable (MonitorRepeats port f) :=
  inferInstanceAs (Decidable (_ <:+ _))

section Payload

variable {f : Frame} (htype : f.type = .ui ∨ f.type = .i)

include htype

theorem typePiece_len : ∃ before after, typePiece f = before ++ (lenText f ++ 0x20 :: after) := by
  unfold typePiece
  rcases htype with h | h
  · refine ⟨literal "<UI pid=" ++ (hexByte f.pid ++ literal " "), pfText f ++ literal " >", ?_⟩
    simp only [h, List.append_assoc]
    rfl
  · refine ⟨literal "<I S" ++ (decimal (frameExtractNs f.control) ++
      (literal " R" ++ (decimal (frameExtractNr f.control) ++
        (literal " pid=" ++ (hexByte f.pid ++ literal " "))))), pfText f ++ literal " >", ?_⟩
    simp only [h, List.append_assoc]
    rfl

omit htype in
/-- The last two pieces. -/
theorem monitorPieces_flatten (port : Byte) (f : Frame) : ∃ front,
    (monitorPieces port f).flatten = front ++ (typePiece f ++ literal "[--:--:--]\r") := by
  have hlast : [typePiece f, literal "[--:--:--]\r"].flatten =
      typePiece f ++ literal "[--:--:--]\r" := by
    rw [List.flatten_cons, List.flatten_cons, List.flatten_nil, List.append_nil]
  unfold monitorPieces
  rw [← List.cons_append, List.flatten_append, hlast]
  exact ⟨_, rfl⟩

/-- The header prints the length. -/
theorem monitorPieces_len (port : Byte) : ∃ before after,
    (monitorPieces port f).flatten = before ++ (lenText f ++ 0x20 :: after) := by
  obtain ⟨front, hfront⟩ := monitorPieces_flatten port f
  obtain ⟨before, after, hpiece⟩ := typePiece_len htype
  refine ⟨front ++ before, after ++ literal "[--:--:--]\r", ?_⟩
  rw [hfront, hpiece]
  simp only [List.append_assoc, List.cons_append]

omit htype in
theorem suffix_append_iff {s r t : List Byte} : s ++ t <:+ r ++ t ↔ s <:+ r := by
  constructor
  · rintro ⟨k, hk⟩
    exact ⟨k, List.append_cancel_right ((List.append_assoc k s t).trans hk)⟩
  · rintro ⟨k, rfl⟩
    exact ⟨k, (List.append_assoc k s t).symm⟩

/-- The data end with the whole payload, or not. -/
theorem payload_suffix_iff (h : f.Monitored) (stack : Fin monitorTextSize → Byte) (port : Byte) :
    f.payload ++ [0x0D, 0] <:+ (monitorText stack port f).text ↔
      (monitorPieces port f).flatten.length + f.payload.length + 2 ≤ monitorTextSize ∨
        MonitorRepeats port f := by
  have hlen := monitorPieces_fit h port
  have hsize : monitorTextSize = 384 := rfl
  rw [(monitorText_fits h stack port).2]
  by_cases hpay : 0 < f.payload.length
  · have htake : ((monitorPieces port f).flatten ++ f.payload).take (monitorTextSize - 2) =
        (monitorPieces port f).flatten ++
          f.payload.take (monitorTextSize - 2 - (monitorPieces port f).flatten.length) := by
      rw [List.take_append, List.take_of_length_le (by omega)]
    rw [monitorTail, if_pos ⟨htype, hpay⟩, ← List.append_assoc, suffix_append_iff, ← htake]
    constructor
    · exact .inr
    · rintro (hfit | hrepeats)
      · rw [htake, List.take_of_length_le (by omega)]
        exact List.suffix_append _ _
      · exact hrepeats
  · have hnil : f.payload = [] := List.length_eq_zero_iff.mp (Nat.eq_zero_of_not_pos hpay)
    refine iff_of_true ?_ (.inl (by rw [hnil, List.length_nil]; omega))
    -- the header ends with a CR
    obtain ⟨front, hfront⟩ := monitorPieces_flatten port f
    have hcr : literal "[--:--:--]\r" = literal "[--:--:--]" ++ [0x0D] := rfl
    rw [hcr, ← List.append_assoc, ← List.append_assoc] at hfront
    rw [hnil, monitorTail, if_neg (fun hboth => hpay hboth.2), hfront, List.append_assoc]
    exact List.suffix_append _ _

/-- **A payload is complete if it fits.** A long path in the header leaves less room than a
payload may need, and the payload is cut to what is left. -/
theorem monitor_complete_iff (h : f.Monitored) {stack : Fin monitorTextSize → Byte} {port : Byte}
    {monitorBuf ownTransmitted : Bool} {g : AgwpeFrame}
    (hsend : sendMonitorToClient stack monitorBuf port f ownTransmitted = some g) :
    MonitorComplete f g ↔
      monitorHeaderLength port f + f.payload.length + 2 ≤ monitorTextSize ∨
        MonitorRepeats port f := by
  have hlength : monitorHeaderLength port f = (monitorPieces port f).flatten.length := by
    rw [monitorPieces_length, typePiece_length htype, monitorHeaderLength]
  rw [hlength, ← payload_suffix_iff htype h stack port, MonitorComplete,
    (sendMonitorToClient_contents h stack port hsend).1]
  refine and_iff_right ?_
  obtain ⟨before, after, hheader⟩ := monitorPieces_len htype port
  rw [(monitorText_fits h stack port).2, hheader]
  exact ⟨before, _, by rw [List.append_assoc, List.append_assoc, List.cons_append]⟩

end Payload

/-- "RELAYS-15". -/
def relay15 : Address := { callsign := [0x52, 0x45, 0x4C, 0x41, 0x59, 0x53], ssid := 15 }

/-- A UI frame by way of eight digipeaters, with 256 bytes. -/
def fullUiFrame : Frame :=
  { destination := relay15, source := relay15
    digipeaters := List.replicate 8 { relay15 with hasBeenRepeated := true }
    isCommand := true, type := .ui, control := 0x03, pid := 0xF0
    payload := List.replicate 256 0x21 }

theorem fullUiFrame_monitored : fullUiFrame.Monitored :=
  ⟨by decide, by decide, by decide, by decide, by decide +kernel⟩

theorem monitor_payload_cut :
    ¬ ∀ f : Frame, (f.type = .ui ∨ f.type = .i) → f.Monitored → ∀ stack port ownTransmitted g,
      sendMonitorToClient stack true port f ownTransmitted = some g → MonitorComplete f g := by
  intro hall
  obtain ⟨g, hsend⟩ : ∃ g, sendMonitorToClient (fun _ => 0) true 0 fullUiFrame false = some g :=
    ⟨_, rfl⟩
  have hsuffix := (hall _ (.inl rfl) fullUiFrame_monitored _ _ _ g hsend).2
  rw [(sendMonitorToClient_contents fullUiFrame_monitored _ _ hsend).1] at hsuffix
  have hcut := (payload_suffix_iff (.inl rfl) fullUiFrame_monitored (fun _ => 0) 0).mp hsuffix
  exact absurd hcut (by decide +kernel)

theorem monitor_complete_iff_ui :
    ∃ g, sendMonitorToClient (fun _ => 0xAA) true 0 sampleUiFrame false = some g ∧
      MonitorComplete sampleUiFrame g := by
  obtain ⟨g, hsend⟩ : ∃ g,
    sendMonitorToClient (fun _ => 0xAA) true 0 sampleUiFrame false = some g := ⟨_, rfl⟩
  refine ⟨g, hsend, (monitor_complete_iff (.inl rfl) ?_ hsend).mpr (.inl (by decide +kernel))⟩
  exact ⟨by decide, by decide, by decide, by decide, by decide⟩

end EspAx25
