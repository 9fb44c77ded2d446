import EspAx25.Agwpe.Convert
import EspAx25.CallText

/-!
# EspAx25.Agwpe.Unproto

Requests with digipeaters in fields of 10 bytes: `ax25_to_agwpe_unproto` and
`agwpe_build_connect_via_req` (`ax25_agwpe.c`) on the one side, `handle_send_unproto`,
`handle_send_unproto_via` and `parse_agwpe_digipeater_path` (`ax25_agwpe_server.c`) on
the other.

A callsign goes through three forms on this way: the address, its text in a cleared field
of 10 bytes, and the text again, without the NULs and the spaces at the end of the field.
`PathCall` is what all three have in common, and nothing is lost on the way
(`unproto_requests_arrive`).
-/

namespace EspAx25

open Memory

/-- `AGWPE_KIND_SEND_UNPROTO`. -/
def agwpeKindSendUnproto : Byte := 0x4D
/-- `AGWPE_KIND_CONNECT_VIA_REQ`. -/
def agwpeKindConnectViaReq : Byte := 0x76

/-! ### Builders -/

/-- A field of 10 bytes that is cleared before the string is copied into it. -/
def callSlot (call : List Byte) : List Byte :=
  (call.take agwpeCallsignLen).rightpad agwpeCallsignLen 0

/-- The loop that writes the fields. -/
def writeSlots : List (List Byte) → List Byte → Except EspErr (List Byte)
  | [], data => .ok data
  | call :: calls, data =>
    if data.length + agwpeCallsignLen > agwpeMaxDataLen then .error .noMem
    else writeSlots calls (data ++ callSlot call)

/-- The header of an unproto frame. -/
def unprotoHeader (frame : Frame) (port dataKind : Byte) : AgwpeHeader :=
  { agwpeFrameInit.header with
    port
    dataKind
    pid := frame.pid
    callFrom := ax25AddrToAgwpeCall frame.source
    callTo := ax25AddrToAgwpeCall frame.destination }

/-- `digi_call` of each digipeater. -/
def digiCalls (digipeaters : List Address) : List (List Byte) :=
  (digipeaters.take maxDigipeaters).map fun digi =>
    (addressToString digi agwpeCallsignLen).toOption.getD []

/-- `ax25_to_agwpe_unproto`. -/
def ax25ToAgwpeUnproto (frame : Frame) (port : Byte) : Except EspErr AgwpeFrame :=
  if 0 < frame.digipeaters.length then
    let header := unprotoHeader frame port agwpeKindSendUnprotoVia
    match writeSlots (digiCalls frame.digipeaters) [UInt8.ofNat frame.digipeaters.length] with
    | .error err => .error err
    | .ok data =>
      if 0 < frame.payload.length then
        if data.length + frame.payload.length > agwpeMaxDataLen then .error .noMem
        else .ok (.ofContents header (data ++ frame.payload))
      else .ok (.ofContents header data)
  else
    let header := unprotoHeader frame port agwpeKindSendUnproto
    if frame.payload.length > agwpeMaxDataLen then .error .noMem
    else .ok (.ofContents header frame.payload)

/-- `agwpe_build_connect_via_req`. The field of a NULL pointer stays empty. -/
def agwpeBuildConnectViaReq (port : Byte) (fromCall toCall : List Byte)
    (digipeaters : List (Option (List Byte))) : Except EspErr AgwpeFrame :=
  let header : AgwpeHeader :=
    { agwpeFrameInit.header with
      port
      dataKind := agwpeKindConnectViaReq
      callFrom := agwpeSetCallsign fromCall
      callTo := agwpeSetCallsign toCall }
  match writeSlots (digipeaters.map (·.getD [])) [UInt8.ofNat digipeaters.length] with
  | .error err => .error err
  | .ok data => .ok (.ofContents header data)

/-! ### The server -/

/-- `handle_send_unproto`: the frame that goes to `ax25_router_send`. -/
def handleSendUnproto (frame : AgwpeFrame) : Frame :=
  { frameInit with
    type := .ui
    control := ctrlUi
    pid := frame.header.pid
    source := (addressFromString (agwpeGetCallsign frame.header.callFrom)).2
    destination := (addressFromString (agwpeGetCallsign frame.header.callTo)).2
    payload := frame.contents.take maxInfoLen }

/-- The 'M' and 'V' cases of `ax25_agwpe_server_agwpe_in`. -/
def handleUnproto (frame : AgwpeFrame) : Option Frame :=
  if frame.header.dataKind = agwpeKindSendUnproto then some (handleSendUnproto frame)
  else if frame.header.dataKind = agwpeKindSendUnprotoVia then handleSendUnprotoVia frame
  else none

/-! ### Addresses and their texts -/

/-- An upper-case letter or a digit. -/
def isCallLetter (c : Byte) : Bool := isDigit c || (0x41 ≤ c && c ≤ 0x5A)

/-- One to six upper-case letters and digits, and an SSID. -/
structure Address.Valid (a : Address) : Prop where
  nonempty : a.callsign ≠ []
  length : a.callsign.length ≤ maxCallsignLen
  letters : ∀ c ∈ a.callsign, isCallLetter c = true
  ssid : a.ssid.toNat ≤ 15

/-- The address without its flags. -/
def Address.plain (a : Address) : Address := { a with hasBeenRepeated := false, isLast := false }

/-- "CALLSIGN" or "CALLSIGN-SSID", as it stands in a field. An SSID of one or two digits
always fits. -/
structure PathCall (text : List Byte) (a : Address) : Prop where
  valid : a.Valid
  spells : CallText text a.callsign a.ssid.toNat
  fits : text.length ≤ agwpeCallsignLen

theorem isCallLetter_facts (c : Byte) (h : isCallLetter c = true) :
    c ≠ 0 ∧ c ≠ 0x20 ∧ c ≠ 0x2D ∧ toUpper c = c := by
  have hc : (0x30 ≤ c.toNat ∧ c.toNat ≤ 0x39) ∨ (0x41 ≤ c.toNat ∧ c.toNat ≤ 0x5A) := by
    simpa [isCallLetter, isDigit_iff, UInt8.le_iff_toNat_le] using h
  simp only [ne_eq, ← UInt8.toNat_inj, toUpper_toNat, UInt8.reduceToNat]
  split_ifs <;> omega

theorem isDigit_isCallLetter {c : Byte} (h : isDigit c = true) : isCallLetter c = true := by
  rw [isCallLetter, h, Bool.true_or]

namespace PathCall

variable {text : List Byte} {a : Address}

/-- There is nothing in a text that a field could lose. -/
theorem chars (h : PathCall text a) : ∀ c ∈ text, c ≠ 0 ∧ c ≠ 0x20 := by
  have hletter : ∀ c : Byte, isCallLetter c = true → c ≠ 0 ∧ c ≠ 0x20 := fun c hc =>
    ⟨(isCallLetter_facts c hc).1, (isCallLetter_facts c hc).2.1⟩
  generalize hssid : a.ssid.toNat = n at *
  have htext := hssid ▸ h.spells
  intro c hc
  cases htext with
  | call _ _ _ => exact hletter c (h.valid.letters c hc)
  | callSsid _ _ _ hnum _ =>
      rcases List.mem_append.mp hc with hc | hc
      · exact hletter c (h.valid.letters c hc)
      · rcases List.mem_cons.mp hc with rfl | hc
        · decide
        · exact hletter c (isDigit_isCallLetter (hnum.digits c hc))

/-- The text is read as the address. -/
theorem read (h : PathCall text a) : addressFromString text = (.ok, a.plain) := by
  have hupper : a.callsign.map toUpper = a.callsign :=
    (List.map_congr_left fun c hc => (isCallLetter_facts c (h.valid.letters c hc)).2.2.2).trans
      (List.map_id _)
  have hplain : a.plain = callAddress a.callsign a.ssid.toNat := by
    rw [callAddress, hupper, UInt8.ofNat_toNat, Address.plain]
  obtain ⟨-, hok, haddr⟩ := (callText_iff text _).mp ⟨_, _, h.spells, hplain⟩
  exact (addressFromString_ok_iff text _).mpr ⟨hok, haddr⟩

end PathCall

/-- What `ax25_address_to_string` prints of a valid address. -/
theorem Address.Valid.print {a : Address} (h : a.Valid) :
    ∃ text, addressToString a agwpeCallsignLen = .ok text ∧ PathCall text a ∧
      text.length < agwpeCallsignLen := by
  have hlen : a.callsign.length ≤ 6 := h.length
  have hdash : 0x2D ∉ a.callsign := fun hmem =>
    (isCallLetter_facts _ (h.letters _ hmem)).2.2.1 rfl
  have hssid := h.ssid
  by_cases hzero : a.ssid = 0
  · have htext : CallText a.callsign a.callsign a.ssid.toNat := by
      rw [hzero]
      exact .call h.nonempty hlen hdash
    have hshort : a.callsign.length < agwpeCallsignLen := by
      rw [agwpeCallsignLen]
      omega
    exact ⟨_, addressToString_call hlen hzero, ⟨h, htext, Nat.le_of_lt hshort⟩, hshort⟩
  · have hdigits : (decimal a.ssid.toNat).length ≤ 2 := decimal_length (by decide) (by omega)
    have hshort : (a.callsign ++ 0x2D :: decimal a.ssid.toNat).length < agwpeCallsignLen := by
      rw [List.length_append, List.length_cons, agwpeCallsignLen]
      omega
    have htext := CallText.callSsid h.nonempty hlen hdash (numeral_decimal a.ssid.toNat) hssid
    exact ⟨_, addressToString_callSsid hlen hzero (by omega),
      ⟨h, htext, Nat.le_of_lt hshort⟩, hshort⟩

/-- The header fields: an address that is put into one is read from it. -/
theorem Address.Valid.header {a : Address} (h : a.Valid) :
    addressFromString (agwpeGetCallsign (ax25AddrToAgwpeCall a)) = (.ok, a.plain) := by
  obtain ⟨text, hprint, hcall, hshort⟩ := h.print
  have hnul : 0 ∉ text := fun hmem => (hcall.chars 0 hmem).1 rfl
  rw [ax25AddrToAgwpeCall, hprint]
  simp only [Except.toOption, Option.getD_some]
  rw [agwpeGetCallsign_set hshort hnul, hcall.read]

/-! ### Fields -/

theorem callSlot_length (call : List Byte) : (callSlot call).length = agwpeCallsignLen := by
  rw [callSlot, List.length_rightpad, List.length_take]
  omega

theorem slots_length (calls : List (List Byte)) :
    (calls.flatMap callSlot).length = calls.length * agwpeCallsignLen := by
  induction calls with
  | nil => simp
  | cons call calls ih =>
      simp only [List.flatMap_cons, List.length_append, callSlot_length, ih, List.length_cons,
        Nat.succ_mul]
      omega

/-- The fields are written one after the other if all of them fit. -/
theorem writeSlots_ok {calls : List (List Byte)} : ∀ {data : List Byte},
    data.length + calls.length * agwpeCallsignLen ≤ agwpeMaxDataLen →
      writeSlots calls data = .ok (data ++ calls.flatMap callSlot) := by
  induction calls with
  | nil =>
      intro data _
      simp [writeSlots]
  | cons call calls ih =>
      intro data hfit
      rw [List.length_cons, Nat.succ_mul] at hfit
      have hhere : ¬ data.length + agwpeCallsignLen > agwpeMaxDataLen := by omega
      have hrest : (data ++ callSlot call).length + calls.length * agwpeCallsignLen ≤
          agwpeMaxDataLen := by
        rw [List.length_append, callSlot_length]
        omega
      rw [writeSlots, if_neg hhere, ih hrest, List.flatMap_cons, List.append_assoc]

/-- The server reads a text from its field. -/
theorem PathCall.digiStr_slot {text : List Byte} {a : Address} (h : PathCall text a) :
    digiStr (callSlot text) = text := by
  have hne : ∀ c ∈ text, decide (c ≠ 0) = true := fun c hc => decide_eq_true (h.chars c hc).1
  have hpad : ∀ k : Nat, (text ++ List.replicate k 0).rdropWhile (fun c => c = 0 || c = 0x20) =
      text := by
    intro k
    induction k with
    | zero =>
        rw [List.replicate_zero, List.append_nil, List.rdropWhile_eq_self_iff]
        intro hnil
        have hlast := h.chars _ (List.getLast_mem hnil)
        simp [hlast.1, hlast.2]
    | succ k ih =>
        rw [List.replicate_succ', ← List.append_assoc, List.rdropWhile_concat_pos _ _ _ (by decide),
          ih]
  rw [callSlot, List.take_of_length_le h.fits, List.rightpad, digiStr, hpad,
    List.takeWhile_eq_self_iff.mpr hne]

theorem parsePathFields_slots {texts : List (List Byte)} {digis : List Address}
    (h : List.Forall₂ PathCall texts digis) (rest : List Byte) :
    parsePathFields texts.length (texts.flatMap callSlot ++ rest) =
      .ok (digis.map Address.plain) := by
  induction h with
  | nil => rfl
  | @cons text a texts digis hcall _ ih =>
      rw [List.length_cons, parsePathFields, List.flatMap_cons, List.append_assoc,
        List.take_left' (callSlot_length text), List.drop_left' (callSlot_length text),
        hcall.digiStr_slot, hcall.read, ih]
      rfl

/-- The server reads the digipeaters that the fields were written for, and the payload
begins behind them. -/
theorem parsePath_slots {texts : List (List Byte)} {digis : List Address}
    (hnum : texts.length ≤ maxDigipeaters) (h : List.Forall₂ PathCall texts digis)
    (rest : List Byte) :
    parseAgwpeDigipeaterPath (UInt8.ofNat texts.length :: (texts.flatMap callSlot ++ rest)) =
      .ok (digis.map Address.plain, 1 + texts.length * agwpeCallsignLen) := by
  have hndigi : (UInt8.ofNat texts.length).toNat = texts.length :=
    UInt8.toNat_ofNat_of_lt' (Nat.lt_of_le_of_lt hnum (by decide))
  unfold parseAgwpeDigipeaterPath
  simp only [List.length_cons, List.getD_cons_zero, hndigi, List.drop_one, List.tail_cons,
    List.length_append, slots_length]
  rw [if_neg (by omega), if_neg (Nat.not_lt.mpr hnum), if_neg (by omega),
    parsePathFields_slots h]
  rfl

/-! ### Requests -/

/-- A frame with valid addresses, at most 8 digipeaters and at most 256 bytes of payload. -/
structure Frame.Sendable (f : Frame) : Prop where
  source : f.source.Valid
  destination : f.destination.Valid
  digipeaters : ∀ digi ∈ f.digipeaters, digi.Valid
  numDigipeaters : f.digipeaters.length ≤ maxDigipeaters
  payload : f.payload.length ≤ maxInfoLen

/-- The server sends `r` for a request that was made of `f`: no address, no byte and not
the PID has changed, and no digipeater has repeated it. -/
structure Frame.Requested (f r : Frame) : Prop where
  type : r.type = .ui
  control : r.control = ctrlUi
  pid : r.pid = f.pid
  source : r.source = f.source.plain
  destination : r.destination = f.destination.plain
  digipeaters : r.digipeaters = f.digipeaters.map Address.plain
  payload : r.payload = f.payload

/-- The texts of digipeaters. -/
theorem digiCalls_pathCall {digis : List Address} (hnum : digis.length ≤ maxDigipeaters)
    (h : ∀ digi ∈ digis, digi.Valid) : List.Forall₂ PathCall (digiCalls digis) digis := by
  rw [digiCalls, List.take_of_length_le hnum]
  clear hnum
  induction digis with
  | nil => exact .nil
  | cons digi digis ih =>
      obtain ⟨text, hprint, hcall, -⟩ := (h digi List.mem_cons_self).print
      rw [List.map_cons, hprint]
      exact .cons hcall (ih fun d hd => h d (List.mem_cons_of_mem _ hd))

section Requests

variable {f : Frame}

/-- What is left to check of a frame whose addresses come from the header. -/
theorem Frame.Sendable.requested (h : f.Sendable) {r : Frame} (htype : r.type = .ui)
    (hcontrol : r.control = ctrlUi) (hpid : r.pid = f.pid)
    (hsource : r.source = (addressFromString (agwpeGetCallsign (ax25AddrToAgwpeCall f.source))).2)
    (hdestination : r.destination =
      (addressFromString (agwpeGetCallsign (ax25AddrToAgwpeCall f.destination))).2)
    (hdigipeaters : r.digipeaters = f.digipeaters.map Address.plain)
    (hpayload : r.payload = f.payload.take maxInfoLen) : f.Requested r where
  type := htype
  control := hcontrol
  pid := hpid
  source := hsource.trans (by rw [h.source.header])
  destination := hdestination.trans (by rw [h.destination.header])
  digipeaters := hdigipeaters
  payload := hpayload.trans (List.take_of_length_le h.payload)

/-- 'M': without digipeaters. -/
theorem send_unproto (h : f.Sendable) (hdirect : f.digipeaters = []) (port : Byte) :
    ∃ g r, ax25ToAgwpeUnproto f port = .ok g ∧ handleUnproto g = some r ∧ f.Requested r := by
  have hfit : f.payload.length ≤ agwpeMaxDataLen := Nat.le_trans h.payload (by decide)
  have hbuild : ax25ToAgwpeUnproto f port =
      .ok (.ofContents (unprotoHeader f port agwpeKindSendUnproto) f.payload) := by
    rw [ax25ToAgwpeUnproto, if_neg (by rw [hdirect]; decide)]
    exact if_neg (Nat.not_lt.mpr hfit)
  refine ⟨_, _, hbuild, if_pos rfl, ?_⟩
  refine h.requested rfl rfl rfl rfl rfl ?_ ?_
  · rw [hdirect]
    rfl
  · rw [handleSendUnproto, AgwpeFrame.contents_ofContents hfit]

/-- The fields of the digipeaters and the payload behind them. -/
theorem ax25ToAgwpeUnproto_via (h : f.Sendable) (hvia : f.digipeaters ≠ []) (port : Byte) :
    ax25ToAgwpeUnproto f port =
      .ok (.ofContents (unprotoHeader f port agwpeKindSendUnprotoVia)
        (UInt8.ofNat f.digipeaters.length ::
          ((digiCalls f.digipeaters).flatMap callSlot ++ f.payload))) := by
  have hpay := h.payload
  have hnum := h.numDigipeaters
  have hlen := (digiCalls_pathCall hnum h.digipeaters).length_eq
  have hslots := slots_length (digiCalls f.digipeaters)
  rw [maxInfoLen] at hpay
  rw [maxDigipeaters] at hnum
  rw [hlen, agwpeCallsignLen] at hslots
  have hfields : writeSlots (digiCalls f.digipeaters) [UInt8.ofNat f.digipeaters.length] =
      .ok (UInt8.ofNat f.digipeaters.length :: (digiCalls f.digipeaters).flatMap callSlot) := by
    refine writeSlots_ok ?_
    rw [List.length_singleton, hlen, agwpeCallsignLen, agwpeMaxDataLen]
    omega
  rw [ax25ToAgwpeUnproto, if_pos (List.length_pos_of_ne_nil hvia), hfields]
  dsimp only
  rw [List.length_cons, hslots, agwpeMaxDataLen]
  split_ifs with hsome hlong
  · omega
  · rfl
  · rw [List.length_eq_zero_iff.mp (Nat.eq_zero_of_not_pos hsome), List.append_nil]

/-- What the server makes of data that begins with a path. -/
theorem handleSendUnprotoVia_path {header : AgwpeHeader} {data : List Byte} {path : List Address}
    {consumed : Nat} (hfit : data.length ≤ agwpeMaxDataLen)
    (hparse : parseAgwpeDigipeaterPath data = .ok (path, consumed)) :
    ∃ r, handleSendUnprotoVia (.ofContents header data) = some r ∧
      r = { handleSendUnproto (.ofContents header data) with
            digipeaters := path
            payload := (data.drop consumed).take maxInfoLen } := by
  have hdata : 1 ≤ data.length := by
    by_contra hnil
    rw [parseAgwpeDigipeaterPath, if_pos (Nat.lt_of_not_le hnil)] at hparse
    cases hparse
  have hpos : ¬ (AgwpeFrame.ofContents header data).header.dataLen < 1 := by
    rw [UInt32.lt_iff_toNat_lt, AgwpeFrame.dataLen_ofContents hfit]
    exact Nat.not_lt.mpr hdata
  refine ⟨_, ?_, rfl⟩
  rw [handleSendUnprotoVia, if_neg hpos, AgwpeFrame.contents_ofContents hfit, hparse]
  rfl

/-- 'V': with digipeaters. -/
theorem send_unproto_via (h : f.Sendable) (hvia : f.digipeaters ≠ []) (port : Byte) :
    ∃ g r, ax25ToAgwpeUnproto f port = .ok g ∧ handleUnproto g = some r ∧ f.Requested r := by
  have hnum := h.numDigipeaters
  have hpay := h.payload
  have hcalls := digiCalls_pathCall hnum h.digipeaters
  have hlen := hcalls.length_eq
  have hparse := parsePath_slots (hlen ▸ hnum) hcalls f.payload
  have hslots := slots_length (digiCalls f.digipeaters)
  rw [hlen] at hparse hslots
  have hfit : (UInt8.ofNat f.digipeaters.length ::
      ((digiCalls f.digipeaters).flatMap callSlot ++ f.payload)).length ≤ agwpeMaxDataLen := by
    rw [List.length_cons, List.length_append, hslots]
    simp only [agwpeCallsignLen, agwpeMaxDataLen, maxDigipeaters, maxInfoLen] at *
    omega
  obtain ⟨r, hsend, hr⟩ := handleSendUnprotoVia_path hfit hparse
  refine ⟨_, r, ax25ToAgwpeUnproto_via h hvia port, ?_, ?_⟩
  · have hkind : ¬ agwpeKindSendUnprotoVia = agwpeKindSendUnproto := by decide
    exact (if_neg hkind).trans ((if_pos rfl).trans hsend)
  · subst hr
    refine h.requested rfl rfl rfl rfl rfl rfl ?_
    dsimp only
    rw [Nat.add_comm, List.drop_succ_cons, List.drop_left' hslots]

end Requests

/-- 'v': the path of a connect request. -/
theorem connect_via_path {texts : List (List Byte)} {digis : List Address}
    (hnum : texts.length ≤ maxDigipeaters) (hcalls : List.Forall₂ PathCall texts digis)
    (port : Byte) (fromCall toCall : List Byte) :
    ∃ g, agwpeBuildConnectViaReq port fromCall toCall (texts.map some) = .ok g ∧
      g.header.dataKind = agwpeKindConnectViaReq ∧
      parseAgwpeDigipeaterPath g.contents =
        .ok (digis.map Address.plain, g.header.dataLen.toNat) := by
  have hslots := slots_length texts
  have htexts : (texts.map some).map (·.getD []) = texts := by
    rw [List.map_map]
    exact List.map_id _
  have hfit : (UInt8.ofNat texts.length :: texts.flatMap callSlot).length ≤ agwpeMaxDataLen := by
    rw [List.length_cons, hslots]
    simp only [agwpeCallsignLen, agwpeMaxDataLen, maxDigipeaters] at *
    omega
  have hfields : writeSlots texts [UInt8.ofNat texts.length] =
      .ok (UInt8.ofNat texts.length :: texts.flatMap callSlot) := by
    refine writeSlots_ok ?_
    rw [List.length_cons, hslots] at hfit
    rw [List.length_singleton]
    omega
  unfold agwpeBuildConnectViaReq
  rw [htexts, List.length_map, hfields]
  refine ⟨_, rfl, rfl, ?_⟩
  have hparse := parsePath_slots hnum hcalls []
  rw [List.append_nil] at hparse
  rw [AgwpeFrame.contents_ofContents hfit, AgwpeFrame.dataLen_ofContents hfit, hparse,
    List.length_cons, hslots, Nat.add_comm]

/-- **Requests with digipeaters arrive as they were made.** The server sends the frame
that an unproto request was built of, and reads the path of a connect request that was
built of callsigns. -/
theorem unproto_requests_arrive {f : Frame} (h : f.Sendable) {texts : List (List Byte)}
    {digis : List Address} (hnum : texts.length ≤ maxDigipeaters)
    (hcalls : List.Forall₂ PathCall texts digis) (port : Byte) (fromCall toCall : List Byte) :
    (∃ g r, ax25ToAgwpeUnproto f port = .ok g ∧ handleUnproto g = some r ∧ f.Requested r) ∧
      ∃ g, agwpeBuildConnectViaReq port fromCall toCall (texts.map some) = .ok g ∧
        g.header.dataKind = agwpeKindConnectViaReq ∧
        parseAgwpeDigipeaterPath g.contents =
          .ok (digis.map Address.plain, g.header.dataLen.toNat) := by
  refine ⟨?_, connect_via_path hnum hcalls port fromCall toCall⟩
  by_cases hdirect : f.digipeaters = []
  · exact send_unproto h hdirect port
  · exact send_unproto_via h hdirect port

/-- "RELAYS-10" and "WIDE2-1": the addresses. -/
def relayPath : List Address :=
  [{ callsign := [0x52, 0x45, 0x4C, 0x41, 0x59, 0x53], ssid := 10, hasBeenRepeated := true },
    { callsign := [0x57, 0x49, 0x44, 0x45, 0x32], ssid := 1 }]

theorem relayPath_valid : ∀ digi ∈ relayPath, digi.Valid := by
  intro digi hd
  rcases List.mem_cons.mp hd with rfl | hd
  · exact ⟨by decide, by decide, List.all_eq_true.mp (by decide), by decide⟩
  · rw [List.mem_singleton.mp hd]
    exact ⟨by decide, by decide, List.all_eq_true.mp (by decide), by decide⟩

theorem unproto_requests_arrive_relays :
    (∃ g r, ax25ToAgwpeUnproto { sampleUiFrame with digipeaters := relayPath } 1 = .ok g ∧
      handleUnproto g = some r ∧ Frame.Requested { sampleUiFrame with digipeaters := relayPath } r) ∧
      ∃ g, agwpeBuildConnectViaReq 1 [0x41] [0x42] ((digiCalls relayPath).map some) = .ok g ∧
        g.header.dataKind = agwpeKindConnectViaReq ∧
        parseAgwpeDigipeaterPath g.contents =
          .ok (relayPath.map Address.plain, g.header.dataLen.toNat) :=
  unproto_requests_arrive
    ⟨⟨by decide, by decide, List.all_eq_true.mp (by decide), by decide⟩,
      ⟨by decide, by decide, List.all_eq_true.mp (by decide), by decide⟩,
      relayPath_valid, by decide, by decide⟩
    (by decide) (digiCalls_pathCall (by decide) relayPath_valid) 1 [0x41] [0x42]

end EspAx25
