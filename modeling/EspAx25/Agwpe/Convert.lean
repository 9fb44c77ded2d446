import EspAx25.Agwpe.Callsign

/-!
# EspAx25.Agwpe.Convert

Frames between AX.25 and AGWPE: `ax25_to_agwpe_raw` and
`agwpe_build_send_unproto_via` (`ax25_agwpe.c`), and what the server makes of
them, `handle_send_raw` and `handle_send_unproto_via` (`ax25_agwpe_server.c`).

* Writing at `pos` and advancing it is appending to a list, which is the data of
  the frame in the end (`AgwpeFrame.ofContents`).
* The result of a handler is the frame that it passes to `ax25_router_send`.
* `ax25_to_agwpe_raw` does not set the C bit of the destination or of the source
  (`raw_frame_loses_command_bit`). `agwpe_build_send_unproto_via` writes
  NUL-terminated callsigns, and the server reads fields of 10 bytes
  (`unproto_via_exact`).
-/

namespace EspAx25

open Memory

/-- `AGWPE_KIND_SEND_RAW`. -/
def agwpeKindSendRaw : Byte := 0x4B
/-- `AGWPE_KIND_SEND_UNPROTO_VIA`. -/
def agwpeKindSendUnprotoVia : Byte := 0x56

namespace AgwpeFrame

/-- The data of a frame, as far as `data_len` says. -/
def contents (f : AgwpeFrame) : List Byte := (List.ofFn f.data).take f.header.dataLen.toNat

/-- A frame with so many bytes of data. -/
def ofContents (header : AgwpeHeader) (bytes : List Byte) : AgwpeFrame :=
  { header := { header with dataLen := bytes.length.toUInt32 }
    data := fill agwpeMaxDataLen 0 bytes }

variable {header : AgwpeHeader} {bytes : List Byte}

theorem dataLen_ofContents (h : bytes.length ≤ agwpeMaxDataLen) :
    (ofContents header bytes).header.dataLen.toNat = bytes.length := by
  have hlt : bytes.length < 2 ^ 32 := Nat.lt_of_le_of_lt h (by decide)
  exact UInt32.toNat_ofNat_of_lt' hlt

@[simp] theorem contents_ofContents (h : bytes.length ≤ agwpeMaxDataLen) :
    (ofContents header bytes).contents = bytes := by
  rw [contents, dataLen_ofContents h]
  exact take_ofFn_fill 0 h

end AgwpeFrame

/-! ### Raw frames -/

/-- The header of a raw frame. -/
def rawHeader (frame : Frame) (port : Byte) : AgwpeHeader :=
  { agwpeFrameInit.header with
    port
    dataKind := agwpeKindSendRaw
    pid := frame.pid
    callFrom := ax25AddrToAgwpeCall frame.source
    callTo := ax25AddrToAgwpeCall frame.destination }

/-- What `ax25_to_agwpe_raw` writes before the payload. -/
def rawHead (frame : Frame) (port : Byte) : List Byte :=
  (port <<< 4) ::
    (addressEncode { frame.destination with isLast := false } ++
      (addressEncode { frame.source with isLast := frame.digipeaters.isEmpty } ++
        (((markLast frame.digipeaters).take maxDigipeaters).flatMap addressEncode ++
          (frame.control :: if frame.type.hasPid then [frame.pid] else []))))

/-- `ax25_to_agwpe_raw`. -/
def ax25ToAgwpeRaw (frame : Frame) (port : Byte) : Except EspErr AgwpeFrame :=
  let header := rawHeader frame port
  let data := rawHead frame port
  if 0 < frame.payload.length then
    if data.length + frame.payload.length > agwpeMaxDataLen then .error .noMem
    else .ok (.ofContents header (data ++ frame.payload))
  else .ok (.ofContents header data)

/-- `handle_send_raw`. -/
def handleSendRaw (frame : AgwpeFrame) : Option Frame :=
  if frame.header.dataLen < 2 then none
  else (frameParse (frame.contents.drop 1)).toOption

/-- The raw frame carries the real frame: the bytes of `ax25_frame_build`, and one that
comes back from the server's 'K' handling as it was. -/
def RawCarries (f : Frame) (port : Byte) : Prop :=
  ∃ g, ax25ToAgwpeRaw f port = .ok g ∧ g.contents.drop 1 = (frameBuild f).2 ∧
    handleSendRaw g = some f

/-- The frame as it is in a raw AGWPE frame: the C bits are as they are in the
addresses. -/
def rawFrame (f : Frame) : List Byte :=
  addressEncode { f.destination with isLast := false } ++
    (addressEncode { f.source with isLast := f.digipeaters.isEmpty } ++
      ((markLast f.digipeaters).flatMap addressEncode ++
        (f.control :: ((if f.type.hasPid then [f.pid] else []) ++ f.payload))))

section Raw

variable {f : Frame}

theorem rawFrame_length (f : Frame) : (rawFrame f).length =
    14 + 7 * f.digipeaters.length + 1 + (if f.type.hasPid then 1 else 0) + f.payload.length := by
  have hpid : (if f.type.hasPid then [f.pid] else []).length = if f.type.hasPid then 1 else 0 := by
    split_ifs <;> rfl
  simp only [rawFrame, List.length_append, addressEncode_length, flatMap_addressEncode_length,
    markLast_length, List.length_cons, hpid, addressLen]
  omega

theorem rawFrame_fits (h : f.Buildable) (port : Byte) :
    ((port <<< 4) :: rawFrame f).length ≤ agwpeMaxDataLen := by
  have hnum := h.numDigipeaters
  have hpay := h.payload
  have hpid : (if f.type.hasPid = true then 1 else 0) ≤ 1 := by split_ifs <;> omega
  rw [List.length_cons, rawFrame_length]
  simp only [maxDigipeaters, maxInfoLen, agwpeMaxDataLen] at *
  omega

/-- The conversion succeeds. -/
theorem ax25ToAgwpeRaw_eq (h : f.Buildable) (port : Byte) :
    ax25ToAgwpeRaw f port = .ok (.ofContents (rawHeader f port) ((port <<< 4) :: rawFrame f)) := by
  have hhead : rawHead f port ++ f.payload = (port <<< 4) :: rawFrame f := by
    rw [rawHead, List.take_of_length_le (by rw [markLast_length]; exact h.numDigipeaters)]
    simp only [rawFrame, List.cons_append, List.append_assoc]
  have hlen : (rawHead f port).length + f.payload.length ≤ agwpeMaxDataLen := by
    rw [← List.length_append, hhead]
    exact rawFrame_fits h port
  unfold ax25ToAgwpeRaw
  dsimp only
  split_ifs with hpos hfit
  · omega
  · rw [hhead]
  · rw [← hhead, List.length_eq_zero_iff.mp (Nat.eq_zero_of_not_pos hpos), List.append_nil]

/-- The bytes of `ax25_frame_build` differ from those of a raw frame in one C bit. -/
theorem rawFrame_split (h : f.Buildable) :
    ∃ l x r, l.length = (if f.isCommand then 6 else 13) ∧ x &&& 0x80 = 0 ∧
      rawFrame f = l ++ x :: r ∧ wireFrame f = l ++ (x ||| 0x80) :: r := by
  obtain ⟨wd, hwd, hdst⟩ := addressEncode_split f.destination
  obtain ⟨ws, hws, hsrc⟩ := addressEncode_split f.source
  have hdst₀ : addressEncode { f.destination with isLast := false } =
      wd ++ [ssidByte f.destination.ssid false false] :=
    (hdst _ false).trans (by rw [h.destinationH])
  have hsrc₀ : addressEncode { f.source with isLast := f.digipeaters.isEmpty } =
      ws ++ [ssidByte f.source.ssid false f.digipeaters.isEmpty] :=
    (hsrc _ _).trans (by rw [h.sourceH])
  have hdbit := ssidByte_repeated f.destination.ssid false
  have hsbit := ssidByte_repeated f.source.ssid f.digipeaters.isEmpty
  unfold rawFrame wireFrame
  rw [hdst f.isCommand false, hsrc (!f.isCommand) f.digipeaters.isEmpty, hdst₀, hsrc₀]
  generalize (markLast f.digipeaters).flatMap addressEncode ++
    (f.control :: ((if f.type.hasPid then [f.pid] else []) ++ f.payload)) = rest
  cases f.isCommand with
  | true =>
      refine ⟨wd, ssidByte f.destination.ssid false false,
        ws ++ [ssidByte f.source.ssid false f.digipeaters.isEmpty] ++ rest, hwd, hdbit.2, ?_, ?_⟩
      · rw [List.append_assoc wd, List.singleton_append]
      · rw [hdbit.1, List.append_assoc wd, List.singleton_append, Bool.not_true]
  | false =>
      refine ⟨wd ++ [ssidByte f.destination.ssid false false] ++ ws,
        ssidByte f.source.ssid false f.digipeaters.isEmpty, rest, ?_, hsbit.2, ?_, ?_⟩
      · simp only [List.length_append, hwd, hws, List.length_singleton]
        rfl
      · simp only [List.append_assoc, List.cons_append, List.nil_append]
      · simp only [Bool.not_false, hsbit.1, List.append_assoc, List.cons_append, List.nil_append]

/-- No raw frame is a command for the parser. -/
theorem rawFrame_not_command (h : f.Buildable) : (rawFrame f).getD 6 0 &&& 0x80 = 0 := by
  obtain ⟨w, hw, hdst⟩ := addressEncode_split f.destination
  have hdst₀ : addressEncode { f.destination with isLast := false } =
      w ++ [ssidByte f.destination.ssid false false] := (hdst _ false).trans (by rw [h.destinationH])
  rw [rawFrame, hdst₀, List.append_assoc, List.getD_append_right _ _ _ _ (Nat.le_of_eq hw), hw]
  exact (ssidByte_repeated f.destination.ssid false).2

end Raw

/-- **Raw frames lose the command bit.** The conversion of a parsed frame succeeds, and
its bytes are those of `ax25_frame_build` but for the C bit that says which kind of
frame it is; so what the server sends for it is never a command. -/
theorem raw_frame_loses_command_bit {data : List Byte} {f : Frame} (h : frameParse data = .ok f)
    (port : Byte) :
    ¬ RawCarries f port ∧ ∃ g, ax25ToAgwpeRaw f port = .ok g ∧
      (frameBuild f).2 =
        (g.contents.drop 1).modify (if f.isCommand then 6 else 13) (· ||| 0x80) ∧
      ∀ f', handleSendRaw g = some f' → f'.isCommand = false := by
  have hbuild := (frameParse_ok h).1
  obtain ⟨l, x, r, hl, hx, hraw, hwire⟩ := rawFrame_split hbuild
  have hcontents : (AgwpeFrame.ofContents (rawHeader f port)
      ((port <<< 4) :: rawFrame f)).contents.drop 1 = rawFrame f := by
    rw [AgwpeFrame.contents_ofContents (rawFrame_fits hbuild port), List.drop_one, List.tail_cons]
  have hmodify : (frameBuild f).2 =
      (rawFrame f).modify (if f.isCommand then 6 else 13) (· ||| 0x80) := by
    rw [(frameBuild_eq hbuild).1, hwire, hraw, ← hl, modify_length_append]
  refine ⟨?_, _, ax25ToAgwpeRaw_eq hbuild port, by rw [hcontents, hmodify], fun f' hf' => ?_⟩
  · intro hsome
    obtain ⟨g, hg, hbytes, -⟩ := hsome
    rw [ax25ToAgwpeRaw_eq hbuild] at hg
    cases hg
    rw [hcontents, (frameBuild_eq hbuild).1, hwire, hraw] at hbytes
    have hxx : x = x ||| 0x80 := (List.cons.inj (List.append_cancel_left hbytes)).1
    rw [hxx] at hx
    revert hx
    exact forall_byte (p := fun x => ¬ (x ||| 0x80) &&& 0x80 = 0) (by decide +kernel) x
  · unfold handleSendRaw at hf'
    split_ifs at hf'
    rw [hcontents] at hf'
    cases hparse : frameParse (rawFrame f) with
    | error e => rw [hparse] at hf'; cases hf'
    | ok f'' =>
        rw [hparse] at hf'
        cases hf'
        rw [(frameParse_ok hparse).2, rawFrame_not_command hbuild]
        rfl

/-- A UI command from A to B, as it is received. -/
def sampleUi : List Byte :=
  [0x84, 0x40, 0x40, 0x40, 0x40, 0x40, 0xE0, 0x82, 0x40, 0x40, 0x40, 0x40, 0x40, 0x61, 0x03, 0xF0, 0x21]

/-- The frame of `sampleUi`. -/
def sampleUiFrame : Frame :=
  { destination := { callsign := [0x42] }, source := { callsign := [0x41], isLast := true }
    digipeaters := [], isCommand := true, type := .ui, control := 0x03, pid := 0xF0
    payload := [0x21] }

/-- The command comes back as a response. -/
theorem raw_command_comes_back_as_response :
    ¬ ∀ data f, frameParse data = .ok f → ∀ port, RawCarries f port := by
  intro hall
  obtain ⟨g, hg, -, hback⟩ := hall sampleUi sampleUiFrame (by decide +kernel) 0
  have hlost : (ax25ToAgwpeRaw sampleUiFrame 0).toOption.map handleSendRaw =
      some (some { sampleUiFrame with isCommand := false }) := by decide +kernel
  rw [hg] at hlost
  have hlost' : handleSendRaw g = some { sampleUiFrame with isCommand := false } :=
    Option.some.inj hlost
  rw [hback] at hlost'
  exact absurd hlost' (by decide)

theorem raw_frame_loses_command_bit_ui : ¬ RawCarries sampleUiFrame 2 :=
  (raw_frame_loses_command_bit
    (show frameParse sampleUi = .ok sampleUiFrame by decide +kernel) 2).1

/-! ### Unproto frames via digipeaters -/

/-- The digipeaters, one after the other; NULL pointers are skipped. -/
def unprotoPath : List (Option (List Byte)) → List Byte → Except EspErr (List Byte)
  | [], data => .ok data
  | none :: digipeaters, data => unprotoPath digipeaters data
  | some digi :: digipeaters, data =>
    if data.length + digi.length + 1 > agwpeMaxDataLen then .error .noMem
    else unprotoPath digipeaters (data ++ (digi ++ [0]))

/-- `agwpe_build_send_unproto_via`. -/
def agwpeBuildSendUnprotoVia (port : Byte) (fromCall toCall : List Byte)
    (digipeaters : List (Option (List Byte))) (payload : List Byte) (pid : Byte) :
    Except EspErr AgwpeFrame :=
  let header : AgwpeHeader :=
    { agwpeFrameInit.header with
      port
      dataKind := agwpeKindSendUnprotoVia
      pid
      callFrom := agwpeSetCallsign fromCall
      callTo := agwpeSetCallsign toCall }
  match unprotoPath digipeaters [UInt8.ofNat digipeaters.length] with
  | .error err => .error err
  | .ok data =>
    if 0 < payload.length then
      if data.length + payload.length > agwpeMaxDataLen then .error .noMem
      else .ok (.ofContents header (data ++ payload))
    else .ok (.ofContents header data)

/-- `digi_str`: trailing NULs and spaces go, and the C string ends at the first NUL. -/
def digiStr (field : List Byte) : List Byte :=
  (field.rdropWhile fun c => c = 0 || c = 0x20).takeWhile (· ≠ 0)

/-- The loop of `parse_agwpe_digipeater_path` over so many fields. -/
def parsePathFields : Nat → List Byte → Except EspErr (List Address)
  | 0, _ => .ok []
  | n + 1, data =>
    match addressFromString (digiStr (data.take agwpeCallsignLen)) with
    | (.ok, digi) =>
      (parsePathFields n (data.drop agwpeCallsignLen)).map
        ({ digi with hasBeenRepeated := false, isLast := false } :: ·)
    | (err, _) => .error err

/-- `parse_agwpe_digipeater_path`: the digipeaters and `consumed_len`. -/
def parseAgwpeDigipeaterPath (data : List Byte) : Except EspErr (List Address × Nat) :=
  if data.length < 1 then .error .invalidArg
  else
    let ndigi := (data.getD 0 0).toNat
    if ndigi > maxDigipeaters then .error .invalidSize
    else
      let expectedLen := 1 + ndigi * agwpeCallsignLen
      if data.length < expectedLen then .error .invalidSize
      else (parsePathFields ndigi (data.drop 1)).map fun digipeaters => (digipeaters, expectedLen)

/-- `handle_send_unproto_via`. -/
def handleSendUnprotoVia (frame : AgwpeFrame) : Option Frame :=
  if frame.header.dataLen < 1 then none
  else
    match parseAgwpeDigipeaterPath frame.contents with
    | .error _ => none
    | .ok (digipeaters, consumed) =>
      some
        { frameInit with
          type := .ui
          control := ctrlUi
          pid := frame.header.pid
          source := (addressFromString (agwpeGetCallsign frame.header.callFrom)).2
          destination := (addressFromString (agwpeGetCallsign frame.header.callTo)).2
          digipeaters
          payload := (frame.contents.drop consumed).take maxInfoLen }

/-- A digipeater's callsign: the text of an address, that fits in a field. -/
structure IsDigiCall (digi : List Byte) : Prop where
  valid : (addressFromString digi).1 = .ok
  noNul : 0 ∉ digi
  length : digi.length < agwpeCallsignLen

/-- The server sends a UI frame with these digipeaters and this payload. -/
def ViaCarries (g : AgwpeFrame) (digis : List (List Byte)) (payload : List Byte) : Prop :=
  ∃ f, handleSendUnprotoVia g = some f ∧ f.type = .ui ∧ f.control = ctrlUi ∧
    f.digipeaters = digis.map (fun digi => (addressFromString digi).2) ∧ f.payload = payload

section Via

/-- The path as the builder writes it. -/
def viaPath (digis : List (List Byte)) : List Byte := digis.flatMap (· ++ [0])

theorem unprotoPath_ok {digis : List (List Byte)} : ∀ {data r : List Byte},
    unprotoPath (digis.map some) data = .ok r → data.length ≤ agwpeMaxDataLen →
      r = data ++ viaPath digis ∧ r.length ≤ agwpeMaxDataLen := by
  induction digis with
  | nil =>
      intro data r h hlen
      cases h
      exact ⟨(List.append_nil _).symm, hlen⟩
  | cons digi digis ih =>
      intro data r h _
      rw [List.map_cons, unprotoPath] at h
      split_ifs at h with hfit
      obtain ⟨hr, hlen⟩ := ih h (by
        rw [List.length_append, List.length_append, List.length_singleton]
        omega)
      refine ⟨?_, hlen⟩
      rw [hr, viaPath, viaPath, List.flatMap_cons, List.append_assoc]

/-- What the builder has written. -/
theorem agwpeBuildSendUnprotoVia_ok {port pid : Byte} {fromCall toCall payload : List Byte}
    {digis : List (List Byte)} {g : AgwpeFrame}
    (h : agwpeBuildSendUnprotoVia port fromCall toCall (digis.map some) payload pid = .ok g) :
    g.contents = UInt8.ofNat digis.length :: (viaPath digis ++ payload) ∧
      g.header.dataLen.toNat = g.contents.length := by
  unfold agwpeBuildSendUnprotoVia at h
  rw [List.length_map] at h
  cases hpath : unprotoPath (digis.map some) [UInt8.ofNat digis.length] with
  | error err =>
      rw [hpath] at h
      cases h
  | ok data =>
      obtain ⟨hdata, hlen⟩ := unprotoPath_ok hpath (by rw [List.length_singleton]; decide)
      rw [hpath] at h
      dsimp only at h
      have hof : ∀ {header bytes}, AgwpeFrame.ofContents header bytes = g →
          bytes.length ≤ agwpeMaxDataLen → bytes = data ++ payload →
            g.contents = UInt8.ofNat digis.length :: (viaPath digis ++ payload) ∧
              g.header.dataLen.toNat = g.contents.length := by
        intro header bytes hg hfit hbytes
        rw [← hg, AgwpeFrame.contents_ofContents hfit, AgwpeFrame.dataLen_ofContents hfit]
        exact ⟨by rw [hbytes, hdata, List.singleton_append, List.cons_append], rfl⟩
      split_ifs at h with hpos hfit
      · exact hof (Except.ok.inj h) (by rw [List.length_append]; omega) rfl
      · refine hof (Except.ok.inj h) hlen ?_
        rw [List.length_eq_zero_iff.mp (Nat.eq_zero_of_not_pos hpos), List.append_nil]

/-- The path fills the fields if and only if every callsign has 9 characters. -/
theorem viaPath_length {digis : List (List Byte)} (h : ∀ d ∈ digis, d.length < agwpeCallsignLen) :
    (viaPath digis).length ≤ digis.length * agwpeCallsignLen ∧
      ((viaPath digis).length = digis.length * agwpeCallsignLen ↔
        ∀ d ∈ digis, d.length = agwpeCallsignLen - 1) := by
  induction digis with
  | nil => exact ⟨Nat.le_refl 0, fun _ d hd => absurd hd List.not_mem_nil, fun _ => rfl⟩
  | cons digi digis ih =>
      obtain ⟨hle, hiff⟩ := ih fun d hd => h d (List.mem_cons_of_mem _ hd)
      have hdigi := h digi List.mem_cons_self
      have hlen : (viaPath (digi :: digis)).length = digi.length + 1 + (viaPath digis).length := by
        simp only [viaPath, List.flatMap_cons, List.length_append, List.length_singleton]
      rw [hlen, List.length_cons, List.forall_mem_cons, ← hiff]
      rw [agwpeCallsignLen] at *
      omega

/-- Trimming a field that holds a callsign with an SSID takes spaces from its end. -/
theorem digiStr_field {callsign : List Byte} (hc : 0 ∉ callsign) {ssidStr : List Byte} :
    0 ∉ ssidStr → ∃ ssidStr' k, ssidStr = ssidStr' ++ List.replicate k 0x20 ∧
      digiStr (callsign ++ 0x2D :: ssidStr ++ [0]) = callsign ++ 0x2D :: ssidStr' := by
  have hwhole : ∀ t : List Byte, 0 ∉ t → (callsign ++ 0x2D :: t).takeWhile (· ≠ 0) =
      callsign ++ 0x2D :: t := by
    intro t ht
    refine List.takeWhile_eq_self_iff.mpr fun c hc' => decide_eq_true fun hzero => ?_
    rcases List.mem_append.mp hc' with hc' | hc'
    · exact hc (hzero ▸ hc')
    · rcases List.mem_cons.mp hc' with hdash | hc'
      · rw [hzero] at hdash
        exact absurd hdash (by decide)
      · exact ht (hzero ▸ hc')
  unfold digiStr
  rw [List.rdropWhile_concat_pos _ _ _ (by decide)]
  induction ssidStr using List.reverseRecOn with
  | nil =>
      intro h
      exact ⟨[], 0, rfl, by rw [List.rdropWhile_concat_neg _ _ _ (by decide), hwhole [] h]⟩
  | append_singleton t x ih =>
      intro h
      have ht : 0 ∉ t := fun hmem => h (List.mem_append_left _ hmem)
      by_cases hx : x = 0x20
      · obtain ⟨ssidStr', k, hsplit, hdigi⟩ := ih ht
        refine ⟨ssidStr', k + 1, ?_, ?_⟩
        · rw [hx, hsplit, List.append_assoc, List.replicate_succ']
        · rw [← List.cons_append, ← List.append_assoc,
            List.rdropWhile_concat_pos _ _ _ (by rw [hx]; rfl), hdigi]
      · have hzero : x ≠ 0 := fun heq => h (heq ▸ List.mem_append_right _ List.mem_cons_self)
        refine ⟨t ++ [x], 0, (List.append_nil _).symm, ?_⟩
        rw [← List.cons_append, ← List.append_assoc, List.rdropWhile_concat_neg _ _ _ ?_,
          List.append_assoc, List.cons_append, hwhole _ h]
        simp only [hx, hzero, decide_false, Bool.or_self, Bool.false_eq_true, not_false_eq_true]

/-- A callsign that fills its field is read as it was written. -/
theorem addressFromString_digiStr {digi : List Byte} (h : IsDigiCall digi)
    (hlen : digi.length = agwpeCallsignLen - 1) :
    addressFromString (digiStr (digi ++ [0])) = addressFromString digi := by
  have hdash : 0x2D ∈ digi := by
    by_contra hno
    have hvalid := h.valid
    rw [addressFromString_no_dash hno, if_pos (by rw [hlen]; decide)] at hvalid
    cases hvalid
  obtain ⟨callsign, ssidStr, rfl, hnot⟩ := List.eq_append_cons_of_mem hdash
  obtain ⟨ssidStr', k, rfl, hdigi⟩ := digiStr_field
    (fun hmem => h.noNul (List.mem_append_left _ hmem))
    (fun hmem => h.noNul (List.mem_append_right _ (List.mem_cons_of_mem _ hmem)))
  rw [hdigi, addressFromString_dash hnot, addressFromString_dash hnot, atoi_append_spaces]

/-- No flag is set in an address that was read from text. -/
theorem addressFromString_flags (s : List Byte) :
    { (addressFromString s).2 with hasBeenRepeated := false, isLast := false } =
      (addressFromString s).2 := by
  unfold addressFromString
  dsimp only
  split
  · split_ifs <;> rfl
  · split_ifs <;> rfl

theorem parsePathFields_viaPath {digis : List (List Byte)} (h : ∀ d ∈ digis, IsDigiCall d)
    (hlen : ∀ d ∈ digis, d.length = agwpeCallsignLen - 1) (rest : List Byte) :
    parsePathFields digis.length (viaPath digis ++ rest) =
      .ok (digis.map fun digi => (addressFromString digi).2) := by
  induction digis with
  | nil => rfl
  | cons digi digis ih =>
      have hfield : (digi ++ [0]).length = agwpeCallsignLen := by
        rw [List.length_append, hlen digi List.mem_cons_self]
        rfl
      have hdata : viaPath (digi :: digis) ++ rest = (digi ++ [0]) ++ (viaPath digis ++ rest) := by
        simp only [viaPath, List.flatMap_cons, List.append_assoc]
      have hread := addressFromString_digiStr (h digi List.mem_cons_self)
        (hlen digi List.mem_cons_self)
      have hok := (h digi List.mem_cons_self).valid
      rw [List.length_cons, parsePathFields, hdata, List.take_left' hfield, List.drop_left' hfield,
        hread, ih (fun d hd => h d (List.mem_cons_of_mem _ hd))
          (fun d hd => hlen d (List.mem_cons_of_mem _ hd))]
      have hpair : addressFromString digi = (.ok, (addressFromString digi).2) := by
        rw [← hok]
      rw [hpair]
      simp only [addressFromString_flags, List.map_cons]
      rfl

end Via

/-- **The 'V' builder and the server agree only on callsigns that fill their fields.**
The builder ends each callsign with a NUL, and the server reads fields of 10 bytes: it
sends the frame that was asked for exactly if every digipeater's callsign has 9
characters. -/
theorem unproto_via_exact {digis : List (List Byte)} (hnum : digis.length ≤ maxDigipeaters)
    (hdigis : ∀ d ∈ digis, IsDigiCall d) {payload : List Byte}
    (hpay : payload.length ≤ maxInfoLen) {port pid : Byte} {fromCall toCall : List Byte}
    {g : AgwpeFrame}
    (hg : agwpeBuildSendUnprotoVia port fromCall toCall (digis.map some) payload pid = .ok g) :
    ViaCarries g digis payload ↔ ∀ d ∈ digis, d.length = 9 := by
  obtain ⟨hcontents, hdataLen⟩ := agwpeBuildSendUnprotoVia_ok hg
  obtain ⟨hle, hfull⟩ := viaPath_length fun d hd => (hdigis d hd).length
  have hndigi : (UInt8.ofNat digis.length).toNat = digis.length := by
    exact UInt8.toNat_ofNat_of_lt' (Nat.lt_of_le_of_lt hnum (by decide))
  have hpos : ¬ g.header.dataLen < 1 := by
    rw [UInt32.lt_iff_toNat_lt, hdataLen, hcontents, List.length_cons]
    exact Nat.not_lt.mpr (Nat.succ_le_succ (Nat.zero_le _))
  have hparse : parseAgwpeDigipeaterPath g.contents =
      if g.contents.length < 1 + digis.length * agwpeCallsignLen then .error .invalidSize
      else (parsePathFields digis.length (viaPath digis ++ payload)).map fun digipeaters =>
        (digipeaters, 1 + digis.length * agwpeCallsignLen) := by
    unfold parseAgwpeDigipeaterPath
    rw [hcontents]
    simp only [List.length_cons, List.getD_cons_zero, hndigi, Nat.not_lt.mpr hnum, if_false,
      List.drop_one, List.tail_cons]
    rw [if_neg (by omega)]
  have hlen : g.contents.length = 1 + (viaPath digis).length + payload.length := by
    rw [hcontents, List.length_cons, List.length_append]
    omega
  have hdrop : g.contents.drop (1 + digis.length * agwpeCallsignLen) =
      (viaPath digis ++ payload).drop (digis.length * agwpeCallsignLen) := by
    rw [hcontents, Nat.add_comm, List.drop_succ_cons]
  unfold ViaCarries handleSendUnprotoVia
  rw [if_neg hpos, hparse]
  constructor
  · intro hsome
    obtain ⟨f, hf, -, -, -, hpayload⟩ := hsome
    split_ifs at hf with hshort
    cases hfields : parsePathFields digis.length (viaPath digis ++ payload) with
    | error err =>
        rw [hfields] at hf
        cases hf
    | ok digipeaters =>
        rw [hfields] at hf
        cases hf
        refine hfull.mp ?_
        -- a shorter path would take bytes from the payload
        have hlost := congrArg List.length hpayload
        dsimp only at hlost
        rw [hdrop, List.length_take, List.length_drop, List.length_append] at hlost
        omega
  · intro hall
    have hfull' := hfull.mpr hall
    rw [if_neg (by omega), parsePathFields_viaPath hdigis hall]
    refine ⟨_, rfl, rfl, rfl, rfl, ?_⟩
    dsimp only
    rw [hdrop, List.drop_left' hfull', List.take_of_length_le hpay]

/-- "WIDE1-1" and "WIDE2-1". -/
def widePath : List (List Byte) :=
  [[0x57, 0x49, 0x44, 0x45, 0x31, 0x2D, 0x31], [0x57, 0x49, 0x44, 0x45, 0x32, 0x2D, 0x31]]

/-- "VIA packet", with its NUL. -/
def viaPacket : List Byte := [0x56, 0x49, 0x41, 0x20, 0x70, 0x61, 0x63, 0x6B, 0x65, 0x74, 0]

theorem widePath_isDigiCall : ∀ d ∈ widePath, IsDigiCall d := by
  intro d hd
  rcases List.mem_cons.mp hd with rfl | hd
  · exact ⟨by decide +kernel, by decide +kernel, by decide⟩
  · rw [List.mem_singleton.mp hd]
    exact ⟨by decide +kernel, by decide +kernel, by decide⟩

/-- The server reads the second digipeater as DE2-1, and "packet" as the payload. -/
theorem unproto_via_misread :
    ¬ ∀ digis : List (List Byte), digis.length ≤ maxDigipeaters → (∀ d ∈ digis, IsDigiCall d) →
      ∀ payload : List Byte, payload.length ≤ maxInfoLen → ∀ port pid fromCall toCall g,
        agwpeBuildSendUnprotoVia port fromCall toCall (digis.map some) payload pid = .ok g →
          ViaCarries g digis payload := by
  intro hall
  have hsent : (agwpeBuildSendUnprotoVia 0 [0x4E, 0x30] [0x41] (widePath.map some) viaPacket
      0xF0).toOption.map (fun g => (handleSendUnprotoVia g).map Frame.payload) =
        some (some [0x70, 0x61, 0x63, 0x6B, 0x65, 0x74, 0]) := by decide +kernel
  cases hg : agwpeBuildSendUnprotoVia 0 [0x4E, 0x30] [0x41] (widePath.map some) viaPacket 0xF0 with
  | error err =>
      rw [hg] at hsent
      cases hsent
  | ok g =>
      obtain ⟨f, hf, -, -, -, hpay⟩ := hall widePath (by decide) widePath_isDigiCall viaPacket
        (by decide) 0 0xF0 [0x4E, 0x30] [0x41] g hg
      rw [hg] at hsent
      have hmap : (handleSendUnprotoVia g).map Frame.payload =
          some [0x70, 0x61, 0x63, 0x6B, 0x65, 0x74, 0] := Option.some.inj hsent
      rw [hf, Option.map_some, hpay] at hmap
      exact absurd hmap (by decide)

/-- "RELAYS-10" and "RELAYS-11" have 9 characters each. -/
def relayTexts : List (List Byte) :=
  [[0x52, 0x45, 0x4C, 0x41, 0x59, 0x53, 0x2D, 0x31, 0x30],
    [0x52, 0x45, 0x4C, 0x41, 0x59, 0x53, 0x2D, 0x31, 0x31]]

theorem unproto_via_exact_relays : ∃ g,
    agwpeBuildSendUnprotoVia 0 [0x4E, 0x30] [0x41] (relayTexts.map some) [7, 8] 0xF0 = .ok g ∧
      ViaCarries g relayTexts [7, 8] := by
  have hrelays : ∀ d ∈ relayTexts, IsDigiCall d := by
    intro d hd
    rcases List.mem_pair.mp hd with rfl | rfl
    · exact ⟨by decide +kernel, by decide +kernel, by decide⟩
    · exact ⟨by decide +kernel, by decide +kernel, by decide⟩
  exact ⟨_, rfl, (unproto_via_exact (by decide) hrelays (by decide) rfl).mpr (by decide)⟩

end EspAx25
