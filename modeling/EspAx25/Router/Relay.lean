import EspAx25.Codec
import EspAx25.Router.Route

/-!
# EspAx25.Router.Relay

Relay transparency on the wire: a station that parses a canonical frame and builds it
again sends the same bytes, and a digipeater changes exactly the H bit of its own
address.

What is canonical is said on the bytes (`CanonicalFrame`), without the codec. Such a
byte string is the encoding of the frame that its fields describe (`bytes_eq`), and the
round trip of `EspAx25.Codec` does the rest. For the second part the bytes are split at
the SSID byte of the address that the router marks.
-/

namespace EspAx25

/-! ### Canonical frames -/

/-- An address on the wire: the callsign and the SSID byte with its flag bits. -/
structure WireAddr where
  callsign : List Byte
  ssid : Byte
  deriving Repr, DecidableEq

/-- The seven bytes: left-aligned and shifted characters, spaces, SSID byte. -/
def WireAddr.bytes (a : WireAddr) : List Byte := wireAddress a.callsign a.ssid

/-- A canonical AX.25 v2 frame. -/
structure CanonicalFrame where
  destination : WireAddr
  source : WireAddr
  digipeaters : List WireAddr
  control : Byte
  pid : Option Byte
  payload : List Byte
  numDigipeaters : digipeaters.length ≤ 8
  /-- Printable characters, and the reserved bits are 11. -/
  addresses : ∀ a ∈ destination :: source :: digipeaters, IsCallsign a.callsign ∧ a.ssid &&& 0x60 = 0x60
  /-- The extension bit is set on the last address only. -/
  extension : ∀ i a, (destination :: source :: digipeaters)[i]? = some a →
    (a.ssid &&& 0x01 != 0) = decide (i + 1 = 2 + digipeaters.length)
  /-- Exactly one of the two C bits is set. -/
  cBits : (destination.ssid &&& 0x80 != 0) = !(source.ssid &&& 0x80 != 0)
  hasPid : pid.isSome = (frameIdentifyType control).hasPid
  payloadLen : payload.length ≤ 256

/-- The byte string. -/
def CanonicalFrame.bytes (c : CanonicalFrame) : List Byte :=
  (c.destination :: c.source :: c.digipeaters).flatMap WireAddr.bytes ++
    c.control :: (c.pid.toList ++ c.payload)

/-! ### The frame that the bytes describe -/

/-- The address, with its flag bits as a digipeater has them. -/
def WireAddr.address (a : WireAddr) : Address :=
  { callsign := a.callsign, ssid := (a.ssid >>> 1) &&& 0x0F, hasBeenRepeated := a.ssid &&& 0x80 != 0
    isLast := a.ssid &&& 0x01 != 0 }

def CanonicalFrame.frame (c : CanonicalFrame) : Frame :=
  { destination := { c.destination.address with hasBeenRepeated := false }
    source := { c.source.address with hasBeenRepeated := false }
    digipeaters := c.digipeaters.map WireAddr.address
    isCommand := c.destination.ssid &&& 0x80 != 0
    type := frameIdentifyType c.control
    control := c.control
    pid := c.pid.getD 0
    payload := c.payload }

theorem ssidByte_reads (s : Byte) : s &&& 0x60 = 0x60 →
    ssidByte ((s >>> 1) &&& 0x0F) (s &&& 0x80 != 0) (s &&& 0x01 != 0) = s ∧
      (s >>> 1) &&& 0x0F < 16 := by
  revert s
  exact forall_byte (by decide +kernel)

/-- Marked addresses, with the extension bit where it belongs. -/
theorem markLast_of_extension {ds : List Address}
    (h : ∀ i d, ds[i]? = some d → d.isLast = decide (i + 1 = ds.length)) : markLast ds = ds := by
  induction ds using markLast.induct with
  | case1 => rfl
  | case2 d =>
      have hd : d.isLast = true := h 0 d rfl
      obtain ⟨callsign, ssid, rep, last⟩ := d
      cases hd
      rfl
  | case3 d ds hne ih =>
      have hpos : 0 < ds.length := List.length_pos_iff.mpr fun hnil => hne hnil
      have hd : d.isLast = false := by
        rw [h 0 d rfl, decide_eq_false_iff_not, List.length_cons]
        omega
      have hrest : markLast ds = ds := ih fun i e he => by
        rw [h (i + 1) e he, List.length_cons]
        simp
      rw [markLast, hrest]
      · obtain ⟨callsign, ssid, rep, last⟩ := d
        cases hd
        rfl
      · exact hne

namespace CanonicalFrame

variable (c : CanonicalFrame)

theorem encode_address {a : WireAddr} (h : IsCallsign a.callsign ∧ a.ssid &&& 0x60 = 0x60) :
    addressEncode a.address = a.bytes := by
  rw [addressEncode_eq (a := a.address) h.1]
  exact congrArg (wireAddress a.callsign) (ssidByte_reads a.ssid h.2).1

theorem encodable_address {a : WireAddr} (h : IsCallsign a.callsign ∧ a.ssid &&& 0x60 = 0x60) :
    a.address.Encodable := ⟨h.1, (ssidByte_reads a.ssid h.2).2⟩

theorem addr_destination : IsCallsign c.destination.callsign ∧ c.destination.ssid &&& 0x60 = 0x60 :=
  c.addresses _ List.mem_cons_self

theorem addr_source : IsCallsign c.source.callsign ∧ c.source.ssid &&& 0x60 = 0x60 :=
  c.addresses _ (List.mem_cons_of_mem _ List.mem_cons_self)

theorem addr_digipeater {a : WireAddr} (ha : a ∈ c.digipeaters) :
    IsCallsign a.callsign ∧ a.ssid &&& 0x60 = 0x60 :=
  c.addresses _ (List.mem_cons_of_mem _ (List.mem_cons_of_mem _ ha))

theorem encodable : c.frame.Encodable where
  destination :=
    ⟨(encodable_address c.addr_destination).callsign, (encodable_address c.addr_destination).ssid⟩
  destinationH := rfl
  source := ⟨(encodable_address c.addr_source).callsign, (encodable_address c.addr_source).ssid⟩
  sourceH := rfl
  digipeaters := by
    intro d hd
    obtain ⟨a, ha, rfl⟩ := List.mem_map.mp hd
    exact encodable_address (c.addr_digipeater ha)
  numDigipeaters := by
    rw [frame, List.length_map]
    exact c.numDigipeaters
  type := rfl
  payload := c.payloadLen

theorem isLast_destination : c.destination.address.isLast = false := by
  have h := c.extension 0 c.destination rfl
  rw [WireAddr.address, h, decide_eq_false_iff_not]
  omega

theorem isLast_source : c.source.address.isLast = c.digipeaters.isEmpty := by
  have h := c.extension 1 c.source rfl
  rw [WireAddr.address, h]
  cases c.digipeaters <;> simp

theorem isLast_digipeater {i : Nat} {d : Address} (hd : c.frame.digipeaters[i]? = some d) :
    d.isLast = decide (i + 1 = c.frame.digipeaters.length) := by
  rw [frame, List.getElem?_map] at hd
  obtain ⟨a, ha, rfl⟩ := Option.map_eq_some_iff.mp hd
  have h := c.extension (i + 2) a ha
  rw [WireAddr.address, h, frame, List.length_map, decide_eq_decide]
  omega

theorem markLast_digipeaters : markLast c.frame.digipeaters = c.frame.digipeaters :=
  markLast_of_extension fun _ _ hd => c.isLast_digipeater hd

/-- Marking a digipeater does not move the extension bit. -/
theorem markLast_marked {pre post : List Address} {d : Address}
    (hd : c.frame.digipeaters = pre ++ d :: post) (rep : Bool) :
    markLast (pre ++ { d with hasBeenRepeated := rep } :: post) =
      pre ++ { d with hasBeenRepeated := rep } :: post := by
  refine markLast_of_extension fun i e he => ?_
  have hold := fun e' => c.isLast_digipeater (i := i) (d := e')
  rw [hd] at hold
  rw [List.length_append, List.length_cons, ← List.length_cons (a := d), ← List.length_append]
  -- the addresses are the same, but for the one that was marked
  rcases Nat.lt_trichotomy i pre.length with hlt | heq | hgt
  · rw [List.getElem?_append_left hlt] at he
    exact hold e (by rw [List.getElem?_append_left hlt]; exact he)
  · subst heq
    rw [List.getElem?_append_right (Nat.le_refl _), Nat.sub_self] at he
    cases he
    exact hold d (by rw [List.getElem?_append_right (Nat.le_refl _), Nat.sub_self]; rfl)
  · rw [List.getElem?_append_right (Nat.le_of_lt hgt)] at he
    refine hold e ?_
    rw [List.getElem?_append_right (Nat.le_of_lt hgt)]
    obtain ⟨k, hk⟩ := Nat.exists_eq_add_of_lt hgt
    rw [show i - pre.length = k + 1 by omega] at he ⊢
    exact he

/-- A canonical byte string is the encoding of the frame it describes. -/
theorem bytes_eq : wireFrame c.frame = c.bytes := by
  have hdst : addressEncode { c.frame.destination with
      isLast := false, hasBeenRepeated := c.frame.isCommand } = c.destination.bytes := by
    rw [← encode_address c.addr_destination, ← c.isLast_destination]
    rfl
  have hsrc : addressEncode { c.frame.source with
      isLast := c.frame.digipeaters.isEmpty, hasBeenRepeated := !c.frame.isCommand } =
      c.source.bytes := by
    have hc : (!c.frame.isCommand) = (c.source.ssid &&& 0x80 != 0) := by
      rw [frame, c.cBits, Bool.not_not]
    have he : c.frame.digipeaters.isEmpty = c.source.address.isLast := by
      rw [c.isLast_source, frame, List.isEmpty_map]
    rw [← encode_address c.addr_source, hc, he]
    rfl
  have hdigi : c.frame.digipeaters.flatMap addressEncode = c.digipeaters.flatMap WireAddr.bytes := by
    rw [frame, List.flatMap_map]
    exact List.flatMap_congr fun a ha => encode_address (c.addr_digipeater ha)
  have hpid : (if c.frame.type.hasPid = true then [c.frame.pid] else []) = c.pid.toList := by
    have hp : c.frame.type.hasPid = c.pid.isSome := c.hasPid.symm
    rw [hp, frame]
    cases c.pid <;> rfl
  unfold wireFrame bytes
  rw [c.markLast_digipeaters, hdst, hsrc, hdigi, hpid, List.flatMap_cons, List.flatMap_cons,
    List.append_assoc, List.append_assoc]
  rfl

/-- The frame is what the parser finds. -/
theorem onWire_eq : c.frame.onWire = c.frame := by
  have hpid : (if c.frame.type.hasPid = true then c.frame.pid else 0) = c.frame.pid := by
    have hp : c.frame.type.hasPid = c.pid.isSome := c.hasPid.symm
    rw [hp, frame]
    cases c.pid <;> rfl
  have hdst : c.frame.destination.isLast = false := c.isLast_destination
  have hsrc : c.frame.source.isLast = c.frame.digipeaters.isEmpty := by
    rw [frame, List.isEmpty_map]
    exact c.isLast_source
  unfold Frame.onWire
  rw [c.markLast_digipeaters, hpid, ← hdst, ← hsrc]

end CanonicalFrame

/-! ### Marking a digipeater -/

/-- The bytes of a frame, and of the same frame with one more digipeater marked, differ
in the H bit of that address. -/
theorem wireFrame_mark {f : Frame} {pre post : List Address} {d : Address}
    (hd : f.digipeaters = pre ++ d :: post) (hrep : d.hasBeenRepeated = false)
    (hmark : ∀ rep, markLast (pre ++ { d with hasBeenRepeated := rep } :: post) =
      pre ++ { d with hasBeenRepeated := rep } :: post) :
    ∃ l x r, l.length = 14 + 7 * pre.length + 6 ∧ x &&& 0x80 = 0 ∧ wireFrame f = l ++ x :: r ∧
      wireFrame { f with digipeaters := pre ++ { d with hasBeenRepeated := true } :: post } =
        l ++ (x ||| 0x80) :: r := by
  obtain ⟨w, hw, henc⟩ := addressEncode_split d
  obtain ⟨hor, hand⟩ := ssidByte_repeated d.ssid d.isLast
  have hdself : { d with hasBeenRepeated := false } = d := by
    obtain ⟨callsign, ssid, rep, last⟩ := d
    cases hrep
    rfl
  -- everything before and after the digipeater is the same in both frames
  let head := addressEncode { f.destination with isLast := false, hasBeenRepeated := f.isCommand } ++
    addressEncode { f.source with isLast := false, hasBeenRepeated := !f.isCommand }
  let tail := post.flatMap addressEncode ++
    (f.control :: ((if f.type.hasPid then [f.pid] else []) ++ f.payload))
  have hboth : ∀ rep, wireFrame { f with
      digipeaters := pre ++ { d with hasBeenRepeated := rep } :: post } =
        (head ++ pre.flatMap addressEncode ++ w) ++ ssidByte d.ssid rep d.isLast :: tail := by
    intro rep
    unfold wireFrame
    dsimp only
    rw [hmark rep, List.flatMap_append, List.flatMap_cons, henc rep,
      show (pre ++ { d with hasBeenRepeated := rep } :: post).isEmpty = false by simp]
    simp only [head, tail, List.append_assoc, List.cons_append, List.nil_append]
  refine ⟨head ++ pre.flatMap addressEncode ++ w, ssidByte d.ssid false d.isLast, tail, ?_, hand, ?_, ?_⟩
  · simp only [head, List.length_append, flatMap_addressEncode_length, addressEncode_length, hw,
      addressLen]
  · rw [← hboth false, hdself, ← hd]
  · rw [← hor, ← hboth true]

/-! ### Relaying -/

/-- The copy that a digipeater port gets, on the wire. -/
theorem relayed_bytes (c : CanonicalFrame) {i : Nat} {d : Address}
    (hd : FirstUnrepeated c.frame i d) {copy : Frame} {port : Port} (hm : port.mode = .digipeater)
    (hcopy : IsCopy c.frame port copy) :
    ∃ l x r, l.length = 14 + 7 * i + 6 ∧ x &&& 0x80 = 0 ∧ c.bytes = l ++ x :: r ∧
      frameBuild copy = (.ok, l ++ (x ||| 0x80) :: r) := by
  rw [IsCopy, if_pos hm] at hcopy
  obtain ⟨i', d', hd', rfl⟩ := hcopy
  obtain rfl : i' = i := Option.some.inj
    ((nextDigipeaterIndex_eq_some.mpr ⟨d', hd'⟩).symm.trans (nextDigipeaterIndex_eq_some.mpr ⟨d, hd⟩))
  obtain rfl : d' = d := Option.some.inj (hd'.1.symm.trans hd.1)
  obtain ⟨pre, post, hsplit, hlen⟩ : ∃ pre post,
      c.frame.digipeaters = pre ++ d' :: post ∧ pre.length = i' := by
    obtain ⟨hi, hget⟩ := List.getElem?_eq_some_iff.mp hd.1
    refine ⟨c.frame.digipeaters.take i', c.frame.digipeaters.drop (i' + 1), ?_, by
      rw [List.length_take]; omega⟩
    rw [← hget, ← List.drop_eq_getElem_cons hi, List.take_append_drop]
  have hset : c.frame.digipeaters.set i' { d' with hasBeenRepeated := true } =
      pre ++ { d' with hasBeenRepeated := true } :: post := by
    rw [hsplit, ← hlen, List.set_append_right _ _ (Nat.le_refl _), Nat.sub_self, List.set_cons_zero]
  obtain ⟨l, x, r, hl, hx, hbytes, hmarked⟩ := wireFrame_mark hsplit hd.2.1
    (c.markLast_marked hsplit)
  refine ⟨l, x, r, by rw [hl, hlen], hx, by rw [← c.bytes_eq, hbytes], ?_⟩
  rw [hset, ← hmarked]
  have hbuild := c.encodable.buildable
  refine (frameBuild_eq ?_).1
  refine ⟨hbuild.destinationH, hbuild.sourceH, ?_, hbuild.payload⟩
  have hnum := hbuild.numDigipeaters
  rw [hsplit] at hnum
  simpa using hnum

/-- **Relay transparency on the wire.** Parsing a canonical byte string and building it
again gives the same bytes; and if the frame is sent through a router with a digipeater
port whose address is the first un-repeated digipeater, the bytes of the copy that this
port gets differ in exactly the H bit of that address. -/
theorem relay_transparency (c : CanonicalFrame) :
    ∃ f, frameParse c.bytes = .ok f ∧ frameBuild f = (.ok, c.bytes) ∧
      ∀ r : Router, r.Wf → ∀ s p i d, r.Registered p → p ≠ s → (r.ports p).mode = .digipeater →
        FirstUnrepeated f i d → addressEquals (r.ports p).destination d = true →
          (∃ o ∈ (routerSend r f s).2, o.port = p) ∧
          ∀ o ∈ (routerSend r f s).2, o.port = p →
            ∃ l x t, l.length = 14 + 7 * i + 6 ∧ x &&& 0x80 = 0 ∧ c.bytes = l ++ x :: t ∧
              frameBuild o.frame = (.ok, l ++ (x ||| 0x80) :: t) := by
  refine ⟨c.frame, ?_, ?_, fun r hwf s p i d hreg hne hm hd haddr => ?_⟩
  · rw [← c.bytes_eq, frameParse_wireFrame c.encodable, c.onWire_eq]
  · rw [(frameBuild_eq c.encodable.buildable).1, c.bytes_eq]
  · have hsame : (bindSource r c.frame s).ports p = r.ports p := by
      rw [bindSource_ports, if_neg fun h => hne h.1]
    constructor
    · have hrec : Receives (bindSource r c.frame s) c.frame s p := by
        refine ⟨?_, hne, .inr (.inl ?_)⟩
        · obtain ⟨ctx, hctx, hp⟩ := hreg
          exact ⟨ctx, bindSource_slots r c.frame s ▸ hctx, hp⟩
        · rw [hsame, AddressedTo, hm]
          exact ⟨i, d, hd, haddr⟩
      obtain ⟨o, ho, hp⟩ := List.mem_map.mp ((mem_ports_routerSend hwf).mpr hrec)
      exact ⟨o, ho, hp⟩
    · rintro o ho rfl
      have hcopy := routerSend_copies hwf ho
      rw [hsame] at hcopy
      exact relayed_bytes c hd hm hcopy

/-- A UI command by way of one digipeater, which has not repeated it yet. -/
def sampleCanonical : CanonicalFrame where
  destination := { callsign := [0x4E, 0x37], ssid := 0xE0 }
  source := { callsign := [0x41], ssid := 0x60 }
  digipeaters := [{ callsign := [0x42], ssid := 0x61 }]
  control := ctrlUi
  pid := some pidNone
  payload := [0x48]
  numDigipeaters := by decide
  addresses := by decide +kernel
  extension := by
    intro i a ha
    match i, ha with
    | 0, ha | 1, ha | 2, ha =>
        cases ha
        rfl
  cBits := by decide
  hasPid := by decide
  payloadLen := by decide

/-- Port 1 of the sample router is that digipeater. -/
theorem relay_transparency_sample :
    ∃ f, frameBuild f = (.ok, sampleCanonical.bytes) ∧
      ∃ o ∈ (routerSend sampleRouter f 0).2, o.port = 1 := by
  obtain ⟨f, hparse, hbuild, hrelay⟩ := relay_transparency sampleCanonical
  have hframe : frameParse sampleCanonical.bytes = .ok sampleCanonical.frame := by
    rw [← sampleCanonical.bytes_eq, frameParse_wireFrame sampleCanonical.encodable,
      sampleCanonical.onWire_eq]
  obtain rfl : f = sampleCanonical.frame := Except.ok.inj (hparse.symm.trans hframe)
  have hfirst : FirstUnrepeated sampleCanonical.frame 0 { callsign := [0x42], isLast := true } :=
    ⟨rfl, rfl, fun j hj => absurd hj (Nat.not_lt_zero j)⟩
  have hreg : sampleRouter.Registered 1 := ⟨_, List.mem_cons_of_mem _ List.mem_cons_self, rfl⟩
  exact ⟨_, hbuild, (hrelay sampleRouter sampleRouter_wf 0 1 0 _ hreg (by decide) rfl hfirst rfl).1⟩

end EspAx25
