import EspAx25.Agwpe.Identity
import EspAx25.Agwpe.Unproto
import EspAx25.Conn.Machine

/-!
# EspAx25.Agwpe.Rejected

Callsigns that are none: what the server makes of the commands 'M', 'V', 'C', 'v' and 'c'
when `ax25_address_from_string` rejects one of the callsigns in them.

The same conversion is made in several places, and its result is looked at in two of them:
`parse_agwpe_digipeater_path` for the digipeaters, and `register_conn_router_port` for the
local callsign of a connection. The addresses of an unproto frame and the remote callsign of
a connection are taken as they are left behind by the error
(`rejected_callsign_exact`).
-/

namespace EspAx25.Sessions

open Memory

variable {n : Nat}

/-! ### Frames for the router -/

/-- The answers of the router and of the allocator to a connect command: the results of
`ax25_router_register_port` and of `ax25_conn_init`, and whether the heap has a buffer if the
deferred pool has none. -/
structure Answers where
  registerPort : EspErr
  connInit : EspErr
  heap : Bool

/-- The callbacks that `initiate_connection` registers. -/
def serverCallbacks : Callbacks :=
  { onConnect := true, onDisconnect := true, onLinkReset := false, onError := true
    onFinal := false, onData := true, onTxFrame := true }

/-- `ax25_conn_connect` of the connection that has just been initialised. -/
def dial (r : Request) (path : List Address) (heap : Bool) : Result :=
  (Conn.fresh r.localAddr serverCallbacks Config.default).step
    (.call (.connectVia r.remoteAddr path) heap false)

/-- The path of a connect command. -/
def commandPath (frame : AgwpeFrame) : List Address :=
  if frame.header.dataKind = 0x76 then
    match parseAgwpeDigipeaterPath frame.contents with
    | .error _ => []
    | .ok (path, _) => path
  else []

/-- The calls that a connect command makes. No other command of the five makes any. -/
def commandCalls (frame : AgwpeFrame) (a : Answers) : Calls :=
  let calls : Calls :=
    { registerPort := a.registerPort, connInit := a.connInit, connConnect := .ok
      connShutdown := .ok, connOnFrame := .ok }
  { calls with connConnect := (dial (commandRequest frame calls) (commandPath frame) a.heap).ret }

/-- The frames among the actions of a connection: `conn_on_frame` gives them to the router. -/
def txFrames (out : List Action) : List Frame :=
  out.filterMap fun
    | .frame f => some f
    | _ => none

namespace Server

variable (srv : Server n)

/-- The frames that `initiate_connection` hands to the router. -/
def initiateFrames (frame : AgwpeFrame) (a : Answers) : List Frame :=
  let calls := commandCalls frame a
  let r := commandRequest frame calls
  match srv.findConnSlotAnyState r.localStr r.remoteStr with
  | some _ => []
  | none =>
    match srv.allocConnSlot with
    | none => []
    | some _ =>
      if registerConnRouterPort r.localStr calls ≠ .ok then []
      else if calls.connInit ≠ .ok then []
      else txFrames (dial r (commandPath frame) a.heap).out

/-- The frames that `ax25_agwpe_server_agwpe_in` hands to the router for the five
commands. -/
def routed (frame : AgwpeFrame) (a : Answers) : List Frame :=
  if srv.initialized then
    match frame.header.dataKind with
    | 0x4D | 0x56 => (handleUnproto frame).toList
    | 0x43 | 0x63 => srv.initiateFrames frame a
    | 0x76 =>
      match parseAgwpeDigipeaterPath frame.contents with
      | .error _ => []
      | .ok (_, consumed) =>
        if consumed > frame.header.dataLen.toNat then [] else srv.initiateFrames frame a
    | _ => []
  else []

end Server

/-! ### The law -/

/-- `ax25_address_from_string` accepts the text. -/
def Reads (text : List Byte) : Prop := (addressFromString text).1 = .ok

/-- 'M', 'V', 'C', 'v' or 'c'. -/
def IsTransmitKind (kind : Byte) : Prop :=
  kind = 0x4D ∨ kind = 0x56 ∨ kind = 0x43 ∨ kind = 0x76 ∨ kind = 0x63

/-- The text in a field of the path. -/
def pathText (frame : AgwpeFrame) (i : Nat) : List Byte :=
  digiStr (((frame.contents.drop 1).drop (i * agwpeCallsignLen)).take agwpeCallsignLen)

/-- One of the callsigns of a command is rejected: the source, the destination, or one of the
digipeaters that the path counts and has room for. -/
def SomeRejected (frame : AgwpeFrame) : Prop :=
  ¬ Reads (agwpeGetCallsign frame.header.callFrom) ∨
    ¬ Reads (agwpeGetCallsign frame.header.callTo) ∨
    ((frame.header.dataKind = 0x56 ∨ frame.header.dataKind = 0x76) ∧
      ∃ i < (frame.contents.getD 0 0).toNat,
        1 + (i + 1) * agwpeCallsignLen ≤ frame.contents.length ∧ ¬ Reads (pathText frame i))

/-- Nothing is transmitted and no slot is kept if a callsign is rejected. -/
def NeverTransmitted (srv : Server n) (frame : AgwpeFrame) (a : Answers) : Prop :=
  SomeRejected frame →
    srv.routed frame a = [] ∧ Quiet srv (srv.agwpeIn frame (commandCalls frame a))

/-- The path of the command is accepted. -/
def PathReads (frame : AgwpeFrame) : Prop :=
  ∃ path, parseAgwpeDigipeaterPath frame.contents = .ok path

/-- A connect command gets as far as the call of `ax25_conn_connect`: its path, if it has
one, is accepted, there is no slot for the two texts and there is a free one, the source is
accepted, and neither the router nor the connection refuses. -/
structure Connects (srv : Server n) (frame : AgwpeFrame) (a : Answers) : Prop where
  path : frame.header.dataKind = 0x76 → PathReads frame
  noSlot : srv.findConnSlotAnyState (agwpeGetCallsign frame.header.callFrom)
    (agwpeGetCallsign frame.header.callTo) = none
  free : ∃ i, (srv.conns i).inUse = false
  source : Reads (agwpeGetCallsign frame.header.callFrom)
  registerPort : a.registerPort = .ok
  connInit : a.connInit = .ok

/-- The callsigns that the server does not look at are accepted wherever it gets to use
them. -/
def UncheckedRead (srv : Server n) (frame : AgwpeFrame) (a : Answers) : Prop :=
  srv.initialized = true →
    (frame.header.dataKind = 0x4D ∨ (frame.header.dataKind = 0x56 ∧ PathReads frame) →
      Reads (agwpeGetCallsign frame.header.callFrom) ∧
        Reads (agwpeGetCallsign frame.header.callTo)) ∧
    (frame.header.dataKind = 0x43 ∨ frame.header.dataKind = 0x76 ∨ frame.header.dataKind = 0x63 →
      Connects srv frame a → Reads (agwpeGetCallsign frame.header.callTo))

/-! ### Paths -/

/-- Every field of a path that is accepted has been read. -/
theorem parsePathFields_reads {k : Nat} : ∀ {data : List Byte} {path : List Address},
    parsePathFields k data = .ok path →
      path.length = k ∧
        ∀ i < k, Reads (digiStr ((data.drop (i * agwpeCallsignLen)).take agwpeCallsignLen)) := by
  induction k with
  | zero =>
      intro data path h
      cases h
      exact ⟨rfl, fun i hi => absurd hi (Nat.not_lt_zero i)⟩
  | succ k ih =>
      intro data path h
      rw [parsePathFields] at h
      rcases hread : addressFromString (digiStr (data.take agwpeCallsignLen)) with ⟨err, digi⟩
      rw [hread] at h
      cases err with
      | ok =>
          dsimp only at h
          cases hrest : parsePathFields k (data.drop agwpeCallsignLen) with
          | error err =>
              rw [hrest] at h
              cases h
          | ok rest =>
              rw [hrest] at h
              cases h
              obtain ⟨hlen, hall⟩ := ih hrest
              refine ⟨congrArg (· + 1) hlen, fun i hi => ?_⟩
              cases i with
              | zero =>
                  rw [Nat.zero_mul, List.drop_zero, Reads, hread]
              | succ i =>
                  have hi' := hall i (Nat.lt_of_succ_lt_succ hi)
                  rwa [List.drop_drop, Nat.add_comm, ← Nat.succ_mul] at hi'
      | _ => cases h

theorem parsePath_reads {frame : AgwpeFrame} {path : List Address × Nat}
    (h : parseAgwpeDigipeaterPath frame.contents = .ok path) :
    path.1.length ≤ maxDigipeaters ∧ path.2 ≤ frame.contents.length ∧
      1 ≤ frame.contents.length ∧
      ∀ i < (frame.contents.getD 0 0).toNat, Reads (pathText frame i) := by
  simp only [parseAgwpeDigipeaterPath] at h
  split_ifs at h with hnil hmany hshort
  cases hfields : parsePathFields (frame.contents.getD 0 0).toNat (frame.contents.drop 1) with
  | error err =>
      rw [hfields] at h
      cases h
  | ok fields =>
      rw [hfields] at h
      cases h
      obtain ⟨hlen, hall⟩ := parsePathFields_reads hfields
      exact ⟨Nat.le_trans (Nat.le_of_eq hlen) (Nat.not_lt.mp hmany), Nat.not_lt.mp hshort,
        Nat.not_lt.mp hnil, hall⟩

theorem contents_length_le (frame : AgwpeFrame) :
    frame.contents.length ≤ frame.header.dataLen.toNat := by
  rw [AgwpeFrame.contents, List.length_take]
  exact Nat.min_le_left _ _

/-- With a path that is accepted only the source and the destination can be rejected. -/
theorem someRejected_iff {frame : AgwpeFrame}
    (hpath : frame.header.dataKind = 0x56 ∨ frame.header.dataKind = 0x76 → PathReads frame) :
    SomeRejected frame ↔ ¬ (Reads (agwpeGetCallsign frame.header.callFrom) ∧
      Reads (agwpeGetCallsign frame.header.callTo)) := by
  rw [SomeRejected, not_and_or]
  refine or_congr_right (or_iff_left ?_)
  rintro ⟨hkind, i, hi, -, hno⟩
  obtain ⟨⟨path, consumed⟩, hparse⟩ := hpath hkind
  exact hno ((parsePath_reads hparse).2.2.2 i hi)

/-! ### Connections -/

/-- `ax25_conn_connect_via` records a SABM and succeeds. -/
theorem connectVia_locked {c : Conn} (hst : c.state = .disconnected) {path : List Address}
    (hpath : path.length ≤ maxDigipeaters) (remoteAddr : Address) :
    (Locked.connectVia ⟨c, []⟩ remoteAddr path).2 = .ok ∧
      ∃ f, (Locked.connectVia ⟨c, []⟩ remoteAddr path).1.deferred = [.frame f] := by
  have hlong : ¬ path.length > maxDigipeaters := Nat.not_lt.mpr hpath
  simp [Locked.connectVia, hst, Conn.setConnPath, hlong, Locked.sendSabm, Locked.sendUFrame,
    Locked.sendFrameInternal, Locked.deferAction, maxDeferredActions]

/-- `ax25_conn_connect` succeeds on a new connection, and sends a SABM. -/
theorem dial_ok (r : Request) {path : List Address} (hpath : path.length ≤ maxDigipeaters)
    (heap : Bool) : (dial r path heap).ret = .ok ∧ txFrames (dial r path heap).out ≠ [] := by
  have hpre : (Op.connectVia r.remoteAddr path).precheck
      (Conn.fresh r.localAddr serverCallbacks Config.default) = none := by
    simp [Op.precheck, Conn.fresh, Nat.not_lt.mpr hpath]
  have hacquire : (Conn.fresh r.localAddr serverCallbacks Config.default).acquireDeferred heap =
      some (.pool 0, (Conn.fresh r.localAddr serverCallbacks Config.default).taken) := rfl
  obtain ⟨hret, f, hout⟩ := connectVia_locked
    (c := (Conn.fresh r.localAddr serverCallbacks Config.default).taken) rfl hpath r.remoteAddr
  simp only [dial, Conn.step, Op.call, Op.consumeExpiry, hpre, Conn.locked, hacquire, Op.body,
    Call.settle, hret, hout]
  exact ⟨trivial, List.cons_ne_nil f []⟩

theorem commandPath_length (frame : AgwpeFrame) : (commandPath frame).length ≤ maxDigipeaters := by
  unfold commandPath
  split_ifs
  · cases hparse : parseAgwpeDigipeaterPath frame.contents with
    | error err => exact Nat.zero_le _
    | ok path => exact (parsePath_reads hparse).1
  · exact Nat.zero_le _

@[simp] theorem commandCalls_connConnect (frame : AgwpeFrame) (a : Answers) :
    (commandCalls frame a).connConnect = .ok :=
  (dial_ok _ (commandPath_length frame) a.heap).1

/-- `register_conn_router_port` is the one place where the source is looked at. -/
theorem registerConnRouterPort_ok (text : List Byte) (calls : Calls) :
    Server.registerConnRouterPort text calls = .ok ↔ Reads text ∧ calls.registerPort = .ok := by
  unfold Server.registerConnRouterPort Reads
  rcases addressFromString text with ⟨err, addr⟩
  cases err <;> simp

section Connect

variable {srv : Server n} {frame : AgwpeFrame} {a : Answers}

/-- The request of a connect command is accepted if the command gets that far. -/
theorem connects_iff (hpath : frame.header.dataKind = 0x76 → PathReads frame) :
    (commandRequest frame (commandCalls frame a)).Accepted srv ↔ Connects srv frame a := by
  have hcalls : (commandRequest frame (commandCalls frame a)).succeeds = true ↔
      (Reads (agwpeGetCallsign frame.header.callFrom) ∧ a.registerPort = .ok) ∧
        a.connInit = .ok := by
    rw [commandRequest, decide_eq_true_eq, registerConnRouterPort_ok, commandCalls_connConnect]
    simp only [and_true]
    rfl
  rw [Request.Accepted, hcalls]
  constructor
  · rintro ⟨hno, hfree, ⟨hsource, hport⟩, hinit⟩
    exact ⟨hpath, hno, hfree, hsource, hport, hinit⟩
  · intro h
    exact ⟨h.noSlot, h.free, ⟨h.source, h.registerPort⟩, h.connInit⟩

/-- A SABM is sent exactly then. -/
theorem initiateFrames_nil_iff (hpath : frame.header.dataKind = 0x76 → PathReads frame) :
    srv.initiateFrames frame a = [] ↔ ¬ Connects srv frame a := by
  have hsent := (dial_ok (commandRequest frame (commandCalls frame a)) (commandPath_length frame)
    a.heap).2
  rw [← connects_iff hpath, Request.Accepted]
  unfold Server.initiateFrames
  dsimp only
  split
  · rename_i i hfind
    simp [hfind]
  · rename_i hfind
    split
    · rename_i halloc
      have hfull : ¬ ∃ i, (srv.conns i).inUse = false := by
        rintro ⟨i, hi⟩
        rw [allocConnSlot_none halloc i] at hi
        cases hi
      simp [hfull]
    · rename_i slot halloc
      have hfree : ∃ i, (srv.conns i).inUse = false := ⟨slot.1, (allocConnSlot_some halloc).1⟩
      have hsucceeds : (commandRequest frame (commandCalls frame a)).succeeds = true ↔
          Server.registerConnRouterPort (agwpeGetCallsign frame.header.callFrom)
            (commandCalls frame a) = .ok ∧ (commandCalls frame a).connInit = .ok := by
        rw [commandRequest, decide_eq_true_eq, commandCalls_connConnect]
        simp
      rw [hsucceeds]
      split_ifs with hport hinit
      · simp only [true_iff]
        exact fun h => hport h.2.2.1
      · simp only [true_iff]
        exact fun h => hinit h.2.2.2
      · exact iff_of_false hsent fun h => h ⟨hfind, hfree, not_not.mp hport, not_not.mp hinit⟩

end Connect

/-- A session that is opened is a slot that was not in use. -/
theorem Opens.not_quiet {srv srv' : Server n} {r : Request} (h : Opens srv srv' r) :
    ¬ Quiet srv srv' := by
  obtain ⟨i, hfree, hholds, -⟩ := h
  intro hq
  have hin := hholds.inUse
  rw [hq i hin, hfree] at hin
  cases hin

/-- An input without a request, or with one that is not accepted, opens nothing. -/
theorem Effect.quiet_of {srv srv' : Server n} {o : Option Request} (h : Effect srv srv' o)
    (hno : ∀ r, o = some r → ¬ r.Accepted srv) : Quiet srv srv' := by
  cases h with
  | quiet _ hq => exact hq
  | opens hacc _ => exact absurd hacc (hno _ rfl)

theorem Effect.opens_of {srv srv' : Server n} {r : Request} (h : Effect srv srv' (some r))
    (hacc : r.Accepted srv) : Opens srv srv' r := by
  cases h with
  | quiet hno _ => exact absurd hacc (hno r rfl)
  | opens _ ho => exact ho

/-! ### The five commands -/

/-- A 'V' frame is routed if its path is accepted. -/
theorem handleSendUnprotoVia_none_iff (frame : AgwpeFrame) :
    handleSendUnprotoVia frame = none ↔ ¬ PathReads frame := by
  have hlen := contents_length_le frame
  unfold handleSendUnprotoVia PathReads
  cases hparse : parseAgwpeDigipeaterPath frame.contents with
  | error err => simp
  | ok path =>
      have hpos := (parsePath_reads hparse).2.2.1
      have hdataLen : ¬ frame.header.dataLen < 1 := by
        rw [UInt32.lt_iff_toNat_lt]
        exact Nat.not_lt.mpr (Nat.le_trans hpos hlen)
      rw [if_neg hdataLen]
      simp

section Law

variable {srv : Server n} {frame : AgwpeFrame} {a : Answers} (hinit : srv.initialized = true)

include hinit

/-- The two unproto commands: nothing is looked at but the path. -/
theorem unproto_law (hkind : frame.header.dataKind = 0x4D ∨ frame.header.dataKind = 0x56) :
    NeverTransmitted srv frame a ↔
      (frame.header.dataKind = 0x4D ∨ (frame.header.dataKind = 0x56 ∧ PathReads frame) →
        Reads (agwpeGetCallsign frame.header.callFrom) ∧
          Reads (agwpeGetCallsign frame.header.callTo)) := by
  have hquiet : Quiet srv (srv.agwpeIn frame (commandCalls frame a)) := by
    refine (agwpeIn_effect srv frame _).quiet_of fun r hr => ?_
    rw [Server.request, if_pos hinit] at hr
    rcases hkind with hkind | hkind <;> rw [hkind] at hr <;> cases hr
  have hrouted : srv.routed frame a = (handleUnproto frame).toList := by
    rw [Server.routed, if_pos hinit]
    rcases hkind with hkind | hkind <;> rw [hkind] <;> rfl
  have hnone : handleUnproto frame = none ↔
      ¬ (frame.header.dataKind = 0x4D ∨ (frame.header.dataKind = 0x56 ∧ PathReads frame)) := by
    rcases hkind with hkind | hkind
    · simp [handleUnproto, hkind, agwpeKindSendUnproto]
    · simp [handleUnproto, hkind, agwpeKindSendUnproto, agwpeKindSendUnprotoVia,
        handleSendUnprotoVia_none_iff]
  rw [NeverTransmitted, hrouted, and_iff_left hquiet, Option.toList_eq_nil_iff, hnone]
  by_cases hsend : frame.header.dataKind = 0x4D ∨ (frame.header.dataKind = 0x56 ∧ PathReads frame)
  · have hrejected : SomeRejected frame ↔ _ := someRejected_iff fun hvia => by
      rcases hsend with hm | ⟨-, hpath⟩
      · rw [hm] at hvia
        exact absurd hvia (by decide)
      · exact hpath
    simp only [hsend, not_true_eq_false, imp_false, forall_const, hrejected, not_not]
  · simp only [hsend, not_false_eq_true, implies_true, false_implies]

/-- The three connect commands: the path and the source are looked at. -/
theorem connect_law (hkind : frame.header.dataKind = 0x43 ∨ frame.header.dataKind = 0x76 ∨
      frame.header.dataKind = 0x63) :
    NeverTransmitted srv frame a ↔
      (Connects srv frame a → Reads (agwpeGetCallsign frame.header.callTo)) := by
  have heffect := agwpeIn_effect srv frame (commandCalls frame a)
  by_cases hpath : frame.header.dataKind = 0x76 → PathReads frame
  · -- the command is a request
    have hboth : srv.request (.agwpe frame (commandCalls frame a)) =
          some (commandRequest frame (commandCalls frame a)) ∧
        srv.routed frame a = srv.initiateFrames frame a := by
      rw [Server.request, if_pos hinit, Server.routed, if_pos hinit]
      rcases hkind with hkind | hkind | hkind
      · rw [hkind]
        exact ⟨rfl, rfl⟩
      · obtain ⟨⟨path, consumed⟩, hparse⟩ := hpath hkind
        have hfits : ¬ consumed > frame.header.dataLen.toNat :=
          Nat.not_lt.mpr (Nat.le_trans (parsePath_reads hparse).2.1 (contents_length_le frame))
        rw [hkind, viaRequest, hparse]
        exact ⟨if_neg hfits, if_neg hfits⟩
      · rw [hkind]
        exact ⟨rfl, rfl⟩
    rw [hboth.1] at heffect
    rw [NeverTransmitted, hboth.2, initiateFrames_nil_iff hpath]
    by_cases hconn : Connects srv frame a
    · have hopens := heffect.opens_of ((connects_iff hpath).mpr hconn)
      have hrejected : SomeRejected frame ↔ _ := someRejected_iff fun hvia => by
        rcases hvia with hvia | hvia
        · rw [hvia] at hkind
          exact absurd hkind (by decide)
        · exact hpath hvia
      rw [hrejected]
      have hnot : ¬ Quiet srv (srv.agwpeIn frame (commandCalls frame a)) := hopens.not_quiet
      simp only [hconn, hnot, not_true_eq_false, and_self, imp_false, not_not, forall_const,
        hconn.source, true_and]
    · have hquiet : Quiet srv (srv.agwpeIn frame (commandCalls frame a)) := by
        refine heffect.quiet_of fun r hr hacc => ?_
        rw [← Option.some.inj hr] at hacc
        exact hconn ((connects_iff hpath).mp hacc)
      simp only [hconn, hquiet, not_false_eq_true, and_self, implies_true, false_implies]
  · -- its path is refused
    have hno : ¬ Connects srv frame a := fun h => hpath h.path
    obtain ⟨hvia, hbad⟩ := Classical.not_imp.mp hpath
    refine iff_of_true (fun _ => ?_) fun h => absurd h hno
    have hboth : srv.request (.agwpe frame (commandCalls frame a)) = none ∧
        srv.routed frame a = [] := by
      rw [Server.request, if_pos hinit, Server.routed, if_pos hinit, hvia]
      cases hparse : parseAgwpeDigipeaterPath frame.contents with
      | error err =>
          rw [viaRequest, hparse]
          exact ⟨rfl, rfl⟩
      | ok path => exact absurd ⟨path, hparse⟩ hbad
    rw [hboth.1] at heffect
    exact ⟨hboth.2, heffect.quiet_of fun r hr => by cases hr⟩

end Law

/-- **Rejected callsigns are transmitted where nobody looks.** Nothing is transmitted and no
slot is kept for a rejected callsign if and only if the callsigns that the server does not
look at are accepted wherever it gets to use them. -/
theorem rejected_callsign_exact {srv : Server n} {frame : AgwpeFrame} {a : Answers}
    (hkind : IsTransmitKind frame.header.dataKind) :
    NeverTransmitted srv frame a ↔ UncheckedRead srv frame a := by
  unfold UncheckedRead
  by_cases hinit : srv.initialized = true
  · simp only [hinit, forall_const]
    by_cases hunproto : frame.header.dataKind = 0x4D ∨ frame.header.dataKind = 0x56
    · have hconnect : ¬ (frame.header.dataKind = 0x43 ∨ frame.header.dataKind = 0x76 ∨
          frame.header.dataKind = 0x63) := by
        rcases hunproto with h | h <;> rw [h] <;> decide
      rw [unproto_law hinit hunproto]
      simp only [hconnect, false_implies, and_true]
    · have hconnect : frame.header.dataKind = 0x43 ∨ frame.header.dataKind = 0x76 ∨
          frame.header.dataKind = 0x63 := by
        rcases hkind with h | h | h
        · exact absurd (.inl h) hunproto
        · exact absurd (.inr h) hunproto
        · exact h
      rw [connect_law hinit hconnect]
      have hnot : ¬ (frame.header.dataKind = 0x4D ∨
          (frame.header.dataKind = 0x56 ∧ PathReads frame)) :=
        fun h => hunproto (h.imp_right And.left)
      simp only [hnot, false_implies, hconnect, forall_const, true_and]
  · refine iff_of_true (fun _ => ⟨if_neg hinit, ?_⟩) fun h => absurd h hinit
    rw [Server.agwpeIn, if_neg hinit]
    exact .refl srv

/-- A command that succeeds wherever it can. -/
def willing : Answers := ⟨.ok, .ok, false⟩

/-- 'M' from "TOOLONG", which is no callsign, to A. -/
def tooLongFrame : AgwpeFrame :=
  { agwpeFrameInit with
    header :=
      { agwpeFrameInit.header with
        dataKind := 0x4D
        callFrom := agwpeSetCallsign [0x54, 0x4F, 0x4F, 0x4C, 0x4F, 0x4E, 0x47]
        callTo := agwpeSetCallsign [0x41] } }

/-- It is sent from an address without a callsign. -/
theorem rejected_callsign_transmitted :
    ¬ ∀ (n : Nat) (srv : Server n) (frame : AgwpeFrame) (a : Answers),
      IsTransmitKind frame.header.dataKind → NeverTransmitted srv frame a := by
  intro hall
  have hnever := hall 1 (Server.init 0) tooLongFrame willing (.inl rfl) (.inl (by
    rw [Reads]
    decide +kernel))
  exact absurd hnever.1 (by decide +kernel)

theorem rejected_callsign_exact_connect :
    ¬ NeverTransmitted (Server.init (n := 1) 0)
      { tooLongFrame with
        header :=
          { tooLongFrame.header with
            dataKind := 0x43, callFrom := agwpeSetCallsign [0x41]
            callTo := tooLongFrame.header.callFrom } } willing := by
  rw [rejected_callsign_exact (.inr (.inr (.inl rfl)))]
  intro h
  have hread := (h rfl).2 (.inl rfl) ⟨fun hvia => absurd hvia (by decide), by decide +kernel,
    ⟨0, rfl⟩, by rw [Reads]; decide +kernel, rfl, rfl⟩
  rw [Reads] at hread
  revert hread
  decide +kernel

end EspAx25.Sessions
