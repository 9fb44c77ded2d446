import EspAx25.Agwpe.Sessions

/-!
# EspAx25.Agwpe.Identity

One slot for each AX.25 session (`ax25_agwpe_server.c`).

A slot stands for the two addresses that its connection has been given. Whether there is
a slot for a session already is decided by `find_conn_slot_any_state`, which compares the
texts of callsigns: those of the request with those in the slots, which
`agwpe_set_callsign` has cut to 9 characters.

* A request (`Request`) is what a 'C', 'v' or 'c' command or an incoming SABM asks for:
  two texts, and the two addresses that the connection would be given. A connection ignores
  a SABM whose destination is its own callsign in other letters of case, and has no peer then.
* What an operation does to the slots is said once (`Effect`): it opens the session of its
  request, or leaves every slot in use as it was. A connection that is DISCONNECTED takes
  its peer from any SABM on its router port (`Moves`).
* Two texts of one address are two sessions for the server, and a connection that takes
  another peer stands for a session that the look-up does not find
  (`one_slot_per_session_exact`). With the spelling of `ax25_address_to_string` there is one
  slot for each pair of addresses (`one_slot_when_spelled`).
-/

namespace EspAx25.Sessions

open Memory Transition

variable {n : Nat}

/-! ### Requests -/

/-- What a new session is asked for. -/
structure Request where
  localStr : List Byte
  remoteStr : List Byte
  localAddr : Address
  remoteAddr : Address
  /-- The calls to the router and to the connection succeed. -/
  succeeds : Bool

/-- The request of `initiate_connection`. -/
def commandRequest (frame : AgwpeFrame) (calls : Calls) : Request :=
  let fromStr := agwpeGetCallsign frame.header.callFrom
  let toStr := agwpeGetCallsign frame.header.callTo
  { localStr := fromStr
    remoteStr := toStr
    localAddr := (addressFromString fromStr).2
    remoteAddr := (addressFromString toStr).2
    succeeds := Server.registerConnRouterPort fromStr calls = .ok ∧ calls.connInit = .ok ∧
      calls.connConnect = .ok }

/-- The request of `handle_connect_via`. -/
def viaRequest (frame : AgwpeFrame) (calls : Calls) : Option Request :=
  match parseAgwpeDigipeaterPath frame.contents with
  | .error _ => none
  | .ok (_, consumed) =>
    if consumed > frame.header.dataLen.toNat then none else some (commandRequest frame calls)

/-- The connection for a callsign does not ignore the SABM. -/
def answers (regCall : List Byte) (frame : Frame) (calls : Calls) : Bool :=
  addressEquals frame.destination (addressFromString regCall).2 && calls.connOnFrame == .ok

/-- The request of an incoming SABM. A connection that ignores it has no peer. -/
def sabmRequest (srv : Server n) (frame : Frame) (calls : Calls) : Request :=
  let regCall := agwpeGetCallsign srv.registeredCall
  { localStr := regCall
    remoteStr := (addressToString frame.source (agwpeCallsignLen + 1)).toOption.getD []
    localAddr := (addressFromString regCall).2
    remoteAddr := if answers regCall frame calls then frame.source else {}
    succeeds := Server.registerConnRouterPort regCall calls = .ok ∧ calls.connInit = .ok }

/-- The commands, the incoming frames and the callbacks that end a session. -/
inductive Input (n : Nat)
  | agwpe (frame : AgwpeFrame) (calls : Calls)
  | ax25 (frame : Frame) (calls : Calls)
  /-- A frame on the router port of a connection. -/
  | conn (i : Fin n) (frame : Frame) (calls : Calls)
  /-- A connection comes to DISCONNECTED. -/
  | ends (i : Fin n)
  | callback (i : Fin n) (kind : CallbackKind)

namespace Server

variable (srv : Server n)

/-- What an input asks for, if it gets as far as the look-up of its session. -/
def request : Input n → Option Request
  | .agwpe frame calls =>
    if srv.initialized then
      match frame.header.dataKind with
      | 0x43 | 0x63 => some (commandRequest frame calls)
      | 0x76 => viaRequest frame calls
      | _ => none
    else none
  | .ax25 frame calls =>
    if srv.initialized ∧ frame.type = .u ∧
        frame.control &&& ~~~ctrlPfBit = ctrlSabm &&& ~~~ctrlPfBit ∧
        (frame.digipeaters.any fun digi => !digi.hasBeenRepeated) = false ∧
        srv.callsignRegistered ∧
        strcaseEq ((addressToString frame.destination (agwpeCallsignLen + 1)).toOption.getD [])
          (agwpeGetCallsign srv.registeredCall) then
      some (sabmRequest srv frame calls)
    else none
  | .conn _ _ _ | .ends _ | .callback _ _ => none

def input : Input n → Server n
  | .agwpe frame calls => srv.agwpeIn frame calls
  | .ax25 frame calls => srv.ax25In frame calls
  | .conn i frame calls => srv.connRouterOnFrame i frame calls
  | .ends i => srv.connEnds i
  | .callback i kind => srv.callback i kind

end Server

/-- The request finds no slot of its session and a free slot, and its calls succeed. -/
def Request.Accepted (r : Request) (srv : Server n) : Prop :=
  srv.findConnSlotAnyState r.localStr r.remoteStr = none ∧
    (∃ i, (srv.conns i).inUse = false) ∧ r.succeeds = true

/-- The slot of a connection that has been initialised and has no peer yet. -/
structure Fresh (slot : Slot) (localStr remoteStr : List Byte) : Prop where
  inUse : slot.inUse = true
  connInitialized : slot.connInitialized = true
  connDisconnected : slot.connDisconnected = true
  localAddr : slot.localAddr = (addressFromString localStr).2
  remoteAddr : slot.remoteAddr = {}
  localCall : slot.localCall = agwpeSetCallsign localStr
  remoteCall : slot.remoteCall = agwpeSetCallsign remoteStr

/-- A slot that stands for the session of a request. -/
structure Request.Holds (r : Request) (slot : Slot) : Prop where
  inUse : slot.inUse = true
  localAddr : slot.localAddr = r.localAddr
  remoteAddr : slot.remoteAddr = r.remoteAddr
  localCall : slot.localCall = agwpeSetCallsign r.localStr
  remoteCall : slot.remoteCall = agwpeSetCallsign r.remoteStr

/-- Every slot in use afterwards is as it was. -/
def Quiet (srv srv' : Server n) : Prop :=
  ∀ j, (srv'.conns j).inUse = true → srv'.conns j = srv.conns j

/-- A free slot holds the session of the request; the others are as they were. -/
def Opens (srv srv' : Server n) (r : Request) : Prop :=
  ∃ i, (srv.conns i).inUse = false ∧ r.Holds (srv'.conns i) ∧
    ∀ j, j ≠ i → (srv.conns j).inUse = true ∨ (srv'.conns j).inUse = true →
      srv'.conns j = srv.conns j

/-- **What an operation does.** -/
inductive Effect (srv srv' : Server n) : Option Request → Prop
  | quiet {r : Option Request} : (∀ q, r = some q → ¬ q.Accepted srv) → Quiet srv srv' →
      Effect srv srv' r
  | opens {q : Request} : q.Accepted srv → Opens srv srv' q → Effect srv srv' (some q)

/-! ### The effect of each operation -/

theorem Quiet.refl (srv : Server n) : Quiet srv srv := fun _ _ => rfl

/-- Whatever is done to a slot that is then freed. -/
theorem Quiet.free {srv srv' : Server n} {i : Fin n} (h : ∀ j, j ≠ i → srv'.conns j = srv.conns j) :
    Quiet srv (srv'.freeConnSlot i) := by
  intro j hj
  unfold Server.freeConnSlot at hj ⊢
  dsimp only at hj ⊢
  by_cases hji : j = i
  · rw [hji, Function.update_self] at hj
    cases hj
  · rw [Function.update_of_ne hji]
    exact h j hji

theorem setSlot_of_ne {srv : Server n} {i j : Fin n} (h : j ≠ i) (slot : Slot) :
    (srv.setSlot i slot).conns j = srv.conns j := by
  simp only [Server.setSlot, Function.update_of_ne h]

theorem sweep_inUse (srv : Server n) (i : Fin n)
    (h : (srv.conns i).inUse = true ∨ (srv.sweepReleasedConnSlots.conns i).inUse = true) :
    srv.sweepReleasedConnSlots.conns i = srv.conns i := by
  unfold Server.sweepReleasedConnSlots at h ⊢
  dsimp only at h ⊢
  split_ifs with hskip
  · rfl
  · rw [if_neg hskip] at h
    simp only [Bool.or_eq_true, not_or] at hskip
    rcases h with h | h
    · exact absurd h hskip.1
    · exact absurd h hskip.1

/-- The sweep does not touch a slot in use. -/
theorem Effect.sweep {srv srv' : Server n} {r : Option Request} (h : Effect srv srv' r) :
    Effect srv srv'.sweepReleasedConnSlots r := by
  cases h with
  | quiet hno hq =>
      refine .quiet hno fun j hj => ?_
      have hsame := sweep_inUse srv' j (.inr hj)
      exact hsame.trans (hq j (hsame ▸ hj))
  | opens hacc ho =>
      obtain ⟨i, hfree, hholds, hothers⟩ := ho
      refine .opens hacc ⟨i, hfree, ?_, fun j hji hj => ?_⟩
      · rw [sweep_inUse srv' i (.inl hholds.inUse)]
        exact hholds
      · have hj' : (srv'.conns j).inUse = true := by
          rcases hj with hj | hj
          · rw [hothers j hji (.inl hj)]
            exact hj
          · rwa [sweep_inUse srv' j (.inr hj)] at hj
        rw [sweep_inUse srv' j (.inl hj')]
        exact hothers j hji (.inr hj')

theorem allocConnSlot_none {srv : Server n} (h : srv.allocConnSlot = none) (i : Fin n) :
    (srv.conns i).inUse = true := by
  have hall := List.find?_eq_none.mp (Option.map_eq_none_iff.mp h) i (List.mem_finRange i)
  simpa using hall

theorem allocConnSlot_some {srv srv₁ : Server n} {i : Fin n}
    (h : srv.allocConnSlot = some (i, srv₁)) :
    (srv.conns i).inUse = false ∧ (srv₁.conns i).inUse = true ∧ (srv₁.conns i).remoteAddr = {} ∧
      ∀ j, j ≠ i → srv₁.conns j = srv.conns j := by
  obtain ⟨j, hfind, hj⟩ := Option.map_eq_some_iff.mp h
  cases hj
  refine ⟨by simpa using List.find?_some hfind, ?_, ?_, fun j hji => ?_⟩
  · simp only [Server.setSlot, Function.update_self]
  · simp only [Server.setSlot, Function.update_self]
  · simp only [Server.setSlot, Function.update_of_ne hji]

/-- From the allocation to the initialised connection, or to the free slot. -/
theorem openConn_cases {srv srv₁ : Server n} {i : Fin n} (h : srv.allocConnSlot = some (i, srv₁))
    (localStr remoteStr : List Byte) (pid port : Byte) (calls : Calls) :
    match (srv₁.fillSlot i localStr remoteStr pid port).openConn i localStr calls with
    | .error srv₂ =>
      Quiet srv srv₂ ∧
        ¬ (Server.registerConnRouterPort localStr calls = .ok ∧ calls.connInit = .ok)
    | .ok srv₂ =>
      (Server.registerConnRouterPort localStr calls = .ok ∧ calls.connInit = .ok) ∧
        Fresh (srv₂.conns i) localStr remoteStr ∧ ∀ j, j ≠ i → srv₂.conns j = srv.conns j := by
  obtain ⟨hfree, huse, hnone, hothers⟩ := allocConnSlot_some h
  have hfail : Quiet srv ((srv₁.fillSlot i localStr remoteStr pid port).freeConnSlot i) :=
    Quiet.free fun j hji => (setSlot_of_ne hji _).trans (hothers j hji)
  unfold Server.openConn
  split_ifs with hreg hinit
  · exact ⟨hfail, fun hok => hreg hok.1⟩
  · exact ⟨hfail, fun hok => hinit hok.2⟩
  · rw [not_not] at hreg hinit
    refine ⟨⟨hreg, hinit⟩, ?_, fun j hji => ?_⟩
    · simp only [Server.fillSlot, Server.setSlot, Function.update_self]
      exact ⟨huse, rfl, rfl, rfl, hnone, rfl, rfl⟩
    · rw [setSlot_of_ne hji]
      exact (setSlot_of_ne hji _).trans (hothers j hji)

/-- What `initiate_connection` and the acceptance of a SABM share: the look-up, the
allocation and the opening. They differ in how they finish. -/
theorem open_effect (srv : Server n) (r : Request) (pid : Byte) (port : Server n → Byte)
    (calls : Calls) (finish : Fin n → Server n → Server n) (connected : Prop)
    (haddr : r.localAddr = (addressFromString r.localStr).2)
    (hsucceeds : r.succeeds = true ↔ (Server.registerConnRouterPort r.localStr calls = .ok ∧
      calls.connInit = .ok) ∧ connected)
    (hok : connected → ∀ i s, Fresh (s.conns i) r.localStr r.remoteStr → ∃ connDisconnected,
      finish i s = s.setSlot i { s.conns i with remoteAddr := r.remoteAddr, connDisconnected })
    (hfail : ¬ connected → ∀ i s, ∃ s' : Server n, finish i s = s'.freeConnSlot i ∧
      ∀ j, j ≠ i → s'.conns j = s.conns j) :
    Effect srv
      (match srv.findConnSlotAnyState r.localStr r.remoteStr with
        | some _ => srv
        | none =>
          match srv.allocConnSlot with
          | none => srv
          | some (i, srv₁) =>
            match (srv₁.fillSlot i r.localStr r.remoteStr pid (port srv₁)).openConn i r.localStr
                calls with
            | .error srv₂ => srv₂
            | .ok srv₂ => finish i srv₂)
      (some r) := by
  have hrefused : ∀ {srv'}, (¬ r.Accepted srv) → Quiet srv srv' → Effect srv srv' (some r) := by
    intro srv' hno hq
    exact .quiet (fun q hq' => Option.some.inj hq' ▸ hno) hq
  split
  · rename_i i hfind
    refine hrefused (fun hacc => ?_) (.refl srv)
    rw [Request.Accepted, hfind] at hacc
    cases hacc.1
  · rename_i hfind
    split
    · rename_i halloc
      refine hrefused (fun hacc => ?_) (.refl srv)
      obtain ⟨i, hi⟩ := hacc.2.1
      rw [allocConnSlot_none halloc i] at hi
      cases hi
    · rename_i i srv₁ halloc
      have hopen := openConn_cases halloc r.localStr r.remoteStr pid (port srv₁) calls
      split
      · rename_i srv₂ heq
        rw [heq] at hopen
        exact hrefused (fun hacc => hopen.2 (hsucceeds.mp hacc.2.2).1) hopen.1
      · rename_i srv₂ heq
        rw [heq] at hopen
        obtain ⟨hcalls, hfresh, hothers⟩ := hopen
        by_cases hconn : connected
        · have hfree := (allocConnSlot_some halloc).1
          obtain ⟨d, hfinish⟩ := hok hconn i srv₂ hfresh
          rw [hfinish]
          refine .opens ⟨hfind, ⟨i, hfree⟩, hsucceeds.mpr ⟨hcalls, hconn⟩⟩
            ⟨i, hfree, ?_, fun j hji _ => (setSlot_of_ne hji _).trans (hothers j hji)⟩
          simp only [Server.setSlot, Function.update_self]
          exact ⟨hfresh.inUse, hfresh.localAddr.trans haddr.symm, rfl, hfresh.localCall,
            hfresh.remoteCall⟩
        · obtain ⟨s', hfinish, hs'⟩ := hfail hconn i srv₂
          rw [hfinish]
          exact hrefused (fun hacc => hconn (hsucceeds.mp hacc.2.2).2)
            (Quiet.free fun j hji => (hs' j hji).trans (hothers j hji))

theorem initiateConnection_effect (srv : Server n) (frame : AgwpeFrame) (pid : Byte)
    (calls : Calls) :
    Effect srv (srv.initiateConnection frame pid calls) (some (commandRequest frame calls)) := by
  refine open_effect srv (commandRequest frame calls) pid (fun _ => frame.header.port) calls
    (fun i s =>
      if calls.connConnect ≠ .ok then
        ((s.setRemote i (commandRequest frame calls).remoteAddr).deinitConn i).freeConnSlot i
      else s.setRemote i (commandRequest frame calls).remoteAddr)
    (calls.connConnect = .ok) rfl ?_ (fun hok i s _ => ⟨false, if_neg fun hne => hne hok⟩)
    fun hfail i s => ⟨_, if_pos hfail, fun j hji => ?_⟩
  · rw [commandRequest, decide_eq_true_eq, and_assoc]
  · exact (setSlot_of_ne hji _).trans (setSlot_of_ne hji _)

theorem handleConnectVia_effect (srv : Server n) (frame : AgwpeFrame) (calls : Calls) :
    Effect srv (srv.handleConnectVia frame calls) (viaRequest frame calls) := by
  unfold Server.handleConnectVia viaRequest
  cases parseAgwpeDigipeaterPath frame.contents with
  | error err => exact .quiet (fun q hq => by cases hq) (.refl srv)
  | ok path =>
      dsimp only
      split_ifs
      · exact .quiet (fun q hq => by cases hq) (.refl srv)
      · exact initiateConnection_effect srv frame pidNone calls

/-- What the new connection makes of the SABM. -/
theorem connOnFrame_fresh {srv : Server n} {i : Fin n} {frame : Frame} {calls : Calls}
    {localStr remoteStr : List Byte} (h : Fresh (srv.conns i) localStr remoteStr)
    (htype : frame.type = .u)
    (hsabm : frame.control &&& ~~~ctrlPfBit = ctrlSabm &&& ~~~ctrlPfBit)
    (hpath : (frame.digipeaters.any fun digi => !digi.hasBeenRepeated) = false) :
    ∃ connDisconnected, srv.connOnFrame i frame calls = srv.setSlot i
      { srv.conns i with
        remoteAddr := if answers localStr frame calls then frame.source else {}
        connDisconnected } := by
  have hcontrol : (frame.control &&& 0xEF == ctrlSabm) = true :=
    beq_iff_eq.mpr (hsabm.trans (by decide))
  have htakes : srv.takesPeer i frame calls = answers localStr frame calls := by
    simp only [Server.takesPeer, h.connInitialized, h.connDisconnected, h.localAddr, htype, hpath,
      hcontrol, answers, Bool.true_and, Bool.and_true, Bool.not_false, beq_self_eq_true,
      show (FrameType.u != FrameType.ui) = true from rfl]
  unfold Server.connOnFrame
  rw [htakes]
  split_ifs
  · exact ⟨false, rfl⟩
  · refine ⟨true, ?_⟩
    rw [← h.remoteAddr, ← h.connDisconnected]
    simp only [Server.setSlot, Function.update_eq_self]

theorem acceptSabm_effect (srv : Server n) (frame : Frame) (calls : Calls)
    (htype : frame.type = .u)
    (hsabm : frame.control &&& ~~~ctrlPfBit = ctrlSabm &&& ~~~ctrlPfBit)
    (hpath : (frame.digipeaters.any fun digi => !digi.hasBeenRepeated) = false)
    (hregistered : srv.callsignRegistered = true)
    (hdst : strcaseEq ((addressToString frame.destination (agwpeCallsignLen + 1)).toOption.getD [])
      (agwpeGetCallsign srv.registeredCall) = true) :
    Effect srv (srv.acceptSabm frame calls) (some (sabmRequest srv frame calls)) := by
  unfold Server.acceptSabm
  dsimp only
  rw [if_pos hregistered, if_pos hdst]
  refine open_effect srv (sabmRequest srv frame calls) pidNone Server.port calls
    (fun i s => s.connOnFrame i frame calls) True rfl ?_
    (fun _ _ _ hfresh => connOnFrame_fresh hfresh htype hsabm hpath)
    fun hfalse => absurd trivial hfalse
  rw [sabmRequest, decide_eq_true_eq, and_true]

theorem handleDisconnect_quiet (srv : Server n) (frame : AgwpeFrame) (calls : Calls) :
    Quiet srv (srv.handleDisconnect frame calls) := by
  unfold Server.handleDisconnect
  split
  · exact .refl srv
  · split_ifs
    · exact Quiet.free fun j hji => setSlot_of_ne hji _
    · exact .refl srv

theorem callback_quiet (srv : Server n) (i : Fin n) (kind : CallbackKind) :
    Quiet srv (srv.callback i kind) := by
  cases kind with
  | onDisconnect | onError =>
      simp only [Server.callback]
      split_ifs
      · exact Quiet.free fun j hji => setSlot_of_ne hji _
      · exact .refl srv
  | onConnect | onData | onTxFrame => exact .refl srv

theorem agwpeIn_effect (srv : Server n) (frame : AgwpeFrame) (calls : Calls) :
    Effect srv (srv.agwpeIn frame calls) (srv.request (.agwpe frame calls)) := by
  have hnone : ∀ q : Request, none = some q → ¬ q.Accepted srv := fun q hq => by cases hq
  unfold Server.agwpeIn Server.request
  dsimp only
  split_ifs
  · refine Effect.sweep ?_
    generalize frame.header.dataKind = kind
    split
    · exact .quiet hnone (.refl srv)
    · exact .quiet hnone (.refl srv)
    · exact initiateConnection_effect srv frame _ calls
    · exact handleConnectVia_effect srv frame calls
    · exact initiateConnection_effect srv frame _ calls
    · exact .quiet hnone (handleDisconnect_quiet srv frame calls)
    · rename_i hC hv hc hd
      split
      · exact absurd rfl hC
      · exact absurd rfl hc
      · exact absurd rfl hv
      · exact .quiet hnone (.refl srv)
  · exact .quiet hnone (.refl srv)

theorem ax25In_effect (srv : Server n) (frame : Frame) (calls : Calls) :
    Effect srv (srv.ax25In frame calls) (srv.request (.ax25 frame calls)) := by
  have hnone : ∀ q : Request, none = some q → ¬ q.Accepted srv := fun q hq => by cases hq
  unfold Server.ax25In Server.request
  dsimp only
  by_cases hinit : srv.initialized = true
  · rw [if_pos hinit]
    refine Effect.sweep ?_
    by_cases hsabm : frame.type = .u ∧ frame.control &&& ~~~ctrlPfBit = ctrlSabm &&& ~~~ctrlPfBit
    · rw [if_pos hsabm]
      by_cases hpath : (frame.digipeaters.any fun digi => !digi.hasBeenRepeated) = true
      · rw [if_pos hpath, if_neg fun h => by rw [h.2.2.2.1] at hpath; cases hpath]
        exact .quiet hnone (.refl srv)
      · rw [if_neg hpath]
        have hpath' := Bool.eq_false_of_not_eq_true hpath
        by_cases hreg : srv.callsignRegistered = true
        · by_cases hdst : strcaseEq
              ((addressToString frame.destination (agwpeCallsignLen + 1)).toOption.getD [])
              (agwpeGetCallsign srv.registeredCall) = true
          · rw [if_pos ⟨hinit, hsabm.1, hsabm.2, hpath', hreg, hdst⟩]
            exact acceptSabm_effect srv frame calls hsabm.1 hsabm.2 hpath' hreg hdst
          · rw [if_neg fun h => hdst h.2.2.2.2.2]
            unfold Server.acceptSabm
            dsimp only
            rw [if_pos hreg, if_neg hdst]
            exact .quiet hnone (.refl srv)
        · rw [if_neg fun h => hreg h.2.2.2.2.1]
          unfold Server.acceptSabm
          dsimp only
          rw [if_neg hreg]
          exact .quiet hnone (.refl srv)
    · rw [if_neg hsabm, if_neg fun h => hsabm ⟨h.2.1, h.2.2.1⟩]
      exact .quiet hnone (.refl srv)
  · rw [if_neg hinit, if_neg fun h => hinit h.1]
    exact .quiet hnone (.refl srv)

/-- An input to a connection: that of one slot may take another peer. -/
inductive Moves (srv srv' : Server n) (e : Input n) : Prop
  | stays : srv' = srv → Moves srv srv' e
  | ends (i : Fin n) : e = .ends i → srv' = srv.connEnds i → Moves srv srv' e
  | takes (i : Fin n) (frame : Frame) (calls : Calls) : e = .conn i frame calls →
      srv.resolve i = true → srv.takesPeer i frame calls = true →
      srv' = srv.setRemote i frame.source → Moves srv srv' e

/-- **Every input has an effect of one of the two kinds.** -/
theorem input_effect (srv : Server n) (e : Input n) :
    Effect srv (srv.input e) (srv.request e) ∨
      srv.request e = none ∧ Moves srv (srv.input e) e := by
  cases e with
  | agwpe frame calls => exact .inl (agwpeIn_effect srv frame calls)
  | ax25 frame calls => exact .inl (ax25In_effect srv frame calls)
  | conn i frame calls =>
      refine .inr ⟨rfl, ?_⟩
      unfold Server.input Server.connRouterOnFrame Server.connOnFrame
      dsimp only
      split_ifs with hresolve htakes
      · exact .takes i frame calls rfl hresolve htakes rfl
      · exact .stays rfl
      · exact .stays rfl
  | ends i => exact .inr ⟨rfl, .ends i rfl rfl⟩
  | callback i kind => exact .inl (.quiet (fun q hq => by cases hq) (callback_quiet srv i kind))

/-! ### One slot for each session -/

/-- The two slots stand for the same pair of addresses. -/
def SamePair (a b : Slot) : Prop :=
  addressEquals a.localAddr b.localAddr = true ∧ addressEquals a.remoteAddr b.remoteAddr = true

instance (a b : Slot) : Decidable (SamePair a b) := inferInstanceAs (Decidable (_ ∧ _))

/-- No two slots in use stand for the same pair of addresses. -/
def OneSlot (srv : Server n) : Prop :=
  ∀ i j, i ≠ j → (srv.conns i).inUse = true → (srv.conns j).inUse = true →
    ¬ SamePair (srv.conns i) (srv.conns j)

/-- The slot stands for the addresses of the request, under another spelling. -/
def Request.OtherSpelling (r : Request) (slot : Slot) : Prop :=
  addressEquals slot.localAddr r.localAddr = true ∧
    addressEquals slot.remoteAddr r.remoteAddr = true ∧
    ¬ (strcaseEq (agwpeGetCallsign slot.localCall) r.localStr = true ∧
      strcaseEq (agwpeGetCallsign slot.remoteCall) r.remoteStr = true)

/-- The slot keeps the texts of the request, case apart. -/
def Request.Finds (r : Request) (slot : Slot) : Prop :=
  strcaseEq (agwpeGetCallsign slot.localCall) r.localStr = true ∧
    strcaseEq (agwpeGetCallsign slot.remoteCall) r.remoteStr = true

/-- No connection of a slot in use takes another peer than it had, after it has ended. -/
def KeepsPeer (srv : Server n) (e : Input n) : Prop :=
  ∀ i frame calls, e = .conn i frame calls → srv.resolve i = true →
    srv.takesPeer i frame calls = true → addressEquals frame.source (srv.conns i).remoteAddr = true

/-- **The condition.** No request that meets a free slot, and whose calls succeed, names the
addresses of a slot in use by other texts, case apart, than those that the slot keeps; and no
connection of a slot in use takes another peer than it had, after it has ended. -/
structure Proper (srv : Server n) (e : Input n) : Prop where
  request : ∀ r ∈ srv.request e, (∃ i, (srv.conns i).inUse = false) → r.succeeds = true →
    ∀ j, (srv.conns j).inUse = true → ¬ r.OtherSpelling (srv.conns j)
  peer : KeepsPeer srv e

def inputStep (srv : Server n) (e : Input n) : Option (Server n) := some (srv.input e)

/-- What the look-up does not find is not there under the texts of the request. -/
theorem findConnSlotAnyState_none {srv : Server n} {r : Request} :
    srv.findConnSlotAnyState r.localStr r.remoteStr = none ↔
      ∀ j, (srv.conns j).inUse = true → ¬ r.Finds (srv.conns j) := by
  simp [Server.findConnSlotAnyState, Request.Finds]

theorem oneSlot_init (port : Byte) : OneSlot (Server.init (n := n) port) := by
  intro i j _ hi
  cases hi

/-- A request is the only input that opens a session, and it does so for its own addresses. -/
theorem OneSlot.effect {srv srv' : Server n} {r : Option Request} (h : OneSlot srv)
    (heffect : Effect srv srv' r) (hok : ∀ q, r = some q → (∃ i, (srv.conns i).inUse = false) →
      q.succeeds = true → ∀ j, (srv.conns j).inUse = true → ¬ q.OtherSpelling (srv.conns j)) :
    OneSlot srv' := by
  cases heffect with
  | quiet _ hq =>
      intro i j hij hi hj
      have hi' := hq i hi
      have hj' := hq j hj
      rw [hi', hj']
      exact h i j hij (hi' ▸ hi) (hj' ▸ hj)
  | @opens q hacc ho =>
      obtain ⟨k, hfree, hholds, hothers⟩ := ho
      -- the new slot against one that was in use before
      have hnew : ∀ j, j ≠ k → (srv'.conns j).inUse = true →
          ¬ SamePair (srv'.conns j) (srv'.conns k) := by
        intro j hjk hj hsame
        have hj' := hothers j hjk (.inr hj)
        rw [hj'] at hj hsame
        refine hok q rfl hacc.2.1 hacc.2.2 j hj
          ⟨?_, ?_, findConnSlotAnyState_none.mp hacc.1 j hj⟩
        · rw [← hholds.localAddr]
          exact hsame.1
        · rw [← hholds.remoteAddr]
          exact hsame.2
      intro i j hij hi hj hsame
      by_cases hik : i = k
      · subst hik
        exact hnew j (Ne.symm hij) hj ⟨addressEquals_symm hsame.1, addressEquals_symm hsame.2⟩
      · by_cases hjk : j = k
        · subst hjk
          exact hnew i hik hi hsame
        · have hi' := hothers i hik (.inr hi)
          have hj' := hothers j hjk (.inr hj)
          rw [hi', hj'] at hsame
          exact h i j hij (hi' ▸ hi) (hj' ▸ hj) hsame

/-- A slot that keeps its pair of addresses. -/
theorem OneSlot.setSlot {srv : Server n} {k : Fin n} {slot : Slot} (h : OneSlot srv)
    (huse : slot.inUse = (srv.conns k).inUse) (hpair : SamePair slot (srv.conns k)) :
    OneSlot (srv.setSlot k slot) := by
  have hslot : ∀ i, ((srv.setSlot k slot).conns i).inUse = (srv.conns i).inUse ∧
      SamePair ((srv.setSlot k slot).conns i) (srv.conns i) := by
    intro i
    by_cases hik : i = k
    · subst hik
      simp only [Server.setSlot, Function.update_self]
      exact ⟨huse, hpair⟩
    · rw [setSlot_of_ne hik]
      exact ⟨rfl, addressEquals_refl _, addressEquals_refl _⟩
  intro i j hij hi hj hsame
  obtain ⟨hui, hli, hri⟩ := hslot i
  obtain ⟨huj, hlj, hrj⟩ := hslot j
  refine h i j hij (hui ▸ hi) (huj ▸ hj) ⟨?_, ?_⟩
  · exact addressEquals_trans (addressEquals_symm hli) (addressEquals_trans hsame.1 hlj)
  · exact addressEquals_trans (addressEquals_symm hri) (addressEquals_trans hsame.2 hrj)

theorem oneSlot_input {srv : Server n} {e : Input n} (h : OneSlot srv) (hok : Proper srv e) :
    OneSlot (srv.input e) := by
  rcases input_effect srv e with heffect | ⟨-, hmoves⟩
  · exact h.effect heffect hok.request
  · cases hmoves with
    | stays heq => rwa [heq]
    | ends i _ heq =>
        rw [heq]
        exact h.setSlot rfl ⟨addressEquals_refl _, addressEquals_refl _⟩
    | takes i frame calls he hresolve htakes heq =>
        rw [heq]
        exact h.setSlot rfl ⟨addressEquals_refl _, hok.peer i frame calls he hresolve htakes⟩

/-- A request in another spelling opens a second session. -/
theorem not_oneSlot_request {srv : Server n} {e : Input n} {r : Request}
    (hr : srv.request e = some r) (hfree : ∃ i, (srv.conns i).inUse = false)
    (hsucceeds : r.succeeds = true) {j : Fin n} (hj : (srv.conns j).inUse = true)
    (hother : r.OtherSpelling (srv.conns j))
    (hfind : ∀ k, (srv.conns k).inUse = true → ¬ r.Finds (srv.conns k)) :
    ¬ OneSlot (srv.input e) := by
  obtain ⟨hlocal, hremote, -⟩ := hother
  have hacc : r.Accepted srv := ⟨findConnSlotAnyState_none.mpr hfind, hfree, hsucceeds⟩
  rcases input_effect srv e with heffect | ⟨hnone, -⟩
  · rw [hr] at heffect
    intro hone
    cases heffect with
    | quiet hrefused _ => exact hrefused r rfl hacc
    | opens _ ho =>
        obtain ⟨k, hfree, hholds, hothers⟩ := ho
        have hjk : j ≠ k := by
          intro heq
          subst heq
          rw [hfree] at hj
          cases hj
        have hj' := hothers j hjk (.inl hj)
        refine hone j k hjk (hj' ▸ hj) hholds.inUse ⟨?_, ?_⟩
        · rw [hj', hholds.localAddr]
          exact hlocal
        · rw [hj', hholds.remoteAddr]
          exact hremote
  · rw [hr] at hnone
    cases hnone

/-- A connection that takes the peer of another slot stands for its session. -/
theorem not_oneSlot_takes {srv : Server n} {i j : Fin n} {frame : Frame} {calls : Calls}
    (hresolve : srv.resolve i = true) (htakes : srv.takesPeer i frame calls = true) (hij : i ≠ j)
    (hj : (srv.conns j).inUse = true)
    (hlocal : addressEquals (srv.conns i).localAddr (srv.conns j).localAddr = true)
    (hremote : addressEquals frame.source (srv.conns j).remoteAddr = true) :
    ¬ OneSlot (srv.input (.conn i frame calls)) := by
  have hi : (srv.conns i).inUse = true := by
    simp only [Server.resolve, Bool.and_eq_true] at hresolve
    exact hresolve.1.2
  have heq : srv.input (.conn i frame calls) = srv.setRemote i frame.source := by
    simp only [Server.input, Server.connRouterOnFrame, Server.connOnFrame, hresolve, htakes,
      if_true]
  have hslot : (srv.setRemote i frame.source).conns i =
      { srv.conns i with remoteAddr := frame.source, connDisconnected := false } := by
    simp only [Server.setRemote, Server.setSlot, Function.update_self]
  have hother : (srv.setRemote i frame.source).conns j = srv.conns j := setSlot_of_ne hij.symm _
  rw [heq]
  intro hone
  refine hone i j hij ?_ (by rwa [hother]) ?_
  · rw [hslot]
    exact hi
  · rw [hslot, hother]
    exact ⟨hlocal, hremote⟩

/-- **One slot for each session, but for other spellings and other peers.** In every run in which no
request names the addresses of a slot in use under other texts, and no connection that has ended
takes another peer, no two slots in use stand for the same pair of addresses. A request under other
texts makes two that do, if a slot is free, its calls succeed and no slot keeps its texts; and so
does a connection that takes the peer of another slot. -/
theorem one_slot_per_session_exact :
    (∀ srv : Server n, Reach (fun s => ∃ port, s = Server.init port) inputStep Proper srv →
      OneSlot srv) ∧
    ∀ srv : Server n, Reach (fun s => ∃ port, s = Server.init port) inputStep Always srv →
      (∀ (e : Input n) (r : Request) (j : Fin n), srv.request e = some r →
        (∃ i, (srv.conns i).inUse = false) → r.succeeds = true → (srv.conns j).inUse = true →
        r.OtherSpelling (srv.conns j) →
        (∀ k, (srv.conns k).inUse = true → ¬ r.Finds (srv.conns k)) → ¬ OneSlot (srv.input e)) ∧
      ∀ (i j : Fin n) (frame : Frame) (calls : Calls), srv.resolve i = true →
        srv.takesPeer i frame calls = true → i ≠ j → (srv.conns j).inUse = true →
        addressEquals (srv.conns i).localAddr (srv.conns j).localAddr = true →
        addressEquals frame.source (srv.conns j).remoteAddr = true →
        ¬ OneSlot (srv.input (.conn i frame calls)) := by
  refine ⟨fun srv h => ?_, fun srv _ =>
    ⟨fun e r j hr hfree hsucceeds hj hother hfind =>
      not_oneSlot_request hr hfree hsucceeds hj hother hfind,
    fun i j frame calls hresolve htakes hij hj hlocal hremote =>
      not_oneSlot_takes hresolve htakes hij hj hlocal hremote⟩⟩
  refine h.invariant (fun s hs => ?_) fun s e s' hs hok hstep => ?_
  · obtain ⟨port, rfl⟩ := hs
    exact oneSlot_init port
  · cases hstep
    exact oneSlot_input hs hok

/-- A connects to B. -/
def pendingSession : Server 2 := (Server.init 0).input (.agwpe (connectFrame [0x41] [0x42]) allOk)

/-- A connects to B-0. -/
def connectAgain : Input 2 := .agwpe (connectFrame [0x41] [0x42, 0x2D, 0x30]) allOk

theorem reach_pendingSession {ok : Server 2 → Input 2 → Prop}
    (hok : ok (Server.init 0) (.agwpe (connectFrame [0x41] [0x42]) allOk)) :
    Reach (fun s => ∃ port, s = Server.init port) inputStep ok pendingSession :=
  .next _ (.start ⟨0, rfl⟩) hok rfl

/-- B and B-0 are one station, with two slots. -/
theorem two_slots_for_one_session :
    ¬ ∀ (n : Nat) (srv : Server n),
      Reach (fun s => ∃ port, s = Server.init port) inputStep Always srv → OneSlot srv := by
  intro hall
  have hone := hall 2 (pendingSession.input connectAgain)
    (.next connectAgain (reach_pendingSession trivial) trivial rfl)
  exact hone 0 1 (by decide) (by decide +kernel) (by decide +kernel)
    ⟨by decide +kernel, by decide +kernel⟩

/-- A SABM from a station to a callsign, as it is heard. -/
def sabmFrame (source destination : List Byte) : Frame :=
  { destination := { callsign := destination }, source := { callsign := source }, digipeaters := []
    control := ctrlSabm, pid := 0, payload := [], type := .u, isCommand := true }

/-- The callsign B is registered. A calls it, but sends b, and the connection of its slot `i`
ignores that; then C calls it. -/
def secondCaller {n : Nat} (i : Fin n) : List (Input n) :=
  [.agwpe { connectFrame [0x42] [] with header := { (connectFrame [0x42] []).header with
      dataKind := 0x58 } } allOk,
    .ax25 (sabmFrame [0x41] [0x62]) allOk, .ax25 (sabmFrame [0x43] [0x42]) allOk,
    .conn i (sabmFrame [0x43] [0x42]) allOk]

/-- The callsign A is registered, and A has a session with B that has ended. C calls A before its
slot `i` is free. -/
def newCaller {n : Nat} (i : Fin n) : List (Input n) :=
  [.agwpe { connectFrame [0x41] [] with header := { (connectFrame [0x41] []).header with
      dataKind := 0x58 } } allOk,
    .agwpe (connectFrame [0x41] [0x42]) allOk, .ends i, .ax25 (sabmFrame [0x43] [0x41]) allOk,
    .conn i (sabmFrame [0x43] [0x41]) allOk]

/-- One caller, two slots: the connection of the first slot hears the SABM as well. -/
theorem two_slots_for_one_caller : ∀ run ∈ [secondCaller 0, newCaller 0], ∃ srv : Server 2,
    replay inputStep Always (Server.init 0) run = some srv ∧ ¬ OneSlot srv := by
  have hruns : ∀ run ∈ [secondCaller 0, newCaller 0],
      (replay inputStep Always (Server.init (n := 2) 0) run).map
        (fun srv => ((srv.conns 0).inUse, (srv.conns 1).inUse,
          decide (SamePair (srv.conns 0) (srv.conns 1)))) = some (true, true, true) := by
    decide +kernel
  intro run hrun
  obtain ⟨srv, hreplay, hfacts⟩ := Option.map_eq_some_iff.mp (hruns run hrun)
  simp only [Prod.mk.injEq, decide_eq_true_eq] at hfacts
  exact ⟨srv, hreplay, fun hone => hone 0 1 (by decide) hfacts.1 hfacts.2.1 hfacts.2.2⟩

theorem one_slot_per_session_exact_pending :
    OneSlot pendingSession ∧ ¬ OneSlot (pendingSession.input connectAgain) := by
  refine ⟨one_slot_per_session_exact.1 _ (reach_pendingSession
    ⟨fun _ _ _ _ _ hj => (by cases hj), fun _ _ _ he => (by cases he)⟩), ?_⟩
  refine (one_slot_per_session_exact.2 _ (reach_pendingSession trivial)).1 connectAgain
    (commandRequest (connectFrame [0x41] [0x42, 0x2D, 0x30]) allOk) 0 rfl ⟨1, by decide +kernel⟩
    (by decide +kernel) (by decide +kernel)
    ⟨by decide +kernel, by decide +kernel, by decide +kernel⟩ ?_
  exact findConnSlotAnyState_none.mp (by decide +kernel)

/-! ### One spelling -/

/-- The text of an address, as `ax25_address_to_string` prints it. -/
def addressText (addr : Address) : List Byte :=
  (addressToString addr (agwpeCallsignLen + 1)).toOption.getD []

/-- The text of an address, case apart, that fits in a field. -/
structure Spells (text : List Byte) (addr : Address) : Prop where
  sameText : strcaseEq text (addressText addr) = true
  length : text.length < agwpeCallsignLen
  noNul : 0 ∉ text

/-- A request that spells both callsigns as `ax25_address_to_string` does. -/
structure Request.Spelled (r : Request) : Prop where
  localStr : Spells r.localStr r.localAddr
  remoteStr : Spells r.remoteStr r.remoteAddr

theorem addressText_congr {addr addr' : Address} (h : addressEquals addr addr' = true) :
    addressText addr = addressText addr' := by
  obtain ⟨hcall, hssid⟩ := addressEquals_iff.mp h
  rw [addressText, addressText, addressToString, addressToString, hcall, hssid]

/-- Two spelled texts of one address are the same, case apart. -/
theorem Spells.strcaseEq {text text' : List Byte} {addr addr' : Address} (h : Spells text addr)
    (h' : Spells text' addr') (heq : addressEquals addr addr' = true) :
    strcaseEq (agwpeGetCallsign (agwpeSetCallsign text)) text' = true := by
  rw [agwpeGetCallsign_set h.length h.noNul]
  have h₁ := beq_iff_eq.mp h.sameText
  have h₂ := beq_iff_eq.mp h'.sameText
  exact beq_iff_eq.mpr ((h₁.trans (congrArg _ (addressText_congr heq))).trans h₂.symm)

/-- The slots in use hold sessions of spelled requests. -/
def SlotsSpelled (srv : Server n) : Prop :=
  ∀ i, (srv.conns i).inUse = true → ∃ r : Request, r.Holds (srv.conns i) ∧ r.Spelled

theorem slotsSpelled_input {srv : Server n} {e : Input n} (h : SlotsSpelled srv)
    (hspelled : ∀ r ∈ srv.request e, r.Spelled) (hpeer : KeepsPeer srv e) :
    SlotsSpelled (srv.input e) := by
  have hmoved : ∀ (i : Fin n) (slot : Slot), slot.localCall = (srv.conns i).localCall →
      slot.remoteCall = (srv.conns i).remoteCall → slot.inUse = (srv.conns i).inUse →
      slot.localAddr = (srv.conns i).localAddr →
      addressEquals slot.remoteAddr (srv.conns i).remoteAddr = true →
      SlotsSpelled (srv.setSlot i slot) := by
    intro i slot hlcall hrcall huse hlocal hremote j hj
    by_cases hji : j = i
    · subst hji
      simp only [Server.setSlot, Function.update_self] at hj ⊢
      obtain ⟨r, hholds, hr⟩ := h j (huse ▸ hj)
      refine ⟨{ r with remoteAddr := slot.remoteAddr }, ⟨hj, hlocal.trans hholds.localAddr, rfl,
        hlcall.trans hholds.localCall, hrcall.trans hholds.remoteCall⟩, hr.localStr, ?_⟩
      rw [hholds.remoteAddr] at hremote
      exact ⟨by rw [addressText_congr hremote]; exact hr.remoteStr.sameText, hr.remoteStr.length,
        hr.remoteStr.noNul⟩
    · rw [setSlot_of_ne hji] at hj ⊢
      exact h j hj
  rcases input_effect srv e with heffect | ⟨-, hmoves⟩
  · generalize srv.input e = srv' at heffect
    generalize hr : srv.request e = r at heffect
    cases heffect with
    | quiet _ hq =>
        intro i hi
        have hi' := hq i hi
        rw [hi'] at hi ⊢
        exact h i hi
    | @opens q _ ho =>
        obtain ⟨k, -, hholds, hothers⟩ := ho
        intro i hi
        by_cases hik : i = k
        · subst hik
          exact ⟨q, hholds, hspelled q hr⟩
        · have hi' := hothers i hik (.inr hi)
          rw [hi'] at hi ⊢
          exact h i hi
  · cases hmoves with
    | stays heq => rwa [heq]
    | ends i _ heq =>
        rw [heq]
        exact hmoved i _ rfl rfl rfl rfl (addressEquals_refl _)
    | takes i frame calls he hresolve htakes heq =>
        rw [heq]
        exact hmoved i _ rfl rfl rfl rfl (hpeer i frame calls he hresolve htakes)

/-- No spelled request is another spelling of one. -/
theorem proper_of_spelled {srv : Server n} {e : Input n} (h : SlotsSpelled srv)
    (hspelled : ∀ r ∈ srv.request e, r.Spelled) (hpeer : KeepsPeer srv e) : Proper srv e := by
  refine ⟨fun r hr _ _ j hj hother => ?_, hpeer⟩
  obtain ⟨hlocal, hremote, hdiffer⟩ := hother
  obtain ⟨q, hholds, hq⟩ := h j hj
  rw [hholds.localAddr] at hlocal
  rw [hholds.remoteAddr] at hremote
  rw [hholds.localCall, hholds.remoteCall] at hdiffer
  exact hdiffer ⟨hq.localStr.strcaseEq (hspelled r hr).localStr hlocal,
    hq.remoteStr.strcaseEq (hspelled r hr).remoteStr hremote⟩

/-- **One spelling, one slot.** While all requests spell their callsigns as
`ax25_address_to_string` does, and no connection that has ended takes another peer, no two slots in
use stand for the same pair of addresses. -/
theorem one_slot_when_spelled {srv : Server n}
    (h : Reach (fun s => ∃ port, s = Server.init port) inputStep
      (fun s e => (∀ r ∈ s.request e, r.Spelled) ∧ KeepsPeer s e) srv) : OneSlot srv := by
  have hinv : OneSlot srv ∧ SlotsSpelled srv := by
    refine h.invariant (I := fun s => OneSlot s ∧ SlotsSpelled s) (fun s hs => ?_)
      fun s e s' hs hok hstep => ?_
    · obtain ⟨port, rfl⟩ := hs
      exact ⟨oneSlot_init port, fun i hi => by cases hi⟩
    · cases hstep
      exact ⟨oneSlot_input hs.1 (proper_of_spelled hs.2 hok.1 hok.2),
        slotsSpelled_input hs.2 hok.1 hok.2⟩
  exact hinv.1

end EspAx25.Sessions
