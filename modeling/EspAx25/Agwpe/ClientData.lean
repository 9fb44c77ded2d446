import EspAx25.Agwpe.Unproto
import EspAx25.Conn.Concurrent
import EspAx25.Transition

/-!
# EspAx25.Agwpe.ClientData

What a client hands over for transmission: `handle_send_data`, `handle_send_unproto` and
`handle_send_unproto_via` (`ax25_agwpe_server.c`).

* A session (`ClientSession`) is an established connection, which may do whatever a
  connection does, and the client of it. `find_conn_slot` finds connections that are
  established only, so a 'D' frame is a step of a session while its connection is.
* An AGWPE frame holds up to 512 bytes, an AX.25 frame up to 256. The unproto handlers cut
  what is longer; `ax25_conn_send_data` refuses it, as it refuses everything while the window
  is full, and `handle_send_data` only logs that (`client_data_kept_exact`).
-/

namespace EspAx25

open Transition Conn Locked

/-! ### The handlers -/

/-- `handle_send_data`, for the connection of the slot that it has found: the connection, and
the frames for the client. An error is logged and nothing else. -/
def handleSendData (link : Sys) (frame : AgwpeFrame) (heap : Bool) : Sys × List AgwpeFrame :=
  (link.step (.call (.sendData frame.contents) heap), [])

/-- The data of an unproto frame that are payload: all of a 'M' frame, and what is behind the
path in a 'V' frame. -/
def unprotoPayload (frame : AgwpeFrame) : List Byte :=
  if frame.header.dataKind = agwpeKindSendUnproto then frame.contents
  else
    match parseAgwpeDigipeaterPath frame.contents with
    | .error _ => []
    | .ok (_, consumed) => frame.contents.drop consumed

/-! ### Sessions -/

/-- A connection and its client. -/
structure ClientSession where
  link : Sys
  /-- The data of all 'D' frames so far. -/
  sent : List Byte := []
  /-- The data that `ax25_conn_send_data` has accepted. -/
  accepted : List Byte := []
  /-- What `handle_send_data` has sent to the client. -/
  replies : List AgwpeFrame := []
  /-- The 'M' and 'V' frames so far, and what has been routed for them. -/
  unproto : List (AgwpeFrame × Option Frame) := []

/-- What can happen. -/
inductive ClientInput
  /-- A 'D' frame. `heap` is what the allocator answers if the deferred pool is exhausted. -/
  | data (frame : AgwpeFrame) (heap : Bool)
  /-- A 'M' or a 'V' frame. -/
  | unproto (frame : AgwpeFrame)
  /-- Anything else that happens to the connection. -/
  | link (move : Move)

/-- The move hands a payload to the connection. -/
def Move.SendsData : Move → Prop
  | .call (.sendData _) _ => True
  | _ => False

instance : DecidablePred Move.SendsData := fun m => by
  unfold Move.SendsData
  split
  · exact inferInstanceAs (Decidable True)
  · exact inferInstanceAs (Decidable False)

namespace ClientSession

def step (s : ClientSession) : ClientInput → Option ClientSession
  | .data frame heap =>
    if s.link.conn.Linked then
      let outcome := ((Op.sendData frame.contents).call heap s.link.conn).outcome
      let handled := handleSendData s.link frame heap
      some
        { s with
          link := handled.1
          sent := s.sent ++ frame.contents
          accepted := s.accepted ++ if outcome = .returned .ok then frame.contents else []
          replies := s.replies ++ handled.2 }
    else none
  | .unproto frame => some { s with unproto := s.unproto ++ [(frame, handleUnproto frame)] }
  | .link move => if move.SendsData then none else some { s with link := s.link.step move }

/-- Any connection, and a client that has sent nothing yet. -/
structure Starts (s : ClientSession) : Prop where
  link : s.link.Reachable
  sent : s.sent = []
  accepted : s.accepted = []
  replies : s.replies = []
  unproto : s.unproto = []

/-- Nothing has been lost in silence: the connection has accepted all data, or the client
has been told; and what has been routed has its whole payload. -/
structure Kept (s : ClientSession) : Prop where
  data : s.accepted = s.sent ∨ s.replies ≠ []
  unproto : ∀ u ∈ s.unproto, ∀ r, u.2 = some r → r.payload = unprotoPayload u.1

/-- The data are accepted: there are none, or they fit in a frame, there is room in the
window, and a buffer for the call. -/
def Accepts (s : ClientSession) : ClientInput → Prop
  | .data frame heap =>
    frame.contents = [] ∨
      (frame.contents.length ≤ maxInfoLen ∧
        s.link.conn.outstandingFrames < s.link.conn.config.windowSize.toNat ∧
        s.link.conn.acquireDeferred heap ≠ none)
  | .unproto frame =>
    (handleUnproto frame).isSome = true → (unprotoPayload frame).length ≤ maxInfoLen
  | .link _ => True

end ClientSession

/-! ### One frame -/

/-- `ax25_conn_send_data` of a link accepts a payload, or the window is full. -/
theorem WindowInv.sendData_result {c : Conn} (h : WindowInv c) (hl : c.Linked)
    (data : List Byte) : (sendData ⟨c, []⟩ data).2 =
      if c.outstandingFrames < c.config.windowSize.toNat then .ok else .noMem := by
  have hst : ¬ (c.state ≠ .connected ∧ c.state ≠ .timerRecovery) := by
    rcases hl with hl | hl <;> simp [hl]
  by_cases hroom : c.outstandingFrames < c.config.windowSize.toNat
  · have hq : c.queueIFrame data = (c.queued data, .ok) := by
      unfold queueIFrame
      rw [if_neg (Nat.not_le.mpr hroom), if_neg (by simp [h.room])]
      rfl
    have hsend := sendPendingIFrames_eq (s := ⟨c.queued data, []⟩) h.va_lt (mod8_lt _)
      (Nat.zero_le 5)
    rw [if_pos hroom, sendData, if_neg hst, hq]
    dsimp only
    rw [hsend]
  · have hq : c.queueIFrame data = (c, .noMem) := by
      unfold queueIFrame
      rw [if_pos (Nat.not_lt.mp hroom)]
    rw [if_neg hroom, sendData, if_neg hst, hq]

/-- When a call of `ax25_conn_send_data` succeeds. -/
theorem WindowInv.sendData_call_ok {c : Conn} (h : WindowInv c) (hi : c.initialized = true)
    (hl : c.Linked) (data : List Byte) (heap : Bool) :
    ((Op.sendData data).call heap c).outcome = .returned .ok ↔
      data ≠ [] ∧ data.length ≤ maxInfoLen ∧
        c.outstandingFrames < c.config.windowSize.toNat ∧ c.acquireDeferred heap ≠ none := by
  by_cases hnil : data = []
  · subst hnil
    have hpre : (Op.sendData []).precheck c = some .invalidArg := by simp [Op.precheck]
    simp [Op.call, Op.consumeExpiry, hpre, Call.early]
  by_cases hlong : data.length ≤ maxInfoLen
  · have hpre : (Op.sendData data).precheck c = none := by
      simp [Op.precheck, hi, hnil, Nat.not_lt.mpr hlong]
    simp only [Op.call, Op.consumeExpiry, hpre, Conn.locked]
    cases ha : c.acquireDeferred heap with
    | none => simp [Call.early, Op.noMemResult]
    | some r =>
        obtain ⟨b, c₀⟩ := r
        obtain ⟨p, t1, t2, t3, r, rfl⟩ := minor_acquireDeferred ha
        have hresult := (Minor.window ⟨p, t1, t2, t3, r, rfl⟩ h).sendData_result (by exact hl) data
        dsimp only [Op.body, outstandingFrames] at hresult ⊢
        rw [hresult]
        split_ifs with hroom
        · simp [hnil, hlong, hroom]
        · simp [hroom]
  · have hpre : (Op.sendData data).precheck c = some .invalidSize := by
      simp [Op.precheck, hi, hnil, Nat.lt_of_not_le hlong]
    simp [Op.call, Op.consumeExpiry, hpre, Call.early, hlong]

/-- An unproto frame is routed with the first 256 bytes of its payload. -/
theorem handleUnproto_payload {g : AgwpeFrame} {r : Frame} (h : handleUnproto g = some r) :
    r.payload = (unprotoPayload g).take maxInfoLen := by
  unfold handleUnproto at h
  unfold unprotoPayload
  split_ifs at h with hm hv
  · rw [if_pos hm, ← Option.some.inj h]
    rfl
  · rw [if_neg hm]
    unfold handleSendUnprotoVia at h
    split_ifs at h
    cases hpath : parseAgwpeDigipeaterPath g.contents with
    | error err =>
        rw [hpath] at h
        cases h
    | ok path =>
        obtain ⟨digipeaters, consumed⟩ := path
        rw [hpath] at h
        rw [← Option.some.inj h]

/-- It is routed with its whole payload if that is no longer. -/
theorem handleUnproto_whole {g : AgwpeFrame} {r : Frame} (h : handleUnproto g = some r) :
    r.payload = unprotoPayload g ↔ (unprotoPayload g).length ≤ maxInfoLen := by
  rw [handleUnproto_payload h, List.take_eq_self_iff]

/-! ### Sessions, step by step -/

namespace ClientSession

variable {s s' : ClientSession} {e : ClientInput}

/-- What every session keeps: it has a connection, accepts at most what has been sent, and the
client hears nothing. -/
structure Inv (s : ClientSession) : Prop where
  link : s.link.Reachable
  accepted : s.accepted.length ≤ s.sent.length
  replies : s.replies = []

/-- A step. -/
theorem step_cases (h : s.Inv) (hstep : s.step e = some s') :
    (∃ frame heap a, e = .data frame heap ∧
        s' = { s with
          link := s.link.step (.call (.sendData frame.contents) heap)
          sent := s.sent ++ frame.contents
          accepted := s.accepted ++ a } ∧
        ((s.Accepts e ∧ a = frame.contents) ∨
          (¬ s.Accepts e ∧ a = [] ∧ 0 < frame.contents.length))) ∨
      (∃ frame, e = .unproto frame ∧
        s' = { s with unproto := s.unproto ++ [(frame, handleUnproto frame)] }) ∨
      ∃ move, e = .link move ∧ s' = { s with link := s.link.step move } := by
  cases e with
  | data frame heap =>
      rw [step] at hstep
      split_ifs at hstep with hl
      have hinv := h.link.sysInv
      have hok := hinv.window.sendData_call_ok hinv.initialized hl frame.contents heap
      refine .inl ⟨frame, heap, if ((Op.sendData frame.contents).call heap s.link.conn).outcome =
        .returned .ok then frame.contents else [], rfl, ?_, ?_⟩
      · rw [← Option.some.inj hstep]
        simp only [handleSendData, List.append_nil]
      · by_cases hnil : frame.contents = []
        · refine .inl ⟨.inl hnil, ?_⟩
          rw [hnil]
          split_ifs <;> rfl
        · have hiff : s.Accepts (.data frame heap) ↔
              ((Op.sendData frame.contents).call heap s.link.conn).outcome = .returned .ok := by
            rw [hok, Accepts]
            simp [hnil]
          by_cases hacc : s.Accepts (.data frame heap)
          · exact .inl ⟨hacc, if_pos (hiff.mp hacc)⟩
          · exact .inr ⟨hacc, if_neg fun hr => hacc (hiff.mpr hr), List.length_pos_of_ne_nil hnil⟩
  | unproto frame => exact .inr (.inl ⟨frame, rfl, (Option.some.inj hstep).symm⟩)
  | link move =>
      rw [step] at hstep
      split_ifs at hstep
      exact .inr (.inr ⟨move, rfl, (Option.some.inj hstep).symm⟩)

/-- A step that is accepted loses nothing. -/
theorem kept_step (h : s.Inv) (hk : s.Kept) (hacc : s.Accepts e) (hstep : s.step e = some s') :
    s'.Kept := by
  have hdata : s.accepted = s.sent := hk.data.resolve_right fun hne => hne h.replies
  obtain ⟨frame, heap, a, rfl, rfl, ha⟩ | ⟨frame, rfl, rfl⟩ | ⟨move, rfl, rfl⟩ := step_cases h hstep
  · obtain ⟨-, rfl⟩ | ⟨hno, -, -⟩ := ha
    · exact ⟨.inl (congrArg (· ++ frame.contents) hdata), hk.unproto⟩
    · exact absurd hacc hno
  · refine ⟨hk.data, fun u hu r hr => ?_⟩
    rcases List.mem_append.mp hu with hu | hu
    · exact hk.unproto u hu r hr
    · rw [List.mem_singleton.mp hu] at hr ⊢
      exact (handleUnproto_whole hr).mpr (hacc (Option.isSome_of_eq_some hr))
  · exact ⟨hk.data, hk.unproto⟩

/-- Something has been lost. -/
def Lost (s : ClientSession) : Prop :=
  s.accepted.length < s.sent.length ∨
    ∃ u ∈ s.unproto, ∃ r, u.2 = some r ∧ r.payload ≠ unprotoPayload u.1

/-- What is lost stays lost. -/
theorem Lost.step (hlost : s.Lost) (h : s.Inv) (hstep : s.step e = some s') : s'.Lost := by
  obtain ⟨frame, heap, a, -, rfl, ha⟩ | ⟨frame, -, rfl⟩ | ⟨move, -, rfl⟩ := step_cases h hstep
  · refine hlost.imp_left fun hlen => ?_
    simp only [List.length_append]
    obtain ⟨-, rfl⟩ | ⟨-, rfl, hpos⟩ := ha
    · omega
    · rw [List.length_nil]
      omega
  · refine hlost.imp_right fun ⟨u, hu, hr⟩ => ?_
    exact ⟨u, List.mem_append_left _ hu, hr⟩
  · exact hlost

theorem Starts.inv (h : s.Starts) : s.Inv :=
  ⟨h.link, by rw [h.accepted, h.sent], h.replies⟩

theorem Starts.kept (h : s.Starts) : s.Kept :=
  ⟨.inl (h.accepted.trans h.sent.symm), fun u hu => by rw [h.unproto] at hu; cases hu⟩

end ClientSession

end EspAx25
