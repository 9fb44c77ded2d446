import EspAx25.Agwpe.Convert
import EspAx25.KissDriver
import EspAx25.TcpClient.Streams

/-!
# EspAx25.TcpClient.Peers

The KISS client and the AGWPE client, and what the peer of one receives.

Both protocols are framings of `EspAx25.Framing`, so a peer that has read the first bytes of a
socket has found the frames whose last byte is among them.

Main results:

* `kiss_peer_receives`: the frames that a KISS client sends on a socket, and those that a decoder
  at the other end finds.
* `agwpe_peer_receives`: the same for the AGWPE client.
-/

namespace EspAx25

open Memory TcpClient Transducer Transition

/-! ### KISS -/

/-- `ax25_phy_kiss_tcp_client.c`. -/
def kissTcpClient : Protocol Frame Frame KissDecoder where
  encode := kissFrameEncode
  decoder := kissDecoderInit true
  process := fun d b => ((d.processByte b).1, (d.processByte b).2.filterMap kissFrameCb)
  reset := KissDecoder.reset
  wired := fun d => d.callback = true
  wired_decoder := rfl
  wired_process := fun d b hd => (d.processByte_callback b).trans hd
  wired_reset := fun _ hd => hd
  reset_fresh := by
    intro d bs hd
    obtain ⟨state, escaped, port, command, frameBuf, callback⟩ := d
    cases hd
    rfl

/-- The client connects, and a task sends a frame; the tx task goes as far as the look at `sock`. -/
def sampleRun {φ : Type} (frame : φ) : List (TcpClient.Op Unit φ) :=
  [.rxLoop, .connect true, .publish, .resetDecoder, .call () frame, .check (), .enqueue (), .txLoop,
    .txReceive, .txCheck, .txLock]

theorem client_streams_kiss :
    ∃ s : Client Unit Frame Frame KissDecoder, s.accepted = [sampleUiFrame] ∧
      s.sent 0 = s.stream kissTcpClient 0 ∧ s.turns.map Prod.fst = s.accepted := by
  have hrun : (replay (step kissTcpClient 8) Reliable (Client.init kissTcpClient)
      (sampleRun sampleUiFrame ++ [.txSend 6, .txSend 14, .txUnlock])).map
        (fun s => ((s.accepted, s.failed 0, s.running), s.txTask, s.queue)) =
          some (([sampleUiFrame], false, true), .loop, []) := by decide +kernel
  obtain ⟨s, hs, htuple⟩ := Option.map_eq_some_iff.mp hrun
  simp only [Prod.mk.injEq] at htuple
  obtain ⟨⟨haccepted, hfailed, hrunning⟩, htask, hqueue⟩ := htuple
  obtain ⟨horder, -, hsent, -⟩ := client_streams kissTcpClient 8 s (Reach.replay (.start rfl) hs)
  refine ⟨s, haccepted, (hsent 0).2 hfailed hrunning fun hbusy => ?_, ?_⟩
  · rw [Client.Sending, htask] at hbusy
    cases hbusy.1
  · rw [htask, hqueue] at horder
    rw [← horder]
    exact (List.append_nil _).symm

/-- The frames of a KISS client, as its encoder writes them. -/
theorem kissTcpClient_framing :
    Framing KissDecoder.processByte (fun d => d.state = .waitFend ∧ d.callback = true)
      (fun f => (kissFrameEncode f).isSome = true) kissTcpClient.bytes
      (fun f => ⟨0, 0, (frameBuild f).2⟩) := by
  have hbytes : ∀ f, (kissFrameEncode f).isSome = true →
      (1 ≤ (frameBuild f).2.length ∧ (frameBuild f).2.length ≤ bufferSize) ∧
        kissTcpClient.bytes f = kissEncoded 0 0 (frameBuild f).2 := by
    intro f hf
    obtain ⟨raw, hbuild, henc⟩ := kissFrameEncode_isSome hf
    have hencode : kissTcpClient.encode f = some (kissEncoded 0 0 raw) := henc
    rw [hbuild]
    exact ⟨frameBuild_length hbuild, by rw [Protocol.bytes, hencode]; rfl⟩
  refine ⟨fun d f hd hf => ?_, fun d f p hd hf hp hne => ?_⟩
  · obtain ⟨hlen, heq⟩ := hbytes f hf
    rw [heq]
    exact KissDecoder.kiss_framing.whole d _ hd hlen
  · obtain ⟨hlen, heq⟩ := hbytes f hf
    rw [heq] at hp hne
    exact KissDecoder.kiss_framing.part d _ p hd hlen hp hne

section Clients

variable {τ φ ψ δ : Type} {P : Protocol φ ψ δ} {s : Client τ φ ψ δ}

/-- A frame that had its turn was accepted, and has been encoded. -/
theorem encoded_of_turn (h : ClientOk P s) {n : Nat} {f : φ} (hf : f ∈ s.turnsOn n) :
    f ∈ s.accepted ∧ (P.encode f).isSome = true := by
  have hturn := mem_turns_of_turnsOn hf
  refine ⟨?_, h.ordered.encoded _ hturn⟩
  rw [← h.ordered.order]
  exact List.mem_append_left _ (List.mem_map_of_mem hturn)

/-- **What the peer of a socket has found** in the bytes that it has read, if the protocol is a
framing: the frames that have arrived as a whole, and they are all that were sent once all bytes
of all of them have arrived. -/
theorem peer_finds {σ ο : Type} {machine : σ → Byte → σ × List ο} {ready : σ → Prop}
    {valid : φ → Prop} {emit : φ → ο} (hframing : Framing machine ready valid P.bytes emit)
    (h : ClientOk P s) {n : Nat} (hvalid : ∀ f ∈ s.turnsOn n, valid f) {d : σ} (hd : ready d)
    {bytes : List Byte} (hbytes : bytes <+: s.sent n) :
    ∃ k ≤ (s.turnsOn n).length, (run machine d bytes).2 = ((s.turnsOn n).take k).map emit ∧
      ((s.turnsOn n).take k).flatMap P.bytes <+: bytes ∧
      (k < (s.turnsOn n).length → ¬ ((s.turnsOn n).take (k + 1)).flatMap P.bytes <+: bytes) ∧
      (bytes = s.stream P n → k = (s.turnsOn n).length) := by
  obtain ⟨k, hk, hout, hpre, hnext⟩ :=
    hframing.run_prefix hd hvalid (hbytes.trans (h.streamed.begun n))
  refine ⟨k, hk, hout, hpre, hnext, fun hall => ?_⟩
  by_contra hne
  have hlt : k < (s.turnsOn n).length := Nat.lt_of_le_of_ne hk hne
  refine hnext hlt ?_
  obtain ⟨rest, hrest⟩ := List.take_prefix (k + 1) (s.turnsOn n)
  rw [hall]
  refine ⟨rest.flatMap P.bytes, ?_⟩
  rw [← List.flatMap_append, hrest]
  rfl

end Clients

/-- **What the peer of a KISS client receives.** Whatever tasks send, however the connection comes
and goes (as long as no `send` succeeds on a socket on which one has failed), and wherever the
peer stops reading from a socket: a decoder that is fed what it has read, in any chunks, finds the
frames that had their turn on the socket, in order and each of them once, as far as they have
arrived as a whole. If all bytes have arrived these are all frames; and if every accepted frame is
encodable it finds them as they are on the wire. -/
theorem kiss_peer_receives {τ : Type} [DecidableEq τ] (depth : Nat)
    (s : Client τ Frame Frame KissDecoder)
    (h : Reach (· = Client.init kissTcpClient) (step kissTcpClient depth) Reliable s) (n : Nat)
    (chunks : List (List Byte)) (hread : chunks.flatten <+: s.sent n) :
    ∃ k ≤ (s.turnsOn n).length,
      ((kissDecoderInit true).processChunks chunks).2.filterMap kissFrameCb =
        ((s.turnsOn n).take k).filterMap Frame.reread ∧
      ((s.turnsOn n).take k).flatMap kissTcpClient.bytes <+: chunks.flatten ∧
      (k < (s.turnsOn n).length →
        ¬ ((s.turnsOn n).take (k + 1)).flatMap kissTcpClient.bytes <+: chunks.flatten) ∧
      (chunks.flatten = s.stream kissTcpClient n → k = (s.turnsOn n).length) ∧
      ((∀ f ∈ s.accepted, f.Encodable) →
        ((s.turnsOn n).take k).filterMap Frame.reread =
          ((s.turnsOn n).take k).map Frame.onWire) := by
  have hok := clientOk_run h
  obtain ⟨k, hk, hout, hpre, hnext, hall⟩ := peer_finds kissTcpClient_framing hok
    (fun f hf => (encoded_of_turn hok hf).2) (d := kissDecoderInit true) ⟨rfl, rfl⟩ hread
  refine ⟨k, hk, ?_, hpre, hnext, hall, fun hencodable => ?_⟩
  · rw [KissDecoder.processChunks, KissDecoder.processBytes]
    rw [show run (run KissDecoder.processByte) = runChunks KissDecoder.processByte from rfl,
      runChunks_eq, hout, List.filterMap_map]
    rfl
  · rw [← List.filterMap_eq_map]
    refine List.filterMap_congr fun f hf => ?_
    exact (hencodable f (encoded_of_turn hok (List.mem_of_mem_take hf)).1).reread

/-- A frame goes out in two pieces. -/
theorem kiss_peer_receives_sample :
    ∃ s : Client Unit Frame Frame KissDecoder, s.turnsOn 0 = [sampleUiFrame] ∧
      ((kissDecoderInit true).processChunks [s.sent 0]).2.filterMap kissFrameCb =
        [sampleUiFrame] := by
  have hrun : (replay (step kissTcpClient 8) Reliable (Client.init kissTcpClient)
      (sampleRun sampleUiFrame ++ [.txSend 6, .txSend 14, .txUnlock])).map
        (fun s => (s.turnsOn 0, decide (s.sent 0 = s.stream kissTcpClient 0))) =
          some ([sampleUiFrame], true) := by decide +kernel
  obtain ⟨s, hs, hpair⟩ := Option.map_eq_some_iff.mp hrun
  obtain ⟨hturns, hwhole⟩ := Prod.mk.injEq _ _ _ _ |>.mp hpair
  obtain ⟨k, -, hout, -, -, hall, -⟩ := kiss_peer_receives 8 s (Reach.replay (.start rfl) hs) 0
    [s.sent 0] (by rw [List.flatten_singleton])
  obtain rfl := hall (by rw [List.flatten_singleton, of_decide_eq_true hwhole])
  have hreread : sampleUiFrame.reread = some sampleUiFrame := by decide +kernel
  refine ⟨s, hturns, hout.trans ?_⟩
  rw [List.take_length, hturns, List.filterMap_cons, hreread]
  rfl

/-! ### AGWPE -/

/-- `AGWPE_MAX_FRAME_SIZE`. -/
def agwpeMaxFrameSize : Nat := agwpeHeaderSize + agwpeMaxDataLen

namespace AgwpeDecoder

theorem processByte_callback (d : AgwpeDecoder) (byte : Byte) :
    (d.processByte byte).1.callback = d.callback := by
  unfold processByte complete reset
  split
  · dsimp only
    split_ifs <;> rfl
  · dsimp only
    split_ifs <;> rfl

/-- States that differ in nothing but what is left of the length of the last frame. -/
def SameButWire (d e : AgwpeDecoder) : Prop :=
  d = e ∨ d.state = .header ∧ e = { d with dataLenWire := e.dataLenWire }

theorem SameButWire.processByte {d e : AgwpeDecoder} (h : SameButWire d e) (byte : Byte) :
    SameButWire (d.processByte byte).1 (e.processByte byte).1 ∧
      (d.processByte byte).2 = (e.processByte byte).2 := by
  rcases h with rfl | ⟨hs, he⟩
  · exact ⟨.inl rfl, rfl⟩
  · rw [he]
    unfold AgwpeDecoder.processByte
    rw [hs]
    dsimp only
    split_ifs <;> first | exact ⟨.inl rfl, rfl⟩ | exact ⟨.inr ⟨rfl, rfl⟩, rfl⟩

/-- An AGWPE frame is complete at its last byte. -/
theorem agwpe_framing :
    Framing processByte Idle (fun _ => True) AgwpeWireFrame.bytes AgwpeWireFrame.delivered := by
  refine ⟨fun d w hd _ => run_frame hd w, fun d w p hd _ hp hne => ?_⟩
  have hheader : (List.ofFn w.header).length = agwpeHeaderSize := List.length_ofFn
  by_cases hlen : p.length < agwpeHeaderSize
  · rw [run_header p hd.state (by rw [hd.bytesReceived]; omega)]
  · -- the header is there, and some of the data
    obtain ⟨q, rfl⟩ := List.prefix_of_prefix_length_le (List.prefix_append _ w.payload) hp
      (by omega)
    have hq : q <+: w.payload := (List.prefix_append_right_inj _).mp hp
    have hlt : q.length < w.payload.length :=
      Nat.lt_of_le_of_ne hq.length_le fun heq => hne (by rw [hq.eq_of_length heq]; rfl)
    have hpos : 0 < (AgwpeHeader.ofImage w.header).dataLen := by
      rw [UInt32.lt_iff_toNat_lt, ← w.length_eq]
      exact Nat.zero_lt_of_lt hlt
    rw [run_append, run_wholeHeader hd.state hd.bytesReceived, if_pos hpos]
    dsimp only
    rw [run_data q rfl (by rw [Nat.zero_add, headed, ← w.length_eq]; exact hlt)]
    rfl

end AgwpeDecoder

/-- `ax25_agwpe_client_send_frame`, as far as the item. -/
def agwpeClientEncode (frame : AgwpeFrame) : Option (List Byte) :=
  agwpeFrameEncode frame agwpeMaxFrameSize

/-- `ax25_agwpe_client.c`. -/
def agwpeTcpClient : Protocol AgwpeFrame AgwpeFrame AgwpeDecoder where
  encode := agwpeClientEncode
  decoder := agwpeDecoderInit true
  process := AgwpeDecoder.processByte
  reset := AgwpeDecoder.reset
  wired := fun d => d.callback = true
  wired_decoder := rfl
  wired_process := fun d b hd => (d.processByte_callback b).trans hd
  wired_reset := fun _ hd => hd
  reset_fresh := by
    intro d bs hd
    refine run_congr (R := AgwpeDecoder.SameButWire) (fun d e b h => h.processByte b) (.inr ?_) bs
    refine ⟨rfl, ?_⟩
    unfold AgwpeDecoder.reset agwpeDecoderInit
    rw [hd]

/-- The frame that a decoder makes of the bytes of `f`. -/
def AgwpeFrame.onWire (f : AgwpeFrame) : AgwpeFrame :=
  { header := f.header.named, data := fill agwpeMaxDataLen 0 f.contents }

/-- It is the same but for the reserved bytes, and the data after those that `data_len` counts. -/
theorem AgwpeFrame.onWire_agrees {f : AgwpeFrame} : f.onWire.Agrees f := by
  refine ⟨rfl, rfl, rfl, rfl, rfl, rfl, rfl, fun i hi => ?_⟩
  have hlen : i.val < f.contents.length := by
    rw [contents, List.length_take, List.length_ofFn]
    exact Nat.lt_min.mpr ⟨hi, i.isLt⟩
  refine (List.getD_eq_getElem _ _ hlen).trans ?_
  simp only [contents, List.getElem_take, List.getElem_ofFn]

/-- The frames of an AGWPE client, as its encoder writes them. -/
theorem agwpeTcpClient_framing :
    Framing AgwpeDecoder.processByte AgwpeDecoder.Idle
      (fun f : AgwpeFrame => f.header.dataLen.toNat ≤ agwpeMaxDataLen) agwpeTcpClient.bytes
      AgwpeFrame.onWire := by
  have hwire : ∀ f : AgwpeFrame, f.header.dataLen.toNat ≤ agwpeMaxDataLen →
      ∃ w : AgwpeWireFrame, agwpeTcpClient.bytes f = w.bytes ∧ w.delivered = f.onWire := by
    intro f hf
    have hfits : agwpeHeaderSize + f.header.dataLen.toNat ≤ agwpeMaxFrameSize :=
      Nat.add_le_add_left hf _
    obtain ⟨w, henc, hheader, hpayload⟩ := agwpeFrameEncode_bytes f hf hfits
    have hencode : agwpeTcpClient.encode f = some w.bytes := henc
    refine ⟨w, by rw [Protocol.bytes, hencode]; rfl, ?_⟩
    have hlen : w.payload.length = f.header.dataLen.toNat := by
      rw [w.length_eq, hheader]
      rfl
    rw [AgwpeWireFrame.delivered, AgwpeFrame.onWire, hheader, hlen, Nat.min_eq_left hf, hpayload]
    simp only [AgwpeHeader.named, UInt32.ofNat_toNat]
    rfl
  refine ⟨fun d f hd hf => ?_, fun d f p hd hf hp hne => ?_⟩
  · obtain ⟨w, hbytes, hdelivered⟩ := hwire f hf
    rw [hbytes, ← hdelivered]
    exact AgwpeDecoder.agwpe_framing.whole d w hd trivial
  · obtain ⟨w, hbytes, -⟩ := hwire f hf
    rw [hbytes] at hp hne
    exact AgwpeDecoder.agwpe_framing.part d w p hd trivial hp hne

/-- **What the server of an AGWPE client receives.** Whatever tasks send, however the connection
comes and goes (as long as no `send` succeeds on a socket on which one has failed), and wherever
the server stops reading from a socket: if no accepted frame has more data than an AGWPE frame can
hold, its decoder, fed in any chunks, finds the requests that had their turn on the socket, in
order and each of them once, as far as they have arrived as a whole; and if all bytes have arrived
these are all of them. -/
theorem agwpe_peer_receives {τ : Type} [DecidableEq τ] (depth : Nat)
    (s : Client τ AgwpeFrame AgwpeFrame AgwpeDecoder)
    (h : Reach (· = Client.init agwpeTcpClient) (step agwpeTcpClient depth) Reliable s)
    (hsize : ∀ f ∈ s.accepted, f.header.dataLen.toNat ≤ agwpeMaxDataLen) (n : Nat)
    (chunks : List (List Byte)) (hread : chunks.flatten <+: s.sent n) :
    ∃ k ≤ (s.turnsOn n).length,
      ((agwpeDecoderInit true).processChunks chunks).2 =
        ((s.turnsOn n).take k).map AgwpeFrame.onWire ∧
      ((s.turnsOn n).take k).flatMap agwpeTcpClient.bytes <+: chunks.flatten ∧
      (k < (s.turnsOn n).length →
        ¬ ((s.turnsOn n).take (k + 1)).flatMap agwpeTcpClient.bytes <+: chunks.flatten) ∧
      (chunks.flatten = s.stream agwpeTcpClient n → k = (s.turnsOn n).length) := by
  have hok := clientOk_run h
  obtain ⟨k, hk, hout, hpre, hnext, hall⟩ := peer_finds agwpeTcpClient_framing hok
    (fun f hf => hsize f (encoded_of_turn hok hf).1) AgwpeDecoder.idle_init hread
  refine ⟨k, hk, ?_, hpre, hnext, hall⟩
  rw [AgwpeDecoder.processChunks, AgwpeDecoder.processBytes]
  rw [show run (run AgwpeDecoder.processByte) = runChunks AgwpeDecoder.processByte from rfl,
    runChunks_eq, hout]

/-- The `send` of a request fails after six bytes, and the server finds nothing. -/
theorem agwpe_peer_receives_sample :
    ∃ s : Client Unit AgwpeFrame AgwpeFrame AgwpeDecoder, s.turnsOn 0 = [agwpeFrameInit] ∧
      ((agwpeDecoderInit true).processChunks [s.sent 0]).2 = [] := by
  have hrun : (replay (step agwpeTcpClient 8) Reliable (Client.init agwpeTcpClient)
      (sampleRun agwpeFrameInit ++ [.txSend 6, .txFail])).map
        (fun s => (s.turnsOn 0, s.accepted, (s.sent 0).length)) =
          some ([agwpeFrameInit], [agwpeFrameInit], 6) := by
    decide +kernel
  obtain ⟨s, hs, htuple⟩ := Option.map_eq_some_iff.mp hrun
  simp only [Prod.mk.injEq] at htuple
  obtain ⟨hturns, haccepted, hlength⟩ := htuple
  have hsize : ∀ f ∈ s.accepted, f.header.dataLen.toNat ≤ agwpeMaxDataLen := by
    intro f hf
    rw [haccepted, List.mem_singleton] at hf
    rw [hf]
    exact Nat.zero_le _
  obtain ⟨k, hk, hout, hpre, -⟩ := agwpe_peer_receives 8 s (Reach.replay (.start rfl) hs) hsize 0
    [s.sent 0] (by rw [List.flatten_singleton])
  rw [hturns] at hk hout hpre
  -- the request has more than six bytes
  obtain rfl : k = 0 := by
    by_contra hne
    obtain rfl : k = 1 := Nat.le_antisymm hk (Nat.one_le_iff_ne_zero.mpr hne)
    have hle := hpre.length_le
    have hbytes : (([agwpeFrameInit].take 1).flatMap agwpeTcpClient.bytes).length = 36 := by
      decide +kernel
    rw [hbytes, List.flatten_singleton, hlength] at hle
    omega
  exact ⟨s, hturns, hout⟩

end EspAx25
