import EspAx25.Codec
import EspAx25.Framing
import EspAx25.Kiss

/-!
# EspAx25.KissDriver

What the KISS drivers have in common (`ax25_phy_kiss_uart.c`, `ax25_phy_kiss_tcp_client.c`): the
callback of the decoder, and the bytes of a frame.

KISS is a framing of `EspAx25.Framing`: a data frame is complete at its closing FEND.
-/

namespace EspAx25

open Transducer

/-! ### The decoder -/

namespace KissDecoder

/-- `ax25_kiss_decoder_reset`. -/
def reset (d : KissDecoder) : KissDecoder :=
  { d with state := .waitFend, escaped := false, frameBuf := [], port := 0, command := 0 }

variable {d : KissDecoder}

theorem processByte_callback (d : KissDecoder) (byte : Byte) :
    (d.processByte byte).1.callback = d.callback := by
  unfold processByte push
  split <;> split_ifs <;> rfl

/-- Without a FEND nothing is complete. -/
theorem run_quiet {l : List Byte} (h : ∀ b ∈ l, b ≠ kissFend) : ∀ {d : KissDecoder},
    (run processByte d l).2 = [] := by
  induction l with
  | nil => exact rfl
  | cons b l ih =>
      intro d
      have hb : (d.processByte b).2 = [] := by
        unfold processByte
        split <;> split_ifs <;> first | rfl | exact absurd ‹b = kissFend› (h b List.mem_cons_self)
      rw [run_cons, hb, ih fun c hc => h c (List.mem_cons_of_mem b hc)]
      rfl

/-- A KISS data frame is complete at its closing FEND. -/
theorem kiss_framing :
    Framing processByte (fun d => d.state = .waitFend ∧ d.callback = true)
      (fun data => 1 ≤ data.length ∧ data.length ≤ bufferSize) (kissEncoded 0 0)
      (fun data => ⟨0, 0, data⟩) := by
  refine ⟨fun d data hd hlen => ?_, fun d data p hd _ hp hne => ?_⟩
  · rw [run_kissEncoded hd.1 hd.2 hlen.1 hlen.2]
    exact ⟨⟨rfl, rfl⟩, rfl⟩
  · unfold kissEncoded at hp hne
    cases p with
    | nil => rfl
    | cons b q =>
        obtain ⟨rfl, hq⟩ := List.cons_prefix_cons.mp hp
        -- what follows the opening FEND stops short of the closing one
        have hbody := (List.prefix_concat_iff.mp hq).resolve_left fun heq => hne (congrArg _ heq)
        have hopen : (processByte d kissFend).2 = [] := by
          unfold processByte
          rw [hd.1]
          rfl
        rw [run_cons, hopen, run_quiet fun b hb => ne_fend_of_mem_body (hbody.subset hb)]
        rfl

/-- A FEND ends a frame, or opens one. -/
theorem processByte_fend (d : KissDecoder) : (d.processByte kissFend).1.state ≠ .receiving := by
  unfold processByte
  split
  · rw [if_pos rfl]
    simp
  · next hs =>
    rw [if_pos rfl]
    simp [hs]
  · rw [if_neg (by decide : kissFend ≠ kissTfend), if_neg (by decide : kissFend ≠ kissTfesc),
      if_neg (by decide : kissFend ≠ kissFesc), if_pos rfl]
    split_ifs <;> simp

/-- After a frame the decoder is not inside of one. -/
theorem run_kissEncoded_leaves (d : KissDecoder) (data : List Byte) :
    (run processByte d (kissEncoded 0 0 data)).1.state ≠ .receiving := by
  rw [show kissEncoded 0 0 data =
    (kissFend :: (kissEscape 0 ++ data.flatMap kissEscape)) ++ [kissFend] from rfl, run_append,
    run_singleton]
  exact processByte_fend _

theorem Tidy.run (h : Tidy d) (bytes : List Byte) : Tidy (run KissDecoder.processByte d bytes).1 :=
  run_invariant _ (fun _ byte hd => hd.processByte byte) h bytes

/-- One write of a frame completes at most one frame, wherever it stops. -/
theorem run_piece_length (h : Tidy d) {data p : List Byte} (h₀ : 1 ≤ data.length)
    (h₁ : data.length ≤ bufferSize) (hp : p <+: kissEncoded 0 0 data) :
    (run KissDecoder.processByte d p).2.length ≤ 1 := by
  by_cases hwhole : p = kissEncoded 0 0 data
  · rw [hwhole]
    by_cases hs : d.state = .receiving
    · rw [run_kissEncoded_of_inside h hs]
      split_ifs <;> simp
    · rw [run_kissEncoded_of_outside h hs h₀ h₁]
      exact Nat.le_refl 1
  · cases p with
    | nil => exact Nat.zero_le 1
    | cons b q =>
        unfold kissEncoded at hp hwhole
        obtain ⟨rfl, hq⟩ := List.cons_prefix_cons.mp hp
        have hbody := (List.prefix_concat_iff.mp hq).resolve_left fun heq => hwhole (congrArg _ heq)
        rw [run_cons, run_quiet fun b hb => ne_fend_of_mem_body (hbody.subset hb), List.append_nil]
        unfold KissDecoder.processByte
        split <;> split_ifs <;> simp

end KissDecoder

/-- `kiss_frame_cb`: what `on_rx_frame` is called with. -/
def kissFrameCb (frame : KissFrame) : Option Frame :=
  if frame.command ≠ 0 then none
  else
    match frameParse frame.data with
    | .ok f => some f
    | .error _ => none

/-! ### The bytes of a frame -/

/-- `ax25_frame_build` and `ax25_kiss_encode`, as `..._send` calls them. -/
def kissFrameEncode (frame : Frame) : Option (List Byte) :=
  match frameBuild frame with
  | (.ok, raw) => kissEncode 0 0 raw kissMaxEncodedSize
  | _ => none

/-- A built frame fits the buffer, and is not empty. -/
theorem frameBuild_length {f : Frame} {raw : List Byte} (h : frameBuild f = (.ok, raw)) :
    1 ≤ raw.length ∧ raw.length ≤ bufferSize := by
  have hraw : (appendAll (framePieces f)).1 = raw := by
    unfold frameBuild at h
    split_ifs at h
    · cases h
    · exact (Prod.mk.inj h).2
  subst hraw
  -- the first piece is the destination address
  obtain ⟨dst, rest, hpieces, hdst⟩ : ∃ dst rest, framePieces f = dst :: rest ∧
      dst.length = addressLen := by
    refine ⟨_, _, rfl, ?_⟩
    unfold setCBit
    split_ifs
    · rw [List.length_modify, addressEncode_length]
    · rw [addressEncode_length]
  have hfirst : appendStep [] dst = (dst, [.ok]) := by
    unfold appendStep bufferAppend
    rw [hdst, if_neg (by decide)]
    rfl
  have hstep : ∀ buffer piece : List Byte, 1 ≤ buffer.length ∧ buffer.length ≤ bufferSize →
      1 ≤ (appendStep buffer piece).1.length ∧
        (appendStep buffer piece).1.length ≤ bufferSize := by
    intro buffer piece hbuffer
    unfold appendStep bufferAppend
    split_ifs
    · exact hbuffer
    · dsimp only
      rw [List.length_append] at *
      omega
  rw [appendAll, hpieces, run_cons, hfirst]
  exact run_invariant appendStep hstep (by rw [hdst]; decide) rest

/-- The frames that a driver can send, and their bytes. -/
theorem kissFrameEncode_isSome {f : Frame} (h : (kissFrameEncode f).isSome = true) :
    ∃ raw, frameBuild f = (.ok, raw) ∧ kissFrameEncode f = some (kissEncoded 0 0 raw) := by
  rcases hbuild : frameBuild f with ⟨err, raw⟩
  unfold kissFrameEncode at h ⊢
  rw [hbuild] at h ⊢
  cases err with
  | ok =>
      have hlen := (frameBuild_length hbuild).2
      refine ⟨raw, rfl, kissEncode_of_room 0 0 ?_⟩
      rw [kissMaxEncodedSize]
      omega
  | _ => cases h

/-- What a decoder that is given the bytes of `f` calls `on_rx_frame` with. -/
def Frame.reread (f : Frame) : Option Frame := kissFrameCb ⟨0, 0, (frameBuild f).2⟩

theorem Frame.Encodable.reread {f : Frame} (h : f.Encodable) : f.reread = some f.onWire := by
  unfold Frame.reread kissFrameCb
  rw [if_neg (fun h => h rfl), (frameBuild_eq h.buildable).1]
  dsimp only
  rw [frameParse_wireFrame h]

end EspAx25
