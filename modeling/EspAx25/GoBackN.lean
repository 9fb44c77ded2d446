import EspAx25.Cyclic

/-!
# EspAx25.GoBackN

One direction of a sliding-window link with cumulative acknowledgements, over
channels that lose frames but do not reorder, duplicate or invent them.

Everything is counted without a modulus. The sender has accepted `sent` payloads,
of which `base` are acknowledged; the receiver has consumed `recv`. A frame in
flight is a `Stamp`: how many payloads its own sender had consumed when it was
sent (`ack`), and, if it carries a payload, the number of that payload with the
number of payloads accepted by then (`data`). `Flow` is the invariant; each
operation of a station keeps it.

With a window smaller than the modulus the residues say enough: the payload that
looks like the next one is the next one (`Flow.eq_of_mod_eq`), and an
acknowledgement in flight lies between the two ends of the window
(`Flow.ack_mod`).
-/

namespace GoBackN

open Cyclic

/-- What a frame in flight stands for. -/
structure Stamp where
  ack : Nat
  data : Option (Nat × Nat)

/-- The link from a sender to a receiver: `fwd` are the frames on their way to
the receiver, `bwd` those on their way back. -/
structure Flow (W sent base recv : Nat) (fwd bwd : List Stamp) : Prop where
  base_le : base ≤ recv
  recv_le : recv ≤ sent
  window : sent ≤ base + W
  /-- A payload in flight was in the window when it was sent, and the receiver
  has not got further than the sender had by then. -/
  data : ∀ m ∈ fwd, ∀ n s, m.data = some (n, s) → n < s ∧ s ≤ n + W ∧ s ≤ sent ∧ recv ≤ s
  data_mono : fwd.Pairwise fun m m' => ∀ n s n' s', m.data = some (n, s) →
    m'.data = some (n', s') → s ≤ s'
  /-- An acknowledgement in flight is no older than the last one that arrived. -/
  acks : ∀ m ∈ bwd, base ≤ m.ack ∧ m.ack ≤ recv
  acks_mono : bwd.Pairwise fun m m' => m.ack ≤ m'.ack

theorem flow_start (W : Nat) : Flow W 0 0 0 [] [] :=
  ⟨Nat.le_refl 0, Nat.le_refl 0, Nat.zero_le _, by simp, .nil, by simp, .nil⟩

namespace Flow

variable {W sent base recv : Nat} {fwd bwd k : List Stamp} {m : Stamp}

/-- The sender accepts a payload. -/
theorem accept (h : Flow W sent base recv fwd bwd) (hroom : sent < base + W) :
    Flow W (sent + 1) base recv fwd bwd :=
  { h with
    recv_le := Nat.le_succ_of_le h.recv_le
    window := hroom
    data := fun m hm n s hd => by
      obtain ⟨h₁, h₂, h₃, h₄⟩ := h.data m hm n s hd
      exact ⟨h₁, h₂, Nat.le_succ_of_le h₃, h₄⟩ }

/-- The sender sends frames, with payloads of its window or without. -/
theorem send (h : Flow W sent base recv fwd bwd)
    (hk : ∀ m ∈ k, ∀ n s, m.data = some (n, s) → s = sent ∧ base ≤ n ∧ n < sent) :
    Flow W sent base recv (fwd ++ k) bwd :=
  { h with
    data := by
      intro m hm n s hd
      rcases List.mem_append.mp hm with hm | hm
      · exact h.data m hm n s hd
      · obtain ⟨rfl, hb, hn⟩ := hk m hm n s hd
        have := h.window
        exact ⟨hn, by omega, Nat.le_refl _, h.recv_le⟩
    data_mono := by
      rw [List.pairwise_append]
      refine ⟨h.data_mono, ?_, fun m hm m' hm' n s n' s' hd hd' => ?_⟩
      · refine List.pairwise_of_forall_mem_list fun m hm m' hm' n s n' s' hd hd' => ?_
        exact Nat.le_of_eq ((hk m hm n s hd).1.trans (hk m' hm' n' s' hd').1.symm)
      · -- what was sent before had been accepted by now
        rw [(hk m' hm' n' s' hd').1]
        exact (h.data m hm n s hd).2.2.1 }

/-- The receiver sends frames that acknowledge what it has consumed. -/
theorem reply (h : Flow W sent base recv fwd bwd) (hk : ∀ m ∈ k, m.ack = recv) :
    Flow W sent base recv fwd (bwd ++ k) :=
  { h with
    acks := by
      intro m hm
      rcases List.mem_append.mp hm with hm | hm
      · exact h.acks m hm
      · rw [hk m hm]
        exact ⟨h.base_le, Nat.le_refl _⟩
    acks_mono := by
      rw [List.pairwise_append]
      refine ⟨h.acks_mono, ?_, fun m hm m' hm' => ?_⟩
      · refine List.pairwise_of_forall_mem_list fun m hm m' hm' => ?_
        exact Nat.le_of_eq ((hk m hm).trans (hk m' hm').symm)
      · rw [hk m' hm']
        exact (h.acks m hm).2 }

/-- Frames are lost. -/
theorem lose {fwd' bwd' : List Stamp} (h : Flow W sent base recv fwd bwd)
    (hf : fwd'.Sublist fwd) (hb : bwd'.Sublist bwd) : Flow W sent base recv fwd' bwd' :=
  { h with
    data := fun m hm => h.data m (hf.subset hm)
    data_mono := h.data_mono.sublist hf
    acks := fun m hm => h.acks m (hb.subset hm)
    acks_mono := h.acks_mono.sublist hb }

/-- The sender receives an acknowledgement. -/
theorem ack (h : Flow W sent base recv fwd (m :: bwd)) : Flow W sent m.ack recv fwd bwd := by
  obtain ⟨hb, hr⟩ := h.acks m List.mem_cons_self
  obtain ⟨hmono, hrest⟩ := List.pairwise_cons.mp h.acks_mono
  have hw := h.window
  exact { h with
    base_le := hr
    window := by omega
    acks := fun m' hm' => ⟨hmono m' hm', (h.acks m' (List.mem_cons_of_mem _ hm')).2⟩
    acks_mono := hrest }

/-- The receiver consumes the payload that is next. -/
theorem consume {s : Nat} (h : Flow W sent base recv (m :: fwd) bwd)
    (hm : m.data = some (recv, s)) : Flow W sent base (recv + 1) fwd bwd := by
  obtain ⟨h₁, -, h₃, -⟩ := h.data m List.mem_cons_self recv s hm
  obtain ⟨hmono, hrest⟩ := List.pairwise_cons.mp h.data_mono
  exact { h with
    base_le := Nat.le_succ_of_le h.base_le
    recv_le := by omega
    data := by
      intro m' hm' n s' hd
      obtain ⟨k₁, k₂, k₃, -⟩ := h.data m' (List.mem_cons_of_mem _ hm') n s' hd
      have := hmono m' hm' recv s n s' hm hd
      exact ⟨k₁, k₂, k₃, by omega⟩
    data_mono := hrest
    acks := fun m' hm' => ⟨(h.acks m' hm').1, Nat.le_succ_of_le (h.acks m' hm').2⟩ }

/-- **The payload that looks like the next one is the next one.** -/
theorem eq_of_mod_eq {M n s : Nat} (h : Flow W sent base recv fwd bwd) (hM : W < M)
    (hm : m ∈ fwd) (hd : m.data = some (n, s)) (heq : n % M = recv % M) : n = recv := by
  obtain ⟨h₁, h₂, h₃, h₄⟩ := h.data m hm n s hd
  have hb := h.base_le
  have hw := h.window
  rcases Nat.le_total n recv with hle | hle
  · -- an old payload is less than a round behind
    have hmod := Nat.sub_mod_eq_zero_of_mod_eq heq.symm
    rw [Nat.mod_eq_of_lt (by omega)] at hmod
    omega
  · -- a new one is less than a round ahead
    have hmod := Nat.sub_mod_eq_zero_of_mod_eq heq
    rw [Nat.mod_eq_of_lt (by omega)] at hmod
    omega

end Flow

/-- Differences below the modulus can be read off the residues. -/
theorem arc_mod {M a b : Nat} (hab : a ≤ b) (hlt : b - a < M) :
    arc M (a % M) (b % M) = b - a := by
  have hM : 0 < M := by omega
  have ha := Nat.mod_lt a hM
  obtain ⟨i, hi, hd⟩ := exists_arc_eq ha hlt
  have hb : i = b % M := by
    rw [← add_arc_mod ha hi (n := a) rfl, hd]
    congr 1
    omega
  rw [← hb]
  exact hd

/-- **An acknowledgement in flight lies in the window.** -/
theorem Flow.ack_mod {W M sent base recv : Nat} {fwd bwd : List Stamp} {m : Stamp}
    (h : Flow W sent base recv fwd bwd) (hM : W < M) (hm : m ∈ bwd) :
    arc M (base % M) (m.ack % M) ≤ arc M (base % M) (sent % M) := by
  obtain ⟨hb, hr⟩ := h.acks m hm
  have h₁ := h.recv_le
  have h₂ := h.window
  rw [arc_mod hb (by omega), arc_mod (by omega) (by omega)]
  omega

end GoBackN
