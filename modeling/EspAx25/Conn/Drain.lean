import EspAx25.Conn.Log

/-!
# EspAx25.Conn.Drain

What the application sees of the log.

The locked sections record in order, but each call drains its own batch after it
has given the mutex back. Nothing keeps two such drains apart, nor a callback
from sending while the UA of its session waits. `InTurn` is what the code relies
on: before another call may record I frames or a UA, those recorded before have
been invoked, and before it may record a payload, so have the payloads. Then the
output is in order too (`outputs_in_order`); without it, it need not be
(`drains_overtake`).
-/

namespace EspAx25

open Cyclic Conn Locked History

/-- The streams that a call may record actions of. -/
def Op.stirs : Op → Stream → Bool
  | .onFrame _, .sent | .sendData _, .sent => true
  | .onFrame f, .passed => f.type == .i
  | _, _ => false

/-- Task `t` holds nothing of the stream. -/
def Task.Clean (s : Stream) (t : Task) : Prop := ∀ e ∈ t.batch, e.action.inStream s = false

namespace Sys

/-- Everything in the stream has been invoked. -/
def Drained (y : Sys) (s : Stream) : Prop := ∀ t ∈ y.tasks, t.Clean s

/-- The moves that do not get ahead of a drain, and do not acknowledge a payload
that was never recorded. -/
def InTurn (y : Sys) : Move → Prop
  | .call op _ => (∀ s, op.stirs s = true → y.Drained s) ∧
      ∀ f, op = .onFrame f → y.conn.Linked → f.type = .s ∨ f.type = .i →
        y.conn.isValidNr f.nr = true → ∀ i, Mem 8 y.conn.va f.nr i → y.ghost.recorded i = true
  | m => y.deciding m ≠ none → y.Drained .sent

/-- What is recorded of the stream and not yet invoked. -/
def pending (y : Sys) (s : Stream) : List Entry :=
  y.tasks.flatMap fun t => t.batch.filter (·.action.inStream s)

end Sys

theorem Task.Clean.filter {s : Stream} {t : Task} (h : t.Clean s) :
    t.batch.filter (·.action.inStream s) = [] := by
  rw [List.filter_eq_nil_iff]
  intro e he
  rw [h e he]
  exact Bool.false_ne_true

/-! ### The invariant -/

/-- At most one task holds anything of the stream. -/
def Alone (s : Stream) (tasks : List Task) : Prop :=
  ∀ (i j : Nat) (t u : Task), tasks[i]? = some t → tasks[j]? = some u → i ≠ j →
    t.Clean s ∨ u.Clean s

/-- Of the stream, the log is what has been seen and what one task still holds. -/
structure StreamInv (s : Stream) (y : Sys) : Prop where
  alone : Alone s y.tasks
  seen : y.out.filter (·.action.inStream s) ++ y.pending s =
    y.ghost.log.filter (·.action.inStream s)

/-- The log is in order, and its streams are drained by one task at a time. -/
structure DrainInv (y : Sys) : Prop where
  log : LogInv y.conn y.ghost
  streams : ∀ s, StreamInv s y

section streams

variable {s : Stream}

theorem Sys.Drained.pending {y : Sys} (h : y.Drained s) : y.pending s = [] := by
  unfold Sys.pending
  rw [List.flatMap_eq_nil_iff]
  exact fun t ht => (h t ht).filter

/-- A new task beside tasks that hold nothing, or one that itself holds nothing. -/
theorem Alone.append {tasks : List Task} {v : Task} (h : Alone s tasks)
    (hv : (∀ t ∈ tasks, t.Clean s) ∨ v.Clean s) : Alone s (tasks ++ [v]) := by
  have hcase : ∀ {i : Nat} {t : Task}, (tasks ++ [v])[i]? = some t →
      tasks[i]? = some t ∨ i = tasks.length ∧ t = v := by
    intro i t ht
    rcases Nat.lt_or_ge i tasks.length with hlt | hge
    · exact Or.inl (by rwa [List.getElem?_append_left hlt] at ht)
    · rw [List.getElem?_append_right hge] at ht
      have hi := (List.getElem?_eq_some_iff.mp ht).1
      rw [List.length_singleton] at hi
      obtain rfl : i = tasks.length := by omega
      exact Or.inr ⟨rfl, by simpa [eq_comm] using ht⟩
  intro i j t u ht hu hij
  rcases hcase ht with ht' | ⟨rfl, rfl⟩ <;> rcases hcase hu with hu' | ⟨rfl, rfl⟩
  · exact h i j t u ht' hu' hij
  · exact hv.imp_left fun hall => hall t (List.mem_of_getElem? ht')
  · exact hv.symm.imp_right fun hall => hall u (List.mem_of_getElem? hu')
  · exact absurd rfl hij

/-- A task that is rewritten in place: all others hold nothing, or it holds
nothing more than before. -/
theorem Alone.set {tasks : List Task} {i : Nat} {u v : Task} (h : Alone s tasks)
    (hi : tasks[i]? = some u)
    (hv : (∀ t ∈ tasks, t.Clean s) ∨ (u.Clean s → v.Clean s)) : Alone s (tasks.set i v) := by
  have hlen := (List.getElem?_eq_some_iff.mp hi).1
  have hcase : ∀ {j : Nat} {t : Task}, (tasks.set i v)[j]? = some t →
      j = i ∧ t = v ∨ j ≠ i ∧ tasks[j]? = some t := by
    intro j t ht
    by_cases hj : j = i
    · subst hj
      rw [List.getElem?_set_self hlen] at ht
      exact Or.inl ⟨rfl, (Option.some.inj ht).symm⟩
    · rw [List.getElem?_set_ne (Ne.symm hj)] at ht
      exact Or.inr ⟨hj, ht⟩
  -- another task beside the rewritten one
  have hbeside : ∀ {j : Nat} {t : Task}, j ≠ i → tasks[j]? = some t → t.Clean s ∨ v.Clean s := by
    intro j t hj ht
    rcases hv with hall | hv
    · exact Or.inl (hall t (List.mem_of_getElem? ht))
    · exact (h j i t u ht hi hj).imp_right hv
  intro j k t w ht hw hjk
  rcases hcase ht with ⟨rfl, rfl⟩ | ⟨hj, ht'⟩ <;> rcases hcase hw with ⟨rfl, rfl⟩ | ⟨hk, hw'⟩
  · exact absurd rfl hjk
  · exact (hbeside hk hw').symm
  · exact hbeside hj ht'
  · exact h j k t w ht' hw' hjk

theorem Alone.eraseIdx {tasks : List Task} (h : Alone s tasks) (i : Nat) :
    Alone s (tasks.eraseIdx i) := by
  intro j k t u ht hu hjk
  rw [List.getElem?_eraseIdx] at ht hu
  split_ifs at ht hu
  · exact h _ _ t u ht hu hjk
  · exact h _ _ t u ht hu (by omega)
  · exact h _ _ t u ht hu (by omega)
  · exact h _ _ t u ht hu (by omega)

/-- The batch of the only task that holds anything of the stream. -/
theorem Alone.pending {y : Sys} (h : Alone s y.tasks) {i : Nat} {t : Task}
    (hi : y.tasks[i]? = some t) (ht : ¬ t.Clean s) :
    y.pending s = t.batch.filter (·.action.inStream s) :=
  flatMap_of_alone hi fun j u hj hne =>
    ((h i j t u hi hj (Ne.symm hne)).resolve_left ht).filter

/-- The same for a task that has just been rewritten. -/
theorem flatMap_set_of_clean {tasks : List Task} {i : Nat} {u : Task} (hi : tasks[i]? = some u)
    (h : ∀ j w, tasks[j]? = some w → j ≠ i → w.Clean s) (v : Task) :
    ((tasks.set i v).flatMap fun t => t.batch.filter (·.action.inStream s)) =
      v.batch.filter (·.action.inStream s) := by
  refine flatMap_of_alone (List.getElem?_set_self (List.getElem?_eq_some_iff.mp hi).1) ?_
  intro j w hj hne
  rw [List.getElem?_set_ne (Ne.symm hne)] at hj
  exact (h j w hj hne).filter

theorem clean_entries {g : Ghost} {c : Conn} {acts : List Action}
    (h : ∀ a ∈ acts, a.inStream s = false) :
    ∀ e ∈ acts.map (g.entry c), e.action.inStream s = false := by
  intro e he
  obtain ⟨a, ha, rfl⟩ := List.mem_map.mp he
  exact h a ha

end streams

/-! ### One move -/

theorem LogInv.minor {c c' : Conn} {g : Ghost} (h : LogInv c g) (hm : Minor c c') :
    LogInv c' g := by
  obtain ⟨p, t1, t2, t3, r, rfl⟩ := hm
  exact h.congr rfl rfl (fun _ _ => rfl) h.transmitted

theorem Ghost.next_minor {c c₀ : Conn} (hm : Minor c c₀) (g : Ghost) (c' : Conn)
    (acts : List Action) : g.next c c' acts = g.next c₀ c' acts := by
  obtain ⟨p, t1, t2, t3, r, rfl⟩ := hm
  rfl

/-- Only a call that receives a frame or sends data records an I frame or a UA. -/
theorem SectionStep.no_transmission {c : Conn} {op : Op} {s : Locked} {o : Outcome}
    (h : SectionStep c op s o) (hop : op.stirs .sent = false) :
    ∀ a ∈ s.deferred, a.inStream .sent = false := by
  have hu : ∀ (c : Conn) (ctrl : Byte), ctrl = ctrlSabm ∨ ctrl = ctrlDisc ∨ ctrl = ctrlDm →
      ∀ cmd pf, (c.uFrame cmd ctrl pf).inStream .sent = false := by
    intro c ctrl hc cmd pf
    simp only [Action.inStream, isUa_uFrame_of_ne c cmd pf hc, Bool.or_false]
    rfl
  intro a ha
  cases h with
  | request | reject | opened | collision | relink | reestablish | data | send => cases hop
  | teardown pre hne hlen hf hcase =>
      rcases hcase with ⟨rfl, msg, retry, l, rfl, hl⟩ | ⟨f, rfl, -⟩
      · simp only [List.cons_append, List.mem_cons, List.mem_append, List.not_mem_nil,
          or_false] at ha
        rcases ha with rfl | ha | rfl | rfl
        · rfl
        · rw [hl a ha]
          exact hu c ctrlDm (Or.inr (Or.inr rfl)) _ _
        · rfl
        · rfl
      · cases hop
  | dial => rw [List.mem_singleton.mp ha]; exact hu _ _ (Or.inl rfl) _ _
  | release => rw [List.mem_singleton.mp ha]; exact hu _ _ (Or.inr (Or.inl rfl)) _ _
  | retry ctrl hlt hc =>
      rw [List.mem_singleton.mp ha]
      rcases hc with ⟨-, rfl⟩ | ⟨-, rfl⟩
      · exact hu _ _ (Or.inl rfl) _ _
      · exact hu _ _ (Or.inr (Or.inl rfl)) _ _
  | t2Ack b hl hp he hi =>
      rw [List.mem_singleton.mp ha]
      exact Action.inStream_of_unordered (he.not_ordered hi) .sent
  | busyOn | busyOff | poll | t3Poll => rw [List.mem_singleton.mp ha]; rfl
  | _ => cases ha

/-- A call records nothing of the streams that it does not stir. -/
theorem SectionStep.not_stirred {c : Conn} {op : Op} {s : Locked} {o : Outcome}
    (hsec : SectionStep c op s o) (hbody : op.body ⟨c, []⟩ = (s, o)) (hw : WindowInv c)
    {stream : Stream} (hop : op.stirs stream = false) :
    ∀ a ∈ s.deferred, a.inStream stream = false := by
  cases stream with
  | sent => exact hsec.no_transmission hop
  | passed =>
      refine hsec.no_payload hbody hw fun f hf hi => ?_
      subst hf
      simp [Op.stirs, hi] at hop

theorem DecideStep.no_payload {c c' : Conn} {f : Frame} {acts : List Action}
    (h : DecideStep c f c' acts) : ∀ a ∈ acts, a.inStream .passed = false := by
  intro a ha
  cases h with
  | refused =>
      rcases List.mem_cons.mp ha with rfl | ha
      · rfl
      · rcases List.mem_cons.mp ha with rfl | ha
        · rfl
        · split_ifs at ha
          · cases ha
          · rw [List.mem_singleton.mp ha]
            rfl
  | accepted =>
      rw [List.mem_singleton.mp ha]
      rfl

theorem connectCall_clean (r : Call) (g : Ghost) (s : Stream) :
    (Sys.connectCall r g).filter (·.action.inStream s) = [] := by
  rw [List.filter_eq_nil_iff]
  intro e he
  unfold Sys.connectCall at he
  split at he
  · cases he
  · obtain ⟨a, ha, rfl⟩ := List.mem_map.mp he
    unfold onConnectCall at ha
    split_ifs at ha
    · rw [List.mem_singleton.mp ha]
      cases s <;> exact Bool.false_ne_true
    · cases ha

/-- A task is added that holds what has just been recorded. -/
theorem StreamInv.add {s : Stream} {y : Sys} (h : StreamInv s y) {acts : List Action}
    (hacts : y.Drained s ∨ ∀ a ∈ acts, a.inStream s = false) {c c' : Conn} {b : Buffer}
    {rest : Option Resume} {r : Call} {g g' : Ghost} (hlog : g'.log = y.ghost.log) :
    StreamInv s { conn := c, tasks := y.tasks ++ [⟨b, rest, acts.map (g'.entry c')⟩],
                  out := y.out ++ Sys.connectCall r g, ghost := g'.record c' acts } where
  alone := h.alone.append (hacts.imp_right clean_entries)
  seen := by
    have hseen := h.seen
    simp only [Sys.pending, List.flatMap_append, List.flatMap_singleton, List.filter_append,
      connectCall_clean, List.append_nil, Ghost.record, hlog] at hseen ⊢
    rw [← List.append_assoc, hseen]

/-- The first section of a call. -/
theorem DrainInv.call {y : Sys} (h : DrainInv y) (hinv : SysInv y) {op : Op} {heap : Bool}
    (hturn : y.InTurn (.call op heap)) : DrainInv (y.step (.call op heap)) := by
  obtain ⟨hdrained, hall⟩ := hturn
  simp only [Sys.step]
  obtain ⟨c', ret, hr, hm, -⟩ | ⟨c₀, b, s, o, hr, hm, -, hp, hbody, hsec⟩ :=
    opCall_cases heap y.conn op hinv.window
  · rw [hr]
    exact ⟨h.log.minor hm, fun s => ⟨(h.streams s).alone, (h.streams s).seen⟩⟩
  · rw [hr]
    have hw := hm.window hinv.window
    have hlog := hsec.log hbody ((precheck_minor hm op).trans hp) hw
      (h.log.minor hm) fun f hf hl hty hv i hi => by
        refine hall f hf ?_ hty (hm.isValidNr ▸ hv) i (hm.va ▸ hi)
        unfold Linked at hl ⊢
        rwa [← hm.state]
    rw [← Ghost.next_minor hm] at hlog
    refine ⟨hlog, fun stream => (h.streams stream).add ?_ ?_⟩
    · -- a call that may record something of a stream finds it drained
      cases hop : op.stirs stream with
      | true => exact Or.inl (hdrained stream hop)
      | false => exact Or.inr (hsec.not_stirred hbody hw hop)
    · rw [Ghost.accept_log, Ghost.next_log]

/-- A task that holds nothing of the stream records something. -/
theorem StreamInv.resume {s : Stream} {y : Sys} (h : StreamInv s y) {i : Nat} {b : Buffer}
    {rest : Option Resume} (hi : y.tasks[i]? = some ⟨b, rest, []⟩) {acts : List Action}
    (hacts : y.Drained s ∨ ∀ a ∈ acts, a.inStream s = false) {c c' : Conn} {g : Ghost}
    (hlog : g.log = y.ghost.log) :
    StreamInv s { y with conn := c, tasks := y.tasks.set i ⟨b, none, acts.map (g.entry c')⟩,
                         ghost := g.record c' acts } := by
  have hseen := h.seen
  rcases hacts with hd | hnone
  · refine ⟨h.alone.set hi (Or.inl hd), ?_⟩
    rw [hd.pending, List.append_nil] at hseen
    -- the task is the only one that holds anything
    simp only [Sys.pending, Ghost.record, List.filter_append, hlog]
    rw [flatMap_set_of_clean hi fun j u hj _ => hd u (List.mem_of_getElem? hj), hseen]
  · have hclean : Task.Clean s ⟨b, none, acts.map (g.entry c')⟩ := clean_entries hnone
    refine ⟨h.alone.set hi (Or.inr fun _ => hclean), ?_⟩
    have hpend := flatMap_set (f := fun t : Task => t.batch.filter (·.action.inStream s))
      (b := ⟨b, rest, []⟩) (c := ⟨b, none, acts.map (g.entry c')⟩)
      (by rw [hclean.filter]; rfl) hi
    have hrec := hclean.filter
    simp only [Sys.pending, Ghost.record, List.filter_append, hlog] at hseen hrec ⊢
    rw [hpend, hrec, List.append_nil, hseen]

theorem DrainInv.relock {y : Sys} (h : DrainInv y) (hinv : SysInv y) (hidle : IdleReset y.conn)
    {i : Nat} (hturn : y.InTurn (.relock i)) : DrainInv (y.step (.relock i)) := by
  simp only [Sys.step]
  split
  · next b rest batch heq =>
    cases rest with
    | finish =>
        -- nothing is recorded
        have hsame : LogInv y.conn ((y.ghost.next y.conn y.conn []).record y.conn []) :=
          h.log.plainSection (by simp) (by simp) (by simp)
        have hres : y.resumed ⟨b, some .finish, batch⟩ .finish = (y.conn, []) := by
          simp [Sys.resumed, Locked.resume]
        rw [hres]
        simp only [List.map_nil, List.append_nil]
        refine ⟨hsame, fun s => ⟨(h.streams s).alone.set heq (Or.inr fun hc => hc), ?_⟩⟩
        have hpend := flatMap_set (f := fun t : Task => t.batch.filter (·.action.inStream s))
          (b := ⟨b, some .finish, batch⟩) (c := ⟨b, none, batch⟩) rfl heq
        have hseen := (h.streams s).seen
        simp only [Sys.pending, Ghost.record, List.map_nil, List.append_nil] at hseen ⊢
        rw [hpend, hseen, Ghost.next_log]
    | decide f =>
        obtain rfl := hinv.undecided _ (List.mem_of_getElem? heq) f rfl
        have hd : y.Drained .sent := hturn (by simp [Sys.deciding, heq])
        have hdec := decide_cases y.conn f
        have hres : y.resumed ⟨b, some (.decide f), []⟩ (.decide f) =
            ((decideSabm ⟨y.conn, []⟩ f).conn, (decideSabm ⟨y.conn, []⟩ f).deferred) := by
          simp [Sys.resumed, Locked.resume]
        rw [hres]
        simp only [List.nil_append]
        refine ⟨hdec.log hidle h.log, fun s => (h.streams s).resume heq ?_ (Ghost.next_log ..)⟩
        cases s with
        | sent => exact Or.inl hd
        | passed => exact Or.inr hdec.no_payload
  · exact h

/-- One action is invoked. -/
theorem StreamInv.invoke {s : Stream} {y : Sys} (h : StreamInv s y) {i : Nat} {b : Buffer}
    {e : Entry} {batch : List Entry} (heq : y.tasks[i]? = some ⟨b, none, e :: batch⟩) :
    StreamInv s { y with tasks := y.tasks.set i ⟨b, none, batch⟩, out := y.out ++ [e] } := by
  refine ⟨h.alone.set heq (Or.inr fun hc d hd => hc d (List.mem_cons_of_mem _ hd)), ?_⟩
  have hseen := h.seen
  cases he : e.action.inStream s with
  | false =>
      have hpend := flatMap_set (f := fun t : Task => t.batch.filter (·.action.inStream s))
        (b := ⟨b, none, e :: batch⟩) (c := ⟨b, none, batch⟩) (by simp [he]) heq
      simp only [Sys.pending] at hseen ⊢
      rw [hpend]
      simpa [he] using hseen
  | true =>
      -- it was the head of the only batch that matters
      have hdirty : ¬ Task.Clean s ⟨b, none, e :: batch⟩ := fun hc => by
        rw [hc e List.mem_cons_self] at he
        cases he
      have hclean : ∀ j u, y.tasks[j]? = some u → j ≠ i → u.Clean s := fun j u hj hne =>
        (h.alone i j _ u heq hj (Ne.symm hne)).resolve_left hdirty
      have hhead : (e :: batch).filter (·.action.inStream s) =
          e :: batch.filter (·.action.inStream s) := List.filter_cons_of_pos he
      have hlast : [e].filter (·.action.inStream s) = [e] := List.filter_cons_of_pos he
      rw [h.alone.pending heq hdirty, hhead] at hseen
      simp only [Sys.pending]
      rw [flatMap_set_of_clean heq hclean, List.filter_append, hlast, List.append_assoc]
      exact hseen

theorem DrainInv.invoke {y : Sys} (h : DrainInv y) (i : Nat) : DrainInv (y.step (.invoke i)) := by
  simp only [Sys.step]
  split
  · next b e batch heq => exact ⟨h.log, fun s => (h.streams s).invoke heq⟩
  · exact h

theorem DrainInv.finish {y : Sys} (h : DrainInv y) (i : Nat) : DrainInv (y.step (.finish i)) := by
  simp only [Sys.step]
  split
  · next b heq =>
    refine ⟨h.log.minor (minor_releaseDeferred _ _), fun s => ⟨(h.streams s).alone.eraseIdx i, ?_⟩⟩
    have hseen := (h.streams s).seen
    simp only [Sys.pending] at hseen ⊢
    rw [flatMap_eraseIdx rfl heq]
    exact hseen
  · exact h

/-! ### The law -/

theorem DrainInv.step {y : Sys} (h : DrainInv y) (hinv : SysInv y) (hidle : IdleReset y.conn)
    {m : Move} (hturn : y.InTurn m) : DrainInv (y.step m) := by
  cases m with
  | call op heap => exact h.call hinv hturn
  | refuse =>
      exact ⟨h.log.minor (minor_refuse _), fun s => ⟨(h.streams s).alone, (h.streams s).seen⟩⟩
  | relock i => exact h.relock hinv hidle hturn
  | invoke i => exact h.invoke i
  | finish i => exact h.finish i
  | fire t =>
      exact ⟨h.log.minor (minor_fire _ _), fun s => ⟨(h.streams s).alone, (h.streams s).seen⟩⟩

theorem drainInv_init {res : InitResources} {a : Address} {cb : Callbacks} {cfg : Option Config}
    {c : Conn} (h : Conn.init res a cb cfg = .ok c) : DrainInv { conn := c } := by
  obtain rfl := init_ok h
  have hnone : ∀ i, ¬ Mem 8 0 0 i := fun i => not_mem_self
  refine ⟨⟨ordered_nil, by simp, rfl, by simp, fun i hi => absurd hi (hnone i),
    fun i _ hi => absurd hi (hnone i), fun i hi => absurd hi (hnone i),
    fun i hi => absurd hi (hnone i), rfl, fun _ _ => rfl, by simp⟩, fun s => ⟨?_, rfl⟩⟩
  intro i j t u ht
  simp at ht

theorem Sys.ReachableVia.drainInv {y : Sys} (h : ReachableVia InTurn y) : DrainInv y := by
  induction h with
  | init h => exact drainInv_init h
  | step m hturn h ih => exact ih.step h.sysInv h.idleReset hturn

/-- **Output order.** If no call gets ahead of a drain, and no N(R) acknowledges
what was never sent, everything that is invoked is in order. -/
theorem outputs_in_order {y : Sys} (h : y.ReachableVia Sys.InTurn) :
    InOrder y.ghost.accepted y.out := by
  have hinv := h.drainInv
  refine inOrder_streams.mp fun s => ?_
  have hlog := inOrder_streams.mpr hinv.log.inOrder s
  rw [← (hinv.streams s).seen] at hlog
  exact Ordered.of_append hlog

/-- `sampleB` has been accepted and has got its UA. -/
def sampleUp : Sys :=
  ({ conn := sampleConn } : Sys).run [.call (.onFrame sampleSabm) true, .relock 0, .invoke 0]

instance (y : Sys) (s : Stream) : Decidable (y.Drained s) :=
  inferInstanceAs (Decidable (∀ t ∈ y.tasks, ∀ e ∈ t.batch, e.action.inStream s = false))

theorem reachableVia_sampleUp : sampleUp.ReachableVia Sys.InTurn := by
  refine sys_init_sample.run ⟨⟨fun s _ => by cases s <;> decide, fun f hf => ?_⟩,
    fun _ => by decide, fun h => absurd rfl h, trivial⟩
  cases hf
  exact fun hl => absurd hl (by decide)

/-- A payload sent after the UA. -/
theorem outputs_in_order_sample :
    let y := sampleUp.run [.call (.sendData [1]) true, .invoke 1]
    y.out.length = 3 ∧ InOrder y.ghost.accepted y.out := by
  refine ⟨by decide, outputs_in_order (reachableVia_sampleUp.run
    ⟨⟨fun s _ => by cases s <;> decide, fun f hf => ?_⟩, fun h => absurd rfl h, trivial⟩)⟩
  cases hf

/-- Two payloads are accepted in this order, and the second call drains first; a
payload is sent from `on_connect` while the UA that answers a SABM collision is
still to be invoked. -/
theorem drains_overtake :
    let y := sampleUp.run [.call (.sendData [1]) true, .call (.sendData [2]) true, .invoke 2]
    let z := ({ conn := sampleConn } : Sys).run
      [.call (.connectVia sampleB []) true, .call (.onFrame sampleSabm) true,
        .call (.sendData [1]) true, .invoke 2, .relock 1, .invoke 1]
    (y.Reachable ∧ ¬ InOrder y.ghost.accepted y.out) ∧
      z.Reachable ∧ ¬ InOrder z.ghost.accepted z.out := by
  refine ⟨⟨Sys.Reachable.run (Sys.Reachable.run sys_init_sample _) _, fun h => ?_⟩,
    ⟨Sys.Reachable.run sys_init_sample _, fun h => ?_⟩⟩
  · -- payload 1 of the session without payload 0
    have hfollow := h sampleUp.out ⟨.frame (iFrame sampleUp.conn 1 [2] 1), 1, 1⟩ [] (by decide)
    rcases (hfollow.info _ rfl rfl).2.2.2 with hn | ⟨d, hd, hi, -⟩
    · cases hn
    · revert d
      decide
  · -- the UA of session 2 after an I frame of that session
    have hfollow := h [⟨.connect sampleB true, 2, 0⟩,
        ⟨.frame (iFrame sampleUp.conn 0 [1] 1), 2, 0⟩]
      ⟨sampleUp.conn.uFrame false ctrlUa true, 2, 0⟩ [] (by decide)
    exact hfollow.ua (by decide) _ (List.mem_cons_of_mem _ List.mem_cons_self) (by decide) rfl

end EspAx25
