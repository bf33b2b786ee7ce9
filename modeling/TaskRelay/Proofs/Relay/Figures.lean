import Mathlib
import TaskRelay.Proofs.Relay.Front
import TaskRelay.Proofs.Wake.Nesting

/-!
# What the figures count

A step moves a figure by at most one, and none ever goes back (`Move.figure_advance`). The figures
about the ends of tasks and about notifications count marks of the journal
(`State.Reachable.figure_eq`), and the log events say the same (`State.Reachable.countP_logs`).
-/

namespace TaskRelay

variable {s t : State} {a : Action}

/-! ## Moves of the front -/

/-- Nothing was done to the registry or to the counts of ended tasks. -/
structure SameBack (s t : State) : Prop where
  registry : t.registry = s.registry
  completed : t.counters.completed = s.counters.completed
  failed : t.counters.failed = s.counters.failed
  panicked : t.counters.panicked = s.counters.panicked
  marks : ∃ ms : List Mark, t.journal = ms ++ s.journal ∧ ∀ m ∈ ms, m.isFront

namespace SameBack

theorem trans {u : State} (h : SameBack s t) (h' : SameBack t u) : SameBack s u where
  registry := h'.registry.trans h.registry
  completed := h'.completed.trans h.completed
  failed := h'.failed.trans h.failed
  panicked := h'.panicked.trans h.panicked
  marks := by
    obtain ⟨ms, hj, hm⟩ := h.marks
    obtain ⟨ms', hj', hm'⟩ := h'.marks
    refine ⟨ms' ++ ms, by rw [hj', hj, List.append_assoc], fun m hi => ?_⟩
    exact (List.mem_append.mp hi).elim (hm' m) (hm m)

theorem of_quiet (hr : t.registry = s.registry) (hc : t.counters = s.counters)
    (hj : t.journal = s.journal) : SameBack s t :=
  ⟨hr, by rw [hc], by rw [hc], by rw [hc], [], hj, by simp⟩

theorem note {m : Mark} (h : m.isFront) : SameBack s (s.note m) :=
  ⟨rfl, rfl, rfl, rfl, [m], rfl, by simpa using h⟩

theorem answer (c : Caller) (r : Except RelayError Ticket) : SameBack s (s.answer c r) where
  registry := s.answer_registry c r
  completed := by rw [State.answer_counters]
  failed := by rw [State.answer_counters]
  panicked := by rw [State.answer_counters]
  marks := ⟨[.answered c r], s.answer_journal c r, by simp [Mark.isFront]⟩

theorem launch (id : Nat) (c : Caller) (pool : PoolName) (e : Envelope) :
    SameBack s (s.launch id c pool e) :=
  ⟨rfl, rfl, rfl, rfl, [.launched id c e], rfl, by simp [Mark.isFront]⟩

theorem ask (c : Caller) (entry : Entry) (e : Envelope) : SameBack s (s.ask c entry e) :=
  ⟨rfl, rfl, rfl, rfl, [.asked c entry e], rfl, by simp [Mark.isFront]⟩

theorem close (d : Dispatch) (closers : List Closer) :
    SameBack s ({ s with dispatch := d, closers := closers }.note .closed) :=
  ⟨rfl, rfl, rfl, rfl, [.closed], rfl, by simp [Mark.isFront]⟩

end SameBack

theorem CallMove.sameBack {x : Call} (m : CallMove s x t) : SameBack s t := by
  cases m with
  | refuse => exact .answer _ _
  | allow | number => exact .of_quiet rfl rfl rfl
  | count => exact ⟨rfl, rfl, rfl, rfl, [], rfl, by simp⟩
  | lock | send | receive =>
    refine .trans ?_ (.note rfl)
    exact .of_quiet rfl rfl rfl
  | launch => exact .trans (.launch _ _ _ _) (.answer _ _)
  | abandon | unlock =>
    refine .trans ?_ (.answer _ _)
    exact .of_quiet rfl rfl rfl

theorem WorkerMove.sameBack (m : WorkerMove s t) : SameBack s t := by
  cases m with
  | take | leave | number | lose => exact .of_quiet rfl rfl rfl
  | count => exact ⟨rfl, rfl, rfl, rfl, [], rfl, by simp⟩
  | launch => exact .trans (.launch _ _ _ _) (.of_quiet rfl rfl rfl)
  | publish =>
    refine .trans ?_ (.note rfl)
    exact .of_quiet rfl rfl rfl

/-- A move is one of the front, one from outside, or one of a task. -/
theorem Move.split (m : Move s a t) : SameBack s t ∨ OutsideMove s a t ∨
    ∃ x, s.task? x.id = some x ∧ TaskMove s x a t := by
  cases m with
  | outside m => exact .inr (.inl m)
  | ask => exact .inl (.ask _ _ _)
  | askInside =>
    refine .inl (.trans ?_ (.ask _ _ _))
    exact .of_quiet rfl rfl rfl
  | call _ m => exact .inl m.sameBack
  | worker m => exact .inl m.sameBack
  | close => exact .inl (.close _ _)
  | drop => exact .inl (.of_quiet rfl rfl rfl)
  | task hx m => exact .inr (.inr ⟨_, hx, m⟩)

/-! ## The figures of the end of a task -/

namespace Figure

/-- The figures about submissions; a task is counted there before it exists. -/
def isOfSubmissions : Figure → Bool
  | .direct | .dispatched => true
  | _ => false

/-- The marks that a figure about ends or notifications counts. -/
def counts : Figure → Mark → Bool
  | .completed, .recorded _ (.value _) => true
  | .failed, .recorded _ (.failure _) => true
  | .panicked, .recorded _ (.panic _) => true
  | .panicked, .cancelledUnwinding _ => true
  | .delivered, .sign _ .returned => true
  | .missed, .sign _ (.missed _) => true
  | _, _ => false

theorem counts_of_isFront {m : Mark} (h : m.isFront) (f : Figure) : f.counts m = false := by
  cases f <;> cases m <;> first | rfl | cases h

theorem delivered_counts_sign (source : Source) :
    delivered.counts ∘ Mark.sign source = (· == Sign.returned) := by
  funext x
  cases x <;> rfl

theorem missed_counts_sign (source : Source) :
    missed.counts ∘ Mark.sign source = Sign.isMissed := by
  funext x
  cases x <;> rfl

end Figure

/-- A step that adds these marks moves each figure by those that it counts, which is one at most. -/
structure Tallied (s t : State) (ms : List Mark) : Prop where
  journal : t.journal = ms ++ s.journal
  figure : ∀ f, f.isOfSubmissions = false → t.figure f = s.figure f + ms.countP f.counts
  once : ∀ f, ms.countP (Figure.counts f) ≤ 1

namespace Tallied

theorem of_sameBack (h : SameBack s t) : ∃ ms, Tallied s t ms := by
  obtain ⟨ms, hj, hm⟩ := h.marks
  have h0 : ∀ f, ms.countP (Figure.counts f) = 0 := fun f =>
    List.countP_eq_zero.mpr fun m hi => by simp [f.counts_of_isFront (hm m hi)]
  refine ⟨ms, hj, fun f hf => ?_, fun f => by rw [h0]; exact Nat.zero_le 1⟩
  rw [h0, Nat.add_zero]
  cases f with
  | direct | dispatched => cases hf
  | completed => exact h.completed
  | failed => exact h.failed
  | panicked => exact h.panicked
  | delivered => exact congrArg Registry.delivered h.registry
  | missed => exact congrArg Registry.missed h.registry

/-- A step that notes nothing, or one mark that no figure counts. -/
theorem of_uncounted {ms : List Mark} (hj : t.journal = ms ++ s.journal)
    (hm : ∀ f, ms.countP (Figure.counts f) = 0) (hc : t.counters = s.counters)
    (hd : t.registry.delivered = s.registry.delivered)
    (hr : t.registry.missed = s.registry.missed) : Tallied s t ms := by
  refine ⟨hj, fun f _ => ?_, fun f => by rw [hm]; exact Nat.zero_le 1⟩
  rw [hm, Nat.add_zero]
  cases f <;> simp only [State.figure, hc, hd, hr]

/-- A turn of a notification, perhaps begun by a mark that no figure counts. -/
theorem of_turn {turn : Turn} (source : Source) (ms : List Mark)
    (hj : t.journal = (turn.signs.map (Mark.sign source)).reverse ++ ms ++ s.journal)
    (hm : ∀ f, ms.countP (Figure.counts f) = 0) (hc : t.counters = s.counters)
    (hr : t.registry = turn.registry) (hk : s.registry.Counts turn)
    (hl : turn.signs.length ≤ 1) :
    Tallied s t ((turn.signs.map (Mark.sign source)).reverse ++ ms) := by
  refine ⟨hj, fun f hf => ?_, fun f => ?_⟩
  · rw [List.countP_append, hm, Nat.add_zero, List.countP_reverse, List.countP_map]
    cases f with
    | direct | dispatched => cases hf
    | completed | failed | panicked => simp [State.figure, hc, Figure.counts, Function.comp_def]
    | delivered =>
      rw [Figure.delivered_counts_sign]
      exact (congrArg Registry.delivered hr).trans hk.delivered
    | missed =>
      rw [Figure.missed_counts_sign]
      exact (congrArg Registry.missed hr).trans hk.missed
  · rw [List.countP_append, hm, Nat.add_zero, List.countP_reverse]
    exact (List.countP_le_length).trans (by simpa using hl)

end Tallied

theorem TaskMove.tallied {x : Task} (m : TaskMove s x a t) : ∃ ms, Tallied s t ms := by
  cases m with
  | resume | go | finish | pass | cancel =>
    exact ⟨[], .of_uncounted rfl (fun _ => rfl) rfl rfl rfl⟩
  | log | resolve =>
    refine ⟨[_], .of_uncounted rfl (fun f => ?_) rfl rfl rfl⟩
    cases f <;> rfl
  | @record o =>
    refine ⟨[.recorded x.id o], rfl, fun f hf => ?_, fun f => List.countP_le_length⟩
    cases o <;> cases f <;> rfl
  | @notify e w =>
    have hn : ∀ f, [Mark.notify (.task x.id) w].countP (Figure.counts f) = 0 := fun f => by
      cases f <;> rfl
    refine ⟨_, .of_turn (.task x.id) _ ?_ hn ?_ ?_ (s.registry.notify_counts w)
      (s.registry.notify_signs_length w).le⟩ <;> simp [State.setStage, State.note]
  | @react e i =>
    refine ⟨_, .of_turn (.task x.id) [] ?_ (fun _ => rfl) ?_ ?_ (s.registry.step_counts i)
      (s.registry.step_signs_length i)⟩ <;> simp [State.setStage]
  | cancelUnwinding =>
    refine ⟨[.cancelledUnwinding x.id], rfl, fun f hf => ?_, fun f => List.countP_le_length⟩
    cases f <;> rfl

theorem OutsideMove.tallied (m : OutsideMove s a t) : ∃ ms, Tallied s t ms := by
  cases m with
  | notify n w notices =>
    have hn : ∀ f, [Mark.notify (.thread n) w].countP (Figure.counts f) = 0 := fun f => by
      cases f <;> rfl
    refine ⟨_, .of_turn (.thread n) _ ?_ hn ?_ ?_ (s.registry.notify_counts w)
      (s.registry.notify_signs_length w).le⟩ <;> simp [State.note]
  | react n i notices =>
    refine ⟨_, .of_turn (.thread n) [] ?_ (fun _ => rfl) ?_ ?_ (s.registry.step_counts i)
      (s.registry.step_signs_length i)⟩ <;> simp
  | _ => exact ⟨[], .of_uncounted rfl (fun _ => rfl) rfl rfl rfl⟩

theorem Move.tallied (m : Move s a t) : ∃ ms, Tallied s t ms := by
  rcases m.split with h | h | ⟨x, -, h⟩
  · exact Tallied.of_sameBack h
  · exact h.tallied
  · exact h.tallied

/-- The figures about ends and notifications count marks of the journal. -/
theorem State.Reachable.figure_eq (h : s.Reachable) {f : Figure} (hf : f.isOfSubmissions = false) :
    s.figure f = s.journal.countP f.counts := by
  refine State.Reachable.induct (P := fun s => s.figure f = s.journal.countP f.counts)
    (fun pools color => ?_) (fun s a t _ ih m => ?_) h
  · cases f <;> rfl
  · -- the marks of the step are what the figure moves by
    obtain ⟨ms, hm⟩ := m.tallied
    rw [hm.figure f hf, hm.journal, List.countP_append, ih, Nat.add_comm]

/-! ## Log events -/

/-- The figure that goes with a log event. -/
def LogEvent.figure? : LogEvent → Option Figure
  | .wakeDropped _ => some .missed
  | .taskFailed _ _ => some .failed
  | .taskPanicked => some .panicked
  | .callableFailed _ _ => none

/-- The figures that only move together with a log event. -/
def Figure.isLogged : Figure → Bool
  | .failed | .panicked | .missed => true
  | _ => false

theorem Figure.counts_eq_log {f : Figure} (hf : f.isLogged) (m : Mark) :
    f.counts m = (m.log?.map fun e => e.figure? == some f).getD false := by
  cases f <;> cases hf <;> cases m <;> first | rfl | (rename_i x; cases x <;> rfl)

/-- A failure, a panic and a missed notification is counted as often as it is logged. -/
theorem State.Reachable.countP_logs (h : s.Reachable) {f : Figure} (hf : f.isLogged) :
    s.logs.countP (fun e => e.figure? == some f) = s.figure f := by
  have hs : f.isOfSubmissions = false := by cases f <;> first | rfl | cases hf
  rw [h.figure_eq hs, State.logs, List.countP_filterMap, State.history, List.countP_reverse]
  exact List.countP_congr fun m _ => by rw [Figure.counts_eq_log hf]

/-! ## No figure goes back -/

/-- The count of submissions on either way, and the next id, go up by one at most. -/
structure FrontAdvance (s t : State) : Prop where
  direct : t.counters.direct = s.counters.direct ∨ t.counters.direct = s.counters.direct + 1
  dispatched : t.counters.dispatched = s.counters.dispatched ∨
    t.counters.dispatched = s.counters.dispatched + 1
  nextId : t.nextId = s.nextId ∨ t.nextId = s.nextId + 1

theorem FrontAdvance.of_eq (hc : t.counters = s.counters) (hn : t.nextId = s.nextId) :
    FrontAdvance s t :=
  ⟨.inl (by rw [hc]), .inl (by rw [hc]), .inl hn⟩

theorem FrontAdvance.of_sameFront (h : SameFront s t) : FrontAdvance s t :=
  ⟨.inl h.direct, .inl h.dispatched, .inl h.nextId⟩

theorem CallMove.frontAdvance {x : Call} (m : CallMove s x t) : FrontAdvance s t := by
  cases m with
  | refuse | launch | abandon | unlock =>
    exact .of_eq (State.answer_counters _ _ _) (State.answer_nextId _ _ _)
  | allow | lock | send | receive => exact .of_eq rfl rfl
  | number => exact ⟨.inl rfl, .inl rfl, .inr rfl⟩
  | count => exact ⟨.inr rfl, .inl rfl, .inl rfl⟩

theorem WorkerMove.frontAdvance (m : WorkerMove s t) : FrontAdvance s t := by
  cases m with
  | take | leave | launch | lose | publish => exact .of_eq rfl rfl
  | number => exact ⟨.inl rfl, .inl rfl, .inr rfl⟩
  | count => exact ⟨.inl rfl, .inr rfl, .inl rfl⟩

theorem Move.frontAdvance (m : Move s a t) : FrontAdvance s t := by
  cases m with
  | outside m => exact .of_sameFront m.sameFront
  | task _ m => exact .of_sameFront m.sameFront
  | call _ m => exact m.frontAdvance
  | worker m => exact m.frontAdvance
  | ask | askInside | close | drop => exact .of_eq rfl rfl

/-- A step leaves a figure as it is or moves it up by one. -/
theorem Move.figure_advance (m : Move s a t) (f : Figure) :
    s.figure f ≤ t.figure f ∧ t.figure f ≤ s.figure f + 1 := by
  have hf := m.frontAdvance
  obtain ⟨ms, hm⟩ := m.tallied
  cases hs : f.isOfSubmissions with
  | true =>
    cases f with
    | direct => rcases hf.direct with h | h <;> simp [State.figure, h]
    | dispatched => rcases hf.dispatched with h | h <;> simp [State.figure, h]
    | completed | failed | panicked | delivered | missed => cases hs
  | false =>
    have h1 := hm.once f
    rw [hm.figure f hs]
    omega

/-- No figure ever goes back. -/
theorem Leads.figure_le (h : Leads s t) (f : Figure) : s.figure f ≤ t.figure f := by
  induction h with
  | here => exact le_rfl
  | step _ hs ih => exact ih.trans ((move_of_step? hs).figure_advance f).1

/-- No figure and no id is more than the number of steps since the beginning. -/
theorem figure_le_of_after? {as : List Action} (h : s.after? as = some t) :
    (∀ f, t.figure f ≤ s.figure f + as.length) ∧ t.nextId ≤ s.nextId + as.length := by
  induction as generalizing s with
  | nil =>
    obtain rfl := Option.some.inj h
    exact ⟨fun f => le_rfl, le_rfl⟩
  | cons a as ih =>
    obtain ⟨u, hu, h⟩ := Option.bind_eq_some_iff.mp h
    obtain ⟨hf, hn⟩ := ih h
    have m := move_of_step? hu
    rw [List.length_cons]
    refine ⟨fun f => ?_, ?_⟩
    · have h1 := hf f
      have h2 := (m.figure_advance f).2
      omega
    · rcases m.frontAdvance.nextId with e | e <;> omega

end TaskRelay
