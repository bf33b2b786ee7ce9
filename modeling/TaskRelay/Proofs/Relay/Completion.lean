import Mathlib
import TaskRelay.Proofs.Relay.Life
import TaskRelay.Wake.Observer

/-!
# The order of the end of a task

The outcome of a task is counted and logged before its callback is called, and the callback has
returned and is counted before the handle has a result. So the callback sees its own task counted,
and whoever has the result sees the notification counted. A task that its pool dropped is told of in
the same order, but has no outcome to be counted.
Main statement: `endsInOrder`.
-/

namespace TaskRelay

variable {s t : State} {u : Task} {a : Action}

/-! ## What of a figure is due to one task -/

/-- The figure that counts this outcome. -/
def Outcome.figure : Outcome → Figure
  | .value _ => .completed
  | .failure _ => .failed
  | .panic _ => .panicked

/-- The figures that count the ends of tasks. -/
def Figure.isOfEnds : Figure → Bool
  | .completed | .failed | .panicked => true
  | _ => false

/-- How much of a figure is due to the task with this id. -/
def State.share (s : State) (f : Figure) (id : Nat) : Nat := (s.life id).countP f.counts

theorem State.Reachable.share_le (h : s.Reachable) {f : Figure} (hf : f.isOfSubmissions = false)
    (id : Nat) : s.share f id ≤ s.figure f := by
  rw [h.figure_eq hf, ← List.countP_reverse]
  exact List.filter_sublist.countP_le

theorem Entered.countP_of_outcome {id : Nat} {o : Outcome} {l : List Mark}
    (h : Entered id (.outcome o) l) (f : Figure) :
    l.countP f.counts = if f = o.figure then 1 else 0 := by
  cases h
  cases o <;> cases f <;> rfl

theorem Told.countP_of_isOfEnds {id n : Nat} {wake : Option WakePointer} {l : List Mark}
    (h : Told id wake n l) {f : Figure} (hf : f.isOfEnds) : l.countP f.counts = 0 := by
  rw [List.countP_eq_zero]
  cases h with
  | nobody => simp
  | notify =>
    intro m hm
    rcases List.mem_cons.mp hm with rfl | hm
    · cases f <;> simp [Figure.counts]
    · obtain ⟨x, -, rfl⟩ := List.mem_map.mp hm
      cases f <;> simp [Figure.counts] <;> cases hf

theorem Entered.countP_of_not_isOfEnds {id : Nat} {e : Ending} {l : List Mark} (h : Entered id e l)
    {f : Figure} (hf : f.isOfEnds = false) : l.countP f.counts = 0 := by
  cases h with
  | outcome o => cases o <;> cases f <;> first | rfl | cases hf
  | cancelled => rfl
  | unwound => cases f <;> first | rfl | cases hf

/-- A notification that is over was delivered, and nothing was missed. -/
theorem Told.delivered {id : Nat} {w : WakePointer} {l : List Mark} (h : Told id (some w) 0 l) :
    0 < l.countP Figure.delivered.counts ∧ l.countP Figure.missed.counts = 0 := by
  cases h with
  | notify hn =>
    rw [List.countP_cons, List.countP_cons, List.countP_map, List.countP_map,
      Figure.delivered_counts_sign, Figure.missed_counts_sign, hn.missed]
    exact ⟨Nat.lt_add_right _ hn.returned_pos, rfl⟩

/-- What is counted of the ends is counted when the end is entered. -/
theorem Life.exists_entered {id : Nat} {wake : Option WakePointer} {stage : Stage} {l : List Mark}
    {e : Ending} (h : Life id wake stage l) (he : stage.recorded? = some e) :
    ∃ l₁ l₂, Entered id e l₁ ∧ l = l₁ ++ l₂ ∧
      ∀ f : Figure, f.isOfEnds → l.countP f.counts = l₁.countP f.counts := by
  cases h with
  | live hs =>
    rw [hs] at he
    cases he
  | recorded h =>
    obtain rfl := Option.some.inj he
    exact ⟨l, [], h, (List.append_nil l).symm, fun _ _ => rfl⟩
  | notifying h ht | notified h ht =>
    obtain rfl := Option.some.inj he
    refine ⟨_, _, h, rfl, fun f hf => ?_⟩
    rw [List.countP_append, ht.countP_of_isOfEnds hf, Nat.add_zero]
  | resolved h ht =>
    obtain rfl := Option.some.inj he
    refine ⟨_, _, h, List.append_assoc _ _ _, fun f hf => ?_⟩
    rw [List.countP_append, List.countP_append, ht.countP_of_isOfEnds hf]
    cases f <;> rfl

/-! ## What is logged of one task -/

def Outcome.events (id : Nat) : Outcome → List LogEvent
  | .value _ => []
  | .failure f => [.taskFailed id f]
  | .panic _ => [.taskPanicked]

theorem Outcome.level_of_mem_events {id : Nat} {o : Outcome} {event : LogEvent}
    (h : event ∈ o.events id) : event.level = .warn := by
  cases o with
  | value => cases h
  | failure | panic =>
    obtain rfl := List.mem_singleton.mp h
    rfl

theorem Told.logs {id n : Nat} {wake : Option WakePointer} {l : List Mark} (h : Told id wake n l) :
    l.filterMap Mark.log? = [] := by
  rw [List.filterMap_eq_nil_iff]
  intro m hm
  cases h with
  | nobody => cases hm
  | notify hn =>
    rcases List.mem_cons.mp hm with rfl | hm
    · rfl
    · obtain ⟨x, hx, rfl⟩ := List.mem_map.mp hm
      cases x with
      | missed w => exact absurd rfl (List.countP_eq_zero.mp hn.missed _ hx)
      | note | called | returned => rfl

/-- Its outcome is all that is logged of the end of a task. -/
theorem Life.logs {id : Nat} {wake : Option WakePointer} {stage : Stage} {l : List Mark}
    {o : Outcome} (h : Life id wake stage l) (ho : stage.recorded? = some (.outcome o)) :
    l.filterMap Mark.log? = o.events id := by
  have hentered : ∀ {l : List Mark}, Entered id (.outcome o) l →
      l.filterMap Mark.log? = o.events id := by
    rintro _ ⟨⟩
    cases o <;> rfl
  cases h with
  | live hs =>
    rw [hs] at ho
    cases ho
  | recorded h =>
    obtain rfl := Option.some.inj ho
    exact hentered h
  | notifying h ht | notified h ht =>
    obtain rfl := Option.some.inj ho
    rw [List.filterMap_append, hentered h, ht.logs, List.append_nil]
  | resolved h ht =>
    obtain rfl := Option.some.inj ho
    rw [List.filterMap_append, List.filterMap_append, hentered h, ht.logs, List.append_nil]
    exact List.append_nil _

theorem State.sublist_logs (s : State) (id : Nat) :
    ((s.life id).filterMap Mark.log?).Sublist s.logs :=
  List.filter_sublist.filterMap _

/-! ## Tasks dropped on an unwinding thread -/

/-- Only an unwinding thread leaves this mark when it drops a task. -/
theorem Move.unwinding (m : Move s a t) {id : Nat} (h : .cancelledUnwinding id ∈ t.journal) :
    .cancelledUnwinding id ∈ s.journal ∨ a = .cancel id true := by
  rcases m.split with hb | hm | ⟨x, -, hm⟩
  · obtain ⟨ms, hj, hf⟩ := hb.marks
    rw [hj, List.mem_append] at h
    rcases h with h | h
    · cases hf _ h
    · exact .inl h
  · cases hm with
    | notify | react => simpa [State.note] using h
    | _ => exact .inl h
  · cases hm with
    | notify | react => simpa [State.setStage, State.note] using h
    | cancelUnwinding =>
      rcases List.mem_cons.mp h with h | h
      · obtain rfl := Mark.cancelledUnwinding.inj h
        exact .inr rfl
      · exact .inl h
    | log | record | resolve => simpa [State.setStage, State.note] using h
    | _ => exact .inl h

theorem unwinding_of_after? {as : List Action} (hs : s.after? as = some t) {id : Nat}
    (h : .cancelledUnwinding id ∈ t.journal) :
    .cancelledUnwinding id ∈ s.journal ∨ .cancel id true ∈ as := by
  induction as generalizing s with
  | nil =>
    obtain rfl := Option.some.inj hs
    exact .inl h
  | cons a as ih =>
    obtain ⟨v, hv, hs⟩ := Option.bind_eq_some_iff.mp hs
    rcases ih hs with h | h
    · rcases (move_of_step? hv).unwinding h with h | rfl
      · exact .inl h
      · exact .inr (List.mem_cons_self ..)
    · exact .inr (List.mem_cons_of_mem _ h)

theorem unwinding_of_run {site : Site} {hosted : Bool} {settings : Settings} {first : State}
    {as : List Action} (hfirst : State.startWith site hosted settings = .running first)
    (hs : first.after? as = some s) {id : Nat} (h : .cancelledUnwinding id ∈ s.journal) :
    .cancel id true ∈ as := by
  obtain rfl := eq_start_of_startWith hfirst
  exact (unwinding_of_after? hs h).resolve_left (by rintro ⟨⟩)

/-! ## The order -/

structure EndsInOrder (as : List Action) (s : State) (u : Task) : Prop where
  /-- The marks about its end stand in one order, and there are no others. -/
  life : Life u.id u.envelope.wake u.stage (s.life u.id)
  /-- From before the notification on, its outcome is counted, and there is a warning if it is a
  failure or a panic. Nothing else is logged of it. -/
  recorded : ∀ o, u.stage.recorded? = some (.outcome o) → .recorded u.id o ∈ s.journal ∧
    s.share o.figure u.id = 1 ∧ (s.life u.id).filterMap Mark.log? = o.events u.id ∧
      (o.events u.id).Sublist s.logs ∧ ∀ event ∈ o.events u.id, event.level = .warn
  /-- What it adds to a figure is seen by whoever reads the figure. -/
  seen : ∀ f, f.isOfSubmissions = false → s.share f u.id ≤ s.figure f
  /-- Whoever has the result can see that the callback was called with the pointer and returned. -/
  result : ∀ e, s.ending? u.id = some e → ∀ w, u.envelope.wake = some w →
    (∃ l signs, Entered u.id e l ∧ Nesting w 0 signs ∧
      s.life u.id = l ++ .notify (.task u.id) w :: signs.map (Mark.sign (.task u.id)) ++
        [.resolved u.id e]) ∧
    0 < s.share .delivered u.id ∧ s.share .missed u.id = 0
  /-- No outcome is counted for a task that its pool dropped. Only a thread that was unwinding from
  another panic takes the drop for a panic of the task. -/
  dropped : u.stage.recorded? = some .cancelled → s.share .completed u.id = 0 ∧
    s.share .failed u.id = 0 ∧ (s.share .panicked u.id ≠ 0 → .cancel u.id true ∈ as)

theorem mem_journal_of_mem_life {id : Nat} {m : Mark} (h : m ∈ s.life id) : m ∈ s.journal :=
  List.mem_reverse.mp (List.mem_of_mem_filter h)

/-- Whoever gets a result from the handle gets it from a task that is through. -/
theorem Coherent.stage_of_ending? (h : Coherent s) (hu : u ∈ s.tasks) {e : Ending}
    (he : s.ending? u.id = some e) : u.stage = .resolved e := by
  rw [State.ending?, h.task?_eq hu, Option.bind_some, Task.ending?] at he
  cases hs : u.stage <;> rw [hs] at he <;> cases he
  rfl

/-- A task that was cancelled has no outcome to be counted. -/
theorem State.Reachable.share_of_cancelled (h : s.Reachable) (hu : u ∈ s.tasks)
    (hc : u.stage.recorded? = some .cancelled) : s.share .completed u.id = 0 ∧
      s.share .failed u.id = 0 ∧
        (s.share .panicked u.id ≠ 0 → .cancelledUnwinding u.id ∈ s.journal) := by
  obtain ⟨l₁, l₂, hen, heq, hcount⟩ := (h.lives.tasks u hu).exists_entered hc
  rw [State.share, State.share, State.share, hcount _ rfl, hcount _ rfl, hcount _ rfl]
  cases hen with
  | cancelled => exact ⟨rfl, rfl, fun hn => absurd rfl hn⟩
  | unwound =>
    have hm : .cancelledUnwinding u.id ∈ s.life u.id := by
      rw [heq]
      exact List.mem_cons_self ..
    exact ⟨rfl, rfl, fun _ => mem_journal_of_mem_life hm⟩

theorem endsInOrder {site : Site} {hosted : Bool} {settings : Settings} {first : State}
    {as : List Action} (hfirst : State.startWith site hosted settings = .running first)
    (hs : first.after? as = some s) (hu : u ∈ s.tasks) : EndsInOrder as s u := by
  have h : s.Reachable := ⟨site, hosted, settings, first, hfirst, leads_of_after? hs⟩
  have hl := h.lives.tasks u hu
  refine ⟨hl, fun o ho => ?_, fun f hf => h.share_le hf u.id, fun e he w hw => ?_, fun hc => ?_⟩
  · obtain ⟨l₁, l₂, hen, heq, hcount⟩ := hl.exists_entered ho
    have hlife : .recorded u.id o ∈ s.life u.id := by
      rw [heq]
      cases hen
      exact List.mem_cons_self ..
    have hlogs := hl.logs ho
    refine ⟨mem_journal_of_mem_life hlife, ?_, hlogs, hlogs ▸ s.sublist_logs u.id,
      fun _ => Outcome.level_of_mem_events⟩
    rw [State.share, hcount _ (by cases o <;> rfl), hen.countP_of_outcome, if_pos rfl]
  · -- with a result the task is through, and so is its notification
    rw [h.coherent.stage_of_ending? hu he, hw] at hl
    rw [State.share, State.share]
    generalize s.life u.id = l at hl ⊢
    cases hl with
    | live hs => cases hs
    | @resolved _ l l' hen ht =>
      have hd := ht.delivered
      rw [List.countP_append, List.countP_append, List.countP_append, List.countP_append,
        hen.countP_of_not_isOfEnds rfl, hen.countP_of_not_isOfEnds rfl, hd.2]
      refine ⟨?_, Nat.lt_add_right _ (Nat.lt_add_left _ hd.1), rfl⟩
      cases ht with
      | notify hn => exact ⟨_, _, hen, hn, rfl⟩
  · -- the mark of such an end is one that only an unwinding thread leaves
    obtain ⟨hcompleted, hfailed, hpanicked⟩ := h.share_of_cancelled hu hc
    exact ⟨hcompleted, hfailed, fun hn => unwinding_of_run hfirst hs (hpanicked hn)⟩

/-- A task fails, and its callback notifies in turn until nothing is left of the pointer. -/
def failureToldThrice : List Action := List.flatten [
  [.install Observer.halving.callback,
    .submit 0 .direct (.comingTo (.failure (.message "no")) (WakePointer.ofAddress? 4))],
  List.replicate 4 (.call (.thread 0)), List.replicate 16 (.task 0)]

theorem endsInOrder_failureToldThrice : ∃ s u, State.plain.after? failureToldThrice = some s ∧
    s.task? 0 = some u ∧ s.share .failed 0 = 1 ∧ s.logs = [.taskFailed 0 (.message "no")] ∧
      s.share .delivered 0 = 3 ∧ EndsInOrder failureToldThrice s u := by
  obtain ⟨s, hs, -, hu, hf, hlogs, hd⟩ := exists_run (P := fun s =>
    (s.task? 0).isSome ∧ s.share .failed 0 = 1 ∧ s.logs = [.taskFailed 0 (.message "no")] ∧
      s.share .delivered 0 = 3) failureToldThrice (by decide +kernel)
  obtain ⟨u, hu⟩ := Option.isSome_iff_exists.mp hu
  have hfirst : State.startWith .generous false (.default .one) = .running .plain := rfl
  exact ⟨s, u, hs, hu, hf, hlogs, hd, endsInOrder hfirst hs (task?_spec hu).1⟩

end TaskRelay
