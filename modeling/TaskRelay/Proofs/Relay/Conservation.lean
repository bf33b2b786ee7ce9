import Mathlib
import TaskRelay.Proofs.Relay.Census
import TaskRelay.Proofs.Relay.Completion
import TaskRelay.Proofs.Relay.Submissions

/-!
# Conservation of tasks in the statistics

Every task is counted where it was submitted, and once more where it ended unless its pool dropped
it. A submission is counted before its task exists, and an end after the callable is over, so
between steps the figures may lag behind, but only in one direction; when nobody is in the middle of
something, they add up.
Main statement: `conserved`.
-/

namespace TaskRelay

variable {s t : State} {u : Task} {a : Action}

/-! ## A figure is the sum of what is due to the tasks -/

section sum

variable {l : List Mark} {ids : List Nat} {p : Mark → Bool}

theorem isOf_unique {m : Mark} {i j : Nat} (hi : m.isOf i) (hj : m.isOf j) : i = j := by
  cases m with
  | notify source | sign source =>
    cases source <;> simp_all [Mark.isOf]
  | _ => simp_all [Mark.isOf]

/-- Of distinct ids a mark is about one. -/
theorem countP_isOf (hd : ids.Nodup) {m : Mark} {id : Nat} (hid : id ∈ ids) (hm : m.isOf id) :
    ids.countP (fun i => m.isOf i) = 1 := by
  rw [← List.count_eq_one_of_mem hd hid, List.count]
  apply List.countP_congr
  intro i _
  rw [beq_iff_eq]
  exact ⟨fun hi => isOf_unique hi hm, fun e => e ▸ hm⟩

/-- If each of the marks is about one of the ids, they are counted id by id. -/
theorem countP_eq_sum (hd : ids.Nodup) (h : ∀ m ∈ l, p m → ∃ id ∈ ids, m.isOf id) :
    l.countP p = (ids.map fun id => (l.filter (Mark.isOf id)).countP p).sum := by
  induction l with
  | nil => simp
  | cons m l ih =>
    have ih := ih fun m hm => h m (List.mem_cons_of_mem _ hm)
    -- of the sum only the summand of the one id that the mark is about moves
    have hsplit : ∀ id, ((m :: l).filter (Mark.isOf id)).countP p =
        (l.filter (Mark.isOf id)).countP p + if (m.isOf id && p m) then 1 else 0 := by
      intro id
      cases hm : m.isOf id <;> simp [hm, List.countP_cons]
    have hone : ids.countP (fun id => m.isOf id && p m) = if p m then 1 else 0 := by
      cases hp : p m with
      | false => simp
      | true =>
        obtain ⟨id, hid, hm⟩ := h m (List.mem_cons_self ..) hp
        simpa using countP_isOf hd hid hm
    simp only [hsplit]
    rw [List.sum_map_add, sum_map_ite, hone, ← ih, List.countP_cons]

end sum

theorem exists_isOf_of_counts {f : Figure} (hf : f.isOfEnds) {m : Mark} (h : f.counts m) :
    ∃ id, m.isOf id := by
  cases m with
  | recorded id | cancelledUnwinding id => exact ⟨id, by simp [Mark.isOf]⟩
  | sign source x => cases f <;> first | cases h | cases hf
  | _ => cases f <;> cases h

theorem State.Reachable.figure_eq_sum (h : s.Reachable) {f : Figure} (hf : f.isOfEnds) :
    s.figure f = (s.tasks.map fun u => s.share f u.id).sum := by
  have hs : f.isOfSubmissions = false := by cases f <;> first | rfl | cases hf
  have hsum : s.history.countP f.counts =
      ((s.tasks.map Task.id).map fun id => s.share f id).sum := by
    apply countP_eq_sum h.coherent.ids_nodup
    intro m hm hp
    obtain ⟨id, hid⟩ := exists_isOf_of_counts hf hp
    refine ⟨id, ?_, hid⟩
    -- nothing is counted of a task that does not exist
    by_contra hn
    have hl : m ∈ s.life id := List.mem_filter.mpr ⟨hm, hid⟩
    rw [h.lives.others id hn] at hl
    cases hl
  rw [h.figure_eq hs, ← List.countP_reverse]
  exact hsum.trans (by rw [List.map_map]; rfl)

/-! ## What is due to one task -/

namespace State.Reachable

theorem share_eq_zero (h : s.Reachable) (hu : u ∈ s.tasks) (hs : u.stage.recorded? = none)
    (f : Figure) : s.share f u.id = 0 := by
  rw [State.share, h.lives.life_eq_nil hu hs]
  rfl

theorem share_of_outcome (h : s.Reachable) (hu : u ∈ s.tasks) {o : Outcome}
    (hs : u.stage.recorded? = some (.outcome o)) {f : Figure} (hf : f.isOfEnds) :
    s.share f u.id = if f = o.figure then 1 else 0 := by
  obtain ⟨l₁, -, hen, -, hcount⟩ := (h.lives.tasks u hu).exists_entered hs
  rw [State.share, hcount f hf, hen.countP_of_outcome]

/-- No task is counted twice. -/
theorem share_add_le_one (h : s.Reachable) (hu : u ∈ s.tasks) :
    s.share .completed u.id + s.share .failed u.id + s.share .panicked u.id ≤ 1 := by
  cases hs : u.stage.recorded? with
  | none => simp [h.share_eq_zero hu hs]
  | some e =>
    cases e with
    | outcome o =>
      rw [h.share_of_outcome hu hs rfl, h.share_of_outcome hu hs rfl, h.share_of_outcome hu hs rfl]
      cases o <;> simp [Outcome.figure]
    | cancelled =>
      obtain ⟨l₁, -, hen, -, hcount⟩ := (h.lives.tasks u hu).exists_entered hs
      rw [State.share, State.share, State.share, hcount _ rfl, hcount _ rfl, hcount _ rfl]
      cases hen with
      | cancelled => exact Nat.zero_le 1
      | unwound => exact Nat.le_refl 1

theorem ends_le_tasks (h : s.Reachable) :
    s.figure .completed + s.figure .failed + s.figure .panicked ≤ s.tasks.length := by
  rw [h.figure_eq_sum rfl, h.figure_eq_sum rfl, h.figure_eq_sum rfl, ← List.sum_map_add,
    ← List.sum_map_add]
  refine (List.sum_le_card_nsmul _ 1 fun n hn => ?_).trans (by simp)
  obtain ⟨u, hu, rfl⟩ := List.mem_map.mp hn
  exact h.share_add_le_one hu

end State.Reachable

/-! ## At rest -/

/-- What becomes of a task, by what its handle gives or would give. -/
inductive Fate where
  | live
  | completed
  | failed
  | panicked
  | cancelled
deriving DecidableEq

def Ending.fate (e : Ending) : Fate :=
  match e.result with
  | .ok _ => .completed
  | .error (.failed _) => .failed
  | .error (.panicked _) => .panicked
  | .error .cancelled => .cancelled

def Task.fate (u : Task) : Fate := (u.stage.decided?.map Ending.fate).getD .live

/-- How many of the tasks came to this. -/
def State.countOf (s : State) (f : Fate) : Nat := s.tasks.countP fun u => u.fate = f

/-- Within a poll: on a thread, or at the end of the last poll. -/
def Stage.isPolled : Stage → Bool
  | .suspended _ | .resolved _ => false
  | .recorded .cancelled | .notifying .cancelled _ | .notified .cancelled => false
  | _ => true

/-- No submission and no poll of a task is under way. -/
structure State.AtRest (s : State) : Prop where
  calls : s.calls = []
  tasks : ∀ u ∈ s.tasks, u.stage.isPolled = false

/-- The fate that a figure counts. -/
def Figure.fate : Figure → Fate
  | .completed => .completed
  | .failed => .failed
  | .panicked => .panicked
  | _ => .live

theorem Stage.recorded?_eq {stage : Stage} (h : stage.isPolled = false) :
    stage.recorded? = stage.decided? := by
  cases stage <;> first | rfl | cases h

/-- Each task is of one of the five fates. -/
theorem countOf_sum (s : State) : s.countOf .completed + s.countOf .failed + s.countOf .panicked +
    s.countOf .cancelled + s.countOf .live = s.tasks.length := by
  unfold State.countOf
  induction s.tasks with
  | nil => rfl
  | cons u l ih =>
    simp only [List.countP_cons, List.length_cons]
    cases u.fate <;> simp <;> omega

theorem Ending.fate_outcome (o : Outcome) {f : Figure} (hf : f.isOfEnds) :
    (Ending.outcome o).fate = f.fate ↔ f = o.figure := by
  cases f with
  | direct | dispatched | delivered | missed => cases hf
  | completed | failed | panicked =>
    cases o <;> simp [Ending.fate, Ending.result, Figure.fate, Outcome.figure]

namespace State.Reachable

/-- At rest a task is counted by the figure of its fate. -/
theorem share_eq (h : s.Reachable) (hr : s.AtRest) (hu : u ∈ s.tasks)
    (hc : .cancelledUnwinding u.id ∉ s.journal) {f : Figure} (hf : f.isOfEnds) :
    s.share f u.id = if u.fate = f.fate then 1 else 0 := by
  have hd := Stage.recorded?_eq (hr.tasks u hu)
  rw [Task.fate, ← hd]
  cases hs : u.stage.recorded? with
  | none =>
    rw [h.share_eq_zero hu hs]
    cases f <;> first | rfl | cases hf
  | some e =>
    cases e with
    | outcome o =>
      rw [h.share_of_outcome hu hs hf, Option.map_some, Option.getD_some]
      simp only [Ending.fate_outcome o hf]
    | cancelled =>
      obtain ⟨l₁, l₂, hen, heq, hcount⟩ := (h.lives.tasks u hu).exists_entered hs
      rw [State.share, hcount f hf]
      cases hen with
      | cancelled => cases f <;> rfl
      | unwound =>
        have hm : .cancelledUnwinding u.id ∈ s.life u.id := by
          rw [heq]
          exact List.mem_cons_self ..
        exact absurd (mem_journal_of_mem_life hm) hc

/-- At rest a figure about ends is the number of tasks that came to this. -/
theorem figure_eq_countOf (h : s.Reachable) (hr : s.AtRest)
    (hc : ∀ id, .cancelledUnwinding id ∉ s.journal) {f : Figure} (hf : f.isOfEnds) :
    s.figure f = s.countOf f.fate := by
  rw [h.figure_eq_sum hf, State.countOf, ← sum_map_ite]
  congr 1
  apply List.map_congr_left
  intro u hu
  rw [h.share_eq hr hu (hc u.id) hf]
  simp

/-- At rest every id that was drawn is that of a task. -/
theorem census_at_rest (h : s.Reachable) (hr : s.AtRest) :
    s.figure .direct + s.figure .dispatched = s.tasks.length ∧ s.nextId = s.tasks.length := by
  have hv : s.dispatch.worker.id? = none ∧ s.dispatch.worker.isCounted = false := by
    rcases h.handover.phase with hv | ⟨x, p, hp⟩
    · rcases hv.worker with hw | ⟨hw, -⟩ <;> rw [hw] <;> exact ⟨rfl, rfl⟩
    · have := hp.mem
      rw [hr.calls] at this
      cases this
  have h1 := h.census.counted
  have h2 := h.census.nextId
  simp only [State.under, hr.calls, hv.1, hv.2, List.countP_nil] at h1 h2
  exact ⟨h1, h2⟩

end State.Reachable

/-! ## Conservation -/

structure Conserved (as : List Action) (s : State) : Prop where
  /-- At any time as many have ended as were submitted, or fewer, and as many were submitted as ids
  were drawn, or fewer. -/
  order : s.figure .completed + s.figure .failed + s.figure .panicked ≤
      s.figure .direct + s.figure .dispatched ∧
    s.figure .direct + s.figure .dispatched ≤ s.nextId
  /-- No figure ever goes back. -/
  forward : ∀ t, Leads s t → ∀ f, s.figure f ≤ t.figure f
  /-- A count of 64 bits does not overflow in a run of fewer steps than that. -/
  bounded : (∀ f, s.figure f ≤ as.length) ∧ s.nextId ≤ as.length
  logs : s.logs.countP (fun e => e.level == .warn && e.message == "Task failed") =
      s.figure .failed ∧
    s.logs.countP (fun e => e.level == .warn && e.message == "Task panicked") =
      s.figure .panicked ∧
    s.logs.countP (fun e => e.figure? == some .missed) = s.figure .missed
  submissions : s.AtRest → s.acceptedIds.Perm (s.tasks.map Task.id) ∧
    s.figure .direct + s.figure .dispatched = s.acceptedIds.length ∧
      s.nextId = s.acceptedIds.length
  ends : s.AtRest → s.figure .completed = s.countOf .completed ∧
    s.figure .failed = s.countOf .failed ∧ s.figure .panicked = s.countOf .panicked
  sum : s.AtRest → s.figure .completed + s.figure .failed + s.figure .panicked +
    s.countOf .cancelled + s.countOf .live = s.figure .direct + s.figure .dispatched

theorem warned_failed (e : LogEvent) :
    (e.level == .warn && e.message == "Task failed") = (e.figure? == some .failed) := by
  cases e <;> rfl

theorem warned_panicked (e : LogEvent) :
    (e.level == .warn && e.message == "Task panicked") = (e.figure? == some .panicked) := by
  cases e <;> rfl

theorem conserved {site : Site} {hosted : Bool} {settings : Settings} {first : State}
    {as : List Action} (hfirst : State.startWith site hosted settings = .running first)
    (hs : first.after? as = some s) (hcalm : ∀ id, .cancel id true ∉ as) : Conserved as s := by
  have h : s.Reachable := ⟨site, hosted, settings, first, hfirst, leads_of_after? hs⟩
  have hc : ∀ id, .cancelledUnwinding id ∉ s.journal :=
    fun id hm => hcalm id (unwinding_of_run hfirst hs hm)
  have hends : s.AtRest → ∀ f : Figure, f.isOfEnds → s.figure f = s.countOf f.fate :=
    fun hr f hf => h.figure_eq_countOf hr hc hf
  refine ⟨⟨?_, h.census.counted_le⟩, fun t ht f => ht.figure_le f, ?_, ⟨?_, ?_, ?_⟩,
    fun hr => ?_, fun hr => ⟨?_, ?_, ?_⟩, fun hr => ?_⟩
  · exact h.ends_le_tasks.trans h.census.tasks_le
  · obtain rfl := eq_start_of_startWith hfirst
    obtain ⟨hf, hn⟩ := figure_le_of_after? hs
    refine ⟨fun f => (hf f).trans ?_, hn.trans ?_⟩
    · cases f <;> exact (Nat.zero_add _).le
    · exact (Nat.zero_add _).le
  · simp only [warned_failed]
    exact h.countP_logs rfl
  · simp only [warned_panicked]
    exact h.countP_logs rfl
  · exact h.countP_logs rfl
  · have hp := h.acceptedIds_perm hr.calls
    have hl := hp.length_eq
    rw [List.length_map] at hl
    obtain ⟨hd, hn⟩ := h.census_at_rest hr
    exact ⟨hp, hd.trans hl.symm, hn.trans hl.symm⟩
  · exact hends hr .completed rfl
  · exact hends hr .failed rfl
  · exact hends hr .panicked rfl
  · rw [hends hr .completed rfl, hends hr .failed rfl, hends hr .panicked rfl,
      (h.census_at_rest hr).1]
    exact countOf_sum s

/-- A value, a failure and a panic, a task that is dropped and one that is still to be. -/
def fiveFates : List Action := List.flatten [
  [.submit 0 .direct (.comingTo (.value .null) none)], List.replicate 4 (.call (.thread 0)),
  List.replicate 5 (.task 0), [.submit 0 .direct (.comingTo (.failure (.message "no")) none)],
  List.replicate 4 (.call (.thread 0)), List.replicate 5 (.task 1),
  [.submit 0 .serial (.comingTo (.panic .other) none)], List.replicate 3 (.call (.thread 0)),
  List.replicate 5 .worker, List.replicate 2 (.call (.thread 0)), List.replicate 5 (.task 2),
  [.submit 0 .direct (.comingTo (.value .null) none)], List.replicate 4 (.call (.thread 0)),
  [.submit 0 .direct (.comingTo (.value .null) none)], List.replicate 4 (.call (.thread 0)),
  [.drop, .cancel 3 false], List.replicate 2 (.task 3)]

theorem conserved_fiveFates : ∃ s, State.plain.after? fiveFates = some s ∧ s.AtRest ∧
    s.figures = [4, 1, 1, 1, 1, 0, 0] ∧ s.countOf .cancelled = 1 ∧ s.countOf .live = 1 ∧
      Conserved fiveFates s := by
  obtain ⟨s, hs, -, hc, ht, hf, h1, h2⟩ := exists_run (P := fun s =>
    s.calls.isEmpty ∧ (s.tasks.all fun u => !u.stage.isPolled) ∧
      s.figures = [4, 1, 1, 1, 1, 0, 0] ∧ s.countOf .cancelled = 1 ∧ s.countOf .live = 1)
      fiveFates (by decide +kernel)
  have hfirst : State.startWith .generous false (.default .one) = .running .plain := rfl
  have hcalm : ∀ id, .cancel id true ∉ fiveFates := by
    intro id hm
    simp [fiveFates] at hm
  have hrest : s.AtRest := ⟨List.isEmpty_iff.mp hc, by simpa using ht⟩
  exact ⟨s, hs, hrest, hf, h1, h2, conserved hfirst hs hcalm⟩

end TaskRelay
