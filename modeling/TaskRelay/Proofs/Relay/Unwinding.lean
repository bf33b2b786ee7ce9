import Mathlib
import TaskRelay.Proofs.Relay.Conservation
import TaskRelay.Proofs.Relay.Notification
import TaskRelay.Proofs.Relay.Replies

/-!
# What is counted as a panic

A task whose callable panicked is counted as panicked and logged so. But whether there was a panic
is asked of the thread and not of the callable. So the same happens to a task that had begun and
that its pool drops on a thread which is unwinding from some other panic, although nobody gets
anything but a cancellation from its handle (`cancelled_countedPanicked`), and to one whose callable
comes to another end on such a thread (`Audit`). There are no others.
Main statement: `panicsCounted`.
-/

namespace TaskRelay

variable {first s t : State} {a : Action} {u : Task} {as : List Action} {id : Nat}
variable {unwinding : Bool}

/-! ## Threads that are unwinding -/

/-- A relay with the tasks that are counted and logged as panicked although their callables came to
another end. -/
structure Audit where
  state : State
  strays : List Nat

/-- A step, and whether the thread that takes it is unwinding from a panic. Of a drop the action
says this itself. -/
structure Audit.Deed where
  action : Action
  unwinding : Bool

/-- The callable of this task has come to an end other than a panic, which this step enters. -/
def State.entering? (s : State) : Action → Option Nat
  | .task id =>
    match (s.task? id).map Task.stage with
    | some (.ended (.value _)) | some (.ended (.failure _)) => some id
    | _ => none
  | _ => none

namespace Audit

def step? (r : Audit) (d : Deed) : Option Audit :=
  (r.state.step? d.action).map fun t =>
    ⟨t, if d.unwinding then (r.state.entering? d.action).toList ++ r.strays else r.strays⟩

def after? (r : Audit) : List Deed → Option Audit
  | [] => some r
  | d :: ds => r.step? d >>= fun r => r.after? ds

def panicked (r : Audit) : Nat := r.state.figure .panicked + r.strays.length

/-- How often a panic is logged. -/
def warnings (r : Audit) : Nat := r.state.logs.count .taskPanicked + r.strays.length

/-- What of this is due to one task. -/
def share (r : Audit) (id : Nat) : Nat := r.state.share .panicked id + r.strays.count id

end Audit

/-- The callable panicked, and this is entered. -/
def Task.panicked (u : Task) : Bool :=
  match u.stage.recorded? with
  | some (.outcome (.panic _)) => true
  | _ => false

/-- A step of the run drops the task with this id, which had begun, on an unwinding thread. -/
def Unwound (first : State) (as : List Action) (id : Nat) : Prop :=
  ∃ before after v u, as = before ++ .cancel id true :: after ∧ first.after? before = some v ∧
    v.task? id = some u ∧ u.begun

/-- A step of the run enters the end of the task with this id, which is no panic, on an unwinding
thread. -/
def Strayed (first : State) (ds : List Audit.Deed) (id : Nat) : Prop :=
  ∃ before after v, ds = before ++ ⟨.task id, true⟩ :: after ∧
    first.after? (before.map Audit.Deed.action) = some v ∧ v.entering? (.task id) = some id

/-! ## The step that drops a task -/

/-- The task with this id is taken for one that panicked. -/
def State.blame (s : State) (id : Nat) : State :=
  { s with counters := { s.counters with panicked := s.counters.panicked + 1 } }.note
    (.cancelledUnwinding id)

theorem exists_of_cancel (h : s.step? (.cancel id unwinding) = some t) :
    ∃ u p, s.task? id = some u ∧ u.stage = .suspended p ∧
      t = (if unwinding && u.begun then s.blame u.id else s).setStage u.id
        (.recorded .cancelled) := by
  obtain ⟨u, hu, hc⟩ := Option.bind_eq_some_iff.mp h
  rw [State.cancel?] at hc
  cases hs : u.stage with
  | suspended p =>
    simp only [hs] at hc
    split_ifs at hc with hup hun
    · exact ⟨u, p, hu, hs, by rw [if_pos hun]; exact (Option.some.inj hc).symm⟩
    · exact ⟨u, p, hu, hs, by rw [if_neg hun]; exact (Option.some.inj hc).symm⟩
  | _ =>
    simp only [hs] at hc
    cases hc

/-- A drop moves the figure and is logged only on an unwinding thread, if the task had begun. -/
theorem panicked_of_cancel (hu : s.task? u.id = some u)
    (h : s.step? (.cancel u.id unwinding) = some t) :
    t.figure .panicked = s.figure .panicked + (if unwinding && u.begun then 1 else 0) ∧
      t.logs = s.logs ++ if unwinding && u.begun then [.taskPanicked] else [] := by
  obtain ⟨v, p, hv, -, rfl⟩ := exists_of_cancel h
  obtain rfl := Option.some.inj (hv.symm.trans hu)
  split_ifs
  · refine ⟨rfl, ?_⟩
    simp [State.blame, State.logs, State.history, State.note, State.setStage, Mark.log?]
  · exact ⟨rfl, (List.append_nil _).symm⟩

/-! ## The mark of such a drop -/

/-- A drop of this kind leaves its mark for good. -/
theorem mem_journal_of_unwound (hs : first.after? as = some s) (h : Unwound first as id) :
    .cancelledUnwinding id ∈ s.journal := by
  obtain ⟨before, after, v, u, rfl, hv, hu, hb⟩ := h
  rw [after?_append, hv] at hs
  obtain ⟨w, hw, hs⟩ := Option.bind_eq_some_iff.mp
    (show (v.step? (.cancel id true)).bind _ = some s from hs)
  obtain ⟨u', p, hu', -, rfl⟩ := exists_of_cancel hw
  obtain rfl := Option.some.inj (hu'.symm.trans hu)
  rw [hb, Bool.true_and, if_pos rfl, (task?_spec hu).2] at hs
  have hm : .cancelledUnwinding id ∈ ((v.blame id).setStage id (.recorded .cancelled)).history :=
    List.mem_reverse.mpr (List.mem_cons_self ..)
  exact List.mem_reverse.mp ((leads_of_after? hs).history_isPrefix.subset hm)

/-- Nothing else leaves this mark. -/
theorem unwound_of_mem_journal (hf : .cancelledUnwinding id ∉ first.journal)
    (hs : first.after? as = some s) (h : .cancelledUnwinding id ∈ s.journal) :
    Unwound first as id := by
  induction as generalizing first with
  | nil =>
    obtain rfl := Option.some.inj hs
    exact absurd h hf
  | cons a as ih =>
    obtain ⟨v, hv, hs⟩ := Option.bind_eq_some_iff.mp hs
    by_cases hm : .cancelledUnwinding id ∈ v.journal
    · -- the first step is the drop
      obtain rfl := ((move_of_step? hv).unwinding hm).resolve_left hf
      obtain ⟨u, p, hu, -, rfl⟩ := exists_of_cancel hv
      refine ⟨[], as, first, u, rfl, rfl, hu, ?_⟩
      by_contra hb
      rw [Bool.true_and, if_neg hb] at hm
      exact hf hm
    · obtain ⟨before, after, w, u, rfl, hw, hu⟩ := ih hm hs
      refine ⟨a :: before, after, w, u, rfl, ?_, hu⟩
      show (first.step? a).bind _ = _
      rw [hv]
      exact hw

/-! ## What is counted of one task -/

/-- Of the marks about one task, this one is there if the task was cancelled and yet counted. -/
theorem Life.mem_unwinding_iff {wake : Option WakePointer} {stage : Stage} {l : List Mark}
    (h : Life id wake stage l) : .cancelledUnwinding id ∈ l ↔
      stage.recorded? = some .cancelled ∧ l.countP Figure.panicked.counts = 1 := by
  cases he : stage.recorded? with
  | none => simp [h.eq_nil he]
  | some e =>
    obtain ⟨l₁, l₂, hen, rfl, hcount⟩ := h.exists_entered he
    have hc := hcount .panicked rfl
    have hnot : .cancelledUnwinding id ∉ l₂ := by
      intro hm
      have hpos : 0 < l₂.countP Figure.panicked.counts := List.countP_pos_iff.mpr ⟨_, hm, rfl⟩
      rw [List.countP_append] at hc
      omega
    rw [List.mem_append, or_iff_left hnot, hc]
    cases hen with
    | outcome o => simp
    | cancelled => simp
    | unwound => simp [Figure.counts]

namespace State.Reachable

theorem mem_unwinding_iff (h : s.Reachable) (hu : u ∈ s.tasks) :
    .cancelledUnwinding u.id ∈ s.journal ↔
      u.stage.recorded? = some .cancelled ∧ s.share .panicked u.id = 1 := by
  rw [share, ← (h.lives.tasks u hu).mem_unwinding_iff, life, List.mem_filter, history,
    List.mem_reverse, and_iff_left]
  exact beq_self_eq_true u.id

/-- A task counts as panicked if its callable panicked, or if it was dropped in this way. -/
theorem share_panicked_iff (h : s.Reachable) (hu : u ∈ s.tasks) :
    s.share .panicked u.id = 1 ↔ u.panicked ∨ .cancelledUnwinding u.id ∈ s.journal := by
  rw [h.mem_unwinding_iff hu, Task.panicked]
  cases hs : u.stage.recorded? with
  | none => simp [h.share_eq_zero hu hs]
  | some e =>
    cases e with
    | cancelled => simp
    | outcome o =>
      rw [h.share_of_outcome hu hs rfl]
      cases o <;> simp [Outcome.figure]

/-- Whoever gets a result from the handle is told of a panic if the callable panicked. -/
theorem result_panicked_iff (h : s.Reachable) (hu : u ∈ s.tasks) {e : Ending}
    (he : s.ending? u.id = some e) : (∃ text, e.result = .error (.panicked text)) ↔ u.panicked := by
  rw [Task.panicked, h.coherent.stage_of_ending? hu he, Stage.recorded?]
  cases e with
  | cancelled => simp [Ending.result]
  | outcome o => cases o <;> simp [Ending.result]

end State.Reachable

/-- A callable that panicked did so where its program came to. -/
theorem State.Reachable.follows_of_panicked (h : s.Reachable) (hu : u ∈ s.tasks)
    (hp : u.panicked) : ∃ p, u.envelope.program.Follows (.finish (.panic p)) := by
  rw [Task.panicked] at hp
  split at hp
  · next p hs =>
    have hd : u.stage.decided? = some (.outcome (.panic p)) := by
      cases hstage : u.stage <;> rw [hstage] at hs <;> first | exact hs | cases hs
    exact ⟨p, (Stage.continues_iff hd).mp (h.allFaithful u hu).program _ rfl⟩
  · cases hp

/-! ## The step that enters an end -/

theorem State.exists_of_entering? (h : s.entering? a = some id) :
    a = .task id ∧ ∃ u ∈ s.tasks, ∃ o : Outcome, u.id = id ∧ u.stage = .ended o ∧
      o.figure ≠ .panicked := by
  cases a with
  | task i =>
    simp only [State.entering?] at h
    split at h
    · next hs =>
      obtain rfl := Option.some.inj h
      obtain ⟨u, hu, hst⟩ := Option.map_eq_some_iff.mp hs
      exact ⟨rfl, u, (task?_spec hu).1, _, (task?_spec hu).2, hst, by simp [Outcome.figure]⟩
    · next hs =>
      obtain rfl := Option.some.inj h
      obtain ⟨u, hu, hst⟩ := Option.map_eq_some_iff.mp hs
      exact ⟨rfl, u, (task?_spec hu).1, _, (task?_spec hu).2, hst, by simp [Outcome.figure]⟩
    · cases h
  | _ => cases h

/-- The end is entered in the journal, where it was not before. -/
theorem State.Reachable.recorded_of_entering? (h : s.Reachable) (he : s.entering? a = some id)
    (hs : s.step? a = some t) : (∀ o, .recorded id o ∉ s.journal) ∧
      ∃ o : Outcome, o.figure ≠ .panicked ∧ .recorded id o ∈ t.journal := by
  obtain ⟨rfl, u, hu, o, rfl, hst, ho⟩ := State.exists_of_entering? he
  refine ⟨fun o' hm => ?_, o, ho, ?_⟩
  · have hlife : .recorded u.id o' ∈ s.life u.id :=
      List.mem_filter.mpr ⟨List.mem_reverse.mpr hm, by simp [Mark.isOf]⟩
    rw [h.lives.life_eq_nil hu (by rw [hst]; rfl)] at hlife
    cases hlife
  · rw [h.coherent.step?_task hu, State.stepTask?, hst] at hs
    obtain rfl := Option.some.inj hs
    exact List.mem_cons_self ..

/-- Who is entered with an outcome that is no panic has come to such an outcome. -/
theorem Life.exists_outcome {wake : Option WakePointer} {stage : Stage} {l : List Mark}
    {o : Outcome} (h : Life id wake stage l) (hm : .recorded id o ∈ l) (ho : o.figure ≠ .panicked) :
    ∃ o' : Outcome, stage.recorded? = some (.outcome o') ∧ o'.figure = o.figure := by
  cases he : stage.recorded? with
  | none =>
    rw [h.eq_nil he] at hm
    cases hm
  | some e =>
    obtain ⟨l₁, l₂, hen, rfl, hcount⟩ := h.exists_entered he
    have hpos : 0 < l₁.countP o.figure.counts := by
      rw [← hcount _ (by cases o <;> rfl)]
      exact List.countP_pos_iff.mpr ⟨_, hm, by cases o <;> rfl⟩
    cases e with
    | outcome o' =>
      refine ⟨o', rfl, ?_⟩
      rw [hen.countP_of_outcome] at hpos
      by_contra hne
      rw [if_neg (Ne.symm hne)] at hpos
      cases hpos
    | cancelled =>
      cases hen with
      | cancelled => cases hpos
      | unwound =>
        cases o with
        | value | failure => cases hpos
        | panic => exact absurd rfl ho

namespace Audit

variable {r r' : Audit} {d : Deed} {ds : List Deed}

/-- Without the strays a run is an ordinary one. -/
theorem state_after? (h : r.after? ds = some r') :
    r.state.after? (ds.map Deed.action) = some r'.state := by
  induction ds generalizing r with
  | nil =>
    obtain rfl := Option.some.inj h
    rfl
  | cons d ds ih =>
    obtain ⟨q, hq, h⟩ := Option.bind_eq_some_iff.mp h
    obtain ⟨t, ht, rfl⟩ := Option.map_eq_some_iff.mp hq
    exact (after?_cons ht _).trans (ih h)

/-- Every stray has come to an end that is no panic, and is there once. -/
structure Sound (r : Audit) : Prop where
  reachable : r.state.Reachable
  nodup : r.strays.Nodup
  recorded : ∀ id ∈ r.strays, ∃ o : Outcome, o.figure ≠ .panicked ∧
    .recorded id o ∈ r.state.journal

theorem Sound.step (h : r.Sound) (hs : r.step? d = some r') : r'.Sound := by
  obtain ⟨t, ht, rfl⟩ := Option.map_eq_some_iff.mp hs
  have hkept : ∀ id ∈ r.strays, ∃ o : Outcome, o.figure ≠ .panicked ∧
      .recorded id o ∈ t.journal := by
    intro id hid
    obtain ⟨o, ho, hm⟩ := h.recorded id hid
    have hpre := (Leads.here.step ht).history_isPrefix
    exact ⟨o, ho, List.mem_reverse.mp (hpre.subset (List.mem_reverse.mpr hm))⟩
  have ht' := h.reachable.step ht
  cases hd : d.unwinding with
  | false => exact ⟨ht', by simpa [hd] using h.nodup, by simpa [hd] using hkept⟩
  | true =>
    cases he : r.state.entering? d.action with
    | none => exact ⟨ht', by simpa [hd, he] using h.nodup, by simpa [hd, he] using hkept⟩
    | some id =>
      obtain ⟨hnew, hrec⟩ := h.reachable.recorded_of_entering? he ht
      have hnot : id ∉ r.strays := fun hm =>
        let ⟨o, _, hj⟩ := h.recorded id hm
        hnew o hj
      refine ⟨ht', ?_, ?_⟩
      · simpa [hd, he] using ⟨hnot, h.nodup⟩
      · simpa [hd, he] using ⟨hrec, hkept⟩

/-- Nothing else is counted of a stray as a panic. -/
theorem Sound.not_panicked (h : r.Sound) (hu : u ∈ r.state.tasks) (hid : u.id ∈ r.strays) :
    r.state.share .panicked u.id = 0 ∧ ∃ o : Outcome, o.figure ≠ .panicked ∧
      u.stage.recorded? = some (.outcome o) ∧ r.state.share o.figure u.id = 1 := by
  obtain ⟨o, ho, hm⟩ := h.recorded _ hid
  obtain ⟨o', hrec, hfig⟩ := (h.reachable.lives.tasks u hu).exists_outcome
    (List.mem_filter.mpr ⟨List.mem_reverse.mpr hm, by simp [Mark.isOf]⟩) ho
  rw [← hfig] at ho
  refine ⟨?_, o', ho, hrec, ?_⟩
  · rw [h.reachable.share_of_outcome hu hrec rfl, if_neg ho.symm]
  · rw [h.reachable.share_of_outcome hu hrec (by cases o' <;> rfl), if_pos rfl]

theorem Sound.mem_ids (h : r.Sound) (hid : id ∈ r.strays) : id ∈ r.state.tasks.map Task.id := by
  obtain ⟨o, -, hm⟩ := h.recorded id hid
  by_contra hn
  have hlife : .recorded id o ∈ r.state.life id :=
    List.mem_filter.mpr ⟨List.mem_reverse.mpr hm, by simp [Mark.isOf]⟩
  rw [h.reachable.lives.others id hn] at hlife
  cases hlife

/-- All strays are tasks, so each is due to one of them. -/
theorem Sound.panicked_eq_sum (h : r.Sound) :
    r.panicked = (r.state.tasks.map fun u => r.share u.id).sum := by
  have hstrays : (r.state.tasks.map fun u => r.strays.count u.id).sum = r.strays.length := by
    have hsum := Multiset.sum_count_eq_card (s := (r.state.tasks.map Task.id).toFinset)
      (m := (r.strays : Multiset Nat)) fun id hid => List.mem_toFinset.mpr (h.mem_ids hid)
    simpa only [List.sum_toFinset _ h.reachable.coherent.ids_nodup, List.map_map,
      Function.comp_def, Multiset.coe_count, Multiset.coe_card] using hsum
  simp only [share, List.sum_map_add, hstrays, panicked,
    h.reachable.figure_eq_sum (f := .panicked) rfl]

theorem Sound.after (h : r.Sound) (hs : r.after? ds = some r') : r'.Sound := by
  induction ds generalizing r with
  | nil =>
    obtain rfl := Option.some.inj hs
    exact h
  | cons d ds ih =>
    obtain ⟨q, hq, hs⟩ := Option.bind_eq_some_iff.mp hs
    exact ih (h.step hq) hs

theorem strayed_cons (hs : s.step? d.action = some t) : Strayed s (d :: ds) id ↔
    (d.unwinding ∧ s.entering? d.action = some id) ∨ Strayed t ds id := by
  constructor
  · rintro ⟨_ | ⟨d', before⟩, after, v, heq, hv, he⟩
    · obtain ⟨rfl, -⟩ := List.cons.inj heq
      obtain rfl := Option.some.inj hv
      exact .inl ⟨rfl, he⟩
    · obtain ⟨rfl, rfl⟩ := List.cons.inj heq
      exact .inr ⟨before, after, v, rfl, (after?_cons hs _).symm.trans hv, he⟩
  · rintro (⟨hu, he⟩ | ⟨before, after, v, rfl, hv, he⟩)
    · obtain ⟨ha, -⟩ := State.exists_of_entering? he
      obtain ⟨a, b⟩ := d
      obtain rfl : a = .task id := ha
      obtain rfl : b = true := hu
      exact ⟨[], ds, s, rfl, rfl, he⟩
    · exact ⟨d :: before, after, v, rfl, (after?_cons hs _).trans hv, he⟩

/-- A task is a stray if its end was entered on an unwinding thread. -/
theorem mem_strays_iff (hs : r.after? ds = some r') :
    id ∈ r'.strays ↔ id ∈ r.strays ∨ Strayed r.state ds id := by
  induction ds generalizing r with
  | nil =>
    obtain rfl := Option.some.inj hs
    refine (or_iff_left ?_).symm
    rintro ⟨before, after, v, h, -⟩
    simp at h
  | cons d ds ih =>
    obtain ⟨q, hq, hs⟩ := Option.bind_eq_some_iff.mp hs
    obtain ⟨t, ht, rfl⟩ := Option.map_eq_some_iff.mp hq
    rw [ih hs, strayed_cons ht, ← or_assoc]
    refine or_congr_left ?_
    cases d.unwinding with
    | false => simp
    | true => simp [or_comm]

end Audit

/-! ## All panics -/

structure PanicsCounted (first : State) (ds : List Audit.Deed) (r : Audit) : Prop where
  /-- A task is counted as panicked at most once, and if so then because its callable panicked, or
  else because on an unwinding thread it was dropped after it had begun or came to another end. -/
  share : ∀ u ∈ r.state.tasks, r.share u.id ≤ 1 ∧ (r.share u.id = 1 ↔
    u.panicked ∨ Unwound first (ds.map Audit.Deed.action) u.id ∨ Strayed first ds u.id)
  /-- It is logged as often. -/
  logged : ∀ id, (r.state.life id).countP (fun m => m.log? = some .taskPanicked) +
    r.strays.count id = r.share id
  /-- Nothing else is counted or logged as a panic. -/
  total : r.panicked = (r.state.tasks.map fun u => r.share u.id).sum ∧ r.warnings = r.panicked
  /-- The handle tells of a panic only if it was one of the callable. -/
  result : ∀ u ∈ r.state.tasks, ∀ e, r.state.ending? u.id = some e →
    ((∃ text, e.result = .error (.panicked text)) ↔ u.panicked)
  /-- What the callable panicked with is where its program came to. -/
  own : ∀ u ∈ r.state.tasks, u.panicked → ∃ p, u.envelope.program.Follows (.finish (.panic p))
  /-- A task that was dropped on an unwinding thread was cancelled. -/
  unwound : ∀ u ∈ r.state.tasks, Unwound first (ds.map Audit.Deed.action) u.id →
    u.panicked = false ∧ ∀ e, r.state.ending? u.id = some e → e.result = .error .cancelled
  /-- A task that came to another end on such a thread is counted by that as well. -/
  strayed : ∀ u ∈ r.state.tasks, Strayed first ds u.id → ∃ o : Outcome, o.figure ≠ .panicked ∧
    u.stage.recorded? = some (.outcome o) ∧ r.state.share o.figure u.id = 1
  /-- At the moment of a drop, the figure moves and the event is logged in this case only. -/
  atDrop : ∀ u d r', r.state.task? u.id = some u → ∀ unwinding, d.action = .cancel u.id unwinding →
    r.step? d = some r' →
      r'.panicked = r.panicked + (if unwinding && u.begun then 1 else 0) ∧
      r'.state.logs = r.state.logs ++ (if unwinding && u.begun then [.taskPanicked] else []) ∧
      r'.strays = r.strays

theorem Figure.panicked_counts_iff (m : Mark) :
    Figure.panicked.counts m ↔ m.log? = some .taskPanicked := by
  cases m with
  | recorded id o => cases o <;> simp [Figure.counts, Mark.log?]
  | sign source x => cases x <;> simp [Figure.counts, Mark.log?, Sign.log?]
  | _ => simp [Figure.counts, Mark.log?]

/-- A relay that has just started, with nothing counted besides. -/
def Audit.start (first : State) : Audit := ⟨first, []⟩

theorem panicsCounted {site : Site} {hosted : Bool} {settings : Settings} {ds : List Audit.Deed}
    {r : Audit} (hfirst : State.startWith site hosted settings = .running first)
    (hs : (Audit.start first).after? ds = some r) : PanicsCounted first ds r := by
  have hrun : first.after? (ds.map Audit.Deed.action) = some r.state := Audit.state_after? hs
  have hsound : r.Sound := Audit.Sound.after
    ⟨⟨site, hosted, settings, first, hfirst, .here⟩, List.nodup_nil,
      fun _ hid => absurd hid List.not_mem_nil⟩ hs
  have h := hsound.reachable
  have hmark : ∀ id, Unwound first (ds.map Audit.Deed.action) id ↔
      .cancelledUnwinding id ∈ r.state.journal := by
    refine fun id => ⟨mem_journal_of_unwound hrun, unwound_of_mem_journal ?_ hrun⟩
    obtain rfl := eq_start_of_startWith hfirst
    exact List.not_mem_nil
  have hstray : ∀ id, Strayed first ds id ↔ id ∈ r.strays := fun id =>
    ((Audit.mem_strays_iff hs).trans (or_iff_right List.not_mem_nil)).symm
  refine ⟨fun u hu => ?_, fun id => ?_, ⟨hsound.panicked_eq_sum, ?_⟩,
    fun u hu e he => h.result_panicked_iff hu he, fun u hu hp => h.follows_of_panicked hu hp,
    fun u hu hw => ?_, fun u hu hst => (hsound.not_panicked hu ((hstray _).mp hst)).2,
    fun u d r' hu unwinding hd hr' => ?_⟩
  · have hle := h.share_add_le_one hu
    rw [hmark, hstray, ← or_assoc, ← h.share_panicked_iff hu, Audit.share]
    by_cases hid : u.id ∈ r.strays
    · simp [(hsound.not_panicked hu hid).1, List.count_eq_one_of_mem hsound.nodup hid, hid]
    · simp only [List.count_eq_zero_of_not_mem hid, hid, or_false, Nat.add_zero, iff_self, and_true]
      omega
  · refine congrArg (· + _) (List.countP_congr fun m _ => ?_)
    rw [decide_eq_true_iff, Figure.panicked_counts_iff]
  · refine congrArg (· + _) ?_
    rw [← h.countP_logs (f := .panicked) rfl, List.count]
    exact List.countP_congr fun e _ => by cases e <;> simp [LogEvent.figure?]
  · obtain ⟨hc, -⟩ := (h.mem_unwinding_iff hu).mp ((hmark u.id).mp hw)
    refine ⟨by rw [Task.panicked, hc], fun e he => ?_⟩
    rw [h.coherent.stage_of_ending? hu he] at hc
    obtain rfl := Option.some.inj hc
    rfl
  · obtain ⟨t, ht, rfl⟩ := Option.map_eq_some_iff.mp hr'
    rw [hd] at ht
    obtain ⟨hfig, hlogs⟩ := panicked_of_cancel hu ht
    have hsame : (if d.unwinding then (r.state.entering? d.action).toList ++ r.strays
        else r.strays) = r.strays := by
      rw [hd]
      exact ite_self _
    refine ⟨?_, hlogs, hsame⟩
    simp only [Audit.panicked, hfig, hsame]
    exact Nat.add_right_comm _ _ _

/-- One task waits at a gate when its host ends on an unwinding thread. -/
def hostUnwinds : List Action := List.flatten [
  [.submit 0 .direct (.gated (.finish (.value .null)) none)],
  List.replicate 4 (.call (.thread 0)), List.replicate 2 (.task 0),
  [.killHost, .cancel 0 true], List.replicate 2 (.task 0)]

/-- The task did not panic, and its handle says that it was cancelled, but it counts as panicked. -/
theorem cancelled_countedPanicked : ∃ s,
    State.startWith .generous true (.default .one) = .running (.attached (.default .one)) ∧
      (State.attached (.default .one)).after? hostUnwinds = some s ∧
      s.tasks.map Task.panicked = [false] ∧ s.ending? 0 = some .cancelled ∧
      s.share .panicked 0 = 1 ∧ s.figure .panicked = 1 ∧ s.logs = [.taskPanicked] := by
  obtain ⟨s, hs, hend, hrest⟩ := exists_after? (P := fun s =>
    (s.ending? 0).map Ending.fate = some .cancelled ∧ s.tasks.map Task.panicked = [false] ∧
      s.share .panicked 0 = 1 ∧ s.figure .panicked = 1 ∧ s.logs = [.taskPanicked])
    (.attached (.default .one)) hostUnwinds (by decide +kernel)
  have hcancelled : s.ending? 0 = some .cancelled := by
    obtain ⟨e, he, hfate⟩ := Option.map_eq_some_iff.mp hend
    cases e with
    | cancelled => exact he
    | outcome o => cases o <;> cases hfate
  exact ⟨s, rfl, hs, hrest.1, hcancelled, hrest.2⟩

/-- One task panics by itself; one comes to its end on a thread that unwinds, and one is dropped on
such a thread with its host. -/
def panicsOfThree : List Audit.Deed := List.flatten [
  quietly (.submit 0 .direct (.comingTo (.panic .other) none) ::
    List.replicate 4 (.call (.thread 0)) ++ List.replicate 5 (.task 0)),
  quietly (.submit 0 .direct (.comingTo (.failure (.message "no")) none) ::
    List.replicate 4 (.call (.thread 0))),
  List.replicate 5 ⟨.task 1, true⟩,
  quietly (.submit 0 .direct (.gated (.finish (.value .null)) none) ::
    List.replicate 4 (.call (.thread 0)) ++ List.replicate 2 (.task 2) ++
      [.killHost, .cancel 2 true] ++ List.replicate 2 (.task 2))]
where
  /-- Steps on threads that do not unwind, but for what the actions say themselves. -/
  quietly (as : List Action) : List Audit.Deed := as.map fun a => ⟨a, false⟩

theorem panicsCounted_panicsOfThree : ∃ r,
    (Audit.start (.attached (.default .one))).after? panicsOfThree = some r ∧
      ([0, 1, 2].map r.share) = [1, 1, 1] ∧ r.panicked = 3 ∧ r.state.figure .failed = 1 ∧
      r.state.tasks.map Task.panicked = [true, false, false] ∧
      PanicsCounted (.attached (.default .one)) panicsOfThree r := by
  have hfirst : State.startWith .generous true (.default .one) =
      .running (.attached (.default .one)) := rfl
  have hrun : ((Audit.start (.attached (.default .one))).after? panicsOfThree).any fun r =>
      [0, 1, 2].map r.share = [1, 1, 1] ∧ r.panicked = 3 ∧ r.state.figure .failed = 1 ∧
        r.state.tasks.map Task.panicked = [true, false, false] := by decide +kernel
  cases hr : (Audit.start (.attached (.default .one))).after? panicsOfThree with
  | none =>
    rw [hr] at hrun
    cases hrun
  | some r =>
    rw [hr] at hrun
    obtain ⟨hshare, hpanicked, hfailed, hown⟩ := of_decide_eq_true hrun
    exact ⟨r, rfl, hshare, hpanicked, hfailed, hown, panicsCounted hfirst hr⟩

end TaskRelay
