import Mathlib
import TaskRelay.Proofs.Relay.Notification

/-!
# The course of a program

A program that turns neither to a relay nor to another task goes one course, whatever happens around
it: what it logs and what it comes to depend on the name of its thread at most. Each step of its
task is a step on this course (`stepProgram_course`), so the end of the task is certain from the
beginning, unless its pool ends before (`exists_destiny_of_step`).
-/

namespace TaskRelay

variable {s t : State} {a : Action} {u : Task} {th : String} {p : Program} {e : Ending}

/-! ## Courses -/

/-- What is noted on the way to an outcome, if it comes to one. -/
structure Course where
  marks : List Mark
  outcome : Option Outcome

/-- What a program does on threads of this name if the gates on its way open. One that turns to a
relay or to another task comes to nothing by itself. -/
def Program.course (th : String) : Program → Course
  | .finish o => ⟨[], some o⟩
  | .pause p => p.course th
  | .passGate _ p => p.course th
  | .onThread k => (k th).course th
  | .logFailure name f p => ⟨.loggedFailure name f :: (p.course th).marks, (p.course th).outcome⟩
  | .submit _ _ _ _ _ _ => ⟨[], none⟩
  | .await _ _ => ⟨[], none⟩

/-- Without gates it is what the program does alone. -/
theorem Program.course_eq_alone {o : Outcome} (h : (p.alone th).2 = some o) :
    (p.course th).outcome = some o ∧ (p.course th).marks.filterMap Mark.log? = (p.alone th).1 := by
  induction p with
  | finish o => exact ⟨h, rfl⟩
  | pause p ih => exact ih h
  | onThread k ih => exact ih th h
  | logFailure name f p ih =>
    obtain ⟨ho, hm⟩ := ih h
    exact ⟨ho, congrArg (LogEvent.callableFailed name f :: ·) hm⟩
  | passGate | submit | await => cases h

/-- What is left of the course while the callable is not over. -/
def Stage.course (th : String) : Stage → Course
  | .suspended p | .running p => p.course th
  | .ended o => ⟨[], some o⟩
  | _ => ⟨[], none⟩

/-- How a task is going to end unless its pool ends before; none if it depends on others. -/
def Stage.destiny? (th : String) (stage : Stage) : Option Ending :=
  match stage.decided? with
  | some e => some e
  | none => (stage.course th).outcome.map .outcome

theorem Stage.destiny?_of_decided? {stage : Stage} (h : stage.decided? = some e) :
    stage.destiny? th = some e := by
  rw [destiny?, h]

theorem Stage.destiny?_eq {stage : Stage} {o : Outcome} (h : (stage.course th).outcome = some o) :
    stage.destiny? th = some (.outcome o) := by
  cases stage with
  | suspended | running => simpa [destiny?, decided?] using h
  | ended =>
    obtain rfl := Option.some.inj h
    rfl
  | submitting | recorded | notifying | notified | resolved => cases h

/-- A step of a program is a step on its course. -/
theorem stepProgram_course (h : (p.course (s.pools.threadName u.pool)).outcome.isSome) :
    ∃ stage ms, s.stepProgram u p = { s.setStage u.id stage with journal := ms ++ s.journal } ∧
      p.course (s.pools.threadName u.pool) = ⟨ms.reverse ++
        (stage.course (s.pools.threadName u.pool)).marks,
          (stage.course (s.pools.threadName u.pool)).outcome⟩ := by
  cases p with
  | finish o => exact ⟨.ended o, [], rfl, rfl⟩
  | pause p => exact ⟨.suspended p, [], rfl, rfl⟩
  | passGate g p =>
    cases hg : s.gateOpen g with
    | true => exact ⟨.running p, [], by simp [State.stepProgram, hg, State.setStage], rfl⟩
    | false => exact ⟨.suspended (.passGate g p), [], by
        simp [State.stepProgram, hg, State.setStage], rfl⟩
  | onThread k => exact ⟨.running (k (s.pools.threadName u.pool)), [], rfl, rfl⟩
  | logFailure name f p => exact ⟨.running p, [.loggedFailure name f], rfl, rfl⟩
  | submit | await => cases h

theorem mem_setStage_self (hu : u ∈ s.tasks) (stage : Stage) :
    { u with stage := stage } ∈ (s.setStage u.id stage).tasks :=
  (State.mem_setStage s).mpr (.inl ⟨u, hu, rfl, rfl⟩)

theorem mem_resume_self (hu : u ∈ s.tasks) (p : Program) :
    { u with begun := true, stage := .running p } ∈ (s.resume u.id p).tasks :=
  (State.mem_resume s).mpr (.inl ⟨u, hu, rfl, rfl⟩)

/-! ## What other steps leave alone -/

theorem mem_tasks_of_answer (hc : Coherent s) (hu : u ∈ s.tasks)
    (hn : u.stage.isSubmitting = false) (c : Caller) (r : Except RelayError Ticket) :
    u ∈ (s.answer c r).tasks := by
  obtain ⟨tasks, he, rfl | ⟨x, next, -, hx, hs, rfl⟩⟩ := s.answer_eq c r
  · rw [he]
    exact hu
  · rw [he]
    refine (State.mem_setStage s).mpr (.inr ⟨hu, fun hid => ?_⟩)
    -- the task that goes on is one that was submitting
    obtain rfl := hc.eq_of_id_eq hu (task?_spec hx).1 hid
    rw [hs] at hn
    cases hn

/-- A task that waits for no answer of its own changes by its own steps alone. -/
theorem Move.mem_tasks (hc : Coherent s) (hu : u ∈ s.tasks) (hn : u.stage.isSubmitting = false)
    (m : Move s a t) (ht : a ≠ .task u.id) (hk : ∀ b, a ≠ .cancel u.id b) : u ∈ t.tasks := by
  cases m with
  | outside m =>
    rw [m.tasks_eq]
    exact hu
  | ask | close | drop => exact hu
  | askInside => exact (State.mem_setStage s).mpr (.inr ⟨hu, fun hid => ht (by rw [hid])⟩)
  | call _ m =>
    cases m with
    | allow | lock | number | count | send | receive => exact hu
    | refuse => exact mem_tasks_of_answer hc hu hn _ _
    | abandon | unlock =>
      have hc' : Coherent (s.setHolder none) := ⟨hc.callers, hc.inside, hc.places⟩
      exact mem_tasks_of_answer hc' hu hn _ _
    | @launch id hs =>
      rename_i x hx
      have hid : id ∉ s.tasks.map Task.id :=
        (hc.id_of_call (call?_spec hx).1 (by rw [hs]; rfl)).2
      obtain ⟨tasks, he, rfl | ⟨y, next, -, hy, hs', rfl⟩⟩ :=
        (s.launch id x.caller x.entry.pool x.envelope).answer_eq x.caller
          (.ok (State.ticket id x.envelope))
      · rw [he]
        exact List.mem_append_left _ hu
      · rw [he]
        refine (State.mem_setStage _).mpr (.inr ⟨List.mem_append_left _ hu, fun e => ?_⟩)
        obtain rfl := List.inj_on_of_nodup_map
          (hc.nodup_launch hid x.caller x.entry.pool x.envelope)
          (List.mem_append_left _ hu) (task?_spec hy).1 e
        rw [hs'] at hn
        cases hn
  | worker m =>
    cases m with
    | launch => exact List.mem_append_left _ hu
    | _ => exact hu
  | @task x _ _ hx m =>
    obtain ⟨f, hf⟩ := m.exists_change
    rw [hf]
    refine mem_change.mpr (.inr ⟨hu, fun hid => ?_⟩)
    cases m with
    | cancel | cancelUnwinding => exact hk _ (by rw [hid])
    | _ => exact ht (by rw [hid])

/-! ## The end that is certain -/

/-- The task later on, be it in another stage. -/
structure Task.Later (u v : Task) : Prop where
  id : v.id = u.id
  caller : v.caller = u.caller
  envelope : v.envelope = u.envelope
  pool : v.pool = u.pool

theorem Task.Later.refl (u : Task) : u.Later u := ⟨rfl, rfl, rfl, rfl⟩

theorem Task.Later.trans {v w : Task} (h : u.Later v) (h' : v.Later w) : u.Later w :=
  ⟨h'.id.trans h.id, h'.caller.trans h.caller, h'.envelope.trans h.envelope,
    h'.pool.trans h.pool⟩

theorem exists_later_setStage (hu : u ∈ s.tasks) (id : Nat) (stage : Stage) :
    ∃ v ∈ (s.setStage id stage).tasks, u.Later v := by
  by_cases hid : u.id = id
  · exact ⟨_, (State.mem_setStage s).mpr (.inl ⟨u, hu, hid, rfl⟩), rfl, rfl, rfl, rfl⟩
  · exact ⟨u, (State.mem_setStage s).mpr (.inr ⟨hu, hid⟩), .refl u⟩

theorem exists_later_answer (hu : u ∈ s.tasks) (c : Caller) (r : Except RelayError Ticket) :
    ∃ v ∈ (s.answer c r).tasks, u.Later v := by
  obtain ⟨tasks, he, rfl | ⟨x, next, -, -, -, rfl⟩⟩ := s.answer_eq c r
  · rw [he]
    exact ⟨u, hu, .refl u⟩
  · rw [he]
    exact exists_later_setStage hu x.id _

/-- No task is ever lost, or becomes another. -/
theorem Move.exists_later (m : Move s a t) (hu : u ∈ s.tasks) : ∃ v ∈ t.tasks, u.Later v := by
  have hset : ∀ {w : State} {id stage}, w.tasks = s.tasks →
      ∃ v ∈ (w.setStage id stage).tasks, u.Later v :=
    fun hw => exists_later_setStage (hw ▸ hu) _ _
  cases m with
  | outside m => exact ⟨u, m.tasks_eq ▸ hu, .refl u⟩
  | ask | close | drop => exact ⟨u, hu, .refl u⟩
  | askInside => exact hset rfl
  | call _ m =>
    cases m with
    | refuse => exact exists_later_answer hu _ _
    | allow | lock | number | count | send | receive => exact ⟨u, hu, .refl u⟩
    | launch => exact exists_later_answer (List.mem_append_left _ hu) _ _
    | abandon | unlock => exact exists_later_answer (s := s.setHolder none) hu _ _
  | worker m =>
    cases m with
    | launch => exact ⟨u, List.mem_append_left _ hu, .refl u⟩
    | _ => exact ⟨u, hu, .refl u⟩
  | @task x _ _ _ m =>
    cases m with
    | @resume p =>
      by_cases hid : u.id = x.id
      · exact ⟨_, (State.mem_resume s).mpr (.inl ⟨u, hu, hid, rfl⟩), rfl, rfl, rfl, rfl⟩
      · exact ⟨u, (State.mem_resume s).mpr (.inr ⟨hu, hid⟩), .refl u⟩
    | notify | react => exact hset (State.afterTurn_tasks _ _ _)
    | _ => exact hset rfl

theorem Stage.course_isSome (h : (Stage.running p).destiny? th = some e) :
    (p.course th).outcome.isSome := by
  simp only [destiny?, decided?, course, Option.map_eq_some_iff] at h
  obtain ⟨o, ho, -⟩ := h
  rw [ho]
  rfl

/-- The step of a task is a move of this task, unless it submits. -/
theorem Coherent.taskMove_of_step? (hc : Coherent s) (hu : u ∈ s.tasks) (hs : s.step? a = some t)
    (ha : a = .task u.id ∨ ∃ b, a = .cancel u.id b) (hd : (u.stage.destiny? th).isSome) :
    TaskMove s u a t := by
  have hself : ∀ {x : Task}, s.task? x.id = some x → x.id = u.id → x = u := fun hx hid =>
    hc.eq_of_id_eq (task?_spec hx).1 hu hid
  cases move_of_step? hs with
  | outside m => cases m <;> simp at ha
  | ask | call | worker | close | drop => simp at ha
  | askInside hx hst =>
    obtain rfl := hself hx (by simpa using ha)
    rw [hst] at hd
    cases hd
  | task hx m =>
    have hid := hself hx (by cases m <;> simpa using ha)
    exact hid ▸ m

/-- Its own step leaves the end of a task as certain as it was. -/
theorem exists_later_of_step (hc : Coherent s) (hu : u ∈ s.tasks)
    (hs : s.step? (.task u.id) = some t)
    (hd : u.stage.destiny? (s.pools.threadName u.pool) = some e) :
    ∃ v ∈ t.tasks, u.Later v ∧ v.stage.destiny? (s.pools.threadName u.pool) = some e := by
  have hset : ∀ {w : State} (stage : Stage), w.tasks = s.tasks →
      stage.destiny? (s.pools.threadName u.pool) = some e →
      ∃ v ∈ (w.setStage u.id stage).tasks, u.Later v ∧
        v.stage.destiny? (s.pools.threadName u.pool) = some e := by
    intro w stage hw hst
    rw [State.setStage_tasks hw]
    exact ⟨_, mem_setStage_self hu stage, ⟨rfl, rfl, rfl, rfl⟩, hst⟩
  by_cases hrun : ∃ p, u.stage = .running p
  · obtain ⟨p, hp⟩ := hrun
    rw [hp] at hd
    obtain ⟨stage, ms, heq, hcourse⟩ := stepProgram_course (Stage.course_isSome hd)
    rw [hc.step?_task hu, State.stepTask?, hp] at hs
    obtain rfl := (Option.some.inj hs).symm.trans heq
    obtain ⟨o, ho, rfl⟩ := Option.map_eq_some_iff.mp hd
    exact hset stage rfl (Stage.destiny?_eq ((congrArg Course.outcome hcourse).symm.trans ho))
  push Not at hrun
  have m := hc.taskMove_of_step? hu hs (.inl rfl) (by rw [hd]; rfl)
  generalize ha : Action.task u.id = a at m
  cases m with
  | resume hst =>
    rw [hst] at hd
    exact ⟨_, mem_resume_self hu _, ⟨rfl, rfl, rfl, rfl⟩, hd⟩
  | go hst | log hst | finish hst => exact absurd hst (hrun _)
  | record hst | pass hst | resolve hst =>
    rw [hst] at hd
    exact hset _ rfl hd
  | notify hst | react hst =>
    rw [hst] at hd
    exact hset _ (State.afterTurn_tasks _ _ _)
      (Stage.destiny?_of_decided? ((Stage.decided?_ofProgress _ _).trans hd))
  | cancel | cancelUnwinding => cases ha

/-- So does any other step, as long as the pool of the task is up. -/
theorem exists_destiny_of_step (hc : Coherent s) (hu : u ∈ s.tasks) (hs : s.step? a = some t)
    (hd : u.stage.destiny? (s.pools.threadName u.pool) = some e)
    (hk : (∃ p, u.stage = .suspended p) → s.pools.isUp u.pool) :
    ∃ v ∈ t.tasks, u.Later v ∧ v.stage.destiny? (s.pools.threadName u.pool) = some e := by
  by_cases ha : a = .task u.id
  · subst ha
    exact exists_later_of_step hc hu hs hd
  by_cases hb : ∃ b, a = .cancel u.id b
  · -- only a suspended task of a pool that ends is dropped
    have m := hc.taskMove_of_step? hu hs (.inr hb) (by rw [hd]; rfl)
    obtain ⟨b, rfl⟩ := hb
    generalize ha : Action.cancel u.id b = a at m
    cases m with
    | cancel hst hp | cancelUnwinding hst hp =>
      rw [hk ⟨_, hst⟩] at hp
      cases hp
    | _ => cases ha
  push Not at hb
  have hn : u.stage.isSubmitting = false := by
    cases hst : u.stage <;> rw [hst] at hd <;> first | rfl | cases hd
  exact ⟨u, (move_of_step? hs).mem_tasks hc hu hn ha hb, .refl u, hd⟩

/-! ## The end comes -/

/-- Steps of the task alone can bring it to this stage. -/
def State.Brings (s : State) (u : Task) (stage : Stage) : Prop :=
  ∃ n t v, s.after? (List.replicate n (.task u.id)) = some t ∧ v ∈ t.tasks ∧ u.Later v ∧
    v.stage = stage

/-- One step more before the rest of the way. -/
theorem State.Brings.cons {v : Task} {stage : Stage} (h : t.Brings v stage)
    (hs : s.step? (.task u.id) = some t) (hl : u.Later v) : s.Brings u stage := by
  obtain ⟨n, t', w, hn, hw, hlater, hst⟩ := h
  refine ⟨n + 1, t', w, ?_, hw, hl.trans hlater, hst⟩
  rw [List.replicate_succ, after?_cons hs, ← hl.id]
  exact hn

theorem Coherent.step?_of_running (hc : Coherent s) (hu : u ∈ s.tasks)
    (hp : u.stage = .running p) : s.step? (.task u.id) = some (s.stepProgram u p) := by
  rw [hc.step?_task hu, State.stepTask?, hp]

theorem Coherent.step?_of_suspended (hc : Coherent s) (hu : u ∈ s.tasks)
    (hp : u.stage = .suspended p) (ha : s.pools.isUp u.pool) (hr : s.canResume p) :
    s.step? (.task u.id) = some (s.resume u.id p) := by
  rw [hc.step?_task hu, State.stepTask?, hp]
  simp only [Pools.isDown_of_isUp ha, hr, Bool.not_false, Bool.or_true, Bool.and_true, if_true]

theorem canResume_of_course {o : Outcome} (ho : (p.course th).outcome = some o)
    (hg : ∀ g, s.gateOpen g) : s.canResume p := by
  cases p with
  | passGate g p => exact hg g
  | await => cases ho
  | _ => rfl

namespace State.Reachable

/-- Once the end of a task is certain, at most two steps of its own bring it to its notification. -/
theorem exists_isTold (h : s.Reachable) (hu : u ∈ s.tasks) (hd : u.stage.decided? = some e) :
    ∃ n ≤ 2, ∃ t stage, s.after? (List.replicate n (.task u.id)) = some t ∧ stage.isTold ∧
      { u with stage := stage } ∈ t.tasks := by
  cases hs : u.stage with
  | suspended | running | submitting =>
    rw [hs] at hd
    cases hd
  | ended o =>
    -- one step counts the outcome, the next notifies
    obtain ⟨t, ht, hmem⟩ := exists_step_of_ended h.coherent hu hs
    obtain ⟨v, stage, hv, hstage, hmem'⟩ := exists_step_of_recorded (h.step ht).coherent hmem rfl
    exact ⟨2, le_rfl, v, stage, (after?_cons ht _).trans (after?_cons hv []), hstage, hmem'⟩
  | recorded e =>
    obtain ⟨t, stage, ht, hstage, hmem⟩ := exists_step_of_recorded h.coherent hu hs
    exact ⟨1, by omega, t, stage, after?_cons ht [], hstage, hmem⟩
  | notifying | notified | resolved =>
    exact ⟨0, by omega, s, u.stage, rfl, by rw [hs]; rfl, hu⟩

/-- A task is never through before all its steps are taken. -/
theorem isSome_step?_of_decided (h : s.Reachable) (hu : u ∈ s.tasks)
    (hd : u.stage.decided? = some e) (hn : u.isResolved = false) :
    (s.step? (.task u.id)).isSome := by
  rw [h.coherent.step?_task hu]
  cases hs : u.stage with
  | suspended | running | submitting =>
    rw [hs] at hd
    cases hd
  | ended | notified => simp only [State.stepTask?, hs, Option.isSome_some]
  | recorded e =>
    cases hw : u.envelope.wake with
    | none => simp only [State.stepTask?, hs, hw, Option.isSome_some]
    | some w =>
      simp only [State.stepTask?, hs, hw]
      cases (s.registry.notify w).progress <;> rfl
  | notifying e i =>
    simp only [State.stepTask?, hs]
    cases (s.registry.step i).progress <;> rfl
  | resolved e =>
    rw [Task.isResolved, Task.ending?, hs] at hn
    cases hn

/-- A program on a thread goes its course to the end, if all gates are open and its pool is up. -/
theorem brings_ended (h : s.Reachable) (hu : u ∈ s.tasks) (hp : u.stage = .running p) {o : Outcome}
    (ho : (p.course (s.pools.threadName u.pool)).outcome = some o) (hg : ∀ g, s.gateOpen g)
    (ha : s.pools.isUp u.pool) : s.Brings u (.ended o) := by
  have hlater : ∀ {u : Task} {b : Bool} {stage : Stage},
      u.Later { u with begun := b, stage := stage } := ⟨rfl, rfl, rfl, rfl⟩
  induction p generalizing s u with
  | finish o' =>
    obtain rfl := Option.some.inj ho
    have hstep := h.coherent.step?_of_running hu hp
    exact ⟨1, _, _, after?_cons hstep [], mem_setStage_self hu _, hlater, rfl⟩
  | pause p ih =>
    -- off the thread, and on it again
    have hstep := h.coherent.step?_of_running hu hp
    have hu' : { u with stage := .suspended p } ∈ (s.stepProgram u (.pause p)).tasks :=
      mem_setStage_self hu _
    have h' := h.step hstep
    have hback := h'.coherent.step?_of_suspended hu' rfl ha (canResume_of_course ho hg)
    have hu'' := mem_resume_self hu' p
    exact ((ih (h'.step hback) hu'' rfl ho hg ha).cons hback hlater).cons hstep hlater
  | passGate g p ih =>
    have hstep := h.coherent.step?_of_running hu hp
    simp only [State.stepProgram, hg g, if_true] at hstep
    exact (ih (h.step hstep) (mem_setStage_self hu _) rfl ho hg ha).cons hstep hlater
  | onThread k ih =>
    have hstep := h.coherent.step?_of_running hu hp
    exact (ih _ (h.step hstep) (mem_setStage_self hu _) rfl ho hg ha).cons hstep hlater
  | logFailure name f p ih =>
    have hstep := h.coherent.step?_of_running hu hp
    exact (ih (h.step hstep) (mem_setStage_self hu _) rfl ho hg ha).cons hstep hlater
  | submit | await => cases ho

/-- So does a suspended one, which is put on a thread first. -/
theorem brings_ended_of_suspended (h : s.Reachable) (hu : u ∈ s.tasks)
    (hp : u.stage = .suspended p) {o : Outcome}
    (ho : (p.course (s.pools.threadName u.pool)).outcome = some o) (hg : ∀ g, s.gateOpen g)
    (ha : s.pools.isUp u.pool) : s.Brings u (.ended o) := by
  have hstep := h.coherent.step?_of_suspended hu hp ha (canResume_of_course ho hg)
  have hu' := mem_resume_self hu p
  exact ((h.step hstep).brings_ended hu' rfl ho hg ha).cons hstep ⟨rfl, rfl, rfl, rfl⟩

end State.Reachable

end TaskRelay
