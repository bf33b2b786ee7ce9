import Mathlib
import TaskRelay.Proofs.Relay.Life
import TaskRelay.Proofs.Relay.Submissions
import TaskRelay.Wake.Observer

/-!
# One notification for each task

A task whose submission carried a wake pointer is told of once, with this pointer, after its
callable is over and before its handle has a result; one without a pointer is never told of.
Main statement: `State.Reachable.notifiedOnce`.
-/

namespace TaskRelay

variable {s t : State} {u : Task}

/-! ## Notifications -/

def Mark.notified? (id : Nat) : Mark → Option WakePointer
  | .notify (.task i) w => if i = id then some w else none
  | _ => none

/-- The pointers with which notifications were made for this task, from the first. -/
def State.notifications (s : State) (id : Nat) : List WakePointer :=
  s.history.filterMap (Mark.notified? id)

/-- The notification of the task was made. -/
def Stage.isTold : Stage → Bool
  | .notifying _ _ | .notified _ | .resolved _ => true
  | _ => false

theorem notifications_eq (s : State) (id : Nat) :
    s.notifications id = (s.life id).filterMap (Mark.notified? id) := by
  rw [State.life, List.filterMap_filter, State.notifications]
  apply List.filterMap_congr
  intro m _
  cases m with
  | notify source w =>
    cases source with
    | task i => by_cases h : i = id <;> simp [Mark.notified?, Mark.isOf, h]
    | thread n => rfl
  | _ => simp [Mark.notified?]

theorem Entered.notifications {id : Nat} {e : Ending} {l : List Mark} (h : Entered id e l) :
    l.filterMap (Mark.notified? id) = [] := by
  cases h <;> rfl

theorem Told.notifications {id n : Nat} {wake : Option WakePointer} {l : List Mark}
    (h : Told id wake n l) : l.filterMap (Mark.notified? id) = wake.toList := by
  cases h with
  | nobody => rfl
  | @notify w n signs _ =>
    have hs : (signs.map (Mark.sign (.task id))).filterMap (Mark.notified? id) = [] := by
      rw [List.filterMap_map, List.filterMap_eq_nil_iff]
      exact fun x _ => rfl
    simp [Mark.notified?, hs]

theorem Life.notifications {id : Nat} {wake : Option WakePointer} {stage : Stage} {l : List Mark}
    (h : Life id wake stage l) :
    l.filterMap (Mark.notified? id) = if stage.isTold then wake.toList else [] := by
  cases h with
  | @live stage hs =>
    have : stage.isTold = false := by cases stage <;> first | rfl | cases hs
    rw [this]
    rfl
  | recorded he => exact he.notifications
  | notifying he ht | notified he ht | resolved he ht =>
    simp [List.filterMap_append, he.notifications, ht.notifications, Stage.isTold, Mark.notified?]

theorem State.Reachable.notifications_eq (h : s.Reachable) (hu : u ∈ s.tasks) :
    s.notifications u.id = if u.stage.isTold then u.envelope.wake.toList else [] := by
  rw [TaskRelay.notifications_eq, (h.lives.tasks u hu).notifications]

/-! ## A callable that is over -/

theorem after?_cons {a : Action} (h : s.step? a = some t) (as : List Action) :
    s.after? (a :: as) = t.after? as := by
  show (s.step? a).bind _ = _
  rw [h]
  rfl

theorem Coherent.step?_task (h : Coherent s) (hu : u ∈ s.tasks) :
    s.step? (.task u.id) = s.stepTask? u := by
  show (s.task? u.id).bind s.stepTask? = _
  rw [h.task?_eq hu]
  rfl

/-- Counting the outcome never waits. -/
theorem exists_step_of_ended (hc : Coherent s) (hu : u ∈ s.tasks) {o : Outcome}
    (hs : u.stage = .ended o) : ∃ t, s.step? (.task u.id) = some t ∧
      { u with stage := .recorded (.outcome o) } ∈ t.tasks := by
  have hstep : s.stepTask? u = some (({ s with
      counters := State.countOutcome s.counters o }.note (.recorded u.id o)).setStage u.id
        (.recorded (.outcome o))) := by
    simp only [State.stepTask?, hs]
  rw [hc.step?_task hu, hstep]
  exact ⟨_, rfl, (State.mem_setStage _).mpr (.inl ⟨u, hu, rfl, rfl⟩)⟩

/-- Making the notification never waits. -/
theorem exists_step_of_recorded (hc : Coherent s) (hu : u ∈ s.tasks) {e : Ending}
    (hs : u.stage = .recorded e) : ∃ t stage, s.step? (.task u.id) = some t ∧
      stage.isTold ∧ { u with stage := stage } ∈ t.tasks := by
  have hmem : ∀ stage, { u with stage := stage } ∈ (s.setStage u.id stage).tasks := fun stage =>
    (State.mem_setStage s).mpr (.inl ⟨u, hu, rfl, rfl⟩)
  rw [hc.step?_task hu]
  cases hw : u.envelope.wake with
  | none =>
    have hstep : s.stepTask? u = some (s.setStage u.id (.notified e)) := by
      simp only [State.stepTask?, hs, hw]
    exact ⟨_, _, hstep, rfl, hmem (.notified e)⟩
  | some w =>
    have hstep : s.stepTask? u = some (((s.note (.notify (.task u.id) w)).afterTurn (.task u.id)
        (s.registry.notify w)).setStage u.id (.ofProgress e (s.registry.notify w).progress)) := by
      simp only [State.stepTask?, hs, hw]
      cases (s.registry.notify w).progress <;> rfl
    refine ⟨_, .ofProgress e (s.registry.notify w).progress, hstep, ?_, ?_⟩
    · cases (s.registry.notify w).progress <;> rfl
    · rw [State.setStage_tasks (State.afterTurn_tasks _ _ _)]
      exact hmem _

namespace State.Reachable

theorem exists_told_of_recorded (h : s.Reachable) (hu : u ∈ s.tasks) {e : Ending}
    (hs : u.stage = .recorded e) : ∃ t, s.step? (.task u.id) = some t ∧
      t.notifications u.id = u.envelope.wake.toList := by
  obtain ⟨t, stage, ht, hstage, hmem⟩ := exists_step_of_recorded h.coherent hu hs
  have hn := (h.step ht).notifications_eq hmem
  exact ⟨t, ht, hn.trans (if_pos hstage)⟩

/-- Once the end of a task is certain, at most two steps of its own bring its notification. -/
theorem exists_told (h : s.Reachable) (hu : u ∈ s.tasks) {e : Ending}
    (hd : u.stage.decided? = some e) : ∃ n ≤ 2, ∃ t,
      s.after? (List.replicate n (.task u.id)) = some t ∧
        t.notifications u.id = u.envelope.wake.toList := by
  cases hs : u.stage with
  | suspended | running | submitting =>
    rw [hs] at hd
    cases hd
  | ended o =>
    -- one step counts the outcome, the next notifies
    obtain ⟨t, ht, hmem⟩ := exists_step_of_ended h.coherent hu hs
    obtain ⟨v, hv, hn⟩ := (h.step ht).exists_told_of_recorded hmem rfl
    refine ⟨2, le_rfl, v, ?_, hn⟩
    exact (after?_cons ht _).trans (after?_cons hv [])
  | recorded e =>
    obtain ⟨t, ht, hn⟩ := h.exists_told_of_recorded hu hs
    refine ⟨1, by omega, t, ?_, hn⟩
    exact after?_cons ht []
  | notifying | notified | resolved =>
    refine ⟨0, by omega, s, rfl, ?_⟩
    rw [h.notifications_eq hu, hs]
    rfl

end State.Reachable

/-! ## Exactly one notification -/

structure NotifiedOnce (s : State) : Prop where
  /-- Every accepted submission has its task. -/
  task : ∀ z ∈ s.submissions, ∀ k, z.answer = .ok k →
    ∃ u ∈ s.tasks, u.id = k.id ∧ u.caller = z.caller ∧ u.envelope = z.envelope
  /-- No two have the same. -/
  own : (s.submissions.filterMap Submission.acceptedId?).Nodup
  once : ∀ u ∈ s.tasks, s.notifications u.id = [] ∨ s.notifications u.id = u.envelope.wake.toList
  /-- There is none while the callable is not over. -/
  notBefore : ∀ u ∈ s.tasks, u.stage.decided? = none → s.notifications u.id = []
  /-- Once the callable is over, at most two steps of the task make it, and nothing keeps the task
  from taking them. -/
  soon : ∀ u ∈ s.tasks, ∀ e, u.stage.decided? = some e → ∃ n ≤ 2, ∃ t,
    s.after? (List.replicate n (.task u.id)) = some t ∧
      t.notifications u.id = u.envelope.wake.toList
  /-- It was made before anybody can have the result. -/
  done : ∀ u ∈ s.tasks, u.isResolved → s.notifications u.id = u.envelope.wake.toList
  nobody : ∀ id, id ∉ s.tasks.map Task.id → s.notifications id = []

theorem State.Reachable.notifiedOnce (h : s.Reachable) : NotifiedOnce s where
  task _ hz _ hk := h.exists_task_of_accepted hz hk
  own := h.submissions_acceptedIds_nodup
  once u hu := by
    rw [h.notifications_eq hu]
    split_ifs
    · exact .inr rfl
    · exact .inl rfl
  notBefore u hu hd := by
    have ht : u.stage.isTold = false := by
      cases hs : u.stage <;> rw [hs] at hd <;> first | rfl | cases hd
    rw [h.notifications_eq hu, ht]
    rfl
  soon _ hu _ hd := h.exists_told hu hd
  done u hu hr := by
    have ht : u.stage.isTold := by
      simp only [Task.isResolved, Task.ending?] at hr
      cases hs : u.stage <;> rw [hs] at hr <;> first | rfl | cases hr
    rw [h.notifications_eq hu, if_pos ht]
  nobody id hid := by
    rw [TaskRelay.notifications_eq, h.lives.others id hid]
    rfl

/-- One task fails, and another is dropped before it has been on a thread. -/
def failureAndDrop : List Action := List.flatten [
  [.install Observer.first.callback,
    .submit 0 .direct (.comingTo (.failure (.message "no")) (WakePointer.ofAddress? 8))],
  List.replicate 4 (.call (.thread 0)), List.replicate 7 (.task 0),
  [.submit 0 .direct (.comingTo (.value .null) (WakePointer.ofAddress? 16))],
  List.replicate 4 (.call (.thread 0)),
  [.drop, .cancel 1 false], List.replicate 4 (.task 1)]

theorem notifiedOnce_failureAndDrop : ∃ s, State.plain.after? failureAndDrop = some s ∧
    (s.notifications 0).map WakePointer.address = [8] ∧
      (s.notifications 1).map WakePointer.address = [16] ∧ NotifiedOnce s := by
  obtain ⟨s, hs, hr, h0, h1⟩ := exists_run (P := fun s =>
    (s.notifications 0).map WakePointer.address = [8] ∧
      (s.notifications 1).map WakePointer.address = [16]) failureAndDrop (by decide +kernel)
  exact ⟨s, hs, h0, h1, hr.notifiedOnce⟩

end TaskRelay
