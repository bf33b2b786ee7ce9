import Mathlib
import TaskRelay.Proofs.Relay.Order

/-!
# Tasks of tasks

A task that submits another one has its id already when the id of the other is drawn, whoever draws
it. So ids go up along every line of tasks that submit one another.
Main statement: `State.Reachable.lt_of_caller`.
-/

namespace TaskRelay

variable {s t : State} {a : Action}

/-- The envelope that the worker has not made a task of yet. -/
def WorkerStage.parcel? : WorkerStage → Option Parcel
  | .holding p | .numbered p _ | .counted p _ => some p
  | _ => none

/-- If the caller is a task, its id is below this one. -/
def Caller.Below (c : Caller) (n : Nat) : Prop := ∀ i, c = .task i → i < n

theorem Caller.Below.mono {c : Caller} {m n : Nat} (h : c.Below m) (hn : m ≤ n) : c.Below n :=
  fun i hi => (h i hi).trans_le hn

/-- What is still to be drawn is drawn later. -/
theorem Caller.Below.getD_mono {c : Caller} {o : Option Nat} {m n : Nat} (h : c.Below (o.getD m))
    (hn : m ≤ n) : c.Below (o.getD n) := by
  cases o with
  | none => exact h.mono hn
  | some id => exact h

theorem Caller.below_thread (k n : Nat) : (Caller.thread k).Below n := fun _ h => nomatch h

/-- What the mark of a launch says is that the caller has a lower id. -/
def Mark.Descends : Mark → Prop
  | .launched id c _ => c.Below id
  | _ => True

/-- Whoever has submitted has a lower id than the task that came or is to come of it. -/
structure Descending (s : State) : Prop where
  tasks : ∀ m ∈ s.tasks.map Task.launchMark, m.Descends
  calls : ∀ x ∈ s.calls, x.caller.Below (x.stage.id?.getD s.nextId)
  inbound : ∀ p, s.dispatch.inbound = some p → p.sender.Below s.nextId
  worker : ∀ p, s.dispatch.worker.parcel? = some p →
    p.sender.Below (s.dispatch.worker.id?.getD s.nextId)

namespace Descending

theorem of_sameFront (h : Descending s) (hf : SameFront s t) : Descending t where
  tasks := by
    rw [hf.launchMarks]
    exact h.tasks
  calls := by
    rw [hf.calls, hf.nextId]
    exact h.calls
  inbound := by
    rw [hf.dispatch, hf.nextId]
    exact h.inbound
  worker := by
    rw [hf.dispatch, hf.nextId]
    exact h.worker

theorem ask (h : Descending s) {c : Caller} (hc : c.Below s.nextId) (entry : Entry)
    (e : Envelope) : Descending (s.ask c entry e) where
  tasks := h.tasks
  calls x hx := by
    rcases s.mem_ask.mp hx with hx | rfl
    · exact h.calls x hx
    · exact hc
  inbound := h.inbound
  worker := h.worker

theorem launch (h : Descending s) {id : Nat} {c : Caller} (hc : c.Below id) (pool : PoolName)
    (e : Envelope) : Descending (s.launch id c pool e) where
  tasks m hm := by
    obtain ⟨u, hu, rfl⟩ := List.mem_map.mp hm
    rcases s.mem_launch.mp hu with hu | rfl
    · exact h.tasks _ (List.mem_map_of_mem hu)
    · exact hc
  calls := h.calls
  inbound := h.inbound
  worker := h.worker

theorem answer (h : Descending s) (c : Caller) (r : Except RelayError Ticket) :
    Descending (s.answer c r) where
  tasks := by
    rw [State.answer_launchMarks]
    exact h.tasks
  calls x hx := by
    rw [State.answer_nextId]
    exact h.calls x ((s.mem_answer c r).mp hx).1
  inbound := by
    rw [State.answer_dispatch, State.answer_nextId]
    exact h.inbound
  worker := by
    rw [State.answer_dispatch, State.answer_nextId]
    exact h.worker

/-- A call goes on, and what is drawn for it is drawn from then on. -/
theorem setCall (h : Descending s) {x : Call} {stage : CallStage}
    (hx : x.caller.Below (stage.id?.getD t.nextId)) (hn : s.nextId ≤ t.nextId)
    (ht : t.tasks = s.tasks) (hcalls : t.calls = (s.setCall x.caller stage).calls)
    (hin : ∀ p, t.dispatch.inbound = some p → s.dispatch.inbound = some p ∨ p.sender = x.caller)
    (hcall : x.caller.Below s.nextId) (hw : t.dispatch.worker = s.dispatch.worker) :
    Descending t where
  tasks := ht ▸ h.tasks
  calls y hy := by
    rw [hcalls] at hy
    rcases (State.mem_setCall s).mp hy with ⟨z, -, hz, rfl⟩ | ⟨hy, -⟩
    · show z.caller.Below _
      rw [hz]
      exact hx
    · exact (h.calls y hy).getD_mono hn
  inbound p hp := by
    rcases hin p hp with hp | hp
    · exact (h.inbound p hp).mono hn
    · rw [hp]
      exact hcall.mono hn
  worker p hp := by
    rw [hw] at hp ⊢
    exact (h.worker p hp).getD_mono hn

/-- Whoever is within a submission has an id that was drawn. -/
theorem below_of_call (hr : s.Reachable) {x : Call} (hx : x ∈ s.calls) :
    x.caller.Below s.nextId := by
  intro i hi
  obtain ⟨u, hu, rfl, -⟩ := hr.coherent.inside x hx i hi
  exact hr.lt_of_task (List.mem_map_of_mem hu)

theorem callMove (h : Descending s) (hr : s.Reachable) {x : Call} (hx : x ∈ s.calls)
    (m : CallMove s x t) : Descending t := by
  have hcall := below_of_call hr hx
  have hb := h.calls x hx
  cases m with
  | refuse => exact h.answer _ _
  | allow | lock | receive =>
    exact h.setCall hcall le_rfl rfl rfl (fun _ hp => .inl hp) hcall rfl
  | number => exact h.setCall hcall (Nat.le_succ _) rfl rfl (fun _ hp => .inl hp) hcall rfl
  | @count id hs =>
    rw [hs] at hb
    have hb' : x.caller.Below ((CallStage.counted id).id?.getD s.nextId) := hb
    exact h.setCall hb' le_rfl rfl rfl (fun _ hp => .inl hp) hcall rfl
  | launch hs =>
    rw [hs] at hb
    exact (h.launch hb _ _).answer _ _
  | abandon | unlock =>
    exact Descending.answer (s := s.setHolder none) ⟨h.tasks, h.calls, h.inbound, h.worker⟩ _ _
  | send =>
    refine h.setCall hcall le_rfl rfl rfl (fun p hp => .inr ?_) hcall rfl
    obtain rfl := Option.some.inj hp
    rfl

theorem workerMove (h : Descending s) (m : WorkerMove s t) : Descending t := by
  cases m with
  | take hw hi =>
    refine ⟨h.tasks, h.calls, fun _ hp => (nomatch hp), fun p hp => ?_⟩
    obtain rfl := Option.some.inj hp
    exact h.inbound _ hi
  | leave | lose => exact ⟨h.tasks, h.calls, h.inbound, fun _ hp => (nomatch hp)⟩
  | @number p hw =>
    have hb := h.worker p (by rw [hw]; rfl)
    rw [hw] at hb
    refine ⟨h.tasks, fun x hx => (h.calls x hx).getD_mono (Nat.le_succ _),
      fun q hq => (h.inbound q hq).mono (Nat.le_succ _), fun q hq => ?_⟩
    obtain rfl := Option.some.inj hq
    exact hb
  | @count p id hw =>
    have hb := h.worker p (by rw [hw]; rfl)
    rw [hw] at hb
    refine ⟨h.tasks, h.calls, h.inbound, fun q hq => ?_⟩
    obtain rfl := Option.some.inj hq
    exact hb
  | @launch p id hw =>
    have hb := h.worker p (by rw [hw]; rfl)
    rw [hw] at hb
    have h' := h.launch hb .parallel p.envelope
    exact ⟨h'.tasks, h'.calls, h'.inbound, fun _ hq => (nomatch hq)⟩
  | publish => exact ⟨h.tasks, h.calls, h.inbound, fun _ hp => (nomatch hp)⟩

end Descending

theorem Move.descending (hr : s.Reachable) (h : Descending s) (m : Move s a t) : Descending t := by
  cases m with
  | outside m => exact h.of_sameFront m.sameFront
  | ask => exact h.ask (Caller.below_thread _ _) _ _
  | @askInside x entry name body args wake next hx =>
    have h' : Descending (s.setStage x.id (.submitting next)) := h.of_sameFront (.setStage _ _)
    refine h'.ask (fun i hi => ?_) _ _
    obtain rfl := Caller.task.inj hi
    exact hr.lt_of_task (List.mem_map_of_mem (task?_spec hx).1)
  | call hx m => exact h.callMove hr (call?_spec hx).1 m
  | worker m => exact h.workerMove m
  | close | drop => exact ⟨h.tasks, h.calls, h.inbound, h.worker⟩
  | task _ m => exact h.of_sameFront m.sameFront

theorem State.Reachable.descending (h : s.Reachable) : Descending s := by
  refine h.induct (fun pools color => ?_) fun _ _ _ hr => Move.descending hr
  exact ⟨by simp [State.start], by simp [State.start], fun _ hp => (nomatch hp),
    fun _ hp => (nomatch hp)⟩

/-- A task has a lower id than every task that it has submitted. -/
theorem State.Reachable.lt_of_caller (h : s.Reachable) {u : Task} (hu : u ∈ s.tasks) {i : Nat}
    (hi : u.caller = .task i) : i < u.id :=
  h.descending.tasks u.launchMark (List.mem_map_of_mem hu) i hi

end TaskRelay
