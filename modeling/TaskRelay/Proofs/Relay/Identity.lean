import Mathlib
import TaskRelay.Proofs.Relay.Front

/-!
# Callers and ids

No caller is within two submissions at once, a task with a submission under way waits for it, and
every id that was handed out is in exactly one place: with a task, with a call, or with the worker.
The three are kept together (`Coherent`), because a call is found by its caller and a task by its
id.
Main statement: `State.Reachable.coherent`.
-/

namespace TaskRelay

/-! ## Where ids are -/

/-- The id that a submission holds between drawing it and launching its task. -/
def CallStage.id? : CallStage → Option Nat
  | .numbered id | .counted id => some id
  | _ => none

def WorkerStage.id? : WorkerStage → Option Nat
  | .numbered _ id | .counted _ id => some id
  | _ => none

def Stage.isSubmitting : Stage → Bool
  | .submitting _ => true
  | _ => false

namespace State

/-- In how many places an id is. -/
def places (s : State) (i : Nat) : Nat :=
  (s.tasks.map Task.id).count i + s.calls.countP (fun x => x.stage.id? == some i) +
    s.dispatch.worker.id?.toList.count i

/-- A task with a submission under way waits for it. -/
def WaitsInside (s : State) : Prop :=
  ∀ x ∈ s.calls, ∀ id, x.caller = .task id → ∃ u ∈ s.tasks, u.id = id ∧ u.stage.isSubmitting

end State

structure Coherent (s : State) : Prop where
  callers : (s.calls.map Call.caller).Nodup
  inside : s.WaitsInside
  places : ∀ i, s.places i = if i < s.nextId then 1 else 0

variable {s t : State}

namespace Coherent

theorem ids_nodup (h : Coherent s) : (s.tasks.map Task.id).Nodup := by
  rw [List.nodup_iff_count_le_one]
  intro i
  have hi := h.places i
  unfold State.places at hi
  split_ifs at hi <;> omega

theorem eq_of_id_eq (h : Coherent s) {u v : Task} (hu : u ∈ s.tasks) (hv : v ∈ s.tasks)
    (e : u.id = v.id) : u = v :=
  List.inj_on_of_nodup_map h.ids_nodup hu hv e

theorem eq_of_caller_eq (h : Coherent s) {x y : Call} (hx : x ∈ s.calls) (hy : y ∈ s.calls)
    (e : x.caller = y.caller) : x = y :=
  List.inj_on_of_nodup_map h.callers hx hy e

theorem call?_eq (h : Coherent s) {x : Call} (hx : x ∈ s.calls) : s.call? x.caller = some x := by
  cases hf : s.call? x.caller with
  | none => exact absurd (by simp) (List.find?_eq_none.mp hf x hx)
  | some y =>
    obtain ⟨hy, he⟩ := call?_spec hf
    rw [h.eq_of_caller_eq hy hx he]

theorem task?_eq (h : Coherent s) {u : Task} (hu : u ∈ s.tasks) : s.task? u.id = some u := by
  cases hf : s.task? u.id with
  | none => exact absurd (by simp) (List.find?_eq_none.mp hf u hu)
  | some v =>
    obtain ⟨hv, he⟩ := task?_spec hf
    rw [h.eq_of_id_eq hv hu he]

/-- An id that a call holds is not yet that of a task. -/
theorem id_of_call (h : Coherent s) {x : Call} (hx : x ∈ s.calls) {id : Nat}
    (hid : x.stage.id? = some id) : id < s.nextId ∧ id ∉ s.tasks.map Task.id := by
  have hi := h.places id
  have hc : 0 < s.calls.countP fun x => x.stage.id? == some id :=
    List.countP_pos_iff.mpr ⟨x, hx, by simpa using hid⟩
  unfold State.places at hi
  rw [← List.count_eq_zero]
  split_ifs at hi <;> omega

theorem id_of_worker (h : Coherent s) {id : Nat} (hid : s.dispatch.worker.id? = some id) :
    id < s.nextId ∧ id ∉ s.tasks.map Task.id := by
  have hi := h.places id
  unfold State.places at hi
  rw [hid, Option.toList_some, List.count_singleton_self] at hi
  rw [← List.count_eq_zero]
  split_ifs at hi
  omega

end Coherent

/-- A task with a new id leaves the ids distinct. -/
theorem Coherent.nodup_launch (h : Coherent s) {id : Nat} (hid : id ∉ s.tasks.map Task.id)
    (c : Caller) (pool : PoolName) (e : Envelope) :
    ((s.launch id c pool e).tasks.map Task.id).Nodup := by
  simp only [State.launch, State.note, List.map_append]
  exact List.nodup_append_comm.mpr (List.nodup_cons.mpr ⟨hid, h.ids_nodup⟩)

/-! ## How the updates move ids -/

section places

variable {x : Call}

theorem count_toList (o : Option Nat) (i : Nat) :
    o.toList.count i = if o == some i then 1 else 0 := by
  cases o <;> simp [List.count_singleton]

theorem places_setCall (hd : (s.calls.map Call.caller).Nodup) (hx : x ∈ s.calls)
    (stage : CallStage) (i : Nat) :
    (s.setCall x.caller stage).places i + x.stage.id?.toList.count i =
      s.places i + stage.id?.toList.count i := by
  have h := countP_change hd hx (fun y => { y with stage := stage })
    fun y => y.stage.id? == some i
  rw [count_toList, count_toList]
  unfold State.places State.setCall
  dsimp only at h ⊢
  omega

theorem places_answer (hd : (s.calls.map Call.caller).Nodup) (hx : x ∈ s.calls)
    (r : Except RelayError Ticket) (i : Nat) :
    (s.answer x.caller r).places i + x.stage.id?.toList.count i = s.places i := by
  have h := countP_remove hd hx fun y => y.stage.id? == some i
  rw [count_toList]
  simp only [State.places, State.answer_ids, State.answer_calls, State.answer_dispatch]
  omega

theorem places_launch (id : Nat) (c : Caller) (pool : PoolName) (e : Envelope) (i : Nat) :
    (s.launch id c pool e).places i = s.places i + [id].count i := by
  simp only [State.places, State.launch, State.note, List.map_append, List.map_cons, List.map_nil,
    List.count_append]
  omega

theorem places_setWorker (w : WorkerStage) (i : Nat) :
    (s.setWorker w).places i + s.dispatch.worker.id?.toList.count i =
      s.places i + w.id?.toList.count i := by
  simp only [State.places, State.setWorker]
  omega

end places

/-! ## How the updates keep tasks waiting -/

section inside

theorem WaitsInside.setCall (h : s.WaitsInside) (c : Caller) (stage : CallStage) :
    (s.setCall c stage).WaitsInside := by
  intro y hy id hid
  rcases (State.mem_setCall s).mp hy with ⟨x, hx, hc, rfl⟩ | ⟨hy, -⟩
  · exact h x hx id hid
  · exact h y hy id hid

/-- The task whose submission is answered goes on; its call is taken off. -/
theorem WaitsInside.answer (h : s.WaitsInside) (c : Caller) (r : Except RelayError Ticket) :
    (s.answer c r).WaitsInside := by
  intro y hy id hid
  obtain ⟨hy, hne⟩ := (s.mem_answer c r).mp hy
  obtain ⟨u, hu, rfl, hs⟩ := h y hy id hid
  obtain ⟨tasks, e, rfl | ⟨z, next, rfl, -, -, rfl⟩⟩ := State.answer_eq s c r
  · rw [e]
    exact ⟨u, hu, rfl, hs⟩
  · rw [e]
    have hne' : u.id ≠ z.id := fun he => hne (by rw [hid, he])
    exact ⟨u, (State.mem_setStage s).mpr (.inr ⟨hu, hne'⟩), rfl, hs⟩

theorem WaitsInside.launch (h : s.WaitsInside) (id : Nat) (c : Caller) (pool : PoolName)
    (e : Envelope) : (s.launch id c pool e).WaitsInside := by
  intro y hy i hi
  obtain ⟨u, hu, hid, hs⟩ := h y hy i hi
  exact ⟨u, List.mem_append_left _ hu, hid, hs⟩

/-- A change of a task that does not wait leaves those that wait alone. -/
theorem WaitsInside.change (h : s.WaitsInside) (hd : (s.tasks.map Task.id).Nodup) {x : Task}
    (hx : x ∈ s.tasks) (hs : x.stage.isSubmitting = false) (f : Task → Task)
    (hc : t.calls = s.calls)
    (ht : t.tasks = s.tasks.map fun u => if u.id = x.id then f u else u) : t.WaitsInside := by
  intro y hy id hid
  rw [hc] at hy
  obtain ⟨u, hu, rfl, hu'⟩ := h y hy id hid
  refine ⟨u, ?_, rfl, hu'⟩
  rw [ht]
  -- the task that waits is not the one that changes
  refine mem_change.mpr (.inr ⟨hu, fun e => ?_⟩)
  obtain rfl := List.inj_on_of_nodup_map hd hu hx e
  rw [hs] at hu'
  cases hu'

end inside

/-! ## Coherence is kept -/

namespace Coherent

theorem start (pools : Pools) (color : Bool) : Coherent (State.start pools color) where
  callers := List.nodup_nil
  inside := by simp [State.WaitsInside, State.start]
  places i := by simp [State.places, State.start, Dispatch.start, WorkerStage.id?]

theorem places_of_sameFront (h : Coherent s) (hf : SameFront s t) (i : Nat) :
    t.places i = if i < t.nextId then 1 else 0 := by
  rw [hf.nextId, ← h.places i]
  simp only [State.places, hf.ids, hf.calls, hf.dispatch]

/-- Drawing an id puts it in one more place. -/
theorem places_succ (h : Coherent s) (i : Nat) :
    s.places i + [s.nextId].count i = if i < s.nextId + 1 then 1 else 0 := by
  have hi := h.places i
  rw [List.count_singleton]
  by_cases he : s.nextId = i
  · subst he
    rw [if_neg (lt_irrefl _)] at hi
    simp [hi]
  · rw [hi]
    have : (i < s.nextId + 1) ↔ i < s.nextId := by omega
    simp [he, this]

theorem setCall (h : Coherent s) {x : Call} (hx : x ∈ s.calls) (stage : CallStage)
    (hid : stage.id? = x.stage.id?) : Coherent (s.setCall x.caller stage) where
  callers := by
    rw [State.setCall_callers]
    exact h.callers
  inside := WaitsInside.setCall h.inside _ _
  places i := by
    have := places_setCall h.callers hx stage i
    rw [hid] at this
    have hi := h.places i
    show _ = if i < s.nextId then 1 else 0
    omega

theorem answer (h : Coherent s) {x : Call} (hx : x ∈ s.calls) (hid : x.stage.id? = none)
    (r : Except RelayError Ticket) : Coherent (s.answer x.caller r) where
  callers := by
    rw [State.answer_calls]
    exact h.callers.sublist (List.filter_sublist.map _)
  inside := WaitsInside.answer h.inside _ _
  places i := by
    have := places_answer h.callers hx r i
    rw [hid, Option.toList_none, List.count_nil] at this
    have hi := h.places i
    rw [State.answer_nextId]
    omega

theorem callMove (h : Coherent s) {x : Call} (hx : x ∈ s.calls) (m : CallMove s x t) :
    Coherent t := by
  cases m with
  | refuse hr => exact h.answer hx (by cases hr <;> simp [*, CallStage.id?]) _
  | allow hs => exact h.setCall hx _ (by rw [hs]; rfl)
  | lock hs =>
    have := h.setCall hx .locked (by rw [hs]; rfl)
    exact ⟨this.callers, this.inside, this.places⟩
  | number hs =>
    refine ⟨by rw [State.setCall_callers]; exact h.callers, WaitsInside.setCall h.inside _ _, ?_⟩
    intro i
    have hp := places_setCall h.callers hx (.numbered s.nextId) i
    rw [hs] at hp
    exact hp.trans (h.places_succ i)
  | @count id hs =>
    have := h.setCall hx (.counted id) (by rw [hs]; rfl)
    exact ⟨this.callers, this.inside, this.places⟩
  | @launch id hs =>
    refine ⟨?_, WaitsInside.answer (WaitsInside.launch h.inside _ _ _ _) _ _, fun i => ?_⟩
    · rw [State.answer_calls]
      exact h.callers.sublist (List.filter_sublist.map _)
    · -- the id passes from the call to its task
      have hp := places_answer (s := s.launch id x.caller x.entry.pool x.envelope) h.callers hx
        (.ok (State.ticket id x.envelope)) i
      rw [hs, places_launch] at hp
      have hi := h.places i
      rw [State.answer_nextId]
      show _ = if i < s.nextId then 1 else 0
      simp only [CallStage.id?, Option.toList_some] at hp
      omega
  | abandon _ hs =>
    have h' : Coherent (s.setHolder none) := ⟨h.callers, h.inside, h.places⟩
    exact h'.answer hx (by rcases hs with hs | ⟨hs, -⟩ <;> rw [hs] <;> rfl) _
  | send hs =>
    have := h.setCall hx .sent (by rw [hs]; rfl)
    exact ⟨this.callers, this.inside, this.places⟩
  | @receive tk hs =>
    have := h.setCall hx (.received tk) (by rw [hs]; rfl)
    exact ⟨this.callers, this.inside, this.places⟩
  | unlock hs =>
    have h' : Coherent (s.setHolder none) := ⟨h.callers, h.inside, h.places⟩
    exact h'.answer hx (by rw [hs]; rfl) _

/-- Of the dispatch only the id that the worker holds counts. -/
theorem of_dispatch (h : Coherent s) (d : Dispatch) (hd : d.worker.id? = s.dispatch.worker.id?) :
    Coherent { s with dispatch := d } where
  callers := h.callers
  inside := h.inside
  places i := by
    rw [← h.places i]
    simp only [State.places, hd]

theorem workerMove (h : Coherent s) (m : WorkerMove s t) : Coherent t := by
  cases m with
  | take hw => exact h.of_dispatch _ (by rw [hw]; rfl)
  | leave hw | lose hw => exact h.of_dispatch { s.dispatch with worker := .gone } (by rw [hw]; rfl)
  | @number p hw =>
    refine ⟨h.callers, h.inside, fun i => ?_⟩
    have hp := places_setWorker (s := s) (.numbered p s.nextId) i
    rw [hw] at hp
    exact hp.trans (h.places_succ i)
  | @count p id hw =>
    have := h.of_dispatch { s.dispatch with worker := .counted p id } (by rw [hw]; rfl)
    exact ⟨this.callers, this.inside, this.places⟩
  | @launch p id hw =>
    refine ⟨h.callers, WaitsInside.launch h.inside id p.sender .parallel p.envelope, fun i => ?_⟩
    have hp := places_setWorker (s := s.launch id p.sender .parallel p.envelope)
      (.launched (State.ticket id p.envelope)) i
    rw [places_launch] at hp
    rw [show (s.launch id p.sender .parallel p.envelope).dispatch.worker = .counted p id from hw]
      at hp
    exact (Nat.add_right_cancel hp).trans (h.places i)
  | @publish tk hw =>
    have := h.of_dispatch { s.dispatch with outbound := some tk, worker := .idle } (by rw [hw]; rfl)
    exact ⟨this.callers, this.inside, this.places⟩

theorem ask (h : Coherent s) {c : Caller} (hc : c ∉ s.calls.map Call.caller)
    (ht : ∀ id, c = .task id → ∃ u ∈ s.tasks, u.id = id ∧ u.stage.isSubmitting) (entry : Entry)
    (e : Envelope) : Coherent (s.ask c entry e) where
  callers := by
    show ((s.calls ++ [_]).map Call.caller).Nodup
    rw [List.map_append, List.nodup_append_comm]
    exact List.nodup_cons.mpr ⟨hc, h.callers⟩
  inside y hy id hid := by
    rcases s.mem_ask.mp hy with hy | rfl
    · exact h.inside y hy id hid
    · exact ht id hid
  places i := by
    rw [show (s.ask c entry e).nextId = s.nextId from rfl, ← h.places i]
    simp [State.places, State.ask, State.note, List.countP_append, CallStage.id?]

theorem taskMove (h : Coherent s) {x : Task} {a : Action} (hx : x ∈ s.tasks)
    (m : TaskMove s x a t) : Coherent t := by
  have hf := m.sameFront
  have hs : x.stage.isSubmitting = false := by cases m <;> simp [*, Stage.isSubmitting]
  refine ⟨by rw [hf.calls]; exact h.callers, ?_, h.places_of_sameFront hf⟩
  obtain ⟨f, hf'⟩ := m.exists_change
  exact WaitsInside.change h.inside h.ids_nodup hx hs f hf.calls hf'

/-- A task that runs has no submission of its own under way. -/
theorem not_asking (h : Coherent s) {x : Task} {p : Program} (hx : x ∈ s.tasks)
    (hp : x.stage = .running p) : .task x.id ∉ s.calls.map Call.caller := by
  intro hc
  obtain ⟨y, hy, hyc⟩ := List.mem_map.mp hc
  obtain ⟨u, hu, hid, hs⟩ := h.inside y hy x.id hyc
  obtain rfl := h.eq_of_id_eq hu hx hid
  rw [hp] at hs
  cases hs

theorem askInside (h : Coherent s) {x : Task} {p : Program} (hx : x ∈ s.tasks)
    (hp : x.stage = .running p) (next : Option (Except RelayError Ticket) → Program) (entry : Entry)
    (e : Envelope) : Coherent ((s.setStage x.id (.submitting next)).ask (.task x.id) entry e) := by
  have hf : SameFront s (s.setStage x.id (.submitting next)) := .setStage _ _
  have hw : (s.setStage x.id (.submitting next)).WaitsInside :=
    WaitsInside.change h.inside h.ids_nodup hx (by rw [hp]; rfl) _ rfl rfl
  have hc : Coherent (s.setStage x.id (.submitting next)) :=
    ⟨h.callers, hw, h.places_of_sameFront hf⟩
  refine hc.ask (h.not_asking hx hp) ?_ entry e
  rintro id ⟨⟩
  exact ⟨_, (State.mem_setStage s).mpr (.inl ⟨x, hx, rfl, rfl⟩), rfl, rfl⟩

end Coherent

theorem Move.coherent {a : Action} (h : Coherent s) (m : Move s a t) : Coherent t := by
  cases m with
  | outside m =>
    have hf := m.sameFront
    refine ⟨by rw [hf.calls]; exact h.callers, ?_, h.places_of_sameFront hf⟩
    intro x hx id hid
    rw [hf.calls] at hx
    rw [m.tasks_eq]
    exact h.inside x hx id hid
  | ask _ hn => exact h.ask (not_mem_callers hn) (fun id he => by cases he) _ _
  | askInside hx hs => exact h.askInside (task?_spec hx).1 hs _ _ _
  | call hx m => exact h.callMove (call?_spec hx).1 m
  | worker m => exact h.workerMove m
  | close => exact ⟨h.callers, h.inside, h.places⟩
  | drop => exact ⟨h.callers, h.inside, h.places⟩
  | task hx m => exact h.taskMove (task?_spec hx).1 m

theorem State.Reachable.coherent (h : s.Reachable) : Coherent s :=
  h.induct Coherent.start fun _ _ _ _ => Move.coherent

end TaskRelay
