import Mathlib
import TaskRelay.Proofs.Relay.Views

/-!
# A relay with a submission on another way

The relay as it is if one submission went another way (`State.detour`): its call may stand elsewhere
or be over, its task may be in another pool, it counts as direct, and the dispatch is free of it.
Whoever does not come across any of this takes the same steps there (`Detour.Suits.step?_detour`).
-/

namespace TaskRelay

variable {s t : State} {a : Action}

/-- What another way of a submission changes. -/
structure Detour where
  /-- Where the submissions under way stand instead, unless they are over. -/
  call : Call → Option Call
  caller_eq : ∀ {x y : Call}, call x = some y → y.caller = x.caller
  /-- What tasks were told of submissions that are over. -/
  told : Nat → Option (Except RelayError Ticket)
  /-- The pools of tasks that are in another one. -/
  pool : Nat → Option PoolName
  /-- Whether the dispatch is free. -/
  vacant : Bool
  /-- How many submissions count as direct that are dispatched. -/
  shift : Nat

/-- A task that was told of its submission goes on with it. -/
def Stage.told (r : Option (Except RelayError Ticket)) (stage : Stage) : Stage :=
  match r, stage with
  | some r, .submitting next => .running (next r)
  | _, stage => stage

@[simps] def Task.detour (v : Detour) (x : Task) : Task where
  id := x.id
  caller := x.caller
  envelope := x.envelope
  pool := (v.pool x.id).getD x.pool
  begun := x.begun
  stage := x.stage.told (v.told x.id)

@[simps] def State.detour (v : Detour) (s : State) : State where
  registry := s.registry
  counters :=
    { s.counters with
      direct := s.counters.direct + v.shift
      dispatched := s.counters.dispatched - v.shift }
  nextId := s.nextId
  pools := s.pools
  dispatch := if v.vacant then .start else s.dispatch
  calls := s.calls.filterMap v.call
  closers := s.closers
  notices := s.notices
  tasks := s.tasks.map (Task.detour v)
  gateOpen := s.gateOpen
  taken := s.taken
  dropped := s.dropped
  journal := s.journal

/-- Submissions of this caller are where they are. -/
structure Detour.Spares (v : Detour) (c : Caller) : Prop where
  call : ∀ {x : Call}, x.caller = c → v.call x = some x
  told : ∀ id, c = .task id → v.told id = none

/-- The task does not come across being in another pool by this step. -/
def Detour.Hides (v : Detour) (s : State) (x : Task) (a : Action) : Prop :=
  match x.stage, a with
  | .suspended _, .cancel _ _ => s.pools.isUp (x.detour v).pool = s.pools.isUp x.pool
  | .suspended _, _ => s.pools.isDown (x.detour v).pool = s.pools.isDown x.pool
  | .running (.onThread next), _ =>
    next (s.pools.threadName (x.detour v).pool) = next (s.pools.threadName x.pool)
  | _, _ => True

theorem Stage.ending?_told (r : Option (Except RelayError Ticket)) (stage : Stage) :
    (stage.told r).ending? = stage.ending? := by
  cases r <;> cases stage <;> rfl

theorem Stage.told_none (stage : Stage) : stage.told none = stage := by
  cases stage <;> rfl

theorem Stage.told_of_not_submitting {stage : Stage} (h : stage.isSubmitting = false)
    (r : Option (Except RelayError Ticket)) : stage.told r = stage := by
  cases r <;> cases stage <;> first | rfl | cases h

theorem Task.stage_detour {v : Detour} {x : Task} (h : v.told x.id = none) :
    (x.detour v).stage = x.stage := by
  rw [Task.detour_stage, h, Stage.told_none]

theorem Task.ending?_detour (v : Detour) (x : Task) : (x.detour v).ending? = x.ending? :=
  x.stage.ending?_told _

namespace State

variable (v : Detour) (s : State)

/-! ## Updates -/

@[simp] theorem note_detour (m : Mark) : (s.detour v).note m = (s.note m).detour v := rfl

@[simp] theorem afterTurn_detour (source : Source) (turn : Turn) :
    (s.detour v).afterTurn source turn = (s.afterTurn source turn).detour v := by
  simp only [afterTurn, noteSigns_eq, detour]

variable {v s}

theorem setStage_detour {id : Nat} (h : v.told id = none) (stage : Stage) :
    (s.detour v).setStage id stage = (s.setStage id stage).detour v := by
  simp only [setStage, detour, State.mk.injEq, true_and, and_true, List.map_map]
  apply List.map_congr_left
  intro x _
  simp only [Function.comp, Task.detour_id]
  split_ifs with hx
  · subst hx
    simp only [Task.detour, h, Stage.told_none]
  · rfl

theorem resume_detour {id : Nat} (h : v.told id = none) (p : Program) :
    (s.detour v).resume id p = (s.resume id p).detour v := by
  simp only [resume, detour, State.mk.injEq, true_and, and_true, List.map_map]
  apply List.map_congr_left
  intro x _
  simp only [Function.comp, Task.detour_id]
  split_ifs with hx
  · subst hx
    simp only [Task.detour, h, Stage.told_none]
  · rfl

theorem launch_detour {id : Nat} (h : v.pool id = none) (c : Caller) (pool : PoolName)
    (e : Envelope) : (s.detour v).launch id c pool e = (s.launch id c pool e).detour v := by
  have : Task.detour v ⟨id, c, e, pool, false, .suspended (e.callable.body e.arguments)⟩ =
      ⟨id, c, e, pool, false, .suspended (e.callable.body e.arguments)⟩ := by
    rw [Task.detour, h]
    cases v.told id <;> rfl
  simp only [launch, note, detour, List.map_append, List.map_cons, List.map_nil, this]

/-- The call of a caller that has one there if and only if it has one here. -/
theorem call?_detour_eq {c : Caller} (h : ∀ x, x.caller = c → (v.call x).isSome) :
    (s.detour v).call? c = (s.call? c).bind v.call := by
  rw [call?, call?, detour_calls, List.find?_filterMap]
  congr 2
  funext x
  by_cases hx : x.caller = c
  · obtain ⟨y, hy⟩ := Option.isSome_iff_exists.mp (h x hx)
    simp [hy, v.caller_eq hy]
  · cases hy : v.call x with
    | none => simp [hx]
    | some y => simp [v.caller_eq hy]

section spares

variable {c : Caller} (h : v.Spares c)

include h

theorem setCall_detour (stage : CallStage) :
    (s.detour v).setCall c stage = (s.setCall c stage).detour v := by
  simp only [setCall, detour, State.mk.injEq, true_and, and_true, List.filterMap_map,
    List.map_filterMap]
  apply List.filterMap_congr
  intro x _
  simp only [Function.comp]
  split_ifs with hx
  · rw [h.call hx, h.call (x := { x with stage := stage }) hx]
    simp [hx]
  · cases hy : v.call x with
    | none => rfl
    | some y => simp [v.caller_eq hy, hx]

theorem ask_detour (entry : Entry) (e : Envelope) :
    (s.detour v).ask c entry e = (s.ask c entry e).detour v := by
  simp [ask, note, detour, List.filterMap_append, h.call]

theorem call?_detour : (s.detour v).call? c = s.call? c := by
  rw [call?_detour_eq fun x hx => by rw [h.call hx]; rfl]
  cases hx : s.call? c with
  | none => rfl
  | some x => exact h.call (call?_spec hx).2

end spares

/-! ## Finding -/

theorem task?_detour (id : Nat) : (s.detour v).task? id = (s.task? id).map (Task.detour v) := by
  simp only [task?, detour_tasks, List.find?_map]
  rfl

theorem ending?_detour (id : Nat) : (s.detour v).ending? id = s.ending? id := by
  rw [ending?, ending?, task?_detour]
  cases s.task? id with
  | none => rfl
  | some x => exact x.ending?_detour v

theorem answer_detour {c : Caller} (h : v.Spares c) (r : Except RelayError Ticket) :
    (s.detour v).answer c r = (s.answer c r).detour v := by
  have hcalls : (s.calls.filterMap v.call).filter (fun x => x.caller != c) =
      (s.calls.filter fun x => x.caller != c).filterMap v.call := by
    rw [List.filter_filterMap, List.filterMap_filter]
    apply List.filterMap_congr
    intro x _
    cases hy : v.call x with
    | none => simp
    | some y => simp [Option.filter, v.caller_eq hy]
  have hquiet : { s.detour v with
      calls := (s.detour v).calls.filter fun x => x.caller != c }.note (.answered c r) =
      ({ s with
        calls := s.calls.filter fun x => x.caller != c }.note (.answered c r)).detour v := by
    simp only [detour, note, hcalls]
  cases c with
  | thread n => exact hquiet
  | task id =>
    have ht := h.told id rfl
    have hstage : ∀ u : State,
        ((u.detour v).task? id).map Task.stage = (u.task? id).map Task.stage := by
      intro u
      rw [task?_detour, Option.map_map]
      refine Option.map_congr fun x hx => ?_
      obtain rfl := (task?_spec hx).2
      exact Task.stage_detour ht
    simp only [answer]
    rw [hquiet, hstage]
    generalize Option.map Task.stage _ = o
    cases o with
    | none => rfl
    | some stage =>
      cases stage with
      | submitting next => exact setStage_detour ht _
      | _ => rfl

/-! ## Steps that have nothing to do with the dispatch -/

theorem stepNotice_detour (x : Notice) :
    (s.detour v).stepNotice x = (s.stepNotice x).detour v := by
  unfold stepNotice
  simp only [detour_registry, afterTurn_detour]
  cases (s.registry.step x.invocation).progress <;> rfl

theorem canResume_detour (p : Program) : (s.detour v).canResume p = s.canResume p := by
  cases p with
  | await => simp only [canResume, ending?_detour]
  | _ => rfl

section task

variable {x : Task} (h : v.Spares (.task x.id)) (hx : v.Hides s x (.task x.id))

include h hx

theorem stepProgram_detour {p : Program} (hp : x.stage = .running p) :
    (s.detour v).stepProgram (x.detour v) p = (s.stepProgram x p).detour v := by
  have ht := h.told x.id rfl
  cases p with
  | finish | pause | passGate => exact setStage_detour ht _
  | onThread next =>
    simp only [Detour.Hides, hp] at hx
    simp only [stepProgram, detour_pools, hx]
    exact setStage_detour ht _
  | logFailure name f next => exact congrArg (note · _) (setStage_detour ht _)
  | submit entry name body args wake next =>
    simp only [stepProgram, detour_dropped]
    split_ifs
    · exact setStage_detour ht _
    · rw [← ask_detour h, ← setStage_detour ht]
      rfl
  | await k next =>
    simp only [stepProgram, ending?_detour]
    cases s.ending? k.id <;> exact setStage_detour ht _

theorem stepTask?_detour :
    (s.detour v).stepTask? (x.detour v) = (s.stepTask? x).map fun t => t.detour v := by
  have ht := h.told x.id rfl
  unfold stepTask?
  rw [Task.stage_detour ht]
  cases hs : x.stage with
  | suspended p =>
    simp only [Detour.Hides, hs] at hx
    simp only [detour_pools, canResume_detour, Task.detour_begun, hx]
    split_ifs
    · exact congrArg some (resume_detour ht _)
    · rfl
  | running p => exact congrArg some (stepProgram_detour h hx hs)
  | submitting | resolved => rfl
  | ended o =>
    simp only [Option.map_some]
    rw [← setStage_detour ht]
    cases o <;> rfl
  | notified e => exact congrArg some (congrArg (note · _) (setStage_detour ht _))
  | recorded e =>
    simp only [Task.detour_envelope]
    cases x.envelope.wake with
    | none => exact congrArg some (setStage_detour ht _)
    | some w =>
      simp only [detour_registry, Task.detour_id, note_detour, afterTurn_detour]
      cases (s.registry.notify w).progress <;> exact congrArg some (setStage_detour ht _)
  | notifying e i =>
    simp only [detour_registry, Task.detour_id, afterTurn_detour]
    cases (s.registry.step i).progress <;> exact congrArg some (setStage_detour ht _)

omit hx in
theorem cancel?_detour {u : Bool} (hx : v.Hides s x (.cancel x.id u)) :
    (s.detour v).cancel? (x.detour v) u = (s.cancel? x u).map fun t => t.detour v := by
  have ht := h.told x.id rfl
  unfold cancel?
  rw [Task.stage_detour ht]
  cases hs : x.stage with
  | suspended p =>
    simp only [Detour.Hides, hs] at hx
    simp only [detour_pools, hx, Task.detour_begun]
    split_ifs
    · rfl
    · simp only [Option.map_some]
      rw [← setStage_detour ht]
      rfl
    · exact congrArg some (setStage_detour ht _)
  | _ => rfl

end task

/-! ## Steps of submissions and of the worker -/

theorem detour_dispatch_of_not_vacant (hv : v.vacant = false) :
    (s.detour v).dispatch = s.dispatch := by
  rw [detour_dispatch, hv]
  rfl

theorem set_dispatch (hv : v.vacant = false) (d : Dispatch) :
    { s.detour v with dispatch := d } = { s with dispatch := d }.detour v := by
  simp only [detour, hv]
  rfl

theorem stepCall?_detour_of_isFree {x : Call} (h : v.Spares x.caller) (hx : x.isFree)
    (hp : ∀ id, x.stage = .counted id → v.pool id = none) :
    (s.detour v).stepCall? x = (s.stepCall? x).map fun t => t.detour v := by
  unfold stepCall?
  rw [Call.isFree] at hx
  cases hs : x.stage with
  | asked =>
    simp only [detour_pools, detour_registry]
    split_ifs
    · exact congrArg some (answer_detour h _)
    · exact congrArg some (setCall_detour h _)
    · exact congrArg some (answer_detour h _)
  | admitted =>
    have he : x.entry ≠ .serial := by simpa [hs] using hx
    simp only [if_neg he]
    exact congrArg some (setCall_detour (s := { s with nextId := s.nextId + 1 }) h _)
  | numbered id =>
    simp only [Option.map_some]
    rw [← setCall_detour h]
    simp only [detour, Nat.add_right_comm]
  | counted id =>
    simp only [launch_detour (hp id hs), Option.map_some]
    rw [answer_detour h]
  | locked | sent | received => simp [hs] at hx

theorem stepCall?_detour (hv : v.vacant = false) {x : Call} (h : v.Spares x.caller)
    (hp : ∀ id, x.stage = .counted id → v.pool id = none) :
    (s.detour v).stepCall? x = (s.stepCall? x).map fun t => t.detour v := by
  by_cases hx : x.isFree
  · exact stepCall?_detour_of_isFree h hx hp
  · have hd := detour_dispatch_of_not_vacant (s := s) hv
    have hset : ∀ d stage m, ({ s.detour v with dispatch := d }.setCall x.caller stage).note m =
        (({ s with dispatch := d }.setCall x.caller stage).note m).detour v := by
      intro d stage m
      rw [set_dispatch hv, setCall_detour h, note_detour]
    have hans : ∀ r, ((s.detour v).setHolder none).answer x.caller r =
        ((s.setHolder none).answer x.caller r).detour v := by
      intro r
      rw [setHolder, hd, set_dispatch hv, answer_detour h]
      rfl
    unfold stepCall?
    rw [Call.isFree] at hx
    cases hs : x.stage with
    | asked | numbered | counted => simp [hs] at hx
    | admitted =>
      have he : x.entry = .serial := by simpa [hs] using hx
      simp only [if_pos he, hd]
      split_ifs
      · rfl
      · refine congrArg some ?_
        rw [setHolder, hd]
        exact hset { s.dispatch with holder := some x.caller } _ _
      · exact congrArg some (answer_detour h _)
    | locked =>
      simp only [hd]
      split
      · exact congrArg some (hans _)
      · rfl
      · exact congrArg some (hset { s.dispatch with inbound := some ⟨x.caller, x.envelope⟩ } _ _)
    | sent =>
      simp only [hd]
      split
      · exact congrArg some (hset { s.dispatch with outbound := none } _ _)
      · exact congrArg some (hans _)
      · rfl
    | received k => exact congrArg some (hans _)

theorem setWorker_detour (hv : v.vacant = false) (w : WorkerStage) :
    (s.detour v).setWorker w = (s.setWorker w).detour v := by
  rw [setWorker, detour_dispatch_of_not_vacant hv, set_dispatch hv]
  rfl

theorem stepWorker?_detour (hv : v.vacant = false)
    (hp : ∀ p id, s.dispatch.worker = .counted p id → v.pool id = none)
    (hc : v.shift ≤ s.counters.dispatched) :
    (s.detour v).stepWorker? = s.stepWorker?.map fun t => t.detour v := by
  have hd := detour_dispatch_of_not_vacant (s := s) hv
  have hworker : (s.detour v).dispatch.worker = s.dispatch.worker := congrArg _ hd
  unfold stepWorker?
  simp only [hworker]
  cases hw : s.dispatch.worker with
  | idle =>
    simp only [hd]
    cases s.dispatch.inbound with
    | none =>
      simp only
      split_ifs with ho
      · rfl
      · exact congrArg some (setWorker_detour hv _)
    | some p => exact congrArg some (set_dispatch hv _)
  | holding p =>
    exact congrArg some (setWorker_detour (s := { s with nextId := s.nextId + 1 }) hv _)
  | numbered p id =>
    simp only [Option.map_some]
    rw [← setWorker_detour hv]
    simp only [detour, Nat.sub_add_comm hc]
  | counted p id =>
    simp only [launch_detour (hp p id hw), Option.map_some]
    rw [setWorker_detour hv]
  | launched k =>
    simp only [hd]
    split_ifs with ho
    · exact congrArg some (setWorker_detour hv _)
    · rfl
    · exact congrArg some (congrArg (note · _) (set_dispatch hv _))
  | gone => rfl

theorem stepCloser?_detour (hv : v.vacant = false) (x : Closer) :
    (s.detour v).stepCloser? x = (s.stepCloser? x).map fun t => t.detour v := by
  obtain ⟨call, caller_eq, told, pool, vacant, shift⟩ := v
  obtain rfl : vacant = false := hv
  unfold stepCloser?
  simp only [detour_dispatch, Bool.false_eq_true, if_false]
  split_ifs
  · cases s.dispatch.worker <;> rfl
  all_goals rfl

end State

/-! ## All steps -/

namespace Detour

variable {v : Detour}

/-- The step has nothing to do with what is elsewhere. -/
def Keeps (v : Detour) (s : State) : Action → Prop
  | .submit n _ _ => v.Spares (.thread n)
  | .task id => v.Spares (.task id) ∧ ∀ x, s.task? id = some x → v.Hides s x (.task id)
  | .cancel id u => v.Spares (.task id) ∧ ∀ x, s.task? id = some x → v.Hides s x (.cancel id u)
  | .call c => v.Spares c ∧ (v.vacant → ∀ x ∈ s.calls, x.caller = c → x.isFree)
  | .worker | .close _ => v.vacant = false
  | .drop => v.vacant = false ∧ (s.detour v).isUnused = s.isUnused
  | _ => True

/-- Tasks in another pool are there, and what counts as direct was counted. -/
structure Suits (v : Detour) (s : State) : Prop where
  call : ∀ x ∈ s.calls, ∀ id, x.stage = .counted id → v.pool id = none
  worker : ∀ p id, s.dispatch.worker = .counted p id → v.pool id = none
  shift : v.shift ≤ s.counters.dispatched

/-- Whoever does not come across the change takes the same steps after it. -/
theorem Suits.step?_detour (h : v.Suits s) (hk : v.Keeps s a) :
    (s.detour v).step? a = (s.step? a).map fun t => t.detour v := by
  cases a with
  | submit n entry e =>
    have hk : v.Spares (.thread n) := hk
    simp only [State.step?, State.detour_dropped, State.call?_detour hk]
    split_ifs
    · rfl
    · exact congrArg some (State.ask_detour hk _ _)
  | install | setColor | openGates | takeHandle | killHost => rfl
  | notify n w =>
    simp only [State.step?, State.detour_notices, State.detour_registry, State.note_detour,
      State.afterTurn_detour]
    split_ifs
    · rfl
    · cases (s.registry.notify w).progress <;> rfl
  | shutdown n =>
    simp only [State.step?, State.detour_dropped, State.detour_closers]
    split_ifs <;> rfl
  | drop =>
    obtain ⟨hv, hu⟩ := hk
    simp only [State.step?, State.detour_dropped, hu]
    split_ifs
    · rfl
    · simp only [State.detour_dispatch_of_not_vacant hv, Option.map_some, Option.some.injEq]
      exact State.set_dispatch (s := { s with dropped := true, pools := s.pools.release }) hv _
  | call c =>
    show ((s.detour v).call? c).bind (s.detour v).stepCall? =
      ((s.call? c).bind s.stepCall?).map _
    rw [State.call?_detour hk.1]
    cases hx : s.call? c with
    | none => rfl
    | some x =>
      obtain ⟨hxs, rfl⟩ := call?_spec hx
      cases hv : v.vacant with
      | false => exact State.stepCall?_detour hv hk.1 (h.call x hxs)
      | true => exact State.stepCall?_detour_of_isFree hk.1 (hk.2 hv x hxs rfl) (h.call x hxs)
  | worker => exact State.stepWorker?_detour hk h.worker h.shift
  | close n =>
    show (s.closers.find? _).bind (s.detour v).stepCloser? =
      ((s.closers.find? _).bind s.stepCloser?).map _
    cases s.closers.find? fun x => x.thread == n with
    | none => rfl
    | some x => exact State.stepCloser?_detour hk x
  | react n =>
    simp only [State.step?, State.detour_notices, Option.map_map]
    exact Option.map_congr fun x _ => State.stepNotice_detour x
  | task id =>
    show ((s.detour v).task? id).bind (s.detour v).stepTask? =
      ((s.task? id).bind s.stepTask?).map _
    rw [State.task?_detour]
    cases hx : s.task? id with
    | none => rfl
    | some x =>
      obtain ⟨-, rfl⟩ := task?_spec hx
      exact State.stepTask?_detour hk.1 (hk.2 x hx)
  | cancel id u =>
    show ((s.detour v).task? id).bind (fun y => (s.detour v).cancel? y u) =
      ((s.task? id).bind fun y => s.cancel? y u).map _
    rw [State.task?_detour]
    cases hx : s.task? id with
    | none => rfl
    | some x =>
      obtain ⟨-, rfl⟩ := task?_spec hx
      exact State.cancel?_detour hk.1 (hk.2 x hx)

/-! ## Two relays side by side -/

section sides

variable {y y' : State}

theorem Suits.step?_eq (h : v.Suits s) (hk : v.Keeps s a) (hy : y.now = s.now.detour v) :
    y.step? a = (s.now.step? a).map fun u =>
      { u.detour v with journal := u.journal ++ y.journal } := by
  have hn : (s.now.detour v).step? a = (s.now.step? a).map fun u => u.detour v :=
    step?_detour ⟨h.call, h.worker, h.shift⟩ (by cases a <;> exact hk)
  rw [y.step?_eq_now, hy, hn, Option.map_map]
  rfl

/-- A step of the one is a step of the other, and both note the same. -/
theorem Suits.forth (h : v.Suits s) (hk : v.Keeps s a) (hy : y.now = s.now.detour v)
    (hs : s.step? a = some t) : ∃ ms y', y.step? a = some y' ∧ y'.now = t.now.detour v ∧
      t.journal = ms ++ s.journal ∧ y'.journal = ms ++ y.journal := by
  obtain ⟨ms, hn, hj⟩ := State.step?_now hs
  exact ⟨ms, _, (h.step?_eq hk hy).trans (congrArg (Option.map _) hn), rfl, hj, rfl⟩

theorem Suits.back (h : v.Suits s) (hk : v.Keeps s a) (hy : y.now = s.now.detour v)
    (hs : y.step? a = some y') : ∃ ms t, s.step? a = some t ∧ y'.now = t.now.detour v ∧
      t.journal = ms ++ s.journal ∧ y'.journal = ms ++ y.journal := by
  rw [h.step?_eq hk hy] at hs
  obtain ⟨u, hu, rfl⟩ := Option.map_eq_some_iff.mp hs
  exact ⟨u.journal, _, (s.step?_eq_now a).trans (congrArg (Option.map _) hu), rfl, rfl, rfl⟩

end sides

end Detour

end TaskRelay
