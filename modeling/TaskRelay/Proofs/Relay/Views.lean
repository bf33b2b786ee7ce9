import Mathlib
import TaskRelay.Proofs.Relay.Identity

/-!
# A relay with things left out

A relay may be looked at with some submissions under way left out, with another past behind it, and
with its dispatch as it would be had nobody closed it (`State.through`). Whoever has no part in what
is left out takes the same steps there (`step?_through`).
-/

namespace TaskRelay

variable {s t : State} {a : Action}

/-- What is left out of a relay. -/
structure View where
  /-- The callers within submissions that are left out, with what they are told instead. -/
  omitted : Caller → Option RelayError
  /-- What is behind the relay besides its own journal. -/
  past : List Mark
  /-- Whether the closing of the dispatch is left out. -/
  unclosed : Bool

/-- The dispatch as if it were only ever closed by giving up the relay. -/
def Dispatch.reopen (d : Dispatch) (dropped : Bool) : Dispatch where
  holder := d.holder
  isOpen := !dropped
  inbound := d.inbound
  outbound := d.outbound
  worker :=
    match d.worker with
    | .gone => .idle
    | w => w

/-- A task within a submission that is left out goes on with what it is told. -/
def Task.told (ρ : Caller → Option RelayError) (x : Task) : Task :=
  match ρ (.task x.id), x.stage with
  | some e, .submitting next => { x with stage := .running (next (some (.error e))) }
  | _, _ => x

/-- The next step of the submission does not look at the dispatch. -/
def Call.isFree (x : Call) : Bool :=
  match x.stage with
  | .asked | .numbered _ | .counted _ => true
  | .admitted => x.entry != .serial
  | _ => false

@[simps] def State.through (v : View) (s : State) : State where
  registry := s.registry
  counters := s.counters
  nextId := s.nextId
  pools := s.pools
  dispatch := if v.unclosed then s.dispatch.reopen s.dropped else s.dispatch
  calls := s.calls.filter fun y => (v.omitted y.caller).isNone
  closers := if v.unclosed then [] else s.closers
  notices := s.notices
  tasks := s.tasks.map (Task.told v.omitted)
  gateOpen := s.gateOpen
  taken := s.taken
  dropped := s.dropped
  journal := s.journal ++ v.past

namespace Task

variable (ρ : Caller → Option RelayError) (x : Task)

@[simp] theorem told_id : (x.told ρ).id = x.id := by
  unfold told
  split <;> rfl

@[simp] theorem told_ending? : (x.told ρ).ending? = x.ending? := by
  unfold told
  split
  · next h => rw [ending?, ending?, h]; rfl
  · rfl

variable {ρ x}

theorem told_of_not_omitted (h : ρ (.task x.id) = none) : x.told ρ = x := by
  unfold told
  rw [h]

end Task

namespace State

variable (v : View) (s : State)

/-! ## Updates -/

@[simp] theorem note_through (m : Mark) : (s.through v).note m = (s.note m).through v := rfl

@[simp] theorem noteSigns_through (source : Source) (signs : List Sign) :
    (s.through v).noteSigns source signs = (s.noteSigns source signs).through v := by
  simp only [noteSigns_eq, through, List.append_assoc]

@[simp] theorem afterTurn_through (source : Source) (turn : Turn) :
    (s.through v).afterTurn source turn = (s.afterTurn source turn).through v :=
  noteSigns_through v { s with registry := turn.registry } source turn.signs

@[simp] theorem setCall_through (c : Caller) (stage : CallStage) :
    (s.through v).setCall c stage = (s.setCall c stage).through v := by
  simp only [setCall, through, State.mk.injEq, true_and, and_true, List.filter_map]
  congr 2
  funext y
  simp only [Function.comp]
  split_ifs <;> rfl

@[simp] theorem launch_through (id : Nat) (c : Caller) (pool : PoolName) (e : Envelope) :
    (s.through v).launch id c pool e = (s.launch id c pool e).through v := by
  have : Task.told v.omitted ⟨id, c, e, pool, false,
      .suspended (e.callable.body e.arguments)⟩ = ⟨id, c, e, pool, false,
      .suspended (e.callable.body e.arguments)⟩ := by
    unfold Task.told
    cases v.omitted (.task id) <;> rfl
  simp only [launch, note, through, List.map_append, List.map_cons, List.map_nil, this]
  rfl

variable {v s}

@[simp] theorem setStage_through {id : Nat} (h : v.omitted (.task id) = none) (stage : Stage) :
    (s.through v).setStage id stage = (s.setStage id stage).through v := by
  simp only [setStage, through, State.mk.injEq, true_and, and_true, List.map_map]
  apply List.map_congr_left
  intro x _
  simp only [Function.comp, Task.told_id]
  split_ifs with hx
  · subst hx
    rw [Task.told_of_not_omitted h, Task.told_of_not_omitted]
    exact h
  · rfl

@[simp] theorem resume_through {id : Nat} (h : v.omitted (.task id) = none) (p : Program) :
    (s.through v).resume id p = (s.resume id p).through v := by
  simp only [resume, through, State.mk.injEq, true_and, and_true, List.map_map]
  apply List.map_congr_left
  intro x _
  simp only [Function.comp, Task.told_id]
  split_ifs with hx
  · subst hx
    rw [Task.told_of_not_omitted h, Task.told_of_not_omitted]
    exact h
  · rfl

@[simp] theorem ask_through {c : Caller} (h : v.omitted c = none) (entry : Entry) (e : Envelope) :
    (s.through v).ask c entry e = (s.ask c entry e).through v := by
  simp only [ask, note, through, List.filter_append, List.filter_cons, h, Option.isNone_none,
    if_true, List.filter_nil]
  rfl

/-! ## Finding -/

theorem call?_through {c : Caller} (h : v.omitted c = none) :
    (s.through v).call? c = s.call? c := by
  simp only [call?, through_calls, List.find?_filter]
  congr 1
  funext y
  by_cases hy : y.caller = c
  · simp [hy, h]
  · simp [hy]

theorem task?_through (id : Nat) :
    (s.through v).task? id = (s.task? id).map (Task.told v.omitted) := by
  simp only [task?, through_tasks, List.find?_map]
  congr 2
  funext x
  simp

theorem task?_through_of_not_omitted {id : Nat} (h : v.omitted (.task id) = none) :
    (s.through v).task? id = s.task? id := by
  rw [task?_through]
  cases hx : s.task? id with
  | none => rfl
  | some x =>
    obtain rfl := (task?_spec hx).2
    rw [Option.map_some, Task.told_of_not_omitted h]

@[simp] theorem ending?_through (id : Nat) : (s.through v).ending? id = s.ending? id := by
  rw [ending?, ending?, task?_through]
  cases s.task? id <;> simp

@[simp] theorem answer_through {c : Caller} (h : v.omitted c = none)
    (r : Except RelayError Ticket) :
    (s.through v).answer c r = (s.answer c r).through v := by
  have hcalls : ∀ l : List Call, (l.filter fun y => (v.omitted y.caller).isNone).filter
      (fun x => x.caller != c) =
      (l.filter fun x => x.caller != c).filter fun y => (v.omitted y.caller).isNone := by
    intro l
    rw [List.filter_filter, List.filter_filter]
    congr 1
    funext y
    rw [Bool.and_comm]
  have hquiet : { s.through v with
      calls := (s.through v).calls.filter fun x => x.caller != c }.note (.answered c r) =
      ({ s with
        calls := s.calls.filter fun x => x.caller != c }.note (.answered c r)).through v := by
    simp only [through, note, hcalls]
    rfl
  cases c with
  | thread n => exact hquiet
  | task id =>
    simp only [answer]
    rw [hquiet, task?_through_of_not_omitted h]
    generalize Option.map Task.stage _ = o
    cases o with
    | none => rfl
    | some stage =>
      cases stage with
      | submitting next => exact setStage_through h _
      | _ => rfl

/-! ## Steps that have nothing to do with the dispatch -/

theorem stepNotice_through (x : Notice) :
    (s.through v).stepNotice x = (s.stepNotice x).through v := by
  unfold stepNotice
  simp only [through_registry, afterTurn_through]
  cases (s.registry.step x.invocation).progress <;> rfl

theorem canResume_through (p : Program) : (s.through v).canResume p = s.canResume p := by
  cases p with
  | await => simp only [canResume, ending?_through]
  | _ => rfl

section task

variable {x : Task} (h : v.omitted (.task x.id) = none)

include h

theorem stepProgram_through (p : Program) :
    (s.through v).stepProgram x p = (s.stepProgram x p).through v := by
  cases p with
  | finish | pause | passGate | onThread => exact setStage_through h _
  | logFailure name f next => exact congrArg (note · _) (setStage_through h _)
  | submit entry name body args wake next =>
    simp only [stepProgram, through_dropped]
    split_ifs
    · exact setStage_through h _
    · rw [setStage_through h, ask_through h]
  | await k next =>
    simp only [stepProgram, ending?_through]
    cases s.ending? k.id <;> exact setStage_through h _

theorem stepTask?_through :
    (s.through v).stepTask? x = (s.stepTask? x).map fun t => t.through v := by
  unfold stepTask?
  cases x.stage with
  | suspended p =>
    simp only [through_pools, canResume_through]
    split_ifs
    · exact congrArg some (resume_through h _)
    · rfl
  | running p => exact congrArg some (stepProgram_through h p)
  | submitting | resolved => rfl
  | ended o =>
    simp only [Option.map_some]
    rw [← setStage_through h]
    rfl
  | notified e => exact congrArg some (congrArg (note · _) (setStage_through h _))
  | recorded e =>
    cases x.envelope.wake with
    | none => exact congrArg some (setStage_through h _)
    | some w =>
      simp only [through_registry, note_through, afterTurn_through]
      cases (s.registry.notify w).progress <;> exact congrArg some (setStage_through h _)
  | notifying e i =>
    simp only [through_registry, afterTurn_through]
    cases (s.registry.step i).progress <;> exact congrArg some (setStage_through h _)

theorem cancel?_through (u : Bool) :
    (s.through v).cancel? x u = (s.cancel? x u).map fun t => t.through v := by
  unfold cancel?
  cases x.stage with
  | suspended p =>
    simp only [through_pools]
    split_ifs
    · rfl
    · simp only [Option.map_some]
      rw [← setStage_through h]
      rfl
    · exact congrArg some (setStage_through h _)
  | _ => rfl

end task

/-! ## Steps of submissions and of the worker -/

theorem stepCall?_through_of_isFree {x : Call} (h : v.omitted x.caller = none) (hx : x.isFree) :
    (s.through v).stepCall? x = (s.stepCall? x).map fun t => t.through v := by
  unfold stepCall?
  rw [Call.isFree] at hx
  cases hs : x.stage with
  | asked =>
    simp only [through_pools, through_registry]
    split_ifs
    · exact congrArg some (answer_through h _)
    · exact congrArg some (setCall_through v s _ _)
    · exact congrArg some (answer_through h _)
  | admitted =>
    have he : x.entry ≠ .serial := by simpa [hs] using hx
    simp only [if_neg he]
    exact congrArg some (setCall_through v { s with nextId := s.nextId + 1 } _ _)
  | numbered id =>
    exact congrArg some (setCall_through v { s with
      counters := { s.counters with direct := s.counters.direct + 1 } } _ _)
  | counted id =>
    simp only [launch_through, Option.map_some]
    rw [answer_through h]
  | locked | sent | received => simp [hs] at hx

end State

/-- Nothing of the dispatch is left out, because it was not closed. -/
structure Intact (v : View) (s : State) : Prop where
  isOpen : v.unclosed → s.dispatch.isOpen
  dropped : v.unclosed → s.dropped = false
  worker : v.unclosed → s.dispatch.worker ≠ .gone

theorem Dispatch.reopen_eq {d : Dispatch} {dropped : Bool} (ho : d.isOpen = !dropped)
    (hw : d.worker ≠ .gone) : d.reopen dropped = d := by
  obtain ⟨holder, isOpen, inbound, outbound, worker⟩ := d
  subst ho
  cases worker <;> first | rfl | exact absurd rfl hw

namespace Intact

variable {v : View}

/-- What the dispatch may become as long as it stays open. -/
theorem set_dispatch (h : Intact v s) {d : Dispatch} (ho : d.isOpen = s.dispatch.isOpen)
    (hw : v.unclosed → d.worker ≠ .gone) :
    { s.through v with dispatch := d } = { s with dispatch := d }.through v := by
  simp only [State.through, State.mk.injEq, true_and, and_true]
  split_ifs with hv
  · exact (Dispatch.reopen_eq (by rw [ho, h.isOpen hv, h.dropped hv]; rfl) (hw hv)).symm
  · rfl

theorem dispatch (h : Intact v s) : (s.through v).dispatch = s.dispatch := by
  rw [State.through_dispatch]
  split_ifs with hv
  · exact Dispatch.reopen_eq (by rw [h.isOpen hv, h.dropped hv]; rfl) (h.worker hv)
  · rfl

end Intact

namespace State

variable {v : View}

theorem stepCall?_through (hi : Intact v s) {x : Call} (h : v.omitted x.caller = none) :
    (s.through v).stepCall? x = (s.stepCall? x).map fun t => t.through v := by
  by_cases hx : x.isFree
  · exact stepCall?_through_of_isFree h hx
  · have hd := hi.dispatch
    have hset : ∀ d stage m, d.isOpen = s.dispatch.isOpen → d.worker = s.dispatch.worker →
        ({ s.through v with dispatch := d }.setCall x.caller stage).note m =
          (({ s with dispatch := d }.setCall x.caller stage).note m).through v := by
      intro d stage m ho hw
      rw [hi.set_dispatch ho (hw ▸ hi.worker), setCall_through, note_through]
    have hans : ∀ r, ({ s.through v with
        dispatch := { s.dispatch with holder := none } }).answer x.caller r =
          ((s.setHolder none).answer x.caller r).through v := by
      intro r
      rw [hi.set_dispatch (d := { s.dispatch with holder := none }) rfl hi.worker, answer_through h]
      rfl
    unfold stepCall?
    rw [Call.isFree] at hx
    cases hs : x.stage with
    | asked | numbered | counted => simp [hs] at hx
    | admitted =>
      have he : x.entry = .serial := by simpa [hs] using hx
      simp only [if_pos he, hd]
      split_ifs
      · rfl
      · refine congrArg some ?_
        rw [setHolder, hd]
        exact hset { s.dispatch with holder := some x.caller } _ _ rfl rfl
      · exact congrArg some (answer_through h _)
    | locked =>
      simp only [hd]
      split
      · refine congrArg some ?_
        rw [setHolder, hd]
        exact hans _
      · rfl
      · exact congrArg some (hset { s.dispatch with
          inbound := some ⟨x.caller, x.envelope⟩ } _ _ rfl rfl)
    | sent =>
      simp only [hd]
      split
      · exact congrArg some (hset { s.dispatch with outbound := none } _ _ rfl rfl)
      · refine congrArg some ?_
        rw [setHolder, hd]
        exact hans _
      · rfl
    | received k =>
      refine congrArg some ?_
      rw [setHolder, hd]
      exact hans _

theorem setWorker_through (hi : Intact v s) {w : WorkerStage} (hw : v.unclosed → w ≠ .gone) :
    (s.through v).setWorker w = (s.setWorker w).through v := by
  rw [setWorker, hi.dispatch]
  exact hi.set_dispatch rfl hw

theorem stepWorker?_through (hi : Intact v s) :
    (s.through v).stepWorker? = s.stepWorker?.map fun t => t.through v := by
  have hd := hi.dispatch
  have hgone : s.dispatch.isOpen = false → v.unclosed → WorkerStage.gone ≠ .gone := by
    intro ho hv
    rw [hi.isOpen hv] at ho
    cases ho
  have hworker : (s.through v).dispatch.worker = s.dispatch.worker := congrArg _ hd
  unfold stepWorker?
  simp only [hworker]
  cases s.dispatch.worker with
  | idle =>
    simp only [hd]
    cases s.dispatch.inbound with
    | none =>
      simp only
      split_ifs with ho
      · rfl
      · exact congrArg some (setWorker_through hi (hgone (by simpa using ho)))
    | some p => exact congrArg some (hi.set_dispatch rfl (by simp))
  | holding p =>
    have hi' : Intact v { s with nextId := s.nextId + 1 } := ⟨hi.isOpen, hi.dropped, hi.worker⟩
    exact congrArg some (setWorker_through (w := .numbered p s.nextId) hi' (by simp))
  | numbered p id =>
    have hi' : Intact v { s with
        counters := { s.counters with dispatched := s.counters.dispatched + 1 } } :=
      ⟨hi.isOpen, hi.dropped, hi.worker⟩
    exact congrArg some (setWorker_through (w := .counted p id) hi' (by simp))
  | counted p id =>
    have hi' : Intact v (s.launch id p.sender .parallel p.envelope) :=
      ⟨hi.isOpen, hi.dropped, hi.worker⟩
    simp only [launch_through]
    exact congrArg some (setWorker_through (w := .launched (ticket id p.envelope)) hi' (by simp))
  | launched k =>
    simp only [hd]
    split_ifs with ho
    · exact congrArg some (setWorker_through hi (hgone (by simpa using ho)))
    · rfl
    · exact congrArg some (congrArg (note · _) (hi.set_dispatch (d := { s.dispatch with
        outbound := some k, worker := .idle }) rfl (by simp)))
  | gone => rfl

theorem isUnused_through (h : s.isUnused) : (s.through v).isUnused := by
  simp only [isUnused, Bool.and_eq_true, List.isEmpty_iff] at h ⊢
  obtain ⟨⟨hc, hx⟩, hh⟩ := h
  refine ⟨⟨?_, ?_⟩, ?_⟩
  · rw [through_calls, hc]
    rfl
  · rw [through_closers, hx, ite_self]
  · rw [through_dispatch]
    split_ifs <;> exact hh

theorem stepCloser?_through (hv : v.unclosed = false) (x : Closer) :
    (s.through v).stepCloser? x = (s.stepCloser? x).map fun t => t.through v := by
  obtain ⟨ρ, past, unclosed⟩ := v
  obtain rfl : unclosed = false := hv
  unfold stepCloser?
  simp only [through_dispatch, Bool.false_eq_true, if_false]
  split_ifs
  · cases s.dispatch.worker <;> rfl
  all_goals rfl

end State

/-! ## All steps -/

namespace View

variable {v : View}

/-- The step is not left out and nothing that is left out gets in its way: while the dispatch is
closed, no submission that is kept comes to it. -/
def Keeps (v : View) (s : State) : Action → Prop
  | .submit n _ _ => v.omitted (.thread n) = none
  | .task id | .cancel id _ => v.omitted (.task id) = none
  | .call c => v.omitted c = none ∧ (v.unclosed → s.dispatch.isOpen = false →
      ∀ x ∈ s.calls, x.caller = c → x.isFree)
  | .worker => v.unclosed → s.dispatch.isOpen
  | .shutdown _ | .close _ => v.unclosed = false
  | .drop => (s.through v).isUnused = s.isUnused
  | _ => True

/-- If the closing is left out, an open dispatch is that of a relay in use, and has its worker. -/
structure Suits (v : View) (s : State) : Prop where
  dropped : v.unclosed → s.dispatch.isOpen → s.dropped = false
  worker : v.unclosed → s.dispatch.isOpen → s.dispatch.worker ≠ .gone

theorem Suits.intact (h : v.Suits s) (ho : v.unclosed → s.dispatch.isOpen) : Intact v s :=
  ⟨ho, fun hv => h.dropped hv (ho hv), fun hv => h.worker hv (ho hv)⟩

/-- Whoever has no part in what is left out takes the same steps without it. -/
theorem Suits.step?_through (h : v.Suits s) (hk : v.Keeps s a) :
    (s.through v).step? a = (s.step? a).map fun t => t.through v := by
  cases a with
  | submit n entry e =>
    simp only [State.step?, State.through_dropped, State.call?_through hk]
    split_ifs
    · rfl
    · exact congrArg some (State.ask_through hk _ _)
  | install | setColor | openGates | takeHandle | killHost => rfl
  | notify n w =>
    simp only [State.step?, State.through_notices, State.through_registry, State.note_through,
      State.afterTurn_through]
    split_ifs
    · rfl
    · cases (s.registry.notify w).progress <;> rfl
  | shutdown n =>
    obtain ⟨ρ, past, unclosed⟩ := v
    obtain rfl : unclosed = false := hk
    simp only [State.step?, State.through_dropped, State.through_closers, Bool.false_eq_true,
      if_false]
    split_ifs <;> rfl
  | drop =>
    simp only [State.step?, State.through_dropped, show (s.through v).isUnused = _ from hk]
    split_ifs
    · rfl
    · obtain ⟨ρ, past, unclosed⟩ := v
      cases unclosed <;> rfl
  | call c =>
    show ((s.through v).call? c).bind (s.through v).stepCall? =
      ((s.call? c).bind s.stepCall?).map _
    rw [State.call?_through hk.1]
    cases hx : s.call? c with
    | none => rfl
    | some x =>
      obtain ⟨hxs, rfl⟩ := call?_spec hx
      by_cases ho : v.unclosed → s.dispatch.isOpen
      · exact State.stepCall?_through (h.intact ho) hk.1
      · push Not at ho
        exact State.stepCall?_through_of_isFree hk.1 (hk.2 ho.1 (by simpa using ho.2) x hxs rfl)
  | worker => exact State.stepWorker?_through (h.intact hk)
  | close n =>
    have hc : (s.through v).closers = s.closers := by
      rw [State.through_closers, if_neg (by simp [show v.unclosed = false from hk])]
    show ((s.through v).closers.find? _).bind (s.through v).stepCloser? =
      ((s.closers.find? _).bind s.stepCloser?).map _
    rw [hc]
    cases s.closers.find? fun x => x.thread == n with
    | none => rfl
    | some x => exact State.stepCloser?_through hk x
  | react n =>
    simp only [State.step?, State.through_notices, Option.map_map]
    exact Option.map_congr fun x _ => State.stepNotice_through x
  | task id =>
    show ((s.through v).task? id).bind (s.through v).stepTask? =
      ((s.task? id).bind s.stepTask?).map _
    rw [State.task?_through_of_not_omitted hk]
    cases hx : s.task? id with
    | none => rfl
    | some x =>
      obtain ⟨-, rfl⟩ := task?_spec hx
      exact State.stepTask?_through hk
  | cancel id u =>
    show ((s.through v).task? id).bind (fun y => (s.through v).cancel? y u) =
      ((s.task? id).bind fun y => s.cancel? y u).map _
    rw [State.task?_through_of_not_omitted hk]
    cases hx : s.task? id with
    | none => rfl
    | some x =>
      obtain ⟨-, rfl⟩ := task?_spec hx
      exact State.cancel?_through hk u

end View

/-! ## Another past -/

/-- The same relay with nothing behind it. -/
def State.now (s : State) : State := { s with journal := [] }

/-- Nothing is left out, but this is behind the relay. -/
def View.ofPast (past : List Mark) : View := ⟨fun _ => none, past, false⟩

theorem State.through_ofPast (s : State) (past : List Mark) :
    s.through (.ofPast past) = { s with journal := s.journal ++ past } := by
  have htold : Task.told (fun _ => none) = id := by
    funext x
    exact Task.told_of_not_omitted rfl
  have hcalls : (s.calls.filter fun y => ((fun _ => none : Caller → Option RelayError)
      y.caller).isNone) = s.calls := List.filter_eq_self.mpr fun _ _ => rfl
  simp only [through, View.ofPast, htold, List.map_id, hcalls, Bool.false_eq_true, if_false]

/-- Steps do not look at the past. -/
theorem State.step?_eq_now (s : State) (a : Action) : s.step? a =
    (s.now.step? a).map fun u => { u with journal := u.journal ++ s.journal } := by
  have hs : s.now.through (.ofPast s.journal) = s := through_ofPast s.now s.journal
  have hk : (View.ofPast s.journal).Keeps s.now a := by
    cases a with
    | drop => exact (congrArg isUnused hs).trans rfl
    | call => exact ⟨rfl, fun hv => by cases hv⟩
    | worker => exact fun hv => by cases hv
    | _ => first | rfl | trivial
  have hstep := View.Suits.step?_through (v := .ofPast s.journal) (s := s.now)
    ⟨fun hv => (by cases hv), fun hv => (by cases hv)⟩ hk
  rw [hs] at hstep
  exact hstep.trans (Option.map_congr fun u _ => through_ofPast u s.journal)

theorem State.step?_now {s t : State} {a : Action} (h : s.step? a = some t) :
    ∃ ms, s.now.step? a = some { t.now with journal := ms } ∧ t.journal = ms ++ s.journal := by
  rw [s.step?_eq_now] at h
  obtain ⟨u, hu, rfl⟩ := Option.map_eq_some_iff.mp h
  exact ⟨u.journal, hu, rfl⟩

end TaskRelay
