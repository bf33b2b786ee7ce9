import Mathlib
import TaskRelay.Relay.Run

/-!
# What a step can do

`State.step?` as a relation: `Move s a t` lists every way in which the action `a` leads from `s` to
`t`, with what had to hold before. A move is one of a submission (`CallMove`), of the dispatch
worker (`WorkerMove`), of a task (`TaskMove`), or one that touches none of them (`OutsideMove`).
Main statement: `move_of_step?`. A property of all reachable states then needs one look at each move
(`State.Reachable.induct`).
-/

namespace TaskRelay

/-! ## Kinds of moves -/

/-- One step of a program, with whatever it learns by it. -/
inductive Program.Next : Program → Program → Prop
  | pause {next : Program} : Next (.pause next) next
  | passGate {g : String} {next : Program} : Next (.passGate g next) next
  | onThread {next : String → Program} (t : String) : Next (.onThread next) (next t)
  | logFailure {name : String} {f : Failure} {next : Program} : Next (.logFailure name f next) next
  | submit {entry : Entry} {name : String} {body : Arguments → Program} {args : Arguments}
      {wake : Option WakePointer} {next : Option (Except RelayError Ticket) → Program}
      (r : Option (Except RelayError Ticket)) :
      Next (.submit entry name body args wake next) (next r)
  | await {ticket : Ticket} {next : Except TaskError Json.Value → Program}
      (r : Except TaskError Json.Value) : Next (.await ticket next) (next r)

/-- Where a program on a thread gets to: a step further, or off the thread. -/
inductive Program.Goes (p : Program) : Stage → Prop
  | on {q : Program} : p.Next q → Goes p (.running q)
  | off {q : Program} : p.Next q → Goes p (.suspended q)
  | wait : Goes p (.suspended p)

/-- The stage of a task that is told of, from how far the notification got. -/
def Stage.ofProgress (e : Ending) : Progress → Stage
  | .running i => .notifying e i
  | .done _ => .notified e

/-- Why a submission is refused. -/
inductive Refusal (s : State) (x : Call) : RelayError → Prop
  | noPool : x.stage = .asked → s.pools.get? x.entry.pool = none →
      Refusal s x x.entry.missingPool
  | noCallback : x.stage = .asked → (s.pools.get? x.entry.pool).isSome →
      s.registry.ready x.envelope.wake = false → Refusal s x .wakeCallbackMissing
  | closed : x.stage = .admitted → x.entry = .serial → s.dispatch.holder = none →
      s.dispatch.isOpen = false → Refusal s x .dispatchClosed

inductive CallMove (s : State) (x : Call) : State → Prop
  | refuse {e : RelayError} : Refusal s x e → CallMove s x (s.answer x.caller (.error e))
  | allow : x.stage = .asked → (s.pools.get? x.entry.pool).isSome →
      s.registry.ready x.envelope.wake → CallMove s x (s.setCall x.caller .admitted)
  | lock : x.stage = .admitted → x.entry = .serial → s.dispatch.holder = none →
      s.dispatch.isOpen →
      CallMove s x (((s.setHolder (some x.caller)).setCall x.caller .locked).note
        (.locked x.caller))
  | number : x.stage = .admitted → x.entry ≠ .serial →
      CallMove s x ({ s with nextId := s.nextId + 1 }.setCall x.caller (.numbered s.nextId))
  | count {id : Nat} : x.stage = .numbered id →
      CallMove s x ({ s with
        counters := { s.counters with direct := s.counters.direct + 1 } }.setCall x.caller
          (.counted id))
  | launch {id : Nat} : x.stage = .counted id →
      CallMove s x ((s.launch id x.caller x.entry.pool x.envelope).answer x.caller
        (.ok (State.ticket id x.envelope)))
  /-- The worker is gone, so the submission is given up. -/
  | abandon : s.dispatch.worker = .gone →
      (x.stage = .locked ∨ x.stage = .sent ∧ s.dispatch.outbound = none) →
      CallMove s x ((s.setHolder none).answer x.caller (.error .dispatchClosed))
  | send : x.stage = .locked → s.dispatch.inbound = none →
      CallMove s x (({ s with
        dispatch := { s.dispatch with
          inbound := some ⟨x.caller, x.envelope⟩ } }.setCall x.caller .sent).note
            (.sent x.caller))
  | receive {t : Ticket} : x.stage = .sent → s.dispatch.outbound = some t →
      CallMove s x (({ s with
        dispatch := { s.dispatch with outbound := none } }.setCall x.caller (.received t)).note
          (.received x.caller t))
  | unlock {t : Ticket} : x.stage = .received t →
      CallMove s x ((s.setHolder none).answer x.caller (.ok t))

inductive WorkerMove (s : State) : State → Prop
  | take {p : Parcel} : s.dispatch.worker = .idle → s.dispatch.inbound = some p →
      WorkerMove s { s with
        dispatch := { s.dispatch with inbound := none, worker := .holding p } }
  | leave : s.dispatch.worker = .idle → s.dispatch.inbound = none → s.dispatch.isOpen = false →
      WorkerMove s (s.setWorker .gone)
  | number {p : Parcel} : s.dispatch.worker = .holding p →
      WorkerMove s ({ s with nextId := s.nextId + 1 }.setWorker (.numbered p s.nextId))
  | count {p : Parcel} {id : Nat} : s.dispatch.worker = .numbered p id →
      WorkerMove s ({ s with
        counters := { s.counters with dispatched := s.counters.dispatched + 1 } }.setWorker
          (.counted p id))
  | launch {p : Parcel} {id : Nat} : s.dispatch.worker = .counted p id →
      WorkerMove s ((s.launch id p.sender .parallel p.envelope).setWorker
        (.launched (State.ticket id p.envelope)))
  /-- Nobody is left to take the handle. -/
  | lose {t : Ticket} : s.dispatch.worker = .launched t → s.dispatch.isOpen = false →
      WorkerMove s (s.setWorker .gone)
  | publish {t : Ticket} : s.dispatch.worker = .launched t → s.dispatch.isOpen →
      s.dispatch.outbound = none →
      WorkerMove s ({ s with
        dispatch := { s.dispatch with outbound := some t, worker := .idle } }.note
          (.published t))

inductive TaskMove (s : State) (x : Task) : Action → State → Prop
  /-- A pool with threads takes the first step of a task, or goes on with one that is woken. -/
  | resume {p : Program} : x.stage = .suspended p → s.pools.isDown x.pool = false →
      (x.begun → s.canResume p) → TaskMove s x (.task x.id) (s.resume x.id p)
  | go {p : Program} {stage : Stage} : x.stage = .running p → p.Goes stage →
      TaskMove s x (.task x.id) (s.setStage x.id stage)
  | log {name : String} {f : Failure} {next : Program} :
      x.stage = .running (.logFailure name f next) →
      TaskMove s x (.task x.id) ((s.setStage x.id (.running next)).note (.loggedFailure name f))
  | finish {o : Outcome} : x.stage = .running (.finish o) →
      TaskMove s x (.task x.id) (s.setStage x.id (.ended o))
  | record {o : Outcome} : x.stage = .ended o →
      TaskMove s x (.task x.id) (({ s with counters := State.countOutcome s.counters o }.note
        (.recorded x.id o)).setStage x.id (.recorded (.outcome o)))
  | pass {e : Ending} : x.stage = .recorded e → x.envelope.wake = none →
      TaskMove s x (.task x.id) (s.setStage x.id (.notified e))
  | notify {e : Ending} {w : WakePointer} : x.stage = .recorded e → x.envelope.wake = some w →
      TaskMove s x (.task x.id) (((s.note (.notify (.task x.id) w)).afterTurn (.task x.id)
        (s.registry.notify w)).setStage x.id (.ofProgress e (s.registry.notify w).progress))
  | react {e : Ending} {i : Invocation} : x.stage = .notifying e i →
      TaskMove s x (.task x.id) ((s.afterTurn (.task x.id) (s.registry.step i)).setStage x.id
        (.ofProgress e (s.registry.step i).progress))
  | resolve {e : Ending} : x.stage = .notified e →
      TaskMove s x (.task x.id) ((s.setStage x.id (.resolved e)).note (.resolved x.id e))
  /-- A suspended task of a pool that ends is dropped. -/
  | cancel {p : Program} {unwinding : Bool} : x.stage = .suspended p →
      s.pools.isUp x.pool = false →
      TaskMove s x (.cancel x.id unwinding) (s.setStage x.id (.recorded .cancelled))
  /-- The same on a thread that is unwinding, where the task had begun. -/
  | cancelUnwinding {p : Program} : x.stage = .suspended p → s.pools.isUp x.pool = false →
      x.begun → TaskMove s x (.cancel x.id true) (({ s with
        counters := { s.counters with panicked := s.counters.panicked + 1 } }.note
          (.cancelledUnwinding x.id)).setStage x.id (.recorded .cancelled))

/-- A move that touches neither the submissions nor the tasks. -/
inductive OutsideMove (s : State) : Action → State → Prop
  | install (c : Callback) :
      OutsideMove s (.install c) { s with registry := s.registry.install c }
  | setColor (on : Bool) :
      OutsideMove s (.setColor on) { s with registry := s.registry.setColor on }
  | openGates (which : String → Bool) :
      OutsideMove s (.openGates which) { s with gateOpen := fun g => which g || s.gateOpen g }
  | killHost : OutsideMove s .killHost { s with pools := s.pools.killHost }
  | takeHandle (id : Nat) : OutsideMove s (.takeHandle id) { s with taken := id :: s.taken }
  | shutdown (n : Nat) : s.dropped = false →
      OutsideMove s (.shutdown n) { s with closers := s.closers ++ [⟨n, false⟩] }
  /-- A thread leaves `shutdown`. -/
  | leave (n : Nat) : OutsideMove s (.close n)
      { s with closers := s.closers.filter fun y => y.thread != n }
  | notify (n : Nat) (w : WakePointer) (notices : List Notice) :
      OutsideMove s (.notify n w) { (s.note (.notify (.thread n) w)).afterTurn (.thread n)
        (s.registry.notify w) with notices := notices }
  | react (n : Nat) (i : Invocation) (notices : List Notice) :
      OutsideMove s (.react n) { s.afterTurn (.thread n) (s.registry.step i) with
        notices := notices }

inductive Move (s : State) : Action → State → Prop
  | outside {a : Action} {t : State} : OutsideMove s a t → Move s a t
  | ask {n : Nat} {entry : Entry} {e : Envelope} : s.dropped = false →
      s.call? (.thread n) = none →
      Move s (.submit n entry e) (s.ask (.thread n) entry e)
  | askInside {x : Task} {entry : Entry} {name : String} {body : Arguments → Program}
      {args : Arguments} {wake : Option WakePointer}
      {next : Option (Except RelayError Ticket) → Program} :
      s.task? x.id = some x → x.stage = .running (.submit entry name body args wake next) →
      s.dropped = false →
      Move s (.task x.id) ((s.setStage x.id (.submitting next)).ask (.task x.id) entry
        ⟨⟨name, body⟩, args, wake⟩)
  | call {x : Call} {t : State} : s.call? x.caller = some x → CallMove s x t →
      Move s (.call x.caller) t
  | worker {t : State} : WorkerMove s t → Move s .worker t
  | close {n : Nat} {closers : List Closer} : s.dispatch.holder = none → s.dispatch.isOpen →
      Move s (.close n) ({ s with
        dispatch := { s.dispatch with isOpen := false }, closers := closers }.note .closed)
  | drop : s.isUnused → Move s .drop { s with
      dropped := true, pools := s.pools.release, dispatch := { s.dispatch with isOpen := false } }
  | task {x : Task} {a : Action} {t : State} : s.task? x.id = some x → TaskMove s x a t → Move s a t

/-! ## Every step is a move -/

variable {s t : State}

theorem call?_spec {c : Caller} {x : Call} (h : s.call? c = some x) :
    x ∈ s.calls ∧ x.caller = c :=
  ⟨List.mem_of_find?_eq_some h, by simpa using List.find?_some h⟩

theorem not_mem_callers {c : Caller} (h : s.call? c = none) : c ∉ s.calls.map Call.caller := by
  intro hc
  obtain ⟨y, hy, hyc⟩ := List.mem_map.mp hc
  exact List.find?_eq_none.mp h y hy (by simpa using hyc)

theorem task?_spec {id : Nat} {x : Task} (h : s.task? id = some x) :
    x ∈ s.tasks ∧ x.id = id :=
  ⟨List.mem_of_find?_eq_some h, by simpa using List.find?_some h⟩

theorem callMove_of_stepCall? {x : Call} (h : s.stepCall? x = some t) : CallMove s x t := by
  unfold State.stepCall? at h
  split at h
  case h_1 hx =>
    split_ifs at h with hp hr
    · obtain rfl := Option.some.inj h
      exact .refuse (.noPool hx (by simpa using hp))
    · obtain rfl := Option.some.inj h
      exact .allow hx (by simpa [Option.isSome_iff_ne_none] using hp) hr
    · obtain rfl := Option.some.inj h
      exact .refuse (.noCallback hx (by simpa [Option.isSome_iff_ne_none] using hp)
        (by simpa using hr))
  case h_2 hx =>
    split_ifs at h with he hh ho
    · obtain rfl := Option.some.inj h
      exact .lock hx he (by simpa using hh) ho
    · obtain rfl := Option.some.inj h
      exact .refuse (.closed hx he (by simpa using hh) (by simpa using ho))
    · obtain rfl := Option.some.inj h
      exact .number hx he
  case h_3 id hx =>
    obtain rfl := Option.some.inj h
    exact .count hx
  case h_4 id hx =>
    obtain rfl := Option.some.inj h
    exact .launch hx
  case h_5 hx =>
    split at h
    · next hw =>
      obtain rfl := Option.some.inj h
      exact .abandon hw (.inl hx)
    · simp at h
    · next hi _ =>
      obtain rfl := Option.some.inj h
      exact .send hx hi
  case h_6 hx =>
    split at h
    · next ho =>
      obtain rfl := Option.some.inj h
      exact .receive hx ho
    · next ho hw =>
      obtain rfl := Option.some.inj h
      exact .abandon hw (.inr ⟨hx, ho⟩)
    · simp at h
  case h_7 tk hx =>
    obtain rfl := Option.some.inj h
    exact .unlock hx

theorem workerMove_of_stepWorker? (h : s.stepWorker? = some t) : WorkerMove s t := by
  unfold State.stepWorker? at h
  split at h
  case h_1 hw =>
    split at h
    · next hi =>
      obtain rfl := Option.some.inj h
      exact .take hw hi
    · next hi =>
      split_ifs at h with ho
      obtain rfl := Option.some.inj h
      exact .leave hw hi (by simpa using ho)
  case h_2 hw =>
    obtain rfl := Option.some.inj h
    exact .number hw
  case h_3 hw =>
    obtain rfl := Option.some.inj h
    exact .count hw
  case h_4 hw =>
    obtain rfl := Option.some.inj h
    exact .launch hw
  case h_5 hw =>
    split_ifs at h with ho hi
    · obtain rfl := Option.some.inj h
      exact .lose hw (by simpa using ho)
    · obtain rfl := Option.some.inj h
      exact .publish hw (by simpa using ho) (by simpa using hi)
  case h_6 => simp at h

theorem move_of_stepProgram {x : Task} {p : Program} (hx : s.task? x.id = some x)
    (hp : x.stage = .running p) : Move s (.task x.id) (s.stepProgram x p) := by
  cases p with
  | finish o => exact .task hx (.finish hp)
  | pause next => exact .task hx (.go hp (.off .pause))
  | passGate g next =>
    refine .task hx (.go hp ?_)
    split
    · exact .on .passGate
    · exact .wait
  | onThread next => exact .task hx (.go hp (.on (.onThread _)))
  | logFailure name f next => exact .task hx (.log hp)
  | submit entry name body args wake next =>
    simp only [State.stepProgram]
    split_ifs with hd
    · exact .task hx (.go hp (.on (.submit _)))
    · exact .askInside hx hp (by simpa using hd)
  | await ticket next =>
    simp only [State.stepProgram]
    split
    · exact .task hx (.go hp (.on (.await _)))
    · exact .task hx (.go hp .wait)

theorem move_of_stepTask? {x : Task} (hx : s.task? x.id = some x) (h : s.stepTask? x = some t) :
    Move s (.task x.id) t := by
  unfold State.stepTask? at h
  split at h
  case h_1 p hs =>
    split_ifs at h with hc
    obtain rfl := Option.some.inj h
    simp only [Bool.and_eq_true, Bool.not_eq_true', Bool.or_eq_true] at hc
    refine .task hx (.resume hs hc.1 fun hb => hc.2.resolve_left ?_)
    rw [hb]
    exact Bool.noConfusion
  case h_2 p hs =>
    obtain rfl := Option.some.inj h
    exact move_of_stepProgram hx hs
  case h_3 => simp at h
  case h_4 o hs =>
    obtain rfl := Option.some.inj h
    exact .task hx (.record hs)
  case h_5 e hs =>
    split at h
    · next hw =>
      obtain rfl := Option.some.inj h
      exact .task hx (.pass hs hw)
    · next w hw =>
      -- whether a callback runs or not, the stage is that of the progress
      have hm := TaskMove.notify (s := s) hs hw
      cases hp : (s.registry.notify w).progress with
      | running i =>
        simp only [hp, Option.some.injEq] at h hm
        exact .task hx (h ▸ hm)
      | done b =>
        simp only [hp, Option.some.injEq] at h hm
        exact .task hx (h ▸ hm)
  case h_6 e i hs =>
    have hm := TaskMove.react (s := s) hs
    cases hp : (s.registry.step i).progress with
    | running j =>
      simp only [hp, Option.some.injEq] at h hm
      exact .task hx (h ▸ hm)
    | done b =>
      simp only [hp, Option.some.injEq] at h hm
      exact .task hx (h ▸ hm)
  case h_7 e hs =>
    obtain rfl := Option.some.inj h
    exact .task hx (.resolve hs)
  case h_8 => simp at h

theorem move_of_cancel? {x : Task} {u : Bool} (hx : s.task? x.id = some x)
    (h : s.cancel? x u = some t) : Move s (.cancel x.id u) t := by
  unfold State.cancel? at h
  split at h
  · next p hs =>
    split_ifs at h with ha hu
    · obtain rfl := Option.some.inj h
      rw [Bool.and_eq_true] at hu
      obtain ⟨rfl, hb⟩ := hu
      exact .task hx (.cancelUnwinding hs (by simpa using ha) hb)
    · obtain rfl := Option.some.inj h
      exact .task hx (.cancel hs (by simpa using ha))
  · simp at h

theorem move_of_stepCloser? {x : Closer} (h : s.stepCloser? x = some t) :
    Move s (.close x.thread) t := by
  unfold State.stepCloser? at h
  simp only at h
  split_ifs at h with hj hh ho
  · split at h
    · obtain rfl := Option.some.inj h
      exact .outside (.leave _)
    · simp at h
  · obtain rfl := Option.some.inj h
    exact .close (by simpa using hh) ho
  · obtain rfl := Option.some.inj h
    exact .outside (.leave _)

theorem move_of_step? {a : Action} (h : s.step? a = some t) : Move s a t := by
  cases a with
  | submit n entry e =>
    simp only [State.step?] at h
    split_ifs at h with hc
    obtain rfl := Option.some.inj h
    simp only [Bool.or_eq_true, not_or, Bool.not_eq_true, Option.isSome_eq_false_iff,
      Option.isNone_iff_eq_none] at hc
    exact .ask hc.1 hc.2
  | install c =>
    obtain rfl := Option.some.inj h
    exact .outside (.install c)
  | setColor on =>
    obtain rfl := Option.some.inj h
    exact .outside (.setColor on)
  | notify n w =>
    simp only [State.step?] at h
    split_ifs at h
    split at h
    · obtain rfl := Option.some.inj h
      exact .outside (.notify n w _)
    · obtain rfl := Option.some.inj h
      exact .outside (.notify n w _)
  | openGates which =>
    obtain rfl := Option.some.inj h
    exact .outside (.openGates which)
  | shutdown n =>
    simp only [State.step?] at h
    split_ifs at h with hc
    obtain rfl := Option.some.inj h
    simp only [Bool.or_eq_true, not_or, Bool.not_eq_true] at hc
    exact .outside (.shutdown n hc.1)
  | drop =>
    simp only [State.step?] at h
    split_ifs at h with hc
    obtain rfl := Option.some.inj h
    simp only [Bool.or_eq_true, not_or, Bool.not_eq_true, Bool.not_eq_false,
      Bool.not_eq_eq_eq_not, Bool.not_true] at hc
    exact .drop hc.2
  | killHost =>
    obtain rfl := Option.some.inj h
    exact .outside .killHost
  | takeHandle id =>
    obtain rfl := Option.some.inj h
    exact .outside (.takeHandle id)
  | call c =>
    obtain ⟨x, hx, hs⟩ := Option.bind_eq_some_iff.mp h
    obtain ⟨-, rfl⟩ := call?_spec hx
    exact .call hx (callMove_of_stepCall? hs)
  | worker => exact .worker (workerMove_of_stepWorker? h)
  | close n =>
    obtain ⟨x, hx, hs⟩ := Option.bind_eq_some_iff.mp h
    obtain rfl : x.thread = n := by simpa using List.find?_some hx
    exact move_of_stepCloser? hs
  | react n =>
    obtain ⟨x, hx, hs⟩ := Option.map_eq_some_iff.mp h
    obtain rfl : x.thread = n := by simpa using List.find?_some hx
    subst hs
    unfold State.stepNotice
    simp only
    split
    · exact .outside (.react _ _ _)
    · exact .outside (.react _ _ _)
  | task id =>
    obtain ⟨x, hx, hs⟩ := Option.bind_eq_some_iff.mp h
    obtain ⟨-, rfl⟩ := task?_spec hx
    exact move_of_stepTask? hx hs
  | cancel id u =>
    obtain ⟨x, hx, hs⟩ := Option.bind_eq_some_iff.mp h
    obtain ⟨-, rfl⟩ := task?_spec hx
    exact move_of_cancel? hx hs

/-! ## Reachable states -/

theorem State.Reachable.leads (h : s.Reachable) (hl : Leads s t) : t.Reachable := by
  obtain ⟨site, hosted, settings, first, hf, h⟩ := h
  exact ⟨site, hosted, settings, first, hf, h.trans hl⟩

theorem State.Reachable.step {a : Action} (h : s.Reachable) (hs : s.step? a = some t) :
    t.Reachable :=
  h.leads (Leads.here.step hs)

theorem State.Reachable.after {as : List Action} (h : s.Reachable) (hs : s.after? as = some t) :
    t.Reachable :=
  h.leads (leads_of_after? hs)

/-- A place where all is granted that is not improper, to a thread that may wait. -/
def Site.generous : Site where
  answer _ d := if d.isImproper then .broken else .granted
  answer_eq_broken_iff _ d := by cases d.isImproper <;> simp
  inside := false

/-- A relay with the default settings on one processor, just started. -/
def State.plain : State := State.start (.own (.default .one)) false

theorem reachable_plain : State.plain.Reachable :=
  ⟨.generous, false, .default .one, .plain, rfl, .here⟩

/-- A relay with these settings and the parallel pool of a host, just started. -/
def State.attached (settings : Settings) : State :=
  State.start (Pools.attach settings) settings.color

/-- An envelope with a callable that comes to this outcome at once. -/
def Envelope.comingTo (o : Outcome) (wake : Option WakePointer) : Envelope :=
  ⟨⟨"callable", fun _ => .finish o⟩, .empty, wake⟩

/-- An envelope with a callable that waits at a gate, and goes on with this program. -/
def Envelope.gated (p : Program) (wake : Option WakePointer) : Envelope :=
  ⟨⟨"callable", fun _ => .passGate "gate" p⟩, .empty, wake⟩

/-- An envelope with a callable that submits another one and then ends. -/
def Envelope.submitting (entry : Entry) (e : Envelope) : Envelope where
  callable := ⟨"callable", fun _ =>
    .submit entry e.callable.name e.callable.body e.arguments e.wake fun _ =>
      .finish (.value .null)⟩
  arguments := .empty
  wake := none

/-- A run from this state of which something is seen at the end. -/
theorem exists_after? {P : State → Prop} [DecidablePred P] (s : State) (as : List Action)
    (h : (s.after? as).any fun t => P t) : ∃ t, s.after? as = some t ∧ P t := by
  cases hs : s.after? as with
  | none =>
    rw [hs] at h
    cases h
  | some t =>
    rw [hs] at h
    exact ⟨t, rfl, of_decide_eq_true h⟩

/-- The same for the relay with the default settings. -/
theorem exists_run {P : State → Prop} [DecidablePred P] (as : List Action)
    (h : (State.plain.after? as).any fun s => P s) :
    ∃ s, State.plain.after? as = some s ∧ s.Reachable ∧ P s := by
  obtain ⟨s, hs, hp⟩ := exists_after? .plain as h
  exact ⟨s, hs, reachable_plain.after hs, hp⟩

/-- What holds of every relay that has just started and is kept by every move holds of every state
that a relay can come to. -/
theorem State.Reachable.induct {P : State → Prop}
    (start : ∀ pools color, P (State.start pools color))
    (move : ∀ s a t, s.Reachable → P s → Move s a t → P t) (h : s.Reachable) : P s := by
  obtain ⟨site, hosted, settings, first, hf, hl⟩ := h
  induction hl with
  | here =>
    obtain rfl := eq_start_of_startWith hf
    exact start _ _
  | @step t u a hl hs ih =>
    exact move t a u ⟨site, hosted, settings, first, hf, hl⟩ ih (move_of_step? hs)

end TaskRelay
