import TaskRelay.Relay.State

/-!
# The steps of a relay

`State.step?` is one step of one thread: at most one access to what the threads share. It is none
where the thread has to wait or has nothing to do. Every run of a relay is a sequence of such steps
of its threads, in any order, and of what is done to it from outside. A pool with threads may take
the next step of any of its tasks, so a run says nothing about the number of its threads.
-/

namespace TaskRelay

inductive Action where
  /-- A thread outside submits. -/
  | submit (thread : Nat) (entry : Entry) (envelope : Envelope)
  | install (callback : Callback)
  | setColor (on : Bool)
  /-- A thread outside notifies by itself. -/
  | notify (thread : Nat) (wake : WakePointer)
  /-- Opens the gates with these names, for good. -/
  | openGates (which : String → Bool)
  | shutdown (thread : Nat)
  /-- The relay is given up, when nobody is using it. -/
  | drop
  /-- The host tells its pool to end, or waits until it has ended. -/
  | killHost
  /-- The handle of a task is used up or thrown away. -/
  | takeHandle (id : Nat)
  /-- The next step of a submission under way. -/
  | call (caller : Caller)
  | worker
  /-- The next step of a thread inside `shutdown`. -/
  | close (thread : Nat)
  /-- The next step of a notification from outside. -/
  | react (thread : Nat)
  | task (id : Nat)
  /-- A pool that ends drops a task, on a thread that may be unwinding from a panic. -/
  | cancel (id : Nat) (unwinding : Bool)

namespace State

/-! ## Submissions -/

def ask (s : State) (c : Caller) (entry : Entry) (e : Envelope) : State :=
  { s with calls := s.calls ++ [Call.mk c entry e .asked] }.note (.asked c entry e)

/-- A submission is over: its caller has the answer, and a task goes on with it. -/
def answer (s : State) (c : Caller) (r : Except RelayError Ticket) : State :=
  let s := { s with calls := s.calls.filter fun x => x.caller != c }
  let s := s.note (.answered c r)
  match c with
  | .thread _ => s
  | .task id =>
    match (s.task? id).map Task.stage with
    | some (.submitting next) => s.setStage id (.running (next (some r)))
    | _ => s

/-- A task comes into being, not yet on a thread. -/
def launch (s : State) (id : Nat) (c : Caller) (pool : PoolName) (e : Envelope) : State :=
  let t : Task := ⟨id, c, e, pool, false, .suspended (e.callable.body e.arguments)⟩
  { s with tasks := s.tasks ++ [t] }.note (.launched id c e)

def ticket (id : Nat) (e : Envelope) : Ticket := ⟨id, e.wake.isSome⟩

def setHolder (s : State) (c : Option Caller) : State :=
  { s with dispatch := { s.dispatch with holder := c } }

def stepCall? (s : State) (x : Call) : Option State :=
  match x.stage with
  | .asked =>
    if (s.pools.get? x.entry.pool).isNone then some (s.answer x.caller (.error x.entry.missingPool))
    else if s.registry.ready x.envelope.wake then some (s.setCall x.caller .admitted)
    else some (s.answer x.caller (.error .wakeCallbackMissing))
  | .admitted =>
    if x.entry = .serial then
      if s.dispatch.holder.isSome then none
      else if s.dispatch.isOpen then
        some (((s.setHolder (some x.caller)).setCall x.caller .locked).note (.locked x.caller))
      else some (s.answer x.caller (.error .dispatchClosed))
    else some ({ s with nextId := s.nextId + 1 }.setCall x.caller (.numbered s.nextId))
  | .numbered id =>
    let counters := { s.counters with direct := s.counters.direct + 1 }
    some ({ s with counters := counters }.setCall x.caller (.counted id))
  | .counted id =>
    some ((s.launch id x.caller x.entry.pool x.envelope).answer x.caller
      (.ok (ticket id x.envelope)))
  | .locked =>
    match s.dispatch.worker, s.dispatch.inbound with
    | .gone, _ => some ((s.setHolder none).answer x.caller (.error .dispatchClosed))
    | _, some _ => none
    | _, none =>
      let dispatch := { s.dispatch with inbound := some ⟨x.caller, x.envelope⟩ }
      some (({ s with dispatch := dispatch }.setCall x.caller .sent).note (.sent x.caller))
  | .sent =>
    match s.dispatch.outbound, s.dispatch.worker with
    | some t, _ =>
      let dispatch := { s.dispatch with outbound := none }
      some (({ s with dispatch := dispatch }.setCall x.caller (.received t)).note
        (.received x.caller t))
    | none, .gone => some ((s.setHolder none).answer x.caller (.error .dispatchClosed))
    | none, _ => none
  | .received t => some ((s.setHolder none).answer x.caller (.ok t))

/-! ## The dispatch worker -/

def stepWorker? (s : State) : Option State :=
  match s.dispatch.worker with
  | .idle =>
    match s.dispatch.inbound with
    | some p =>
      some { s with dispatch := { s.dispatch with inbound := none, worker := .holding p } }
    | none => if s.dispatch.isOpen then none else some (s.setWorker .gone)
  | .holding p => some ({ s with nextId := s.nextId + 1 }.setWorker (.numbered p s.nextId))
  | .numbered p id =>
    let counters := { s.counters with dispatched := s.counters.dispatched + 1 }
    some ({ s with counters := counters }.setWorker (.counted p id))
  | .counted p id =>
    some ((s.launch id p.sender .parallel p.envelope).setWorker
      (.launched (ticket id p.envelope)))
  | .launched t =>
    if !s.dispatch.isOpen then some (s.setWorker .gone)
    else if s.dispatch.outbound.isSome then none
    else
      let dispatch := { s.dispatch with outbound := some t, worker := .idle }
      some ({ s with dispatch := dispatch }.note (.published t))
  | .gone => none

/-! ## Shutdown -/

/-- Closing needs the submit lock for a moment; of several threads the first joins the worker. -/
def stepCloser? (s : State) (x : Closer) : Option State :=
  let rest := s.closers.filter fun y => y.thread != x.thread
  if x.joining then
    match s.dispatch.worker with
    | .gone => some { s with closers := rest }
    | _ => none
  else if s.dispatch.holder.isSome then none
  else if s.dispatch.isOpen then
    some ({ s with
      dispatch := { s.dispatch with isOpen := false },
      closers := ⟨x.thread, true⟩ :: rest }.note .closed)
  else some { s with closers := rest }

/-! ## Notifications -/

/-- Enters what a notification has done to the registry, and its signs. -/
def afterTurn (s : State) (source : Source) (t : Turn) : State :=
  { s with registry := t.registry }.noteSigns source t.signs

def stepNotice (s : State) (x : Notice) : State :=
  let turn := s.registry.step x.invocation
  let rest := s.notices.filter fun y => y.thread != x.thread
  let s := s.afterTurn (.thread x.thread) turn
  match turn.progress with
  | .running i => { s with notices := Notice.mk x.thread i :: rest }
  | .done _ => { s with notices := rest }

/-! ## Tasks -/

/-- Whether a suspended program is woken. -/
def canResume (s : State) : Program → Bool
  | .passGate g _ => s.gateOpen g
  | .await t _ => (s.ending? t.id).isSome
  | _ => true

def stepProgram (s : State) (t : Task) (p : Program) : State :=
  match p with
  | .finish o => s.setStage t.id (.ended o)
  | .pause next => s.setStage t.id (.suspended next)
  | .passGate g next =>
    s.setStage t.id (if s.gateOpen g then .running next else .suspended p)
  | .onThread next => s.setStage t.id (.running (next (s.pools.threadName t.pool)))
  | .logFailure name f next => (s.setStage t.id (.running next)).note (.loggedFailure name f)
  | .submit entry name body args wake next =>
    if s.dropped then s.setStage t.id (.running (next none))
    else
      (s.setStage t.id (.submitting next)).ask (.task t.id) entry ⟨⟨name, body⟩, args, wake⟩
  | .await ticket next =>
    match s.ending? ticket.id with
    | some e => s.setStage t.id (.running (next e.result))
    | none => s.setStage t.id (.suspended p)

/-- Counts the outcome of a callable. -/
def countOutcome (c : Counters) : Outcome → Counters
  | .value _ => { c with completed := c.completed + 1 }
  | .failure _ => { c with failed := c.failed + 1 }
  | .panic _ => { c with panicked := c.panicked + 1 }

def resume (s : State) (id : Nat) (p : Program) : State :=
  { s with tasks := s.tasks.map fun t =>
      if t.id = id then { t with begun := true, stage := .running p } else t }

/-- A pool polls each task once, whatever its program begins with, and then when it is woken. -/
def stepTask? (s : State) (t : Task) : Option State :=
  match t.stage with
  | .suspended p =>
    if !s.pools.isDown t.pool && (!t.begun || s.canResume p) then some (s.resume t.id p) else none
  | .running p => some (s.stepProgram t p)
  | .submitting _ => none
  | .ended o =>
    let s := { s with counters := countOutcome s.counters o }.note (.recorded t.id o)
    some (s.setStage t.id (.recorded (.outcome o)))
  | .recorded e =>
    match t.envelope.wake with
    | none => some (s.setStage t.id (.notified e))
    | some wake =>
      let turn := s.registry.notify wake
      let s := (s.note (.notify (.task t.id) wake)).afterTurn (.task t.id) turn
      match turn.progress with
      | .running i => some (s.setStage t.id (.notifying e i))
      | .done _ => some (s.setStage t.id (.notified e))
  | .notifying e i =>
    let turn := s.registry.step i
    let s := s.afterTurn (.task t.id) turn
    match turn.progress with
    | .running i => some (s.setStage t.id (.notifying e i))
    | .done _ => some (s.setStage t.id (.notified e))
  | .notified e => some ((s.setStage t.id (.resolved e)).note (.resolved t.id e))
  | .resolved _ => none

/--
Drops a suspended task of a pool that ends. On a thread that is unwinding, a task that had begun is
taken for one that panicked.
-/
def cancel? (s : State) (t : Task) (unwinding : Bool) : Option State :=
  match t.stage with
  | .suspended _ =>
    if s.pools.isUp t.pool then none
    else
      let s := if unwinding && t.begun then
          let counters := { s.counters with panicked := s.counters.panicked + 1 }
          { s with counters := counters }.note (.cancelledUnwinding t.id)
        else s
      some (s.setStage t.id (.recorded .cancelled))
  | _ => none

/-! ## All steps -/

/-- Whether nobody is inside the relay. -/
def isUnused (s : State) : Bool :=
  s.calls.isEmpty && s.closers.isEmpty && s.dispatch.holder.isNone

def step? (s : State) : Action → Option State
  | .submit n entry e =>
    if s.dropped || (s.call? (.thread n)).isSome then none
    else some (s.ask (.thread n) entry e)
  | .install c => some { s with registry := s.registry.install c }
  | .setColor on => some { s with registry := s.registry.setColor on }
  | .notify n wake =>
    if s.notices.any fun x => x.thread == n then none
    else
      let turn := s.registry.notify wake
      let s := (s.note (.notify (.thread n) wake)).afterTurn (.thread n) turn
      match turn.progress with
      | .running i => some { s with notices := s.notices ++ [Notice.mk n i] }
      | .done _ => some s
  | .openGates which => some { s with gateOpen := fun g => which g || s.gateOpen g }
  | .shutdown n =>
    if s.dropped || s.closers.any fun x => x.thread == n then none
    else some { s with closers := s.closers ++ [⟨n, false⟩] }
  | .drop =>
    if s.dropped || !s.isUnused then none
    else
      some { s with
        dropped := true, pools := s.pools.release, dispatch := { s.dispatch with isOpen := false } }
  | .killHost => some { s with pools := s.pools.killHost }
  | .takeHandle id => some { s with taken := id :: s.taken }
  | .call c => s.call? c >>= s.stepCall?
  | .worker => s.stepWorker?
  | .close n => (s.closers.find? fun x => x.thread == n) >>= s.stepCloser?
  | .react n => (s.notices.find? fun x => x.thread == n).map s.stepNotice
  | .task id => s.task? id >>= s.stepTask?
  | .cancel id unwinding => s.task? id >>= fun t => s.cancel? t unwinding

end State

end TaskRelay
