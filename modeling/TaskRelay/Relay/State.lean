import TaskRelay.Relay.Pool
import TaskRelay.Wake.Registry

/-!
# The state of a relay

Everything that the threads of a relay share, with what each of them is in the middle of: the
submissions under way, the dispatch worker, the calls of `shutdown`, the notifications from outside,
and the tasks. What has happened stands in the journal, the latest first.
-/

namespace TaskRelay

open Json

/-- Who submits: a thread outside, or a task. -/
inductive Caller where
  | thread (n : Nat)
  | task (id : Nat)
deriving DecidableEq

/-! ## Submissions -/

/-- How far a submission has come. -/
inductive CallStage where
  | asked
  /-- The pool is there, and so is a callback if one is needed. -/
  | admitted
  /-- Has drawn the id of its task. -/
  | numbered (id : Nat)
  /-- Is counted as submitted. -/
  | counted (id : Nat)
  /-- Holds the submit lock, and has found the dispatch open. -/
  | locked
  /-- Has put its envelope into the queue to the worker. -/
  | sent
  /-- Has taken a handle out of the queue from the worker. -/
  | received (ticket : Ticket)

structure Call where
  caller : Caller
  entry : Entry
  envelope : Envelope
  stage : CallStage

/-- An envelope on its way to the worker. Nothing that the worker does depends on the sender. -/
structure Parcel where
  sender : Caller
  envelope : Envelope

inductive WorkerStage where
  | idle
  | holding (p : Parcel)
  | numbered (p : Parcel) (id : Nat)
  | counted (p : Parcel) (id : Nat)
  | launched (ticket : Ticket)
  | gone

/-- The serialized way in: the submit lock, two queues of one place each, and the worker. -/
structure Dispatch where
  holder : Option Caller
  isOpen : Bool
  inbound : Option Parcel
  outbound : Option Ticket
  worker : WorkerStage

def Dispatch.start : Dispatch := ⟨none, true, none, none, .idle⟩

/-- A thread inside `shutdown`; it joins the worker once it has closed the dispatch. -/
structure Closer where
  thread : Nat
  joining : Bool
deriving DecidableEq

/-- A thread inside a notification that belongs to no task. -/
structure Notice where
  thread : Nat
  invocation : Invocation

/-! ## Tasks -/

/-- How a task ends. -/
inductive Ending where
  | outcome (o : Outcome)
  /-- The pool dropped the callable before it ended. -/
  | cancelled

/-- What the handle of an ended task gives. -/
def Ending.result : Ending → Except TaskError Value
  | .outcome (.value v) => .ok v
  | .outcome (.failure f) => .error (.failed f)
  | .outcome (.panic p) => .error (.panicked p.message)
  | .cancelled => .error .cancelled

/-- How far a task has come. -/
inductive Stage where
  /-- Not on a thread; one that has not begun is yet to take its first step. -/
  | suspended (p : Program)
  | running (p : Program)
  /-- Within a submission of its own. -/
  | submitting (next : Option (Except RelayError Ticket) → Program)
  /-- The callable is over. -/
  | ended (o : Outcome)
  /-- The end is counted and logged, unless the task was cancelled. -/
  | recorded (e : Ending)
  /-- Its callback runs. -/
  | notifying (e : Ending) (i : Invocation)
  | notified (e : Ending)
  /-- The handle has its result. -/
  | resolved (e : Ending)

structure Task where
  id : Nat
  caller : Caller
  envelope : Envelope
  pool : PoolName
  /-- Whether it has been on a thread. -/
  begun : Bool
  stage : Stage

def Stage.ending? : Stage → Option Ending
  | .resolved e => some e
  | _ => none

def Task.ending? (t : Task) : Option Ending := t.stage.ending?

def Task.isResolved (t : Task) : Bool := t.ending?.isSome

/-! ## Journal -/

/-- Who is the origin of a notification. -/
inductive Source where
  | task (id : Nat)
  | thread (n : Nat)
deriving DecidableEq

inductive Mark where
  | asked (caller : Caller) (entry : Entry) (envelope : Envelope)
  /-- Took the submit lock and found the dispatch open. -/
  | locked (caller : Caller)
  | sent (caller : Caller)
  | launched (id : Nat) (caller : Caller) (envelope : Envelope)
  /-- The worker put a handle into the queue to the submitters. -/
  | published (ticket : Ticket)
  | received (caller : Caller) (ticket : Ticket)
  | answered (caller : Caller) (answer : Except RelayError Ticket)
  /-- The dispatch was closed. -/
  | closed
  | loggedFailure (name : String) (failure : Failure)
  | recorded (id : Nat) (o : Outcome)
  /-- A cancelled task was counted as panicked. -/
  | cancelledUnwinding (id : Nat)
  | notify (source : Source) (wake : WakePointer)
  | sign (source : Source) (s : Sign)
  | resolved (id : Nat) (e : Ending)

/-- The log event that a mark stands for. -/
def Mark.log? : Mark → Option LogEvent
  | .loggedFailure name f => some (.callableFailed name f)
  | .recorded id (.failure f) => some (.taskFailed id f)
  | .recorded _ (.panic _) => some .taskPanicked
  | .cancelledUnwinding _ => some .taskPanicked
  | .sign _ s => s.log?
  | _ => none

def Mark.note? : Mark → Option String
  | .sign _ s => s.note?
  | _ => none

/-! ## States -/

structure Counters where
  direct : Nat
  dispatched : Nat
  completed : Nat
  failed : Nat
  panicked : Nat
deriving DecidableEq

def Counters.zero : Counters := ⟨0, 0, 0, 0, 0⟩

structure State where
  registry : Registry
  counters : Counters
  nextId : Nat
  pools : Pools
  dispatch : Dispatch
  calls : List Call
  closers : List Closer
  notices : List Notice
  tasks : List Task
  gateOpen : String → Bool
  /-- The tasks whose handles are gone. -/
  taken : List Nat
  dropped : Bool
  journal : List Mark

namespace State

/-- A relay that has just started. -/
def start (pools : Pools) (color : Bool) : State where
  registry := Registry.empty.setColor color
  counters := .zero
  nextId := 0
  pools := pools
  dispatch := .start
  calls := []
  closers := []
  notices := []
  tasks := []
  gateOpen _ := false
  taken := []
  dropped := false
  journal := []

def call? (s : State) (c : Caller) : Option Call := s.calls.find? fun x => x.caller == c

def task? (s : State) (id : Nat) : Option Task := s.tasks.find? fun t => t.id == id

/-- How the task with this id ended, if it has. -/
def ending? (s : State) (id : Nat) : Option Ending := (s.task? id).bind Task.ending?

def note (s : State) (m : Mark) : State := { s with journal := m :: s.journal }

def noteSigns (s : State) (source : Source) (signs : List Sign) : State :=
  signs.foldl (fun s x => s.note (.sign source x)) s

def setCall (s : State) (c : Caller) (stage : CallStage) : State :=
  { s with calls := s.calls.map fun x => if x.caller = c then { x with stage := stage } else x }

def setStage (s : State) (id : Nat) (stage : Stage) : State :=
  { s with tasks := s.tasks.map fun t => if t.id = id then { t with stage := stage } else t }

def setWorker (s : State) (w : WorkerStage) : State :=
  { s with dispatch := { s.dispatch with worker := w } }

/-- The journal from the beginning. -/
def history (s : State) : List Mark := s.journal.reverse

def logs (s : State) : List LogEvent := s.history.filterMap Mark.log?

def notes (s : State) : List String := s.history.filterMap Mark.note?

end State

end TaskRelay
