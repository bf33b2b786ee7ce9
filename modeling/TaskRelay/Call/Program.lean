import TaskRelay.Call.Arguments
import TaskRelay.Log

/-!
# Callables and their programs

A callable takes arguments and gives a program: what it does from then on, up to its outcome. A
program may suspend, look at the name of its thread, log, submit another callable through the relay
that runs it, if that is still there, and wait for the result of a task. It reads neither the
figures of the relay nor its color flag. It comes to its outcome after finitely many of its own
steps.
-/

namespace TaskRelay

open Json

/-- The ways into a relay. -/
inductive Entry where
  /-- Straight to the parallel pool. -/
  | direct
  | interactive
  /-- To the pool with a single thread. -/
  | single
  /-- To the parallel pool through the dispatch worker, one envelope at a time. -/
  | serial
deriving DecidableEq

/-- What a callable panics with: a text, or something that holds none. -/
inductive Payload where
  | text (s : String)
  | other
deriving DecidableEq

def Payload.message : Payload → String
  | .text s => s
  | .other => "non-string panic payload"

inductive Outcome where
  | value (v : Value)
  | failure (f : Failure)
  | panic (p : Payload)

/-- The handle of a task, for who submitted it. -/
structure Ticket where
  id : Nat
  notifies : Bool
deriving DecidableEq

inductive Program where
  | finish (o : Outcome)
  /-- Gives up the thread once. -/
  | pause (next : Program)
  /-- Goes on when the gate is open. -/
  | passGate (gate : String) (next : Program)
  | onThread (next : String → Program)
  /-- Logs a failure under the name of a callable. -/
  | logFailure (name : String) (failure : Failure) (next : Program)
  /-- Goes on with the answer to its submission, or with none if the relay is gone. -/
  | submit (entry : Entry) (name : String) (body : Arguments → Program) (args : Arguments)
      (wake : Option WakePointer) (next : Option (Except RelayError Ticket) → Program)
  /-- Goes on when the task with this handle has ended. -/
  | await (ticket : Ticket) (next : Except TaskError Value → Program)

structure Callable where
  name : String
  body : Arguments → Program

/-- A submission: a callable, its arguments, and who is to be told of its end. -/
structure Envelope where
  callable : Callable
  arguments : Arguments
  wake : Option WakePointer

/-- The envelope spelled out; of the callable only the name shows. -/
def Envelope.described (e : Envelope) : String :=
  "TaskEnvelope \x7b callable: " ++ Text.quoted e.callable.name ++ ", arguments: " ++
    e.arguments.described ++ ", wake: " ++ WakePointer.describedOption e.wake ++ " \x7d"

namespace Program

/-- Goes on with `next` from the outcome. -/
def andThen (next : Outcome → Program) : Program → Program
  | .finish o => next o
  | .pause p => .pause (p.andThen next)
  | .passGate g p => .passGate g (p.andThen next)
  | .onThread k => .onThread fun t => (k t).andThen next
  | .logFailure name f p => .logFailure name f (p.andThen next)
  | .submit entry name body args wake k =>
    .submit entry name body args wake fun r => (k r).andThen next
  | .await t k => .await t fun r => (k r).andThen next

/--
Runs a program that needs no relay, on a thread of the given name. A program that wants a gate, a
relay or another task's result comes to no outcome here.
-/
def alone (thread : String) : Program → List LogEvent × Option Outcome
  | .finish o => ([], some o)
  | .pause p => p.alone thread
  | .onThread k => (k thread).alone thread
  | .logFailure name f p =>
    let (events, o) := p.alone thread
    (.callableFailed name f :: events, o)
  | .passGate _ _ => ([], none)
  | .submit _ _ _ _ _ _ => ([], none)
  | .await _ _ => ([], none)

end Program

end TaskRelay
