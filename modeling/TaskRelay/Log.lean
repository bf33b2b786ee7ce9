import TaskRelay.Failure.Report
import TaskRelay.Wake.Pointer

/-!
# Log events

The events of level WARN and ERROR, by what they are about.
-/

namespace TaskRelay

inductive Level where
  | warn
  | error
deriving DecidableEq

def Level.text : Level → String
  | .warn => "WARN"
  | .error => "ERROR"

inductive LogEvent where
  /-- A notification that found no callback. -/
  | wakeDropped (wake : WakePointer)
  | taskFailed (id : Nat) (failure : Failure)
  | taskPanicked
  /-- The failure of a callable with a logging layer. -/
  | callableFailed (name : String) (failure : Failure)
deriving DecidableEq

namespace LogEvent

def level : LogEvent → Level
  | .wakeDropped _ => .error
  | .taskFailed _ _ => .warn
  | .taskPanicked => .warn
  | .callableFailed _ _ => .error

def message : LogEvent → String
  | .wakeDropped _ => "Wake notification dropped: no callback installed"
  | .taskFailed _ _ => "Task failed"
  | .taskPanicked => "Task panicked"
  | .callableFailed _ failure => failure.reportWithTrace false

def fields : LogEvent → List (String × String)
  | .wakeDropped wake => [("wake", wake.described)]
  | .taskFailed id failure =>
    [("error", failure.report false), ("task_id", String.ofList (Text.decimal id))]
  | .taskPanicked => []
  | .callableFailed name _ => [("callable", name)]

end LogEvent

end TaskRelay
