/-!
# Failures

Why a submission is refused, why a callable fails, and how a task ends without a value. A failure
is a message, a message with another failure behind it, a context around another failure, or one of
the relay's own errors; it may be captured together with a stack trace.
-/

namespace TaskRelay

/-- Why a relay cannot be started or a submission is not accepted. -/
inductive RelayError where
  | wakeCallbackMissing
  | dispatchClosed
  | interactivePoolDisabled
  | localPoolDisabled
  | invalidSettings (flaw : String)
  | startFailed (reason : String)
deriving DecidableEq

def RelayError.message : RelayError → String
  | .wakeCallbackMissing => "wake pointer supplied but no wake callback is installed"
  | .dispatchClosed => "dispatch loop is not running"
  | .interactivePoolDisabled => "interactive pool is disabled"
  | .localPoolDisabled => "local pool is disabled"
  | .invalidSettings flaw => "invalid configuration: " ++ flaw
  | .startFailed reason => "runtime error: " ++ reason

inductive Failure where
  | message (text : String)
  /-- A message with another failure behind it as its cause. -/
  | caused (text : String) (cause : Failure)
  | context (text : String) (inner : Failure)
  | captured (trace : String) (inner : Failure)
  | relay (error : RelayError)
  | taskFailed (inner : Failure)
  | taskPanicked (text : String)
  | taskCancelled
deriving DecidableEq

/-- A message and the messages behind it, each the cause of the one before. -/
def Failure.chained (text : String) : List String → Failure
  | [] => .message text
  | next :: behind => .caused text (chained next behind)

/-- How a task ended that has no value. -/
inductive TaskError where
  | failed (failure : Failure)
  | panicked (text : String)
  | cancelled
deriving DecidableEq

def TaskError.toFailure : TaskError → Failure
  | .failed f => .taskFailed f
  | .panicked text => .taskPanicked text
  | .cancelled => .taskCancelled

/-- The failure of the callable, if that is what ended the task. -/
def TaskError.failure? : TaskError → Option Failure
  | .failed f => some f
  | _ => none

/-- The capture that a failure shows: the outermost, under any number of contexts. -/
def Failure.capture? : Failure → Option (String × Failure)
  | .captured trace inner => some (trace, inner)
  | .context _ inner => inner.capture?
  | _ => none

end TaskRelay
