import TaskRelay.Relay.State

/-!
# Statistics

The seven figures that a relay gives about itself. They are read one after another, in one order,
and not at one moment.
-/

namespace TaskRelay

inductive Figure where
  | direct
  | dispatched
  | completed
  | failed
  | panicked
  | delivered
  | missed
deriving DecidableEq

namespace Figure

/-- All figures, in the order in which they are read. -/
def all : List Figure :=
  [.direct, .dispatched, .completed, .failed, .panicked, .delivered, .missed]

def name : Figure → String
  | .direct => "direct_submissions"
  | .dispatched => "dispatched"
  | .completed => "completed"
  | .failed => "failed"
  | .panicked => "panicked"
  | .delivered => "notifications"
  | .missed => "missed_notifications"

end Figure

namespace State

def figure (s : State) : Figure → Nat
  | .direct => s.counters.direct
  | .dispatched => s.counters.dispatched
  | .completed => s.counters.completed
  | .failed => s.counters.failed
  | .panicked => s.counters.panicked
  | .delivered => s.registry.delivered
  | .missed => s.registry.missed

/-- The figures read without a step in between. -/
def figures (s : State) : List Nat := Figure.all.map s.figure

def statsText (s : State) : String :=
  let figureText := fun f => Figure.name f ++ ": " ++ String.ofList (Text.decimal (s.figure f))
  "BridgeStats \x7b " ++ String.intercalate ", " (Figure.all.map figureText) ++ " \x7d"

end State

end TaskRelay
