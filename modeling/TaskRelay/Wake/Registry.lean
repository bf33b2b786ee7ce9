import TaskRelay.Log

/-!
# The wake registry

The one callback that is told of ended tasks, the color flag, and the counts of notifications.

A callback is foreign code: before it returns it may look at the count, install another callback and
notify again, so notifications nest. What a thread inside `notify` is doing is an `Invocation`: the
callback that runs and those that wait for it. Each of its steps is one access to the registry, and
the registry is never held while a callback runs.
-/

namespace TaskRelay

/-- What a callback still does before it returns. -/
inductive Reaction where
  | finish
  /-- Leaves a note for whoever watches. -/
  | note (text : String) (next : Reaction)
  /-- Looks at the number of notifications delivered so far. -/
  | delivered (next : Nat → Reaction)
  | install (callback : WakePointer → Reaction) (next : Reaction)
  /-- Notifies, and learns whether there was a callback. -/
  | notify (wake : WakePointer) (next : Bool → Reaction)

abbrev Callback := WakePointer → Reaction

structure Registry where
  callback : Option Callback
  colored : Bool
  delivered : Nat
  missed : Nat

namespace Registry

def empty : Registry := ⟨none, false, 0, 0⟩

def isInstalled (r : Registry) : Bool := r.callback.isSome

/-- A wake pointer is accepted only if there is a callback to hand it to. -/
def ready (r : Registry) (wake : Option WakePointer) : Bool := wake.isNone || r.isInstalled

/-- A later callback takes the place of an earlier one. -/
def install (r : Registry) (c : Callback) : Registry := { r with callback := some c }

def setColor (r : Registry) (on : Bool) : Registry := { r with colored := on }

/-- A failure for a reader, in color if the flag says so. -/
def report (r : Registry) (f : Failure) : String := f.report r.colored

end Registry

/-- What a registry lets others see. -/
inductive Sign where
  /-- A notification was missed: there was no callback. -/
  | missed (wake : WakePointer)
  | note (text : String)
  /-- A callback was called with this pointer. -/
  | called (wake : WakePointer)
  /-- A callback has returned, and was counted. -/
  | returned
deriving DecidableEq

def Sign.log? : Sign → Option LogEvent
  | .missed wake => some (.wakeDropped wake)
  | _ => none

def Sign.note? : Sign → Option String
  | .note text => some text
  | _ => none

/-- A notification under way: the running callback and those that wait for it, innermost first. -/
structure Invocation where
  running : Reaction
  waiting : List (Bool → Reaction)

/-- What a notification has come to. -/
inductive Progress where
  | running (i : Invocation)
  | done (delivered : Bool)

/-- A registry after some steps of a notification, what it let others see, and how far it got. -/
structure Turn where
  registry : Registry
  signs : List Sign
  progress : Progress

namespace Registry

def missing (r : Registry) : Registry := { r with missed := r.missed + 1 }

/--
Begins a notification: the callback is read once, and it is the one that is called even if it is
replaced meanwhile. Without a callback the notification is counted as missed.
-/
def notify (r : Registry) (wake : WakePointer) : Turn :=
  match r.callback with
  | some c => ⟨r, [.called wake], .running ⟨c wake, []⟩⟩
  | none => ⟨r.missing, [.missed wake], .done false⟩

/-- One step of a notification. It is counted as delivered when its callback has returned. -/
def step (r : Registry) (i : Invocation) : Turn :=
  match i.running with
  | .finish =>
    let r := { r with delivered := r.delivered + 1 }
    match i.waiting with
    | [] => ⟨r, [.returned], .done true⟩
    | next :: rest => ⟨r, [.returned], .running ⟨next true, rest⟩⟩
  | .note text next => ⟨r, [.note text], .running ⟨next, i.waiting⟩⟩
  | .delivered next => ⟨r, [], .running ⟨next r.delivered, i.waiting⟩⟩
  | .install c next => ⟨r.install c, [], .running ⟨next, i.waiting⟩⟩
  | .notify wake next =>
    match r.callback with
    | some c => ⟨r, [.called wake], .running ⟨c wake, next :: i.waiting⟩⟩
    | none => ⟨r.missing, [.missed wake], .running ⟨next false, i.waiting⟩⟩

end Registry

/-- Takes at most `fuel` more steps of a notification. -/
def Turn.run (x : Turn) : Nat → Turn
  | 0 => x
  | fuel + 1 =>
    match x.progress with
    | .done _ => x
    | .running i =>
      let y := x.registry.step i
      Turn.run { y with signs := x.signs ++ y.signs } fuel

end TaskRelay
