import TaskRelay.Json.Preview
import TaskRelay.Relay.State

/-!
# Requests and answers

What the user of a relay asks of it, or of a registry alone, and what the answers are.
-/

namespace TaskRelay

open Json

/-! ## Of a registry -/

inductive RegistryRequest where
  | install (callback : Callback)
  | setColor (on : Bool)
  | ensureReady (wake : Option WakePointer)
  | notify (wake : WakePointer)
  | renderValue (v : Value)
  | renderFailure (f : Failure)
  | describe

inductive RegistryAnswer where
  | done
  /-- The color flag was set to this. -/
  | colored (on : Bool)
  | accepted
  | refused (e : RelayError)
  | text (s : String)
  | description (colored installed : Bool)

namespace Registry

def decision (r : Registry) (wake : Option WakePointer) : RegistryAnswer :=
  if r.ready wake then .accepted else .refused .wakeCallbackMissing

/-- The answer depends only on the registry as the request finds it. -/
def answer (r : Registry) : RegistryRequest → RegistryAnswer
  | .install _ => .done
  | .setColor on => .colored on
  | .ensureReady wake => r.decision wake
  | .notify wake => r.decision (some wake)
  | .renderValue v => .text v.preview
  | .renderFailure f => .text (r.report f)
  | .describe => .description r.colored r.isInstalled

/-- What a request does to a registry that nobody else uses; a notification runs to its end. -/
def perform (fuel : Nat) (r : Registry) : RegistryRequest → Registry × List Sign
  | .install c => (r.install c, [])
  | .setColor on => (r.setColor on, [])
  | .notify wake =>
    let turn := (r.notify wake).run fuel
    (turn.registry, turn.signs)
  | _ => (r, [])

end Registry

/-! ## Of a relay -/

/--
Several threads that each submit the same callable several times, waiting for the result each time.
The submissions are numbered through; the number is the argument and the distance from the first
wake pointer.
-/
structure Burst where
  entry : Entry
  callable : Callable
  threads : Nat
  perThread : Nat
  wake : Option WakePointer

namespace Burst

def threadName (thread : Nat) : String := "thread-" ++ String.ofList (Text.decimal thread)

def envelope (b : Burst) (thread turn : Nat) : Envelope :=
  let n := thread * b.perThread + turn
  { callable := b.callable
    arguments := (Arguments.ofList [(Value.ofNat? n).getD .null]).withKeyword "caller"
      (.string (threadName thread))
    wake := b.wake.bind fun w => WakePointer.ofAddress? (w.address + UInt64.ofNat n) }

end Burst

/-- Tasks are numbered in the order in which their handles were given out. -/
inductive Request where
  | registry (q : RegistryRequest)
  | submit (entry : Entry) (envelope : Envelope)
  /-- Takes the result of a task that has ended. -/
  | wait (task : Nat)
  /-- Waits on a thread that belongs to a pool: a panic, after which the handle is gone. -/
  | waitInside (task : Nat)
  | inspect (task : Nat)
  /-- Throws the handle of a task away. -/
  | forget (task : Nat)
  | openGate (gate : String)
  | shutdown
  | pools
  | stats
  | drop
  | killHost
  | burst (b : Burst)

/-- What has become of one submission of a burst. -/
inductive BurstItem where
  | refused (e : RelayError)
  | ended (ticket : Ticket) (result : Except TaskError Value)
  | pending (ticket : Ticket)

def BurstItem.id? : BurstItem → Option Nat
  | .refused _ => none
  | .ended t _ => some t.id
  | .pending t => some t.id

namespace Burst

/-- The ids of the tasks of a burst, in order. -/
def ids (threads : List (List BurstItem)) : List Nat :=
  (threads.flatten.filterMap BurstItem.id?).mergeSort fun a b => Nat.ble a b

def isIncreasing : List Nat → Bool
  | a :: b :: rest => Nat.blt a b && isIncreasing (b :: rest)
  | _ => true

/-- Whether each thread got its ids in increasing order. -/
def isOrdered (threads : List (List BurstItem)) : Bool :=
  threads.all fun items => isIncreasing (items.filterMap BurstItem.id?)

end Burst

inductive Answer where
  | done
  | registry (a : RegistryAnswer)
  /-- A handle was given out, as that of the task with this number. -/
  | accepted (task : Nat) (ticket : Ticket)
  | refused (e : RelayError)
  | ended (result : Except TaskError Value)
  | panicked
  | pending
  /-- The handle is gone. -/
  | consumed
  | noSuchTask
  | inspected (ticket : Ticket) (finished : Bool)
  /-- Whether there was a handle to throw away. -/
  | forgotten (held : Bool)
  | pools (interactive single : Bool)
  | text (s : String)
  | dropped
  /-- The items of each thread. -/
  | burst (threads : List (List BurstItem))

def Ticket.described (t : Ticket) (finished : Bool) : String :=
  "TaskHandle \x7b id: " ++ String.ofList (Text.decimal t.id) ++ ", notifies: " ++
    String.ofList (boolChars t.notifies) ++ ", finished: " ++
    String.ofList (boolChars finished) ++ " \x7d"

end TaskRelay
