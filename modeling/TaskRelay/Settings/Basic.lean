import TaskRelay.Json.Printer
import TaskRelay.Text.Blank
import TaskRelay.Text.Quoted

/-!
# Settings

How a relay is set up, what is wrong with settings that cannot be used, and the partial settings
that a reader of settings collects before the defaults fill the rest. The default number of workers
is that of the processors at hand.
-/

namespace TaskRelay

/-- The processors of a machine, of which there is one at least. -/
structure Processors where
  count : UInt64
  pos : 0 < count

def Processors.one : Processors := ⟨1, by decide⟩

structure Settings where
  workerThreads : UInt64
  /-- Zero means that there is no interactive pool. -/
  interactiveThreads : UInt64
  localPool : Bool
  dispatchThreadName : String
  dispatchStackSize : UInt64
  color : Bool
deriving DecidableEq

namespace Settings

/-- What settings are unless they are said to be otherwise. -/
def default (p : Processors) : Settings where
  workerThreads := p.count
  interactiveThreads := 0
  localPool := true
  dispatchThreadName := "bridge-dispatch"
  dispatchStackSize := 2097152
  color := false

/-! ## Validation -/

inductive Flaw where
  | noWorkers
  | blankThreadName
  | smallStack
deriving DecidableEq

def Flaw.message : Flaw → String
  | .noWorkers => "worker_threads must be greater than 0"
  | .blankThreadName => "dispatch_thread_name must not be empty"
  | .smallStack => "dispatch_stack_size must be at least 65536 bytes"

/-- The smallest stack that the dispatch thread may have, in bytes. -/
def minStackSize : UInt64 := 65536

/-- The first flaw, in the order of the fields. -/
def flaw? (s : Settings) : Option Flaw :=
  if s.workerThreads = 0 then some .noWorkers
  else if (Text.trim s.dispatchThreadName.toList).isEmpty then some .blankThreadName
  else if s.dispatchStackSize.toNat < minStackSize.toNat then some .smallStack
  else none

/-- The defaults have no flaw, whatever the number of processors. -/
theorem flaw?_default (p : Processors) : (default p).flaw? = none := by
  have hworkers : (default p).workerThreads ≠ 0 := by
    intro h
    have hpos := p.pos
    rw [show p.count = 0 from h] at hpos
    exact absurd hpos (by decide)
  have hname : (Text.trim "bridge-dispatch".toList).isEmpty = false := by decide
  rw [flaw?, if_neg hworkers]
  simp only [default, hname]
  rfl

/-! ## Spelled out -/

def sizeText (n : UInt64) : String := String.ofList (Text.decimal n.toNat)

def flagText (b : Bool) : String := String.ofList (Json.boolChars b)

def described (s : Settings) : String :=
  "BridgeConfig \x7b worker_threads: " ++ sizeText s.workerThreads ++
    ", interactive_threads: " ++ sizeText s.interactiveThreads ++
    ", local_pool: " ++ flagText s.localPool ++
    ", dispatch_thread_name: " ++ Text.quoted s.dispatchThreadName ++
    ", dispatch_stack_size: " ++ sizeText s.dispatchStackSize ++
    ", color: " ++ flagText s.color ++ " \x7d"

/-- What the dispatch thread is started with, spelled out. -/
def dispatchDescribed (s : Settings) : String :=
  "DispatchSettings \x7b thread_name: " ++ Text.quoted s.dispatchThreadName ++
    ", stack_size: " ++ sizeText s.dispatchStackSize ++ " \x7d"

/-! ## Fields -/

inductive Field where
  | workerThreads
  | interactiveThreads
  | localPool
  | dispatchThreadName
  | dispatchStackSize
  | color
deriving DecidableEq

namespace Field

/-- The fields in the order of the settings. -/
def all : List Field :=
  [.workerThreads, .interactiveThreads, .localPool, .dispatchThreadName, .dispatchStackSize, .color]

def name : Field → String
  | .workerThreads => "worker_threads"
  | .interactiveThreads => "interactive_threads"
  | .localPool => "local_pool"
  | .dispatchThreadName => "dispatch_thread_name"
  | .dispatchStackSize => "dispatch_stack_size"
  | .color => "color"

/-- The name of the variable that sets the field. -/
def variableName : Field → String
  | .workerThreads => "BRIDGE_WORKER_THREADS"
  | .interactiveThreads => "BRIDGE_INTERACTIVE_THREADS"
  | .localPool => "BRIDGE_LOCAL_POOL"
  | .dispatchThreadName => "BRIDGE_DISPATCH_THREAD_NAME"
  | .dispatchStackSize => "BRIDGE_DISPATCH_STACK_SIZE"
  | .color => "BRIDGE_COLOR"

def ofName? (s : String) : Option Field := all.find? fun f => f.name == s

end Field

/-! ## Partial settings -/

/-- Values for some of the fields. -/
structure Assignment where
  workerThreads : Option UInt64
  interactiveThreads : Option UInt64
  localPool : Option Bool
  dispatchThreadName : Option String
  dispatchStackSize : Option UInt64
  color : Option Bool
deriving DecidableEq

namespace Assignment

def empty : Assignment := ⟨none, none, none, none, none, none⟩

def isSet (a : Assignment) : Field → Bool
  | .workerThreads => a.workerThreads.isSome
  | .interactiveThreads => a.interactiveThreads.isSome
  | .localPool => a.localPool.isSome
  | .dispatchThreadName => a.dispatchThreadName.isSome
  | .dispatchStackSize => a.dispatchStackSize.isSome
  | .color => a.color.isSome

/-- The settings with the assigned values, and the defaults where there is none. -/
def settings (p : Processors) (a : Assignment) : Settings where
  workerThreads := a.workerThreads.getD (default p).workerThreads
  interactiveThreads := a.interactiveThreads.getD (default p).interactiveThreads
  localPool := a.localPool.getD (default p).localPool
  dispatchThreadName := a.dispatchThreadName.getD (default p).dispatchThreadName
  dispatchStackSize := a.dispatchStackSize.getD (default p).dispatchStackSize
  color := a.color.getD (default p).color

end Assignment

/-! ## Errors of loading -/

/-- Why the text of a variable is no value for its field. -/
inductive Misfit where
  | emptyNumber
  | invalidDigit
  | numberTooLarge
  | notAFlag
deriving DecidableEq

def Misfit.message : Misfit → String
  | .emptyNumber => "cannot parse integer from empty string"
  | .invalidDigit => "invalid digit found in string"
  | .numberTooLarge => "number too large to fit in target type"
  | .notAFlag => "provided string was not `true` or `false`"

inductive LoadError where
  /-- A text that is no JSON for settings; with the message of the fault. -/
  | unreadable (fault : String)
  | misfit (field : Field) (why : Misfit)
  | invalid (flaw : Flaw)
deriving DecidableEq

def LoadError.message : LoadError → String
  | .unreadable fault => "parse error: " ++ fault
  | .misfit field why => field.variableName ++ ": " ++ why.message
  | .invalid flaw => flaw.message

/-- The settings, unless they have a flaw. -/
def checked (s : Settings) : Except LoadError Settings :=
  match s.flaw? with
  | some flaw => .error (.invalid flaw)
  | none => .ok s

end Settings

end TaskRelay
