import TaskRelay.Call.Program
import TaskRelay.Settings.Basic

/-!
# Pools

The thread pools that tasks run on. A relay builds its pools itself, but its parallel pool may
belong to a host, and then outlives it. A pool does not end at once: told to end, it still takes
steps of its tasks, those that are woken meanwhile among them, and drops them one by one.
-/

namespace TaskRelay

/-- How far a pool has come. -/
inductive PoolStage where
  | up
  /-- Told to end: takes steps of its tasks, and drops those that are suspended. -/
  | closing
  /-- Without threads: what is or comes to it is dropped. -/
  | down
deriving DecidableEq

/-- A pool is told to end, which changes nothing the second time. -/
def PoolStage.close : PoolStage → PoolStage
  | .up | .closing => .closing
  | .down => .down

/-- A pool is told to end, or has ended. -/
def PoolStage.further : PoolStage → PoolStage
  | .up => .closing
  | .closing | .down => .down

structure Pool where
  /-- The name of its threads. -/
  threadName : String
  /-- Whether it ends with the relay. -/
  owned : Bool
  stage : PoolStage
deriving DecidableEq

/-- A pool that is owned is told to end. -/
def Pool.release (q : Pool) : Pool := if q.owned then { q with stage := q.stage.close } else q

/-- A pool that is not owned goes on to its end. -/
def Pool.kill (q : Pool) : Pool := if q.owned then q else { q with stage := q.stage.further }

inductive PoolName where
  | parallel
  | interactive
  | single
deriving DecidableEq

/-- The pool that an entry leads to. -/
def Entry.pool : Entry → PoolName
  | .direct | .serial => .parallel
  | .interactive => .interactive
  | .single => .single

/-- What a submission to a missing pool is told. -/
def Entry.missingPool : Entry → RelayError
  | .interactive => .interactivePoolDisabled
  | _ => .localPoolDisabled

structure Pools where
  parallel : Pool
  interactive : Option Pool
  single : Option Pool
deriving DecidableEq

namespace Pools

def get? (p : Pools) : PoolName → Option Pool
  | .parallel => some p.parallel
  | .interactive => p.interactive
  | .single => p.single

/-- How far a pool has come; one that is missing has no threads. -/
def stage (p : Pools) (n : PoolName) : PoolStage :=
  match p.get? n with
  | some q => q.stage
  | none => .down

def isUp (p : Pools) (n : PoolName) : Bool := p.stage n == .up

def isDown (p : Pools) (n : PoolName) : Bool := p.stage n == .down

theorem isDown_of_isUp {p : Pools} {n : PoolName} (h : p.isUp n) : p.isDown n = false := by
  rw [isDown, eq_of_beq h]
  rfl

def threadName (p : Pools) (n : PoolName) : String :=
  match p.get? n with
  | some q => q.threadName
  | none => ""

/-- The pools besides the parallel one, as far as the settings ask for them. -/
def around (parallel : Pool) (s : Settings) : Pools where
  parallel := parallel
  interactive :=
    if s.interactiveThreads = 0 then none else some ⟨"bridge-interactive", true, .up⟩
  single := if s.localPool then some ⟨"bridge-local", true, .up⟩ else none

/-- Pools around the parallel pool of a host. -/
def attach (s : Settings) : Pools := around ⟨"host-worker", false, .up⟩ s

/-- Pools of one's own. -/
def own (s : Settings) : Pools := around ⟨"bridge-worker", true, .up⟩ s

/-- Pools around the parallel pool of a host, or else pools of one's own. -/
def ofSettings (hosted : Bool) (s : Settings) : Pools := if hosted then attach s else own s

theorem ofSettings_eq_around (hosted : Bool) (s : Settings) :
    ∃ q : Pool, ofSettings hosted s = around q s ∧ q.owned = !hosted ∧ q.stage = .up := by
  cases hosted with
  | true => exact ⟨_, rfl, rfl, rfl⟩
  | false => exact ⟨_, rfl, rfl, rfl⟩

/-- The owned pools are told to end. -/
def release (p : Pools) : Pools where
  parallel := p.parallel.release
  interactive := p.interactive.map Pool.release
  single := p.single.map Pool.release

/-- The host goes on to end the parallel pool that belongs to it. -/
def killHost (p : Pools) : Pools := { p with parallel := p.parallel.kill }

end Pools

end TaskRelay
