import TaskRelay.Relay.State

/-!
# Starting a relay

Settings with a flaw are refused before anything is asked of the machine. Then the pools are
demanded one after the other, and last the thread of the dispatch worker. A demand that is denied is
complained of, and what was granted before it is given up: if only the dispatch thread was still to
come, the pools are told to end, but before that each is waited for until it has ended. A thread
inside a pool may not do that, and panics.
-/

namespace TaskRelay

/-! ## Demands -/

/-- What a relay asks for while it starts. -/
inductive Demand where
  | pool (name : String) (workers : UInt64)
  /-- A pool without workers of its own: one thread, demanded by itself, runs all its tasks. -/
  | single (name : String)
  | singleThread (name : String)
  | dispatchThread (name : String) (stackSize : UInt64)
deriving DecidableEq

namespace Demand

/-- A pool without workers, or a thread with NUL in its name. -/
def isImproper : Demand → Bool
  | .pool _ workers => workers == 0
  | .single _ => false
  | .singleThread name | .dispatchThread name _ => name.toList.contains '\x00'

def isDispatch : Demand → Bool
  | .dispatchThread .. => true
  | _ => false

/-- What is said of a demand that is denied, before the machine's own words. -/
def complaint : Demand → String
  | .pool name _ | .single name => "failed to build " ++ name ++ " runtime"
  | .singleThread name => "failed to spawn " ++ name ++ " thread"
  | .dispatchThread .. => "failed to spawn dispatch thread"

end Demand

namespace Settings

/-- The demands for the pools: one's own parallel pool, and those that the settings ask for. -/
def poolDemands (hosted : Bool) (s : Settings) : List Demand :=
  (if hosted then [] else [.pool "bridge-worker" s.workerThreads]) ++
    ((if s.interactiveThreads = 0 then [] else [.pool "bridge-interactive" s.interactiveThreads]) ++
      if s.localPool then [.single "bridge-local", .singleThread "bridge-local"] else [])

/-- The demand that is made last. -/
def dispatchDemand (s : Settings) : Demand :=
  .dispatchThread s.dispatchThreadName s.dispatchStackSize

def demands (hosted : Bool) (s : Settings) : List Demand :=
  s.poolDemands hosted ++ [s.dispatchDemand]

end Settings

/-! ## Sites -/

inductive Answered where
  | granted
  | denied
  | broken
deriving DecidableEq

/-- Where a relay is started. -/
structure Site where
  /-- How demands are answered, each after those granted before. -/
  answer : List Demand → Demand → Answered
  /-- Only improper demands break the start. -/
  answer_eq_broken_iff : ∀ before d, answer before d = .broken ↔ d.isImproper
  /-- Whether the thread that starts the relay is inside a pool, and may not wait for one to end. -/
  inside : Bool

inductive StartResult (α : Type) where
  | running (a : α)
  | refused (e : RelayError)
  | panicked

namespace Site

variable {α : Type}

/-- What comes of a demand that is denied after those granted `before`. -/
def deny (site : Site) (before : List Demand) (d : Demand) : StartResult α :=
  if site.inside && !d.isDispatch && !before.isEmpty then .panicked
  else .refused (.startFailed d.complaint)

/--
Makes demands after those granted `before`, until one is not granted: those that were made, and what
comes of it, which is `ready` if all are granted.
-/
def meet (site : Site) (ready : α) (before : List Demand) :
    List Demand → List Demand × StartResult α
  | [] => ([], .running ready)
  | d :: ds =>
    match site.answer before d with
    | .granted =>
      (d :: (site.meet ready (before ++ [d]) ds).1, (site.meet ready (before ++ [d]) ds).2)
    | .denied => ([d], site.deny before d)
    | .broken => ([d], .panicked)

/-- The pools alone, whatever the settings are. -/
def build (site : Site) (hosted : Bool) (s : Settings) : StartResult Pools :=
  (site.meet (.ofSettings hosted s) [] (s.poolDemands hosted)).2

/-- The demands that the start of a relay makes, and what comes of it. -/
def start (site : Site) (hosted : Bool) (s : Settings) : List Demand × StartResult State :=
  match s.flaw? with
  | some flaw => ([], .refused (.invalidSettings flaw.message))
  | none => site.meet (.start (.ofSettings hosted s) s.color) [] (s.demands hosted)

end Site

/-- Starts a relay, with a parallel pool of its own or with that of a host. -/
def State.startWith (site : Site) (hosted : Bool) (s : Settings) : StartResult State :=
  (site.start hosted s).2

theorem Site.eq_of_meet {α : Type} {site : Site} {ready a : α} {before ds : List Demand}
    (h : (site.meet ready before ds).2 = .running a) : a = ready := by
  induction ds generalizing before with
  | nil => exact (StartResult.running.inj h).symm
  | cons d ds ih =>
    rw [meet] at h
    split at h
    · exact ih h
    · rw [deny] at h
      split at h <;> cases h
    · cases h

/-- A relay that runs was started with settings without a flaw, and has the pools they ask for. -/
theorem eq_start_of_startWith {site : Site} {hosted : Bool} {settings : Settings} {s : State}
    (h : State.startWith site hosted settings = .running s) :
    s = State.start (.ofSettings hosted settings) settings.color := by
  rw [State.startWith, Site.start] at h
  split at h
  · cases h
  · exact Site.eq_of_meet h

end TaskRelay
