import Mathlib
import TaskRelay.Proofs.Relay.Moves

/-!
# What a program does

A program takes its steps one by one, and what it learns by them is up to its surroundings. A list
of exchanges says what it does and what it is told, so `Program.Reaches` speaks about a program in
whatever surroundings. Main statement: `reaches_andThen_iff`, about a program that goes on with
another one.
-/

namespace TaskRelay

/-- What a program does in a step, and what it learns by it. -/
inductive Exchange where
  | pause
  | passGate (gate : String)
  | onThread (name : String)
  | logFailure (name : String) (failure : Failure)
  | submit (entry : Entry) (envelope : Envelope) (answer : Option (Except RelayError Ticket))
  | await (ticket : Ticket) (result : Except TaskError Json.Value)

/-- The event that is logged by it. -/
def Exchange.log? : Exchange → Option LogEvent
  | .logFailure name f => some (.callableFailed name f)
  | _ => none

namespace Program

inductive Makes : Program → Exchange → Program → Prop
  | pause {next : Program} : Makes (.pause next) .pause next
  | passGate {g : String} {next : Program} : Makes (.passGate g next) (.passGate g) next
  | onThread {next : String → Program} (t : String) : Makes (.onThread next) (.onThread t) (next t)
  | logFailure {name : String} {f : Failure} {next : Program} :
      Makes (.logFailure name f next) (.logFailure name f) next
  | submit {entry : Entry} {name : String} {body : Arguments → Program} {args : Arguments}
      {wake : Option WakePointer} {next : Option (Except RelayError Ticket) → Program}
      (r : Option (Except RelayError Ticket)) : Makes (.submit entry name body args wake next)
        (.submit entry ⟨⟨name, body⟩, args, wake⟩ r) (next r)
  | await {ticket : Ticket} {next : Except TaskError Json.Value → Program}
      (r : Except TaskError Json.Value) : Makes (.await ticket next) (.await ticket r) (next r)

/-- After these exchanges it is left with another program. -/
inductive Reaches : Program → List Exchange → Program → Prop
  | here (p : Program) : Reaches p [] p
  | step {p q r : Program} {e : Exchange} {es : List Exchange} :
      p.Makes e q → q.Reaches es r → Reaches p (e :: es) r

variable {p q r : Program} {e : Exchange} {es es' : List Exchange} {o : Outcome}
  {next : Outcome → Program}

namespace Reaches

theorem trans (h : p.Reaches es q) (h' : q.Reaches es' r) : p.Reaches (es ++ es') r := by
  induction h with
  | here => exact h'
  | step he _ ih => exact .step he (ih h')

theorem tail (h : p.Reaches es q) (he : q.Makes e r) : p.Reaches (es ++ [e]) r :=
  h.trans (.step he (.here r))

/-- A program that is over does nothing more. -/
theorem of_finish (h : (Program.finish o).Reaches es q) : es = [] ∧ q = .finish o := by
  cases h with
  | here => exact ⟨rfl, rfl⟩
  | step he => cases he

end Reaches

/-! ## One program after another -/

theorem Makes.andThen (h : p.Makes e q) : (p.andThen next).Makes e (q.andThen next) := by
  cases h with
  | pause => exact .pause
  | passGate => exact .passGate
  | onThread t => exact .onThread t
  | logFailure => exact .logFailure
  | submit r => exact .submit r
  | await r => exact .await r

theorem Reaches.andThen (h : p.Reaches es q) :
    (p.andThen next).Reaches es (q.andThen next) := by
  induction h with
  | here => exact .here _
  | step he _ ih => exact .step he.andThen ih

/-- Until the first program is over, every step is one of it. -/
theorem exists_of_makes_andThen (hp : ∀ o, p ≠ .finish o) (h : (p.andThen next).Makes e r) :
    ∃ q, p.Makes e q ∧ r = q.andThen next := by
  cases p with
  | finish o => exact absurd rfl (hp o)
  | pause =>
    cases h
    exact ⟨_, .pause, rfl⟩
  | passGate =>
    cases h
    exact ⟨_, .passGate, rfl⟩
  | onThread =>
    cases h with
    | onThread t => exact ⟨_, .onThread t, rfl⟩
  | logFailure =>
    cases h
    exact ⟨_, .logFailure, rfl⟩
  | submit =>
    cases h with
    | submit r => exact ⟨_, .submit r, rfl⟩
  | await =>
    cases h with
    | await r => exact ⟨_, .await r, rfl⟩

/-- One program after another comes to an outcome just if the first comes to one, and from there the
other. -/
theorem reaches_andThen_iff : (p.andThen next).Reaches es (.finish o) ↔
    ∃ first o' rest, p.Reaches first (.finish o') ∧ (next o').Reaches rest (.finish o) ∧
      es = first ++ rest := by
  constructor
  · intro h
    induction es generalizing p with
    | nil =>
      cases p with
      | finish o' => exact ⟨[], o', [], .here _, h, rfl⟩
      | _ => cases h
    | cons e es ih =>
      by_cases hp : ∃ o', p = .finish o'
      · obtain ⟨o', rfl⟩ := hp
        exact ⟨[], o', e :: es, .here _, h, rfl⟩
      · cases h with
        | step he h =>
          obtain ⟨q, hq, rfl⟩ := exists_of_makes_andThen (not_exists.mp hp) he
          obtain ⟨first, o', rest, hfirst, hrest, rfl⟩ := ih h
          exact ⟨e :: first, o', rest, .step hq hfirst, hrest, rfl⟩
  · rintro ⟨first, o', rest, h, h', rfl⟩
    exact h.andThen.trans h'

end Program

end TaskRelay
