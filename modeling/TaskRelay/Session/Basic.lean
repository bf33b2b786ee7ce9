import TaskRelay.Relay.Run
import TaskRelay.Session.Request

/-!
# Sessions

A relay and one user of it, who makes one request after another. After each the relay runs until
nothing moves, and the user gets a report: the answer, the figures, and what was noted and logged
since the report before.
-/

namespace TaskRelay

open Json

/-- More steps than any request leads to. -/
def patience : Nat := 1 <<< 32

structure Session where
  relay : State
  /-- The handles given out, in order. -/
  tickets : List Ticket

structure Report where
  answer : Answer
  /-- Whether the user's texts are in color. -/
  colored : Bool
  figures : List Nat
  notes : List String
  logs : List LogEvent

namespace Session

def start (relay : State) : Session := ⟨relay, []⟩

/-- Takes turns one after another, and collects what they give. -/
def forEach {α β : Type} (turn : Session → α → Session × β) : Session → List α → Session × List β
  | x, [] => (x, [])
  | x, a :: rest =>
    let (x, b) := turn x a
    let (x, bs) := forEach turn x rest
    (x, b :: bs)

/-- Does something to the relay from outside, then lets it run. -/
def act (x : Session) (a : Action) : Session :=
  match x.relay.step? a with
  | some s => { x with relay := s.settle patience }
  | none => x

/-- What has happened since, the latest first. -/
def marksSince (before after : Session) : List Mark :=
  after.relay.journal.take (after.relay.journal.length - before.relay.journal.length)

/-! ## Submissions -/

/-- The latest answer to a thread; a submission that was not even asked is refused. -/
def lastAnswer (thread : Nat) (marks : List Mark) : Except RelayError Ticket :=
  let answer? : Mark → Option (Except RelayError Ticket)
    | .answered c r => if c = .thread thread then some r else none
    | _ => none
  (marks.findSome? answer?).getD (.error .dispatchClosed)

def submit (x : Session) (thread : Nat) (entry : Entry) (e : Envelope) :
    Session × Except RelayError Ticket :=
  let y := x.act (.submit thread entry e)
  (y, lastAnswer thread (marksSince x y))

/-! ## Handles -/

/-- Hands the handle of a task to `use`, unless it is gone. -/
def withHandle (x : Session) (task : Nat) (use : Ticket → Session × Answer) : Session × Answer :=
  match x.tickets[task]? with
  | none => (x, .noSuchTask)
  | some t => if x.relay.taken.contains t.id then (x, .consumed) else use t

def take (x : Session) (t : Ticket) : Session := x.act (.takeHandle t.id)

/-- Takes the result out of a handle; that of a task that has not ended stays. -/
def wait (x : Session) (t : Ticket) : Session × Option (Except TaskError Value) :=
  match x.relay.ending? t.id with
  | some e => (x.take t, some e.result)
  | none => (x, none)

/-! ## Bursts -/

def burstItem (x : Session) (b : Burst) (thread turn : Nat) : Session × BurstItem :=
  let (y, r) := x.submit thread b.entry (b.envelope thread turn)
  match r with
  | .error refusal => (y, .refused refusal)
  | .ok t =>
    let (z, result) := y.wait t
    (z, (result.map (BurstItem.ended t)).getD (.pending t))

def burstThread (x : Session) (b : Burst) (thread : Nat) : Session × List BurstItem :=
  x.forEach (fun y turn => y.burstItem b thread turn) (List.range b.perThread)

/-- The threads take their turns one after another, which is one of the orders that can occur. -/
def burst (x : Session) (b : Burst) : Session × List (List BurstItem) :=
  x.forEach (fun y thread => y.burstThread b thread) (List.range b.threads)

/-! ## Requests -/

/-- What a request to the registry does to the relay it belongs to, if anything. -/
def registryAction? : RegistryRequest → Option Action
  | .install c => some (.install c)
  | .setColor on => some (.setColor on)
  | .notify wake => some (.notify 0 wake)
  | _ => none

def perform (x : Session) : Request → Session × Answer
  | .registry q =>
    let answer := x.relay.registry.answer q
    match registryAction? q with
    | some a => (x.act a, .registry answer)
    | none => (x, .registry answer)
  | .submit entry e =>
    let (y, r) := x.submit 0 entry e
    match r with
    | .error refusal => (y, .refused refusal)
    | .ok t => ({ y with tickets := y.tickets ++ [t] }, .accepted y.tickets.length t)
  | .wait task =>
    x.withHandle task fun t =>
      let (y, r) := x.wait t
      (y, (r.map Answer.ended).getD .pending)
  | .waitInside task => x.withHandle task fun t => (x.take t, .panicked)
  | .inspect task =>
    x.withHandle task fun t => (x, .inspected t (x.relay.ending? t.id).isSome)
  | .forget task =>
    let (y, answer) := x.withHandle task fun t => (x.take t, .forgotten true)
    (y, if answer matches .consumed then .forgotten false else answer)
  | .openGate g => (x.act (.openGates fun h => h == g), .done)
  | .shutdown => (x.act (.shutdown 0), .done)
  | .pools => (x, .pools x.relay.pools.interactive.isSome x.relay.pools.single.isSome)
  | .stats => (x, .text x.relay.statsText)
  | .drop => (x.act .drop, .dropped)
  | .killHost => ((x.act .killHost).act .killHost, .done)
  | .burst b =>
    let (y, threads) := x.burst b
    (y, .burst threads)

/-! ## Reports -/

/-- The figures, of which only those of the registry outlast the relay. -/
def figures (x : Session) : List Nat :=
  if x.relay.dropped then [x.relay.figure .delivered, x.relay.figure .missed]
  else x.relay.figures

/-- What is to be reported about what happened after `before`. -/
def report (before after : Session) (answer : Answer) : Report :=
  let new := (marksSince before after).reverse
  { answer := answer
    colored := after.relay.registry.colored && !after.relay.dropped
    figures := after.figures
    notes := new.filterMap Mark.note?
    logs := new.filterMap Mark.log? }

def firstReport (x : Session) : Report := x.report x .done

def respond (x : Session) (q : Request) : Session × Report :=
  let (y, answer) := x.perform q
  (y, x.report y answer)

/-- Answers requests one after another. -/
def serve (x : Session) (qs : List Request) : Session × List Report := x.forEach respond qs

/-- All gates are opened, so that every task can end. -/
def finish (x : Session) : Session × Report :=
  let y := x.act (.openGates fun _ => true)
  (y, x.report y .done)

end Session

end TaskRelay
