import TaskRelay.Call.Program

/-!
# Ready-made callables

What a callable can be asked to do without code of one's own: give back arguments, fail, panic, look
at its thread, or have another callable run in its place.
-/

namespace TaskRelay

open Json

/-- The name of a callable that has none of its own. -/
def anonymousName : String := "anonymous"

namespace Program

def returning (v : Value) : Program := .finish (.value v)

def failing (f : Failure) : Program := .finish (.failure f)

def panicking (p : Payload) : Program := .finish (.panic p)

/-- Suspends `n` times first. -/
def afterPauses : Nat → Program → Program
  | 0, p => p
  | n + 1, p => .pause (afterPauses n p)

end Program

namespace Arguments

open Program

/-- Both sorts of arguments, as one object. -/
def echo (a : Arguments) : Program :=
  returning <| .object [("args", .array a.positional), ("kw", .object a.keywords)]

def argAt (i : Nat) (a : Arguments) : Program := returning ((a.arg? i).getD .null)

def keywordNamed (name : String) (a : Arguments) : Program :=
  returning ((a.keyword? name).getD .null)

def natural (n : Nat) : Value := (Value.ofNat? n).getD .null

/-- How many there are of either sort, and whether there are none. -/
def count (a : Arguments) : Program :=
  returning <| .array [natural a.length, natural a.keywords.length, .bool a.isEmpty]

/-- Gives back the first argument, but fails if it is an odd integer of 64 signed bits. -/
def failIfOdd (a : Arguments) : Program :=
  let first := (a.arg? 0).getD .null
  match first.int? with
  | some n =>
    if n < 9223372036854775808 && n % 2 ≠ 0 then
      failing (.message ("task " ++ String.ofList (Text.decimalInt n) ++ " failed"))
    else returning first
  | none => returning first

end Arguments

namespace Program

/-- The name of the thread, as a value. -/
def threadName : Program := .onThread fun t => returning (.string t)

/--
Submits another callable and waits for its result. That the relay is gone, a refusal, or an end
without a value becomes the failure of the program itself.
-/
def nested (entry : Entry) (e : Envelope) : Program :=
  .submit entry e.callable.name e.callable.body e.arguments e.wake fun
    | none => failing (.message "bridge gone")
    | some (.error refusal) => failing (.relay refusal)
    | some (.ok ticket) => .await ticket fun
      | .error end_ => failing end_.toFailure
      | .ok v => returning <| .object
          [("id", Arguments.natural ticket.id), ("notifies", .bool ticket.notifies), ("value", v)]

end Program

end TaskRelay
