import TaskRelay.Failure.Basic

/-!
# The chain of a failure

What a failure says: its own text and the texts of its causes, outermost first. A capture says what
the captured failure says. The failure of a task stands as one text, which holds the whole chain of
the callable's failure.
-/

namespace TaskRelay

structure Chain where
  top : String
  causes : List String
deriving DecidableEq

namespace Chain

def texts (c : Chain) : List String := c.top :: c.causes

/-- The texts in one line, separated by colons. -/
def joined (c : Chain) : String := String.intercalate ": " c.texts

/-- The last text. -/
def root (c : Chain) : String := c.causes.getLastD c.top

/-! ## The listing of a chain -/

/-- Splits at line ends; there is always one line more than there are ends. -/
def splitLines : List Char → List (List Char)
  | [] => [[]]
  | c :: cs =>
    if c == '\n' then [] :: splitLines cs
    else match splitLines cs with
      | line :: rest => (c :: line) :: rest
      | [] => [[c]]

/-- Puts `first` before the first line and `other` before the others. -/
def indent (first other : List Char) (text : String) : List Char :=
  match splitLines text.toList with
  | [] => first
  | line :: rest => first ++ line ++ rest.flatMap fun l => '\n' :: other ++ l

/-- A number at the right of five places, and a colon. -/
def numberLabel (n : Nat) : List Char :=
  let ds := Nat.toDigits 10 n
  List.replicate (5 - ds.length) ' ' ++ ds ++ [':', ' ']

/-- The causes in numbered lines, from `n` on. -/
def numberedCauses (n : Nat) : List String → List Char
  | [] => []
  | c :: rest =>
    '\n' :: indent (numberLabel n) (List.replicate 7 ' ') c ++ numberedCauses (n + 1) rest

/-- One cause stands for itself; several are numbered. -/
def listedCauses : List String → List Char
  | [] => []
  | [c] => '\n' :: indent (List.replicate 4 ' ') (List.replicate 4 ' ') c
  | causes => numberedCauses 0 causes

/-- The top and, below it, the causes. -/
def listing (c : Chain) : String :=
  if c.causes.isEmpty then c.top
  else c.top ++ "\n\nCaused by:" ++ String.ofList (listedCauses c.causes)

end Chain

def Failure.chain : Failure → Chain
  | .message text => ⟨text, []⟩
  | .caused text cause => ⟨text, cause.chain.texts⟩
  | .context text inner => ⟨text, inner.chain.texts⟩
  | .captured _ inner => inner.chain
  | .relay error => ⟨error.message, []⟩
  | .taskFailed inner => ⟨"task failed: " ++ inner.chain.joined, []⟩
  | .taskPanicked text => ⟨"task panicked: " ++ text, []⟩
  | .taskCancelled => ⟨"task cancelled by runtime shutdown", []⟩

namespace Failure

def display (f : Failure) : String := f.chain.top

def joined (f : Failure) : String := f.chain.joined

def listing (f : Failure) : String := f.chain.listing

/-- A capture spelled out: the captured failure, and that there is a trace. -/
def captureListing (inner : Failure) : String :=
  "TracedFailure \x7b original: " ++ inner.listing ++ ", trace: Captured \x7d"

end Failure

def TaskError.message (e : TaskError) : String := e.toFailure.display

end TaskRelay
