import TaskRelay.Failure.Chain

/-!
# Reports of failures

A failure for a reader: a label and a text on each line of its chain, and below them the stack trace
if it shows a capture. Colors are escape sequences around the labels.
-/

namespace TaskRelay

/-! ## Labels -/

inductive Label where
  | error
  | cause
  | trace

namespace Label

def text : Label → List Char
  | .error => "error:".toList
  | .cause => "caused by:".toList
  | .trace => "stacktrace:".toList

def escape : Char := '\x1b'

/-- The sequence that sets a style. -/
def style (code : String) : List Char := escape :: '[' :: code.toList ++ ['m']

/-- What turns the color of a label on: the error bold and red, the others yellow. -/
def turnOn : Label → List Char
  | .error => style "1" ++ style "31"
  | _ => style "33"

def turnOff : Label → List Char
  | .error => style "39" ++ style "0"
  | _ => style "39"

def chars (colored : Bool) (l : Label) : List Char :=
  if colored then l.turnOn ++ l.text ++ l.turnOff else l.text

end Label

/-! ## Reports -/

/-- A labelled line for each text of the chain. -/
def Chain.reportChars (colored : Bool) (c : Chain) : List Char :=
  Label.error.chars colored ++ ' ' :: c.top.toList ++
    c.causes.flatMap fun cause => '\n' :: Label.cause.chars colored ++ ' ' :: cause.toList

/-- The lines about a trace. -/
def traceChars (colored : Bool) (trace : String) : List Char :=
  '\n' :: Label.trace.chars colored ++ '\n' :: trace.toList

namespace Failure

def report (colored : Bool) (f : Failure) : String := String.ofList (f.chain.reportChars colored)

/-- The report and, if the failure shows a capture, its trace. -/
def reportWithTrace (colored : Bool) (f : Failure) : String :=
  match f.capture? with
  | some (trace, _) =>
    String.ofList (f.chain.reportChars colored ++ traceChars colored trace)
  | none => f.report colored

end Failure

end TaskRelay
