import TaskRelay.Settings.Basic
import TaskRelay.Text.Blank

/-!
# Settings from variables

Each field has a variable. Blanks around a number or a flag do not matter; the thread name is taken
as it is.
-/

namespace TaskRelay.Settings

/-- Reads digits into `n` while the number has at most 64 bits. -/
def parseDigits (n : Nat) : List Char → Except Misfit Nat
  | [] => .ok n
  | c :: cs =>
    if Text.isDigit c then
      let m := 10 * n + Text.digitValue c
      if m < UInt64.size then parseDigits m cs else .error .numberTooLarge
    else .error .invalidDigit

/-- Reads a size: digits, after a plus sign or without one. -/
def parseSize (cs : List Char) : Except Misfit UInt64 :=
  match cs with
  | [] => .error .emptyNumber
  | ['+'] => .error .invalidDigit
  | '+' :: ds => UInt64.ofNat <$> parseDigits 0 ds
  | ds => UInt64.ofNat <$> parseDigits 0 ds

def parseFlag (cs : List Char) : Except Misfit Bool :=
  if cs = Json.boolChars true then .ok true
  else if cs = Json.boolChars false then .ok false
  else .error .notAFlag

/-- The value of a field's variable without the blanks around it, if the variable is set. -/
def lookupTrimmed {α : Type} (lookup : String → Option String) (f : Field)
    (parse : List Char → Except Misfit α) : Except LoadError (Option α) :=
  match lookup f.variableName with
  | none => .ok none
  | some text =>
    match parse (Text.trim text.toList) with
    | .ok v => .ok (some v)
    | .error why => .error (.misfit f why)

/-- The values that the variables assign; the first that does not fit is the error. -/
def lookupAssignment (lookup : String → Option String) : Except LoadError Assignment := do
  let workerThreads ← lookupTrimmed lookup .workerThreads parseSize
  let interactiveThreads ← lookupTrimmed lookup .interactiveThreads parseSize
  let localPool ← lookupTrimmed lookup .localPool parseFlag
  let dispatchThreadName := lookup Field.dispatchThreadName.variableName
  let dispatchStackSize ← lookupTrimmed lookup .dispatchStackSize parseSize
  let color ← lookupTrimmed lookup .color parseFlag
  return { workerThreads, interactiveThreads, localPool, dispatchThreadName, dispatchStackSize,
           color }

/-- The settings that the variables give, checked. -/
def ofLookup (p : Processors) (lookup : String → Option String) : Except LoadError Settings := do
  let a ← lookupAssignment lookup
  (a.settings p).checked

end TaskRelay.Settings
