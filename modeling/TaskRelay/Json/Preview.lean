import TaskRelay.Json.Printer

/-!
# Previews

The compact text of a value, cut to a fixed number of characters.
-/

namespace TaskRelay.Json

/-- The longest text that a preview shows whole. -/
def maxPreviewChars : Nat := 256

/-- A text that is cut ends in an ellipsis. -/
def cut (cs : List Char) : List Char :=
  if cs.length ≤ maxPreviewChars then cs else cs.take maxPreviewChars ++ ['…']

def Value.preview (v : Value) : String := String.ofList (cut v.chars)

end TaskRelay.Json
