import TaskRelay.Json.Described

/-!
# Arguments

The positional and the keyword arguments of a callable. Keyword arguments stand in the order of
their names; of two with one name the later counts.
-/

namespace TaskRelay

open Json

structure Arguments where
  positional : List Value
  keywords : List (String × Value)

namespace Arguments

def empty : Arguments := ⟨[], []⟩

def ofList (values : List Value) : Arguments := ⟨values, []⟩

def withArg (a : Arguments) (v : Value) : Arguments :=
  { a with positional := a.positional ++ [v] }

def withKeyword (a : Arguments) (name : String) (v : Value) : Arguments :=
  { a with keywords := insertMember name v a.keywords }

def arg? (a : Arguments) (i : Nat) : Option Value := a.positional[i]?

def keyword? (a : Arguments) (name : String) : Option Value := member? name a.keywords

/-- The number of positional arguments. -/
def length (a : Arguments) : Nat := a.positional.length

/-- Whether there are no arguments of either sort. -/
def isEmpty (a : Arguments) : Bool := a.positional.isEmpty && a.keywords.isEmpty

def same (a b : Arguments) : Bool :=
  Value.sameItems a.positional b.positional && Value.sameMembers a.keywords b.keywords

def keywordText (a : Arguments) : String := (Value.object a.keywords).text

def described (a : Arguments) : String :=
  "Arguments \x7b positional: [" ++ describedItems a.positional ++ "], keywords: \x7b" ++
    describedMembers a.keywords ++ "\x7d \x7d"

end Arguments

end TaskRelay
