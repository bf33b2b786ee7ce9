import TaskRelay.Json.Printer
import TaskRelay.Text.Quoted

/-!
# Values spelled out

A value with the name of its kind, for reports about arguments.
-/

namespace TaskRelay.Json

mutual

def Value.described : Value → String
  | .null => "Null"
  | .bool b => "Bool(" ++ String.ofList (boolChars b) ++ ")"
  | .number n => "Number(" ++ String.ofList n.chars ++ ")"
  | .string s => "String(" ++ Text.quoted s ++ ")"
  | .array items => "Array [" ++ describedItems items ++ "]"
  | .object members => "Object \x7b" ++ describedMembers members ++ "\x7d"

def describedItems : List Value → String
  | [] => ""
  | [v] => v.described
  | v :: w :: rest => v.described ++ ", " ++ describedItems (w :: rest)

def describedMembers : List (String × Value) → String
  | [] => ""
  | [(k, v)] => Text.quoted k ++ ": " ++ v.described
  | (k, v) :: m :: rest =>
    Text.quoted k ++ ": " ++ v.described ++ ", " ++ describedMembers (m :: rest)

end

end TaskRelay.Json
