import TaskRelay.Json.Skip

/-!
# Reading values

The value that a text stands for. Of two members with one name the last counts.
-/

namespace TaskRelay.Json

/-- Reads a value that is neither a list nor an object. -/
def readScalar : List Char → Except Fault (Value × List Char)
  | [] => here .endInValue []
  | 'n' :: r => do return (.null, ← readLiteral ['u', 'l', 'l'] r)
  | 't' :: r => do return (.bool true, ← readLiteral ['r', 'u', 'e'] r)
  | 'f' :: r => do return (.bool false, ← readLiteral ['a', 'l', 's', 'e'] r)
  | '"' :: r => do
    let (s, r₁) ← readString r
    return (.string (String.ofList s), r₁)
  | '-' :: r => do
    let (n, r₁) ← readNumber true r
    return (.number n, r₁)
  | c :: r => do
    if Text.isDigit c then
      let (n, r₁) ← readNumber false (c :: r)
      return (.number n, r₁)
    else past .expectedValue (c :: r)

/-- Reads a key and its colon. -/
def readKey (r : List Char) : Except Fault (String × List Char) :=
  match skipBlank r with
  | [] => here .endInObject []
  | '"' :: r₁ => do
    let (k, r₂) ← readString r₁
    return (String.ofList k, ← readColon r₂)
  | r₁ => past .keyMustBeString r₁

mutual

/-- The number bounds the depth of the calls, each of which takes a character. -/
def readFrom : Nat → List Char → Except Fault (Value × List Char)
  | 0, r => here .endInValue r
  | fuel + 1, r =>
    match skipBlank r with
    | '[' :: r₁ =>
      match skipBlank r₁ with
      | ']' :: r₂ => .ok (.array [], r₂)
      | r₂ => do
        let (items, r₃) ← readItems fuel r₂
        return (.array items, r₃)
    | '\x7b' :: r₁ =>
      match skipBlank r₁ with
      | '\x7d' :: r₂ => .ok (.object [], r₂)
      | r₂ => do
        let (pairs, r₃) ← readMembers fuel r₂
        return (.object (membersOf pairs), r₃)
    | r₁ => readScalar r₁

def readItems : Nat → List Char → Except Fault (List Value × List Char)
  | 0, r => here .endInValue r
  | fuel + 1, r => do
    let (v, r₁) ← readFrom fuel r
    match skipBlank r₁ with
    | [] => here .endInList []
    | ',' :: r₂ =>
      let (rest, r₃) ← readItems fuel r₂
      return (v :: rest, r₃)
    | ']' :: r₂ => return ([v], r₂)
    | r₂ => past .expectedCommaOrBracket r₂

def readMembers : Nat → List Char → Except Fault (List (String × Value) × List Char)
  | 0, r => here .endInValue r
  | fuel + 1, r => do
    let (k, r₁) ← readKey r
    let (v, r₂) ← readFrom fuel r₁
    match skipBlank r₂ with
    | [] => here .endInObject []
    | ',' :: r₃ =>
      let (rest, r₄) ← readMembers fuel r₃
      return ((k, v) :: rest, r₄)
    | '\x7d' :: r₃ => return ([(k, v)], r₃)
    | r₃ => past .expectedCommaOrBrace r₃

end

/-- Complains about anything but blanks. -/
def expectEnd (r : List Char) : Except Fault Unit :=
  match skipBlank r with
  | [] => .ok ()
  | r₁ => past .trailingCharacters r₁

def Value.read (text : List Char) : Except Fault Value := do
  let (v, r) ← readFrom (2 * text.length + 2) text
  expectEnd r
  return v

/-- The value of a text, if it stands for one. -/
def Value.ofText? (text : String) : Option Value := (Value.read text.toList).toOption

end TaskRelay.Json
