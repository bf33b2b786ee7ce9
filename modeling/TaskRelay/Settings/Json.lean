import TaskRelay.Json.Reader
import TaskRelay.Settings.Basic

/-!
# Settings as JSON

Settings are written as an object with the fields in their order. They are read from an object,
whose members may come in any order, may be missing, and may have names that no field has; or from
a list, which gives the fields in their order. A field may not be given twice.
-/

namespace TaskRelay.Settings

open TaskRelay.Json

/-! ## Writing -/

def sizeNumber (n : UInt64) : Number :=
  .int n.toNat ⟨by omega, by have := n.toNat_lt; omega⟩

/-- The values of the fields, in their order. -/
def values (s : Settings) : List Value :=
  [.number (sizeNumber s.workerThreads), .number (sizeNumber s.interactiveThreads),
    .bool s.localPool, .string s.dispatchThreadName, .number (sizeNumber s.dispatchStackSize),
    .bool s.color]

/-- The fields with their values, as an object. -/
def toValue (s : Settings) : Value := .object ((Field.all.map Field.name).zip s.values)

def toJsonText (s : Settings) : String := s.toValue.text

/-! ## Values of fields -/

/-- Reads a value of the wrong kind, to say what it is. -/
def wrongKind {α : Type} (expected : String) : List Char → Except Fault α
  | 'n' :: r => do here (.invalidType .null expected) (← readLiteral ['u', 'l', 'l'] r)
  | 't' :: r => do here (.invalidType (.bool true) expected) (← readLiteral ['r', 'u', 'e'] r)
  | 'f' :: r => do
    here (.invalidType (.bool false) expected) (← readLiteral ['a', 'l', 's', 'e'] r)
  | '-' :: r => do
    let (n, r₁) ← readNumber true r
    here (.invalidType (.number n) expected) r₁
  | '"' :: r => do
    let (s, r₁) ← readString r
    here (.invalidType (.string (String.ofList s)) expected) r₁
  | '[' :: r => here (.invalidType .array expected) ('[' :: r)
  | '\x7b' :: r => here (.invalidType .object expected) ('\x7b' :: r)
  | [] => here .expectedValue []
  | c :: r => do
    if Text.isDigit c then
      let (n, r₁) ← readNumber false (c :: r)
      here (.invalidType (.number n) expected) r₁
    else past .expectedValue (c :: r)

/-- A number as a size: no fraction, and not below zero. -/
def asSize (n : Number) (r : List Char) : Except Fault (UInt64 × List Char) :=
  match n with
  | .int v _ =>
    if v < 0 then here (.invalidValue (.number n) "usize") r else .ok (UInt64.ofNat v.toNat, r)
  | .double _ => here (.invalidType (.number n) "usize") r

def readSize (r : List Char) : Except Fault (UInt64 × List Char) :=
  match skipBlank r with
  | [] => here .endInValue []
  | '-' :: r₁ => do
    let (n, r₂) ← readNumber true r₁
    asSize n r₂
  | c :: r₁ => do
    if Text.isDigit c then
      let (n, r₂) ← readNumber false (c :: r₁)
      asSize n r₂
    else wrongKind "usize" (c :: r₁)

def readFlag (r : List Char) : Except Fault (Bool × List Char) :=
  match skipBlank r with
  | [] => here .endInValue []
  | 't' :: r₁ => do return (true, ← readLiteral ['r', 'u', 'e'] r₁)
  | 'f' :: r₁ => do return (false, ← readLiteral ['a', 'l', 's', 'e'] r₁)
  | r₁ => wrongKind "a boolean" r₁

def readName (r : List Char) : Except Fault (String × List Char) :=
  match skipBlank r with
  | [] => here .endInValue []
  | '"' :: r₁ => do
    let (s, r₂) ← readString r₁
    return (String.ofList s, r₂)
  | r₁ => wrongKind "a string" r₁

/-- Reads a value for a field. -/
def readField (f : Field) (a : Assignment) (r : List Char) :
    Except Fault (Assignment × List Char) :=
  match f with
  | .workerThreads => do
    let (v, r₁) ← readSize r
    return ({ a with workerThreads := some v }, r₁)
  | .interactiveThreads => do
    let (v, r₁) ← readSize r
    return ({ a with interactiveThreads := some v }, r₁)
  | .localPool => do
    let (v, r₁) ← readFlag r
    return ({ a with localPool := some v }, r₁)
  | .dispatchThreadName => do
    let (v, r₁) ← readName r
    return ({ a with dispatchThreadName := some v }, r₁)
  | .dispatchStackSize => do
    let (v, r₁) ← readSize r
    return ({ a with dispatchStackSize := some v }, r₁)
  | .color => do
    let (v, r₁) ← readFlag r
    return ({ a with color := some v }, r₁)

/-! ## Lists -/

/-- Goes to the next element; none at the end of the list, which is left unread. -/
def nextElement (first : Bool) (r : List Char) : Except Fault (Option (List Char)) :=
  match skipBlank r with
  | [] => here .endInList []
  | ']' :: _ => .ok none
  | c :: r₁ =>
    if first then .ok (some (c :: r₁))
    else if c == ',' then
      match skipBlank r₁ with
      | [] => here .endInValue []
      | ']' :: r₂ => past .trailingComma (']' :: r₂)
      | r₂ => .ok (some r₂)
    else past .expectedCommaOrBracket (c :: r₁)

/-- Reads elements for the fields, as many as there are. -/
def readElements (first : Bool) (a : Assignment) :
    List Field → List Char → Except Fault (Assignment × List Char)
  | [], r => .ok (a, r)
  | f :: fs, r => do
    match ← nextElement first r with
    | none => return (a, r)
    | some r₁ =>
      let (a, r₂) ← readField f a r₁
      readElements false a fs r₂

def closeList (r : List Char) : Except Fault (List Char) :=
  match skipBlank r with
  | [] => here .endInList []
  | ']' :: r₁ => .ok r₁
  | ',' :: r₁ =>
    match skipBlank r₁ with
    | ']' :: r₂ => past .trailingComma (']' :: r₂)
    | r₂ => past .trailingCharacters r₂
  | r₁ => past .trailingCharacters r₁

/-! ## Objects -/

/-- Goes to the next key and reads it; none at the end of the object, which is left unread. -/
def nextKey (first : Bool) (r : List Char) : Except Fault (Option (List Char × List Char)) :=
  match skipBlank r with
  | [] => here .endInObject []
  | '\x7d' :: _ => .ok none
  | c :: r₁ =>
    if first then
      if c == '"' then some <$> readString r₁ else past .keyMustBeString (c :: r₁)
    else if c == ',' then
      match skipBlank r₁ with
      | [] => here .endInValue []
      | '"' :: r₂ => some <$> readString r₂
      | '\x7d' :: r₂ => past .trailingComma ('\x7d' :: r₂)
      | r₂ => past .keyMustBeString r₂
    else past .expectedCommaOrBrace (c :: r₁)

/-- A repeated field is complained of after the brace, if one follows. -/
def afterBrace (r : List Char) : List Char :=
  match skipBlank r with
  | '\x7d' :: r₁ => r₁
  | r₁ => r₁

/-- Reads a member after its key: the value of a field, or a value that is gone over. -/
def readMember (key : List Char) (a : Assignment) (r : List Char) :
    Except Fault (Assignment × List Char) :=
  match Field.ofName? (String.ofList key) with
  | some f =>
    if a.isSet f then here (.duplicateField f.name) (afterBrace r)
    else readColon r >>= readField f a
  | none => do
    let r₁ ← readColon r
    return (a, ← skipValue r₁)

/-- Reads members up to the closing brace; each takes a character, so the fuel is their number. -/
def readMembers : Nat → Bool → Assignment → List Char → Except Fault (Assignment × List Char)
  | 0, _, _, r => here .endInObject r
  | fuel + 1, first, a, r => do
    match ← nextKey first r with
    | none => return (a, r)
    | some (key, r₁) =>
      let (a, r₂) ← readMember key a r₁
      readMembers fuel false a r₂

def closeObject (r : List Char) : Except Fault (List Char) :=
  match skipBlank r with
  | [] => here .endInObject []
  | '\x7d' :: r₁ => .ok r₁
  | ',' :: r₁ => past .trailingComma (',' :: r₁)
  | r₁ => past .trailingCharacters r₁

/-! ## Whole texts -/

/-- The values that a text assigns. -/
def readAssignment (text : List Char) : Except Fault Assignment :=
  match skipBlank text with
  | [] => here .endInValue []
  | '[' :: r => do
    let (a, r₁) ← readElements true .empty Field.all r
    expectEnd (← closeList r₁)
    return a
  | '\x7b' :: r => do
    let (a, r₁) ← readMembers (r.length + 1) true .empty r
    expectEnd (← closeObject r₁)
    return a
  | r => wrongKind "struct BridgeConfig" r

/-- The settings of a text, checked. -/
def ofJsonText (p : Processors) (text : String) : Except LoadError Settings :=
  match readAssignment text.toList with
  | .ok a => (a.settings p).checked
  | .error f => .error (.unreadable (f.message text.toList))

end TaskRelay.Settings
