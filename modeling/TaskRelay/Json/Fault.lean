import TaskRelay.Text.Quoted
import TaskRelay.Json.Printer

/-!
# Faults in JSON text

Why a text cannot be read, and where. A fault holds what was left of the text when it arose; its
line and column are found from the whole text afterwards, so that reading needs no counters.
-/

namespace TaskRelay.Json

/-! ## Complaints -/

/-- What stood in the place of the expected kind of value. -/
inductive Found where
  | null
  | bool (b : Bool)
  | number (n : Number)
  | string (s : String)
  | array
  | object

def Found.text : Found → String
  | .null => "null"
  | .bool b => "boolean `" ++ String.ofList (boolChars b) ++ "`"
  | .number (.int n h) => "integer `" ++ String.ofList (Number.int n h).chars ++ "`"
  | .number (.double d) => "floating point `" ++ String.ofList (doubleChars d) ++ "`"
  | .string s => "string " ++ Text.quoted s
  | .array => "sequence"
  | .object => "map"

inductive Complaint where
  | endInList
  | endInObject
  | endInString
  | endInValue
  | expectedColon
  | expectedCommaOrBracket
  | expectedCommaOrBrace
  | expectedIdent
  | expectedValue
  | invalidEscape
  | invalidNumber
  | numberOutOfRange
  | controlCharacter
  | keyMustBeString
  | loneSurrogate
  | trailingComma
  | trailingCharacters
  | endOfHexEscape
  | invalidType (found : Found) (expected : String)
  | invalidValue (found : Found) (expected : String)
  | duplicateField (name : String)

def Complaint.text : Complaint → String
  | .endInList => "EOF while parsing a list"
  | .endInObject => "EOF while parsing an object"
  | .endInString => "EOF while parsing a string"
  | .endInValue => "EOF while parsing a value"
  | .expectedColon => "expected `:`"
  | .expectedCommaOrBracket => "expected `,` or `]`"
  | .expectedCommaOrBrace => "expected `,` or `\x7d`"
  | .expectedIdent => "expected ident"
  | .expectedValue => "expected value"
  | .invalidEscape => "invalid escape"
  | .invalidNumber => "invalid number"
  | .numberOutOfRange => "number out of range"
  | .controlCharacter => "control character (\\u0000-\\u001F) found while parsing a string"
  | .keyMustBeString => "key must be a string"
  | .loneSurrogate => "lone leading surrogate in hex escape"
  | .trailingComma => "trailing comma"
  | .trailingCharacters => "trailing characters"
  | .endOfHexEscape => "unexpected end of hex escape"
  | .invalidType found expected => "invalid type: " ++ found.text ++ ", expected " ++ expected
  | .invalidValue found expected => "invalid value: " ++ found.text ++ ", expected " ++ expected
  | .duplicateField name => "duplicate field `" ++ name ++ "`"

/-! ## Faults -/

/-- A complaint at the beginning of `rest`, or `beyond` bytes further on. -/
structure Fault where
  complaint : Complaint
  rest : List Char
  beyond : Nat

/-- A complaint about what comes next, placed on the other side of its first byte. -/
def past {α : Type} (complaint : Complaint) (rest : List Char) : Except Fault α :=
  .error ⟨complaint, rest, 1⟩

/-- A complaint about what came before. -/
def here {α : Type} (complaint : Complaint) (rest : List Char) : Except Fault α :=
  .error ⟨complaint, rest, 0⟩

/-- A line, counted from one, and the number of bytes before the place on that line. -/
structure Place where
  line : Nat
  column : Nat

def byteSize : List Char → Nat
  | [] => 0
  | c :: cs => c.utf8Size + byteSize cs

/-- Goes over whole characters. -/
def Place.over (p : Place) (cs : List Char) : Place :=
  cs.foldl (fun p c => if c == '\n' then ⟨p.line + 1, 0⟩ else ⟨p.line, p.column + c.utf8Size⟩) p

/-- Goes `n` bytes on, at most to the end of `cs`. -/
def Place.advance (p : Place) : Nat → List Char → Place
  | 0, _ => p
  | _, [] => p
  | n + 1, c :: cs =>
    if c == '\n' then Place.advance ⟨p.line + 1, 0⟩ n cs
    else if c.utf8Size ≤ n + 1 then
      Place.advance ⟨p.line, p.column + c.utf8Size⟩ (n + 1 - c.utf8Size) cs
    else ⟨p.line, p.column + (n + 1)⟩

def Fault.place (text : List Char) (f : Fault) : Place :=
  ((Place.mk 1 0).over (text.take (text.length - f.rest.length))).advance f.beyond f.rest

/-- The complaint and its place in `text`. -/
def Fault.message (text : List Char) (f : Fault) : String :=
  let p := f.place text
  f.complaint.text ++ " at line " ++ toString p.line ++ " column " ++ toString p.column

end TaskRelay.Json
