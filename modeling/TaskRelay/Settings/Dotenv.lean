import TaskRelay.Text.Alphanumeric
import TaskRelay.Text.Blank
import TaskRelay.Text.Digits

/-!
# The syntax of .env files

A file is a sequence of definitions `NAME=value`. A quoted value may go over several lines of the
file; `nextLine` puts such lines together, and `parseLine` reads one definition. A value may hold
`$NAME` and a name in braces, which stand for what the name means at that point.
-/

namespace TaskRelay.Dotenv

/-! ## Lines -/

/-- The lines of a text, each with the line end that it has. -/
def fileLines : List Char → List (List Char)
  | [] => []
  | c :: cs =>
    if c == '\n' then [c] :: fileLines cs
    else match fileLines cs with
      | line :: rest => (c :: line) :: rest
      | [] => [[c]]

/-- Where in a definition a line of the file leaves off. -/
inductive LineState where
  | complete
  | escape
  | blank
  | strong
  | strongEscape
  | weak
  | weakEscape
deriving DecidableEq

/-- The state after a character; none where a comment begins. -/
def LineState.after (s : LineState) (c : Char) : Option LineState :=
  match s with
  | .complete =>
    if Text.isBlank c && c != '\n' && c != '\r' then some .blank
    else if c == '\\' then some .escape
    else if c == '"' then some .weak
    else if c == '\'' then some .strong
    else some .complete
  | .blank =>
    if c == '#' then none
    else if c == '\\' then some .escape
    else if c == '"' then some .weak
    else if c == '\'' then some .strong
    else some .complete
  | .escape => some .complete
  | .weak => if c == '\\' then some .weakEscape else if c == '"' then some .complete else some .weak
  | .weakEscape => some .weak
  | .strong =>
    if c == '\\' then some .strongEscape else if c == '\'' then some .complete else some .strong
  | .strongEscape => some .strong

/-- Goes over a line of the file: the state at its end, or the text before its comment. -/
def scanLine (s : LineState) : List Char → LineState ⊕ List Char
  | [] => .inl s
  | c :: cs =>
    match s.after c with
    | some s' => (scanLine s' cs).map id (c :: ·)
    | none => .inr []

def dropLineEnd (cs : List Char) : List Char :=
  match cs.reverse with
  | '\n' :: '\r' :: rest => rest.reverse
  | '\n' :: rest => rest.reverse
  | _ => cs

inductive NextLine where
  | line (text : List Char) (rest : List (List Char))
  /-- The file ends. -/
  | done
  /-- The file ends within a definition. -/
  | unfinished

/-- Puts the next definition together, after the text `before` of earlier lines. -/
def nextLine (before : List Char) (s : LineState) : List (List Char) → NextLine
  | [] => if s = .complete then .done else .unfinished
  | l :: rest =>
    let text := before ++ l
    if (Text.trimStart text).head? = some '#' then .line [] rest
    else
      match scanLine s l with
      | .inl .complete => .line (dropLineEnd text) rest
      | .inl s' => nextLine text s' rest
      | .inr uncommented => .line (before ++ uncommented) rest

/-! ## Values -/

/-- Where in a value the reading stands; the flag says whether that is within double quotes. -/
inductive Spot where
  | text (quoted : Bool)
  | escape (quoted : Bool)
  /-- In a name after a dollar sign. -/
  | name (quoted : Bool) (sofar : List Char)
  /-- In a name in braces. -/
  | braced (quoted : Bool) (sofar : List Char)
  | strong
  /-- After the blank that ends a value. -/
  | ended

/-- What a character stands for after a backslash. -/
def unescape? (c : Char) : Option Char :=
  if c == '\\' || c == '\'' || c == '"' || c == '$' || c == ' ' then some c
  else if c == 'n' then some '\n'
  else none

/-- The value of a text, whose names mean what `meaning` says; none if it is malformed. -/
def parseValue (meaning : List Char → List Char) : Spot → List Char → Option (List Char)
  | .text quoted, [] => if quoted then none else some []
  | .escape quoted, [] => if quoted then none else some []
  | .name quoted sofar, [] => if quoted then none else some (meaning sofar)
  | .braced _ _, [] => none
  | .strong, [] => none
  | .ended, [] => some []
  | .ended, c :: cs =>
    if c == ' ' || c == '\t' then parseValue meaning .ended cs
    else if c == '#' then some []
    else none
  | .escape quoted, c :: cs =>
    match unescape? c with
    | some d => (parseValue meaning (.text quoted) cs).map (d :: ·)
    | none => none
  | .strong, c :: cs =>
    if c == '\'' then parseValue meaning (.text false) cs
    else (parseValue meaning .strong cs).map (c :: ·)
  | .name quoted sofar, c :: cs =>
    if Text.isAlphanumeric c then parseValue meaning (.name quoted (sofar ++ [c])) cs
    else if c == '\x7b' && sofar.isEmpty then parseValue meaning (.braced quoted []) cs
    else if c == '$' then (parseValue meaning (.name quoted []) cs).map (meaning sofar ++ ·)
    else (parseValue meaning (.text quoted) cs).map (meaning sofar ++ c :: ·)
  | .braced quoted sofar, c :: cs =>
    if c == '\x7d' then (parseValue meaning (.text quoted) cs).map (meaning sofar ++ ·)
    else parseValue meaning (.braced quoted (sofar ++ [c])) cs
  | .text quoted, c :: cs =>
    if c == '$' then parseValue meaning (.name quoted []) cs
    else if c == '\\' then parseValue meaning (.escape quoted) cs
    else if quoted then
      if c == '"' then parseValue meaning (.text false) cs
      else (parseValue meaning (.text true) cs).map (c :: ·)
    else if c == '\'' then parseValue meaning .strong cs
    else if c == '"' then parseValue meaning (.text true) cs
    else if c == ' ' || c == '\t' then parseValue meaning .ended cs
    else (parseValue meaning (.text false) cs).map (c :: ·)

/-! ## Definitions -/

def isLetter (c : Char) : Bool := (65 ≤ c.toNat && c.toNat ≤ 90) || (97 ≤ c.toNat && c.toNat ≤ 122)

def startsKey (c : Char) : Bool := isLetter c || c == '_'

def inKey (c : Char) : Bool := startsKey c || Text.isDigit c || c == '.'

/-- Reads a name and the blanks after it. -/
def parseKey : List Char → Option (List Char × List Char)
  | [] => none
  | c :: cs =>
    if startsKey c then some (c :: cs.takeWhile inKey, Text.trimStart (cs.dropWhile inKey))
    else none

def parseEquals : List Char → Option (List Char)
  | '=' :: cs => some (Text.trimStart cs)
  | _ => none

def exportWord : List Char := ['e', 'x', 'p', 'o', 'r', 't']

/-- Reads the name to define, up to its value. The word `export` before it is no part of it. -/
def parseTarget (cs : List Char) : Option (List Char × List Char) := do
  let (key, r) ← parseKey cs
  match parseEquals r with
  | some r₁ => return (key, r₁)
  | none =>
    if key = exportWord then
      let (key, r₁) ← parseKey r
      return (key, ← parseEquals r₁)
    else none

inductive Line where
  /-- Nothing but blanks and a comment. -/
  | nothing
  | definition (name value : List Char)
  | malformed

def isNothing (cs : List Char) : Bool := cs.isEmpty || cs.head? == some '#'

def parseLine (meaning : List Char → List Char) (text : List Char) : Line :=
  let cs := Text.trimStart (Text.trimEnd text)
  if isNothing cs then .nothing
  else
    match parseTarget cs with
    | none => .malformed
    | some (name, r) =>
      if isNothing r then .definition name []
      else
        match parseValue meaning (.text false) r with
        | some value => .definition name value
        | none => .malformed

end TaskRelay.Dotenv
