import TaskRelay.Json.Lexeme

/-!
# Going over a value

A value whose content is not wanted is gone over with the open brackets in a list, so that its
nesting may be of any depth.
-/

namespace TaskRelay.Json

inductive Bracket where
  | list
  | object
deriving DecidableEq

/-- Reads the colon between a key and its value. -/
def readColon (r : List Char) : Except Fault (List Char) :=
  match skipBlank r with
  | [] => here .endInObject []
  | ':' :: r₁ => .ok r₁
  | r₁ => past .expectedColon r₁

/-- Goes over a key and its colon. -/
def skipKey (r : List Char) : Except Fault (List Char) :=
  match skipBlank r with
  | [] => here .endInObject []
  | '"' :: r₁ => skipString r₁ >>= readColon
  | r₁ => past .keyMustBeString r₁

/-- Goes over a value that is neither a list nor an object. -/
def skipScalar : List Char → Except Fault (List Char)
  | [] => here .endInValue []
  | 'n' :: r => readLiteral ['u', 'l', 'l'] r
  | 't' :: r => readLiteral ['r', 'u', 'e'] r
  | 'f' :: r => readLiteral ['a', 'l', 's', 'e'] r
  | '"' :: r => skipString r
  | '-' :: r => skipNumber r
  | c :: r => if Text.isDigit c then skipNumber (c :: r) else past .expectedValue (c :: r)

/-- What is wanted next: a value, or what may follow one. -/
inductive Want where
  | value
  | next

/--
Goes over all that the open brackets `fs` still want. Each step but the last takes a character, so
one step more than there are characters is enough.
-/
def skipOpen : Nat → Want → List Bracket → List Char → Except Fault (List Char)
  | _, .next, [], r => .ok r
  | 0, _, _, r => here .endInValue r
  | fuel + 1, .value, fs, r =>
    match skipBlank r with
    | '[' :: r₁ =>
      match skipBlank r₁ with
      | [] => here .endInList []
      | ']' :: r₂ => skipOpen fuel .next fs r₂
      | r₂ => skipOpen fuel .value (.list :: fs) r₂
    | '\x7b' :: r₁ =>
      match skipBlank r₁ with
      | [] => here .endInObject []
      | '\x7d' :: r₂ => skipOpen fuel .next fs r₂
      | r₂ =>
        match skipKey r₂ with
        | .ok r₃ => skipOpen fuel .value (.object :: fs) r₃
        | .error e => .error e
    | r₁ =>
      match skipScalar r₁ with
      | .ok r₂ => skipOpen fuel .next fs r₂
      | .error e => .error e
  | fuel + 1, .next, .list :: fs, r =>
    match skipBlank r with
    | [] => here .endInList []
    | ',' :: r₁ => skipOpen fuel .value (.list :: fs) r₁
    | ']' :: r₁ => skipOpen fuel .next fs r₁
    | r₁ => past .expectedCommaOrBracket r₁
  | fuel + 1, .next, .object :: fs, r =>
    match skipBlank r with
    | [] => here .endInObject []
    | ',' :: r₁ =>
      match skipKey r₁ with
      | .ok r₂ => skipOpen fuel .value (.object :: fs) r₂
      | .error e => .error e
    | '\x7d' :: r₁ => skipOpen fuel .next fs r₁
    | r₁ => past .expectedCommaOrBrace r₁

def skipValue (r : List Char) : Except Fault (List Char) := skipOpen (r.length + 1) .value [] r

end TaskRelay.Json
