import TaskRelay.Double.Scaled
import TaskRelay.Json.Fault

/-!
# The lexemes of JSON

Blanks, literals, strings and numbers at the front of a text. Each reader gives what it read and
what is left.
-/

namespace TaskRelay.Json

def isJsonBlank (c : Char) : Bool := c == ' ' || c == '\n' || c == '\t' || c == '\r'

def skipBlank (cs : List Char) : List Char := cs.dropWhile isJsonBlank

/-- Reads the rest of a literal, whose first letter has been read. -/
def readLiteral : List Char → List Char → Except Fault (List Char)
  | [], r => .ok r
  | _ :: _, [] => here .endInValue []
  | e :: es, c :: r => if c == e then readLiteral es r else past .expectedIdent (c :: r)

/-! ## Strings -/

/-- The value of four hexadecimal digits. -/
def unit? (a b c d : Char) : Option Nat := do
  let a ← Text.hexValue? a
  let b ← Text.hexValue? b
  let c ← Text.hexValue? c
  let d ← Text.hexValue? d
  return ((a * 16 + b) * 16 + c) * 16 + d

/-- Complains about an escape without four digits, of which four bytes are taken if there are. -/
def badUnit {α : Type} (r : List Char) : Except Fault α :=
  if byteSize r < 4 then here .endInString [] else .error ⟨.invalidEscape, r, 4⟩

def isLeadSurrogate (n : Nat) : Bool := 0xD800 ≤ n && n ≤ 0xDBFF

def isTrailSurrogate (n : Nat) : Bool := 0xDC00 ≤ n && n ≤ 0xDFFF

/-- The character of a surrogate pair. -/
def pairChar (lead trail : Nat) : Char :=
  Char.ofNat ((lead - 0xD800) * 0x400 + (trail - 0xDC00) + 0x10000)

/-- The character of a one-letter escape. -/
def letterEscape? (c : Char) : Option Char :=
  if c == '"' || c == '\\' || c == '/' then some c
  else if c == 'b' then some '\x08'
  else if c == 'f' then some '\x0c'
  else if c == 'n' then some '\n'
  else if c == 'r' then some '\r'
  else if c == 't' then some '\t'
  else none

/-- Puts a character in front of the text that was read. -/
def prepend (c : Char) : Except Fault (List Char × List Char) → Except Fault (List Char × List Char)
  | .ok (s, r) => .ok (c :: s, r)
  | .error f => .error f

/-- Reads a string whose opening quote has been read. -/
def readString : List Char → Except Fault (List Char × List Char)
  | [] => here .endInString []
  | '"' :: r => .ok ([], r)
  | ['\\'] => here .endInString []
  | '\\' :: 'u' :: r =>
    match r with
    | a :: b :: c :: d :: r₁ =>
      match unit? a b c d with
      | none => badUnit r
      | some n =>
        if isTrailSurrogate n then here .loneSurrogate r₁
        else if isLeadSurrogate n then
          match r₁ with
          | '\\' :: 'u' :: r₂ =>
            match r₂ with
            | a :: b :: c :: d :: r₃ =>
              match unit? a b c d with
              | none => badUnit r₂
              | some m =>
                if isTrailSurrogate m then prepend (pairChar n m) (readString r₃)
                else here .loneSurrogate r₃
            | _ => badUnit r₂
          | ['\\'] => here .endInString []
          | '\\' :: r₂ => past .endOfHexEscape r₂
          | [] => here .endInString []
          | _ => past .endOfHexEscape r₁
        else prepend (Char.ofNat n) (readString r₁)
    | _ => badUnit r
  | '\\' :: e :: r =>
    match letterEscape? e with
    | some c => prepend c (readString r)
    | none => past .invalidEscape (e :: r)
  | c :: r => if c.toNat < 0x20 then past .controlCharacter (c :: r) else prepend c (readString r)

/-- Goes over a string whose opening quote has been read. Its surrogates need not be paired. -/
def skipString : List Char → Except Fault (List Char)
  | [] => here .endInString []
  | '"' :: r => .ok r
  | ['\\'] => here .endInString []
  | '\\' :: 'u' :: r =>
    match r with
    | a :: b :: c :: d :: r₁ => if (unit? a b c d).isSome then skipString r₁ else badUnit r
    | _ => badUnit r
  | '\\' :: e :: r =>
    if (letterEscape? e).isSome then skipString r else past .invalidEscape (e :: r)
  | c :: r => if c.toNat < 0x20 then here .controlCharacter (c :: r) else skipString r

/-! ## Numbers -/

/--
Takes digits into `n` while it has no more than 64 bits. Gives `n`, the number of digits taken,
the number of digits after those, and what is left.
-/
def takeDigits (n : Nat) : List Char → Nat × Nat × Nat × List Char
  | [] => (n, 0, 0, [])
  | c :: r =>
    if Text.isDigit c then
      let m := 10 * n + Text.digitValue c
      if m < UInt64.size then
        let (v, taken, left, rest) := takeDigits m r
        (v, taken + 1, left, rest)
      else
        let more := r.takeWhile Text.isDigit
        (n, 0, more.length + 1, r.dropWhile Text.isDigit)
    else (n, 0, 0, c :: r)

/-- The double `±significand * 10 ^ exponent`. -/
def scaled (negative : Bool) (significand : Nat) (exponent : Int) (r : List Char) :
    Except Fault (Number × List Char) :=
  match Double.ofScaled? significand exponent with
  | some d => .ok (.double (if negative then d.negate else d), r)
  | none => here .numberOutOfRange r

/-- Reads the digits of an exponent below `2 ^ 31`; none if it is larger, with what is left. -/
def takeExponent (n : Nat) : List Char → Option Nat × List Char
  | [] => (some n, [])
  | c :: r =>
    if Text.isDigit c then
      let m := 10 * n + Text.digitValue c
      if m < 2147483648 then takeExponent m r else (none, r)
    else (some n, c :: r)

/-- Reads an exponent whose letter has been read. -/
def readExponent (negative : Bool) (significand : Nat) (start : Int) (r : List Char) :
    Except Fault (Number × List Char) :=
  let (down, r₁) := match r with
    | '+' :: r' => (false, r')
    | '-' :: r' => (true, r')
    | r' => (false, r')
  match r₁ with
  | [] => here .endInValue []
  | c :: r₂ =>
    if Text.isDigit c then
      match takeExponent (Text.digitValue c) r₂ with
      | (some e, r₃) => scaled negative significand (if down then start - e else start + e) r₃
      | (none, r₃) =>
        if significand ≠ 0 && !down then here .numberOutOfRange r₃
        else
          let z := if negative then Double.zero.negate else Double.zero
          .ok (.double z, r₃.dropWhile Text.isDigit)
    else past .invalidNumber r₁

/-- Reads a fraction whose point has been read, after an integer part `n * 10 ^ e`. -/
def readFraction (negative : Bool) (n : Nat) (e : Nat) (r : List Char) :
    Except Fault (Number × List Char) :=
  match r with
  | [] => here .endInValue []
  | c :: _ =>
    if Text.isDigit c then
      let (v, taken, _, r₁) := takeDigits n r
      match r₁ with
      | 'e' :: r₂ => readExponent negative v (e - taken) r₂
      | 'E' :: r₂ => readExponent negative v (e - taken) r₂
      | _ => scaled negative v (e - taken) r₁
    else past .invalidNumber r

/-- An integer of 64 bits; a negative one too large for that, and negative zero, are doubles. -/
def integerNumber (negative : Bool) (n : Nat) (r : List Char) : Except Fault (Number × List Char) :=
  if negative && n == 0 then .ok (.double Double.zero.negate, r)
  else
    match Number.ofInt? (if negative then -n else n) with
    | some x => .ok (x, r)
    | none => scaled negative n 0 r

/-- Goes on after the digits of an integer part, `extra` of which were too many for 64 bits. -/
def readAfterInteger (negative : Bool) (n extra : Nat) (r : List Char) :
    Except Fault (Number × List Char) :=
  match r with
  | '.' :: r₁ => readFraction negative n extra r₁
  | 'e' :: r₁ => readExponent negative n extra r₁
  | 'E' :: r₁ => readExponent negative n extra r₁
  | _ => if extra == 0 then integerNumber negative n r else scaled negative n extra r

/-- Reads a number whose sign, if any, has been read. -/
def readNumber (negative : Bool) : List Char → Except Fault (Number × List Char)
  | [] => here .endInValue []
  | c :: r =>
    if c == '0' then
      match r with
      | d :: _ => if Text.isDigit d then past .invalidNumber r else readAfterInteger negative 0 0 r
      | [] => readAfterInteger negative 0 0 r
    else if Text.isDigit c then
      let (n, _, extra, r₁) := takeDigits (Text.digitValue c) r
      readAfterInteger negative n extra r₁
    else past .invalidNumber (c :: r)

def skipDigits (cs : List Char) : List Char := cs.dropWhile Text.isDigit

/-- Goes over an exponent whose letter has been read. -/
def skipExponent (r : List Char) : Except Fault (List Char) :=
  let r₁ := match r with
    | '+' :: r' => r'
    | '-' :: r' => r'
    | r' => r'
  match r₁ with
  | [] => here .invalidNumber []
  | c :: r₂ => if Text.isDigit c then .ok (skipDigits r₂) else past .invalidNumber r₁

/-- Goes over what may follow the digits of a number. -/
def skipExponentIfAny : List Char → Except Fault (List Char)
  | 'e' :: r => skipExponent r
  | 'E' :: r => skipExponent r
  | r => .ok r

def skipAfterInteger : List Char → Except Fault (List Char)
  | '.' :: r =>
    match r with
    | [] => here .invalidNumber []
    | c :: _ => if Text.isDigit c then skipExponentIfAny (skipDigits r) else past .invalidNumber r
  | r => skipExponentIfAny r

/-- Goes over a number whose sign, if any, has been read, however large it is. -/
def skipNumber : List Char → Except Fault (List Char)
  | [] => here .invalidNumber []
  | c :: r =>
    if c == '0' then
      match r with
      | d :: _ => if Text.isDigit d then past .invalidNumber r else skipAfterInteger r
      | [] => skipAfterInteger r
    else if Text.isDigit c then skipAfterInteger (skipDigits r)
    else past .invalidNumber (c :: r)

end TaskRelay.Json
