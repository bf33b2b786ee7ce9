import TaskRelay.Double.Shortest
import TaskRelay.Json.Value

/-!
# Compact JSON text

No spaces, members in the order in which they stand, the shortest text of each number, and only the
escapes that JSON demands.
-/

namespace TaskRelay.Json

/-! ## Strings -/

def escape (c : Char) : List Char :=
  if c == '"' || c == '\\' then ['\\', c]
  else if c == '\x08' then ['\\', 'b']
  else if c == '\t' then ['\\', 't']
  else if c == '\n' then ['\\', 'n']
  else if c == '\x0c' then ['\\', 'f']
  else if c == '\r' then ['\\', 'r']
  else if c.toNat < 0x20 then
    ['\\', 'u', '0', '0', Nat.digitChar (c.toNat / 16), Nat.digitChar (c.toNat % 16)]
  else [c]

def stringChars (s : List Char) : List Char := '"' :: s.flatMap escape ++ ['"']

/-! ## Numbers -/

/-- The exponents of the leading digit for which a number is written without an exponent. -/
structure Layout where
  least : Int
  below : Int

/-- Doubles are written without an exponent from `0.00001` up to sixteen digits before the point. -/
def numberLayout : Layout := ⟨-5, 16⟩

def zeros (n : Nat) : List Char := List.replicate n '0'

/-- The decimal with digits `ds`, the leading one at `10 ^ e`, without an exponent. -/
def positional (ds : List Char) (e : Int) : List Char :=
  match e with
  | .ofNat n =>
    if ds.length ≤ n + 1 then ds ++ zeros (n + 1 - ds.length) ++ ['.', '0']
    else ds.take (n + 1) ++ '.' :: ds.drop (n + 1)
  | .negSucc n => ['0', '.'] ++ zeros n ++ ds

/-- The decimal with digits `ds`, the leading one at `10 ^ e`, with a signed exponent. -/
def scientific (ds : List Char) (e : Int) : List Char :=
  let mantissa := match ds with
    | [] => []
    | [d] => [d]
    | d :: rest => d :: '.' :: rest
  let sign := if e < 0 then [] else ['+']
  mantissa ++ 'e' :: sign ++ Text.decimalInt e

def magnitudeChars (layout : Layout) (d : Double) : List Char :=
  if d.isZero then ['0', '.', '0']
  else
    let x := d.shortest
    let ds := Text.decimal x.digits
    let e := x.exponent + ds.length - 1
    if layout.least ≤ e && e < layout.below then positional ds e else scientific ds e

def doubleChars (d : Double) : List Char :=
  (if d.negative then ['-'] else []) ++ magnitudeChars numberLayout d

def Number.chars : Number → List Char
  | .int n _ => Text.decimalInt n
  | .double d => doubleChars d

/-! ## Values -/

def boolChars (b : Bool) : List Char :=
  if b then ['t', 'r', 'u', 'e'] else ['f', 'a', 'l', 's', 'e']

mutual

def Value.chars : Value → List Char
  | .null => ['n', 'u', 'l', 'l']
  | .bool b => boolChars b
  | .number n => n.chars
  | .string s => stringChars s.toList
  | .array items => '[' :: itemChars items ++ [']']
  | .object members => '\x7b' :: memberChars members ++ ['\x7d']

/-- The items, with a comma after each but the last. -/
def itemChars : List Value → List Char
  | [] => []
  | [v] => v.chars
  | v :: w :: rest => v.chars ++ ',' :: itemChars (w :: rest)

def memberChars : List (String × Value) → List Char
  | [] => []
  | [(k, v)] => stringChars k.toList ++ ':' :: v.chars
  | (k, v) :: m :: rest => stringChars k.toList ++ ':' :: v.chars ++ ',' :: memberChars (m :: rest)

end

def Value.text (v : Value) : String := String.ofList v.chars

end TaskRelay.Json
