import TaskRelay.Double.Basic
import TaskRelay.Json.Members

/-!
# JSON values

A number is an integer of 64 bits, signed or unsigned, or else a double. The members of an object
stand in the order of their names.
-/

namespace TaskRelay.Json

inductive Number where
  /-- From `-2 ^ 63` to below `2 ^ 64`. -/
  | int (value : Int) (fits : -9223372036854775808 ≤ value ∧ value < 18446744073709551616)
  | double (d : Double)
deriving DecidableEq

inductive Value where
  | null
  | bool (b : Bool)
  | number (n : Number)
  | string (s : String)
  | array (items : List Value)
  | object (members : List (String × Value))
deriving Inhabited

namespace Number

/-- An integer never equals a double, and the two zeros among the doubles are equal. -/
def same : Number → Number → Bool
  | .int a _, .int b _ => a == b
  | .double a, .double b => a.same b
  | _, _ => false

def ofInt? (n : Int) : Option Number :=
  if h : -9223372036854775808 ≤ n ∧ n < 18446744073709551616 then some (.int n h) else none

end Number

namespace Value

mutual

/-- Equality of values, numbers by `Number.same`. -/
def same : Value → Value → Bool
  | .null, .null => true
  | .bool a, .bool b => a == b
  | .number a, .number b => a.same b
  | .string a, .string b => a == b
  | .array a, .array b => sameItems a b
  | .object a, .object b => sameMembers a b
  | _, _ => false

def sameItems : List Value → List Value → Bool
  | [], [] => true
  | a :: as, b :: bs => same a b && sameItems as bs
  | _, _ => false

def sameMembers : List (String × Value) → List (String × Value) → Bool
  | [], [] => true
  | (k, a) :: as, (l, b) :: bs => k == l && same a b && sameMembers as bs
  | _, _ => false

end

/-- The integer of a value that is one. -/
def int? : Value → Option Int
  | .number (.int n _) => some n
  | _ => none

/-- A natural number as a value; one of more than 64 bits has none. -/
def ofNat? (n : Nat) : Option Value := (Number.ofInt? n).map .number

end Value

end TaskRelay.Json
