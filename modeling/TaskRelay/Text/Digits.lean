/-!
# Digits

Numbers in decimal and in lower-case hexadecimal, and the values of digit characters.
-/

namespace TaskRelay.Text

/-- The shortest decimal text, without leading zeros. -/
def decimal (n : Nat) : List Char := Nat.toDigits 10 n

def decimalInt : Int → List Char
  | .ofNat n => decimal n
  | .negSucc n => '-' :: decimal (n + 1)

/-- The shortest hexadecimal text, in lower case. -/
def hex (n : Nat) : List Char := Nat.toDigits 16 n

def isDigit (c : Char) : Bool := 48 ≤ c.toNat && c.toNat ≤ 57

/-- Meaningful where `isDigit` holds. -/
def digitValue (c : Char) : Nat := c.toNat - 48

/-- The value of a hexadecimal digit, in either case. -/
def hexValue? (c : Char) : Option Nat :=
  let n := c.toNat
  if 48 ≤ n && n ≤ 57 then some (n - 48)
  else if 97 ≤ n && n ≤ 102 then some (n - 87)
  else if 65 ≤ n && n ≤ 70 then some (n - 55)
  else none

end TaskRelay.Text
