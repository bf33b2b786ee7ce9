import TaskRelay.Double.Basic

/-!
# Numbers scaled by powers of ten

A significand of 64 bits times a power of ten, with one rounding for the significand and one for
each product or quotient by a power.
-/

namespace TaskRelay.Double

/-- The largest power of ten that is a double. -/
def maxPower : Nat := 308

def powerOfTen? (n : Nat) : Option Double := ofNat? (Nat.pow 10 n)

/-- Division by `10 ^ n`, in steps of at most `10 ^ maxPower`. -/
def divPower? (d : Double) (n : Nat) : Option Double :=
  if n ≤ maxPower then powerOfTen? n >>= d.over?
  else if d.isZero then some d
  else do
    let p ← powerOfTen? maxPower
    let q ← d.over? p
    divPower? q (n - maxPower)
termination_by n
decreasing_by simp only [maxPower] at *; omega

/-- Multiplication by `10 ^ n`, or none if the result is too large. -/
def mulPower? (d : Double) (n : Nat) : Option Double :=
  if n ≤ maxPower then powerOfTen? n >>= d.times?
  else if d.isZero then some d
  else none

/-- `significand * 10 ^ exponent`, or none if it is too large. -/
def ofScaled? (significand : Nat) (exponent : Int) : Option Double := do
  let d ← ofNat? significand
  match exponent with
  | .ofNat n => d.mulPower? n
  | .negSucc n => d.divPower? (n + 1)

end TaskRelay.Double
