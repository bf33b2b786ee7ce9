/-!
# Double-precision numbers

Finite binary64 numbers by their bits, with their exact magnitudes, and the rounding of a ratio to
the nearest of them. All arithmetic is on natural numbers, in units of `2 ^ -1074`, the smallest
positive magnitude.
-/

namespace TaskRelay

/-- A finite binary64 number. -/
structure Double where
  bits : UInt64
deriving DecidableEq

namespace Double

def negative (d : Double) : Bool := 1 <<< 63 ≤ d.bits.toNat

/-- The bits without the sign. -/
def magnitudeBits (d : Double) : Nat := d.bits.toNat % (1 <<< 63)

/-- The binary exponent of one step of the significand, in units of `2 ^ -1074`. -/
def scale (d : Double) : Nat := d.magnitudeBits >>> 52 - 1

/-- The significand with its leading bit, which numbers below the normal range lack. -/
def significand (d : Double) : Nat :=
  let fraction := d.magnitudeBits % (1 <<< 52)
  if d.magnitudeBits < 1 <<< 52 then fraction else 1 <<< 52 + fraction

/-- The magnitude, in units of `2 ^ -1074`. -/
def units (d : Double) : Nat := d.significand <<< d.scale

def isZero (d : Double) : Bool := d.magnitudeBits == 0

/-- Equality of the numbers: the two zeros are equal. -/
def same (a b : Double) : Bool := a == b || (a.isZero && b.isZero)

def zero : Double := ⟨0⟩

def negate (d : Double) : Double :=
  ⟨UInt64.ofNat (if d.negative then d.magnitudeBits else d.magnitudeBits + 1 <<< 63)⟩

/-! ## Rounding -/

/-- The quotient to the nearest integer, a tie to the even one. -/
def roundDiv (num den : Nat) : Nat :=
  let q := num / den
  let r := num % den
  if 2 * r < den then q else if den < 2 * r then q + 1 else q + q % 2

/--
The nearest double to `num / den` units, or none if it is too large. The bits of a magnitude are
its significand plus `2 ^ 52` for every step of its scale, so a significand that rounds up to
`2 ^ 53` carries into the scale by itself.
-/
def nearest? (num den : Nat) : Option Double :=
  let whole := num / den
  let scale := if whole < 1 <<< 53 then 0 else Nat.log2 whole - 52
  let bits := scale <<< 52 + roundDiv num (den <<< scale)
  if bits < 2047 <<< 52 then some ⟨UInt64.ofNat bits⟩ else none

def ofNat? (n : Nat) : Option Double := nearest? (n <<< 1074) 1

/-- The product of the magnitudes, rounded. -/
def times? (a b : Double) : Option Double := nearest? (a.units * b.units) (1 <<< 1074)

/-- The quotient of the magnitudes, rounded; for a divisor that is not zero. -/
def over? (a b : Double) : Option Double := nearest? (a.units <<< 1074) b.units

end Double

end TaskRelay
