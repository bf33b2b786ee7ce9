import TaskRelay.Double.Basic
import TaskRelay.Text.Digits

/-!
# Shortest decimals

The decimal with the fewest digits that rounds to a given double, and the nearest of those. The
magnitudes that round to a double form an interval, whose ends belong to it if the significand is
even. On the grid of decimals with a given number of digits only the two neighbours of the double
can be the nearest point of the interval.
-/

namespace TaskRelay.Double

/-- The decimal `digits * 10 ^ exponent`. -/
structure Decimal where
  digits : Nat
  exponent : Int
deriving DecidableEq

/-- Quarters of the unit, so that the ends of the interval are whole numbers. -/
def quarters (d : Double) : Nat := 4 * d.units

/-- The gap to the next smaller double is half as wide below a power of two. -/
def low (d : Double) : Nat :=
  d.quarters - (if d.significand == 1 <<< 52 && 0 < d.scale then 1 else 2) <<< d.scale

def high (d : Double) : Nat := d.quarters + 2 <<< d.scale

/-- Whether `num / den` quarters round to `d`. -/
def covers (d : Double) (num den : Nat) : Bool :=
  if d.significand % 2 == 0 then d.low * den ≤ num && num ≤ d.high * den
  else d.low * den < num && num < d.high * den

/-- `10 ^ p` as a number of quarters over a denominator. -/
def gridStep (p : Int) : Nat × Nat :=
  match p with
  | .ofNat n => (Nat.pow 10 n <<< 1076, 1)
  | .negSucc n => (1 <<< 1076, Nat.pow 10 (n + 1))

/-- The nearest point of the interval on the grid of multiples of `10 ^ p`, if one lies there. -/
def onGrid? (d : Double) (p : Int) : Option Nat :=
  let (step, den) := gridStep p
  let below := d.quarters * den / step
  let rest := d.quarters * den % step
  let hitsBelow := d.covers (below * step) den
  let hitsAbove := d.covers ((below + 1) * step) den
  match hitsBelow, hitsAbove with
  | true, true =>
    some (if 2 * rest < step || (2 * rest == step && below % 2 == 0) then below else below + 1)
  | true, false => some below
  | false, true => some (below + 1)
  | false, false => none

/-- The exponent of the leading decimal digit. -/
def leadingExponent (d : Double) : Int :=
  ((Text.decimal ((d.quarters * Nat.pow 10 340) >>> 1076)).length : Int) - 341

/-- Drops the zeros at the end, at most `fuel` of them. -/
def stripZeros : Nat → Decimal → Decimal
  | 0, x => x
  | fuel + 1, x =>
    if x.digits ≠ 0 && x.digits % 10 == 0 then stripZeros fuel ⟨x.digits / 10, x.exponent + 1⟩
    else x

/-- Tries grids of one digit more each time. -/
def shortestFrom (d : Double) : Nat → Int → Decimal
  | 0, p => ⟨d.quarters, p⟩
  | fuel + 1, p =>
    match d.onGrid? p with
    | some digits => stripZeros 20 ⟨digits, p⟩
    | none => shortestFrom d fuel (p - 1)

/-- The shortest decimal of a magnitude that is not zero; seventeen digits are always enough. -/
def shortest (d : Double) : Decimal := shortestFrom d 17 d.leadingExponent

end TaskRelay.Double
