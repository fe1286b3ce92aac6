import TableBrowser.Number.Binary64
import TableBrowser.Text.Digits

/-!
# Decimal digits of floating-point numbers

A finite number is written in decimal by the fewest digits that round back to it.
They are found as a whole number and a power of ten; how these are laid out is a
format's business.
-/

namespace TableBrowser.Binary64

/-- A decimal number `digits * 10 ^ scale`. -/
structure Decimal where
  digits : Nat
  scale : Int

namespace Decimal

def withoutTrailingZeros (fuel : Nat) (d : Decimal) : Decimal :=
  match fuel with
  | 0 => d
  | fuel + 1 =>
    if d.digits ≠ 0 ∧ d.digits % 10 = 0 then
      withoutTrailingZeros fuel ⟨d.digits / 10, d.scale + 1⟩
    else d

end Decimal

/-- A positive quotient of whole numbers. -/
structure Ratio where
  numerator : Nat
  denominator : Nat

namespace Ratio

/-- `n * 2 ^ e`. -/
def ofBinary (n : Nat) : Int → Ratio
  | .ofNat e => ⟨n * twoTo e, 1⟩
  | .negSucc e => ⟨n, twoTo (e + 1)⟩

/-- `n * 10 ^ e`. -/
def ofDecimal (n : Nat) : Int → Ratio
  | .ofNat e => ⟨n * tenTo e, 1⟩
  | .negSucc e => ⟨n, tenTo (e + 1)⟩

def lt (a b : Ratio) : Bool :=
  a.numerator * b.denominator < b.numerator * a.denominator

def le (a b : Ratio) : Bool :=
  !lt b a

/-- The whole part of the quotient by `10 ^ e`. -/
def floorScaled (a : Ratio) : Int → Nat
  | .ofNat e => a.numerator / (a.denominator * tenTo e)
  | .negSucc e => a.numerator * tenTo (e + 1) / a.denominator

/-- Twice the quotient by `10 ^ e`, rounded down. -/
def twiceFloorScaled (a : Ratio) : Int → Nat
  | .ofNat e => 2 * a.numerator / (a.denominator * tenTo e)
  | .negSucc e => 2 * a.numerator * tenTo (e + 1) / a.denominator

/-- The exponent of the first decimal digit, found by stepping from a guess. -/
def leadingExponent (a : Ratio) : Int :=
  let guess : Int :=
    ((Nat.log2 a.numerator : Int) - Nat.log2 a.denominator) * 30103 / 100000
  if floorScaled a (guess + 1) ≠ 0 then guess + 1
  else if floorScaled a guess ≠ 0 then guess
  else guess - 1

end Ratio

/-- The numbers that round to a given one lie between these two bounds. -/
structure RoundingRange where
  low : Ratio
  high : Ratio
  closed : Bool

/-- Half a step on either side; below a power of two the steps are half as wide.
The ends belong to the range when the significand is even. -/
def roundingRange (significand : Nat) (exponent : Int) : RoundingRange :=
  let low :=
    if significand = twoTo 52 ∧ exponent ≠ minExponent then
      Ratio.ofBinary (4 * significand - 1) (exponent - 2)
    else Ratio.ofBinary (2 * significand - 1) (exponent - 1)
  ⟨low, Ratio.ofBinary (2 * significand + 1) (exponent - 1), significand % 2 = 0⟩

def RoundingRange.holds (range : RoundingRange) (a : Ratio) : Bool :=
  if range.closed then range.low.le a && a.le range.high
  else range.low.lt a && a.lt range.high

/-- The nearest point of the grid of step `10 ^ scale` that lies in the range. -/
def nearestOnGrid? (range : RoundingRange) (value : Ratio) (scale : Int) : Option Decimal :=
  let below := value.floorScaled scale
  let upperFirst := value.twiceFloorScaled scale % 2 = 1
  let candidates := if upperFirst then [below + 1, below] else [below, below + 1]
  (candidates.find? fun n => n ≠ 0 && range.holds (Ratio.ofDecimal n scale)).map (⟨·, scale⟩)

/-- The fewest digits that round back to a positive number: of the grids of one,
two and more digits the first that has a point in the rounding range. -/
def shortest (significand : Nat) (exponent : Int) : Decimal :=
  let value := Ratio.ofBinary significand exponent
  let range := roundingRange significand exponent
  let leading := value.leadingExponent
  let grids := (List.range 18).filterMap fun (n : Nat) => nearestOnGrid? range value (leading - n)
  (grids.head?.getD ⟨value.floorScaled (leading - 17), leading - 17⟩).withoutTrailingZeros 20

/-- The layout in which numbers appear in JSON: positional from `10 ^ -5` to
`10 ^ 16`, with a point always, and otherwise one digit before the point and an
exponent. -/
def Decimal.positional (d : Decimal) : Text :=
  let digits := Text.ofNat d.digits
  let count := digits.length
  let point : Int := count + d.scale
  if 0 ≤ d.scale ∧ point ≤ 16 then
    digits ++ List.replicate d.scale.toNat '0' ++ ".0"
  else if 0 < point ∧ point ≤ 16 then
    digits.take point.toNat ++ "." ++ digits.drop point.toNat
  else if -5 < point ∧ point ≤ 0 then
    "0." ++ List.replicate (-point).toNat '0' ++ digits
  else
    let fraction := if count = 1 then [] else '.' :: digits.drop 1
    digits.take 1 ++ fraction ++ "e" ++ Text.ofInt (point - 1)

/-- Text of a finite number by its fewest digits. -/
def shortestText (negative : Bool) (significand : Nat) (exponent : Int) : Text :=
  let magnitude : Text :=
    if significand = 0 then "0.0" else (shortest significand exponent).positional
  if negative then '-' :: magnitude else magnitude

end TableBrowser.Binary64
