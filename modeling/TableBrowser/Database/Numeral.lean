import TableBrowser.Number.Digits
import TableBrowser.Number.Extended

/-!
# Numerals of the database

The database reads decimals into a significand of 64 bits and scales it by powers
of ten in extended precision, so what it reads is not always the nearest number.
It writes a number the same way back: scaled to eighteen or nineteen digits, of
which fifteen are kept.
-/

namespace TableBrowser.Database

open TableBrowser.Binary64 (Decimal)

/-- A significand that has reached this bound takes in no more digits. -/
def fullSignificand : Nat := (UInt64.size - 10) / 10

/-- A significand below this bound can be multiplied by ten. -/
def growthBound : Nat := (UInt64.size - 1) / 10

def takeWhole (d : Decimal) (c : Char) : Decimal :=
  if d.digits < fullSignificand then ⟨10 * d.digits + Text.digitValue c, d.scale⟩
  else ⟨d.digits, d.scale + 1⟩

def takeFraction (d : Decimal) (c : Char) : Decimal :=
  if d.digits < fullSignificand then ⟨10 * d.digits + Text.digitValue c, d.scale - 1⟩
  else d

/-- The value of the digits of an exponent; beyond five digits it grows no more. -/
def exponentValue (digits : Text) : Nat :=
  digits.foldl (fun e c => if e < 10000 then 10 * e + Text.digitValue c else 10000) 0

/-- Brings the power of ten as near to one as the significand allows; each step
takes one unit of fuel. -/
def withSmallScale : Nat → Decimal → Decimal
  | 0, d => d
  | fuel + 1, d =>
    if 0 < d.scale ∧ d.digits < growthBound then
      withSmallScale fuel ⟨10 * d.digits, d.scale - 1⟩
    else if d.scale < 0 ∧ d.digits % 10 = 0 then
      withSmallScale fuel ⟨d.digits / 10, d.scale + 1⟩
    else d

def doubleOfDecimal (negative : Bool) (d : Decimal) : Binary64 :=
  if d.digits = 0 then .finite negative 0 Binary64.minExponent
  else
    let small := withSmallScale 20 d
    if small.scale = 0 then .ofRatio negative small.digits 1
    else ((Extended.ofNat small.digits).scale small.scale).toBinary64 negative

/-- A number as it is written: its sign, the digits before the point, those behind
it, and the exponent. -/
structure Numeral where
  negative : Bool
  whole : Text
  fraction? : Option Text
  exponent? : Option Int

namespace Numeral

def toDouble (n : Numeral) : Binary64 :=
  let d := (n.fraction?.getD []).foldl takeFraction (n.whole.foldl takeWhole ⟨0, 0⟩)
  doubleOfDecimal n.negative ⟨d.digits, d.scale + n.exponent?.getD 0⟩

def toInt? (n : Numeral) : Option Int :=
  if n.fraction?.isNone && n.exponent?.isNone then
    some (Binary64.signed n.negative (Text.digitsValue 0 n.whole))
  else none

end Numeral

/-- A number on its way to a row of digits: `value * 10 ^ exponent`. -/
structure Scaled where
  value : Extended
  exponent : Int

namespace Scaled

/-- Multiplies by a power of ten as long as a test holds; each step takes one unit
of fuel. -/
def moveWhile (test : Extended → Bool) (power : Int) : Nat → Scaled → Scaled
  | 0, a => a
  | fuel + 1, a =>
    if test a.value then
      moveWhile test power fuel ⟨a.value.mul (.powerOfTen power), a.exponent - power⟩
    else a

def inDigitRange (a : Scaled) : Scaled :=
  let isBelow (power : Int) (value : Extended) : Bool := value.lt (.powerOfTen power)
  let isFrom (power : Int) (value : Extended) : Bool := !isBelow power value
  if isFrom 19 a.value then
    moveWhile (isFrom 19) (-1) 12
      (moveWhile (isFrom 29) (-10) 12 (moveWhile (isFrom 119) (-100) 12 a))
  else
    moveWhile (isBelow 17) 1 12
      (moveWhile (isBelow 7) 10 12 (moveWhile (isBelow (-97)) 100 12 a))

end Scaled

/-- A positive number rounded to fifteen digits, the last of them upwards when a
digit from five on is dropped. -/
def fifteenDigits (significand : Nat) (exponent : Int) : Decimal :=
  let scaled := Scaled.inDigitRange ⟨⟨significand, exponent⟩, 0⟩
  let digits := scaled.value.floor
  let dropped := (Text.ofNat digits).length - 15
  let rounded := (digits / Binary64.tenTo (dropped - 1) + 5) / 10
  Decimal.withoutTrailingZeros 16 ⟨rounded, scaled.exponent + dropped⟩

/-- The layout of numbers turned into text by the database: positional from
`10 ^ -4` up to below `10 ^ 15`, with at least one digit on either side of the point, and
otherwise with a signed exponent of at least two digits. -/
def layOut (d : Decimal) : Text :=
  let digits := Text.ofNat d.digits
  let point : Int := digits.length + d.scale
  let leading := point - 1
  if leading < -4 ∨ 14 < leading then
    let fraction := if digits.length = 1 then ['0'] else digits.drop 1
    let magnitude := Text.ofNat leading.natAbs
    digits.take 1 ++ "." ++ fraction ++ "e" ++ (if leading < 0 then "-" else "+") ++
      (if magnitude.length = 1 then '0' :: magnitude else magnitude)
  else if point ≤ 0 then
    "0." ++ List.replicate (-point).toNat '0' ++ digits
  else
    let padded := digits ++ List.replicate d.scale.toNat '0'
    let fraction := padded.drop point.toNat
    padded.take point.toNat ++ "." ++ (if fraction.isEmpty then ['0'] else fraction)

def numberText : Binary64 → Text
  | .nan => []
  | .infinite negative => if negative then "-Inf" else "Inf"
  | .finite negative significand exponent =>
    if significand = 0 then "0.0"
    else
      let magnitude := layOut (fifteenDigits significand exponent)
      if negative then '-' :: magnitude else magnitude

end TableBrowser.Database
