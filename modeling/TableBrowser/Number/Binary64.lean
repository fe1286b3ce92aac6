/-!
# Binary floating-point numbers

Numbers of the double format, kept as a sign, a whole significand and a power
of two, so that rounding, order and conversion are exact integer arithmetic.
A finite number is in its one stored form when the significand is below
`2 ^ 53` and as large as the least exponent allows.
-/

namespace TableBrowser

inductive Binary64
  | finite (negative : Bool) (significand : Nat) (exponent : Int)
  | infinite (negative : Bool)
  | nan
  deriving DecidableEq

namespace Binary64

def twoTo (e : Nat) : Nat := Nat.pow 2 e

def tenTo (e : Nat) : Nat := Nat.pow 10 e

/-- Exponent of the smallest steps of the format. -/
def minExponent : Int := -1074

/-- Exponent of the largest steps of the format. -/
def maxExponent : Int := 971

def zero : Binary64 := .finite false 0 minExponent

/-- The nearest whole number to a quotient; a half goes to the even neighbour. -/
def roundHalfEven (numerator denominator : Nat) : Nat :=
  let quotient := numerator / denominator
  let twice := 2 * (numerator % denominator)
  if twice < denominator then quotient
  else if denominator < twice then quotient + 1
  else if quotient % 2 = 0 then quotient
  else quotient + 1

/-- The quotient of two numbers divided by a power of two, rounded. -/
def scaledQuotient (numerator denominator : Nat) (exponent : Int) : Nat :=
  match exponent with
  | .ofNat e => roundHalfEven numerator (denominator * twoTo e)
  | .negSucc e => roundHalfEven (numerator * twoTo (e + 1)) denominator

/-- Whether the quotient of two numbers is below a power of two times `bound`. -/
def quotientBelow (numerator denominator bound : Nat) (exponent : Int) : Bool :=
  match exponent with
  | .ofNat e => numerator < bound * twoTo e * denominator
  | .negSucc e => numerator * twoTo (e + 1) < bound * denominator

/-- The exponent for which the significand of a quotient has a number of bits. -/
def exponentFor (bits numerator denominator : Nat) : Int :=
  let guess : Int := (Nat.log2 numerator : Int) - Nat.log2 denominator - (bits - 1 : Nat)
  if quotientBelow numerator denominator (twoTo (bits - 1)) guess then guess - 1 else guess

/-- The number of the format nearest to a quotient. -/
def ofRatio (negative : Bool) (numerator denominator : Nat) : Binary64 :=
  if numerator = 0 then .finite negative 0 minExponent
  else
    let exponent := max (exponentFor 53 numerator denominator) minExponent
    let significand := scaledQuotient numerator denominator exponent
    let (significand, exponent) :=
      if significand = twoTo 53 then (twoTo 52, exponent + 1) else (significand, exponent)
    if maxExponent < exponent then .infinite negative
    else .finite negative significand exponent

/-- The number nearest to `digits * 10 ^ scale`.  Scales far outside the range
of the format are answered without computing the power. -/
def ofDecimal (negative : Bool) (digits : Nat) (scale : Int) : Binary64 :=
  if digits = 0 then .finite negative 0 minExponent
  else
    let magnitude : Int := (Nat.log2 digits : Int) * 3 / 10 + scale
    if 400 < magnitude then .infinite negative
    else if magnitude + (Nat.log2 digits : Int) / 10 + 2 < -400 then
      .finite negative 0 minExponent
    else
      match scale with
      | .ofNat s => ofRatio negative (digits * tenTo s) 1
      | .negSucc s => ofRatio negative digits (tenTo (s + 1))

def ofInt (n : Int) : Binary64 :=
  ofRatio (n < 0) n.natAbs 1

/-- A finite number's significand with its sign. -/
def signed (negative : Bool) (significand : Nat) : Int :=
  if negative then -(significand : Int) else significand

/-- Order of `m * 2 ^ e` and `n * 2 ^ f`. -/
def compareScaled (m e n f : Int) : Ordering :=
  let least := min e f
  compare (m * twoTo (e - least).toNat) (n * twoTo (f - least).toNat)

/-- Order of the values; the format's undefined number comes before all others. -/
def order : Binary64 → Binary64 → Ordering
  | .nan, .nan => .eq
  | .nan, _ => .lt
  | _, .nan => .gt
  | .infinite a, .infinite b =>
    if a = b then .eq else if a then .lt else .gt
  | .infinite a, .finite .. => if a then .lt else .gt
  | .finite .., .infinite b => if b then .gt else .lt
  | .finite a m e, .finite b n f =>
    compareScaled (signed a m) e (signed b n) f

/-- Order of a whole number and a floating-point number, without rounding. -/
def orderInt (n : Int) : Binary64 → Ordering
  | .nan => .gt
  | .infinite negative => if negative then .gt else .lt
  | .finite negative m e => compareScaled n 0 (signed negative m) e

/-- The value as a whole number, if it is one. -/
def toInt? : Binary64 → Option Int
  | .finite negative m e =>
    match e with
    | .ofNat s => some (signed negative (m * twoTo s))
    | .negSucc s =>
      if m % twoTo (s + 1) = 0 then some (signed negative (m / twoTo (s + 1))) else none
  | _ => none

end Binary64

end TableBrowser
