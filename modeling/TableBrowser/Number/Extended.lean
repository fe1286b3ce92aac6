import TableBrowser.Number.Binary64

/-!
# Extended precision

Positive numbers with a significand of at most 64 bits, of which products are
rounded to the nearest, a half to the even neighbour.  They carry a number between
its decimal and its double form: it is multiplied by powers of ten here, one factor
after the other, and every product is rounded.
-/

namespace TableBrowser

/-- The number `significand * 2 ^ exponent`. -/
structure Extended where
  significand : Nat
  exponent : Int
  deriving DecidableEq

namespace Extended

open Binary64 (twoTo tenTo)

/-- The number nearest to a quotient that is not zero. -/
def ofRatio (numerator denominator : Nat) : Extended :=
  let exponent := Binary64.exponentFor 64 numerator denominator
  let significand := Binary64.scaledQuotient numerator denominator exponent
  if significand = twoTo 64 then ⟨twoTo 63, exponent + 1⟩ else ⟨significand, exponent⟩

def ofNat (n : Nat) : Extended :=
  ofRatio n 1

/-- The nearest number to a power of ten. -/
def powerOfTen : Int → Extended
  | .ofNat e => ofNat (tenTo e)
  | .negSucc e => ofRatio 1 (tenTo (e + 1))

def mul (a b : Extended) : Extended :=
  let product := ofNat (a.significand * b.significand)
  ⟨product.significand, product.exponent + a.exponent + b.exponent⟩

/-- Multiplies by a factor several times. -/
def mulTimes (factor : Extended) : Nat → Extended → Extended
  | 0, a => a
  | times + 1, a => mulTimes factor times (a.mul factor)

/-- Multiplies by powers of ten until the exponent is used up: hundreds first, then
tens, then ones. -/
def scale (a : Extended) (exponent : Int) : Extended :=
  let steps := exponent.natAbs
  let unit (n : Int) : Extended := powerOfTen (if exponent < 0 then -n else n)
  mulTimes (unit 1) (steps % 10)
    (mulTimes (unit 10) (steps / 10 % 10) (mulTimes (unit 100) (steps / 100) a))

/-- The order of the values. -/
def order (a b : Extended) : Ordering :=
  Binary64.compareScaled a.significand a.exponent b.significand b.exponent

def lt (a b : Extended) : Bool :=
  (order a b).isLT

/-- The whole part. -/
def floor (a : Extended) : Nat :=
  match a.exponent with
  | .ofNat e => a.significand * twoTo e
  | .negSucc e => a.significand / twoTo (e + 1)

/-- The largest finite number of the double format. -/
def largestDouble : Extended :=
  ⟨twoTo 53 - 1, Binary64.maxExponent⟩

/-- The nearest double; numbers above the largest one are infinite. -/
def toBinary64 (negative : Bool) (a : Extended) : Binary64 :=
  if lt largestDouble a then .infinite negative
  else
    match a.exponent with
    | .ofNat e => Binary64.ofRatio negative (a.significand * twoTo e) 1
    | .negSucc e => Binary64.ofRatio negative a.significand (twoTo (e + 1))

end Extended

end TableBrowser
