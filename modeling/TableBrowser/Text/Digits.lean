import TableBrowser.Text.Basic

/-!
# Digits

Numbers are written in decimal, and digits are read back.  Bytes are written with two
lower-case hexadecimal digits each and read in either case.
-/

namespace TableBrowser.Text

/-! ## Decimal digits -/

def digitChar (n : Nat) : Char :=
  Char.ofNat ('0'.toNat + n % 10)

def digitValue (c : Char) : Nat :=
  c.toNat - '0'.toNat

/-- The digits of a number, without leading zeros. -/
def ofNat (n : Nat) : Text :=
  if n < 10 then [digitChar n] else ofNat (n / 10) ++ [digitChar n]

def ofInt : Int → Text
  | .ofNat n => ofNat n
  | .negSucc n => '-' :: ofNat (n + 1)

/-- The value of a row of digits read after a number already read. -/
def digitsValue (start : Nat) (digits : Text) : Nat :=
  digits.foldl (fun value c => 10 * value + digitValue c) start

/-- Reads a non-empty row of digits; leading zeros are allowed. -/
def toNat? (t : Text) : Option Nat :=
  if t.isEmpty || !t.all isDigit then none else some (digitsValue 0 t)

/-- Reads a non-empty row of digits of a value below `bound`. -/
def toNatBelow? (bound : Nat) (t : Text) : Option Nat :=
  (toNat? t).filter (· < bound)

/-! ## Hexadecimal digits -/

/-- The lower-case digit of a value below sixteen. -/
def hexDigit (n : Nat) : Char :=
  if n < 10 then Char.ofNat ('0'.toNat + n) else Char.ofNat ('a'.toNat + (n - 10))

def hexValue? (c : Char) : Option Nat :=
  if isDigit c then some (c.toNat - '0'.toNat)
  else if 'a' ≤ c ∧ c ≤ 'f' then some (c.toNat - 'a'.toNat + 10)
  else if 'A' ≤ c ∧ c ≤ 'F' then some (c.toNat - 'A'.toNat + 10)
  else none

/-- Two lower-case digits a byte, the high half first. -/
def hexOfBytes (bytes : List UInt8) : Text :=
  bytes.flatMap fun b => [hexDigit (b.toNat / 16), hexDigit (b.toNat % 16)]

/-- Reads pairs of digits; refuses an odd digit and every other character. -/
def bytesOfHex? : Text → Option (List UInt8)
  | [] => some []
  | [_] => none
  | high :: low :: rest => do
    let h ← hexValue? high
    let l ← hexValue? low
    let bytes ← bytesOfHex? rest
    return UInt8.ofNat (16 * h + l) :: bytes

end TableBrowser.Text
