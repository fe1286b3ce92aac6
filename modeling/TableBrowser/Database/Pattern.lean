import TableBrowser.Text.Basic

/-!
# Patterns

`LIKE` compares a text with a pattern in which a percent sign stands for any run
of characters and an underscore for one.  Every other character stands for itself
in either ASCII letter case, and nothing can be escaped.  Characters are compared
by their codes, since bytes that are no well-formed text are compared as well.

A search for the place where a run ends need not be taken up again once a search
behind it has found no place: what is left of the text would only be shorter.
-/

namespace TableBrowser.Database

/-- The code that stands for what is no character. -/
def replacementCode : Nat := 0xFFFD

/-- A code as it is compared: surrogates and the last two codes of the first plane
count as no characters. -/
def comparedCode (code : Nat) : Nat :=
  if code / 0x800 = 0x1B ∨ code / 2 = 0x7FFF then replacementCode else code

/-- The codes of a text, which ends at the first zero. -/
def codesOfText (t : Text) : List Nat :=
  (t.takeWhile (·.toNat ≠ 0)).map fun c => comparedCode c.toNat

/-- The bits of a code in the byte that begins a character of several bytes. -/
def leadBits (byte : Nat) : Nat :=
  if byte < 0xE0 then byte - 0xC0
  else if byte < 0xF0 then byte - 0xE0
  else if byte < 0xF8 then byte - 0xF0
  else if byte < 0xFC then byte - 0xF8
  else if byte < 0xFE then byte - 0xFC
  else 0

/-- The code of a character that has begun, of which there are no more bytes. -/
def codeOfBits (bits : Nat) : Nat :=
  if bits < 0x80 then replacementCode else comparedCode bits

/-- The codes of bytes that end at the first zero.  Any number of continuation bytes
may follow a leading byte, and one that follows none is a character by itself.
`begun?` holds the bits of a character that has begun. -/
def codesFrom : (begun? : Option Nat) → List UInt8 → List Nat
  | begun?, [] => (begun?.map codeOfBits).toList
  | begun?, byte :: rest =>
    let b := byte.toNat
    match begun?, b / 0x40 == 2 with
    | some bits, true => codesFrom (some ((bits * 0x40 + b % 0x40) % UInt32.size)) rest
    | _, _ =>
      (begun?.map codeOfBits).toList ++
        (if b = 0 then []
        else if b < 0xC0 then b :: codesFrom none rest
        else codesFrom (some (leadBits b)) rest)

def codesOfBytes (bytes : List UInt8) : List Nat :=
  codesFrom none bytes

def foldCase (code : Nat) : Nat :=
  if 65 ≤ code ∧ code ≤ 90 then code + 32 else code

def percentCode : Nat := 37

def underscoreCode : Nat := 95

inductive Comparing
  | fits
  | differs
  /-- Neither this text nor what is left of it after dropping characters fits. -/
  | exhausted
  deriving DecidableEq

/-- Compares with a text and with what is left of it after dropping characters, until
one of them fits or all are exhausted. -/
def comparingSuffixes (compare : List Nat → Comparing) : List Nat → Comparing
  | [] => if compare [] = .fits then .fits else .exhausted
  | c :: rest =>
    match compare (c :: rest) with
    | .differs => comparingSuffixes compare rest
    | result => result

def comparing : List Nat → List Nat → Comparing
  | [], t => if t.isEmpty then .fits else .differs
  | p :: pattern, t =>
    if p = percentCode then comparingSuffixes (comparing pattern) t
    else
      match t with
      | [] => .exhausted
      | c :: rest =>
        if p = underscoreCode ∨ foldCase p = foldCase c then comparing pattern rest
        else .differs

def matchesPattern (pattern t : List Nat) : Bool :=
  comparing pattern t == .fits

end TableBrowser.Database
