import TableBrowser.Text.Basic

/-!
# UTF-8

Bytes are decoded one at a time.  A character whose bytes break off is one
ill-formed part, however many of its bytes were well formed, and so is every
byte that begins no character.  `decode` shows the ill-formed parts; the two
readers refuse them or put the replacement character in their place.
-/

namespace TableBrowser.Text

/-- A character that has begun: the continuation bytes it still needs, the range
of the next of them, and the bits read so far. -/
structure PartialChar where
  owed : Nat
  low : Nat
  high : Nat
  bits : Nat

/-- What a byte between characters begins. -/
inductive LeadByte
  | whole (c : Char)
  | first (part : PartialChar)
  | illFormed

def leadByte (b : Nat) : LeadByte :=
  if b < 0x80 then .whole (Char.ofNat b)
  else if 0xC2 ≤ b ∧ b ≤ 0xDF then .first ⟨1, 0x80, 0xBF, b - 0xC0⟩
  else if b = 0xE0 then .first ⟨2, 0xA0, 0xBF, 0⟩
  else if b = 0xED then .first ⟨2, 0x80, 0x9F, 0xD⟩
  else if 0xE1 ≤ b ∧ b ≤ 0xEF then .first ⟨2, 0x80, 0xBF, b - 0xE0⟩
  else if b = 0xF0 then .first ⟨3, 0x90, 0xBF, 0⟩
  else if 0xF1 ≤ b ∧ b ≤ 0xF3 then .first ⟨3, 0x80, 0xBF, b - 0xF0⟩
  else if b = 0xF4 then .first ⟨3, 0x80, 0x8F, 4⟩
  else .illFormed

/-- The characters of a row of bytes, `none` for each ill-formed part. -/
def decodeFrom : Option PartialChar → List UInt8 → List (Option Char)
  | none, [] => []
  | some _, [] => [none]
  | none, b :: rest =>
    match leadByte b.toNat with
    | .whole c => some c :: decodeFrom none rest
    | .first part => decodeFrom (some part) rest
    | .illFormed => none :: decodeFrom none rest
  | some part, b :: rest =>
    if part.low ≤ b.toNat ∧ b.toNat ≤ part.high then
      let bits := part.bits * 64 + (b.toNat - 0x80)
      if part.owed = 1 then some (Char.ofNat bits) :: decodeFrom none rest
      else decodeFrom (some ⟨part.owed - 1, 0x80, 0xBF, bits⟩) rest
    else
      none ::
        match leadByte b.toNat with
        | .whole c => some c :: decodeFrom none rest
        | .first next => decodeFrom (some next) rest
        | .illFormed => none :: decodeFrom none rest

def decode (bytes : List UInt8) : List (Option Char) :=
  decodeFrom none bytes

/-- Decodes well-formed bytes only. -/
def ofUtf8? (bytes : List UInt8) : Option Text :=
  (decode bytes).mapM id

/-- Decodes any bytes, with the replacement character for each ill-formed part. -/
def ofUtf8Lossy (bytes : List UInt8) : Text :=
  (decode bytes).map (·.getD '\uFFFD')

def toUtf8 (t : Text) : List UInt8 :=
  t.flatMap String.utf8EncodeChar

end TableBrowser.Text
