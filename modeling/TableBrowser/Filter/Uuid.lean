import TableBrowser.Text.Digits

/-!
# UUIDs

A UUID is sixteen bytes.  Its text form has thirty-two hexadecimal digits in
groups of eight, four, four, four and twelve with hyphens between them; it is
read in either letter case and written in lower case.
-/

namespace TableBrowser.Filter

structure Uuid where
  bytes : List UInt8
  length_bytes : bytes.length = 16
  deriving DecidableEq

namespace Uuid

/-- Sizes of the groups of digits. -/
def layout : List Nat := [8, 4, 4, 4, 12]

/-- Puts hyphens between groups of the given sizes. -/
def hyphenate : List Nat → Text → Text
  | [], _ => []
  | [size], digits => digits.take size
  | size :: next :: sizes, digits =>
    digits.take size ++ '-' :: hyphenate (next :: sizes) (digits.drop size)

/-- Takes the hyphens between groups of the given sizes away again. -/
def joinGroups? : List Nat → Text → Option Text
  | [], t => if t.isEmpty then some [] else none
  | [size], t => if t.length = size then some t else none
  | size :: next :: sizes, t =>
    match t.drop size with
    | '-' :: rest => (joinGroups? (next :: sizes) rest).map (t.take size ++ ·)
    | _ => none

def ofBytes? (bytes : List UInt8) : Option Uuid :=
  if h : bytes.length = 16 then some ⟨bytes, h⟩ else none

/-- Sixteen random bytes with the marks of a random UUID. -/
def ofRandom? (bytes : List UInt8) : Option Uuid :=
  let versioned := bytes.modify 6 fun byte => byte % 16 + 64
  ofBytes? (versioned.modify 8 fun byte => byte % 64 + 128)

def ofText? (t : Text) : Option Uuid :=
  ((joinGroups? layout t).bind Text.bytesOfHex?).bind ofBytes?

/-- The thirty-two digits without hyphens. -/
def digits (uuid : Uuid) : Text :=
  Text.hexOfBytes uuid.bytes

def toText (uuid : Uuid) : Text :=
  hyphenate layout uuid.digits

end Uuid

end TableBrowser.Filter
