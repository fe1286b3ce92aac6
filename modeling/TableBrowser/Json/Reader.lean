import TableBrowser.Json.Basic
import TableBrowser.Number.Digits
import TableBrowser.Text.Digits

/-!
# Reading JSON

A text is read from the left and the first fault ends the reading.  Two kinds of
fault are told apart: text that is no JSON, and JSON that is not of the expected
shape.  Strings and numbers are checked fully when their value is kept; a value
that is skipped may hold unpaired surrogates and numbers of any size.
-/

namespace TableBrowser.Json

inductive Fault
  | malformed
  | misshapen
  deriving DecidableEq

def isSpace (c : Char) : Bool :=
  c == ' ' || c == '\n' || c == '\t' || c == '\r'

def skipSpace (t : Text) : Text :=
  t.dropWhile isSpace

/-- The code of four hexadecimal digits. -/
def hexCode? (a b c d : Char) : Option Nat := do
  let w ← Text.hexValue? a
  let x ← Text.hexValue? b
  let y ← Text.hexValue? c
  let z ← Text.hexValue? d
  return ((w * 16 + x) * 16 + y) * 16 + z

def isLeadSurrogate (code : Nat) : Bool :=
  0xD800 ≤ code && code ≤ 0xDBFF

def isTrailSurrogate (code : Nat) : Bool :=
  0xDC00 ≤ code && code ≤ 0xDFFF

def simpleEscape? (c : Char) : Option Char :=
  if c = '"' ∨ c = '\\' ∨ c = '/' then some c
  else if c = 'b' then some (Char.ofNat 8)
  else if c = 'f' then some (Char.ofNat 12)
  else if c = 'n' then some '\n'
  else if c = 'r' then some '\r'
  else if c = 't' then some '\t'
  else none

/-- Reads a string whose opening quotation mark has been read.  `lead` holds the
first half of a surrogate pair, `done` the characters read so far, last first. -/
def stringFrom (keep : Bool) (lead : Option Nat) (done : Text) : Text → Except Fault (Text × Text)
  | [] => .error .malformed
  | '"' :: rest =>
    if keep && lead.isSome then .error .malformed else .ok (done.reverse, rest)
  | '\\' :: 'u' :: a :: b :: c :: d :: rest =>
    match hexCode? a b c d, lead with
    | none, _ => .error .malformed
    | some code, some high =>
      if isTrailSurrogate code then
        let c := Char.ofNat (0x10000 + (high - 0xD800) * 0x400 + (code - 0xDC00))
        stringFrom keep none (c :: done) rest
      else if keep then .error .malformed
      else if isLeadSurrogate code then stringFrom keep (some code) done rest
      else stringFrom keep none (Char.ofNat code :: done) rest
    | some code, none =>
      if isLeadSurrogate code then stringFrom keep (some code) done rest
      else if keep && isTrailSurrogate code then .error .malformed
      else stringFrom keep none (Char.ofNat code :: done) rest
  | '\\' :: escaped :: rest =>
    if keep && lead.isSome then .error .malformed
    else
      match simpleEscape? escaped with
      | some c => stringFrom keep none (c :: done) rest
      | none => .error .malformed
  | c :: rest =>
    if c = '\\' ∨ c.toNat < 32 then .error .malformed
    else if keep && lead.isSome then .error .malformed
    else stringFrom keep none (c :: done) rest

/-- A number's parts as they are written. -/
structure Numeral where
  negative : Bool
  whole : Text
  fraction : Option Text
  exponent : Option Int

/-- The number a numeral stands for; whole numbers beyond 64 bits and numbers
with a fraction or an exponent are floating-point. -/
def Numeral.value? (n : Numeral) : Option Json :=
  let digits := Text.digitsValue 0 (n.whole ++ n.fraction.getD [])
  let scale := n.exponent.getD 0 - (n.fraction.getD []).length
  let exact : Int := if n.negative then -(digits : Int) else digits
  if n.fraction.isNone && n.exponent.isNone && -(UInt64.size / 2 : Nat) ≤ exact &&
      exact < UInt64.size && !(n.negative && digits = 0) then
    some (.integer exact)
  else
    match Binary64.ofDecimal n.negative digits scale with
    | .infinite _ => none
    | value => some (.real value)

/-- Reads the part of a number behind its sign. -/
def numeralFrom (negative : Bool) (t : Text) : Except Fault (Numeral × Text) := do
  let whole := t.takeWhile Text.isDigit
  let rest := t.dropWhile Text.isDigit
  if whole.isEmpty || (whole.length > 1 && whole.head? == some '0') then
    throw .malformed
  let (fraction, rest) ←
    match rest with
    | '.' :: behind =>
      let digits := behind.takeWhile Text.isDigit
      if digits.isEmpty then throw .malformed
      else pure (some digits, behind.dropWhile Text.isDigit)
    | _ => pure (none, rest)
  match rest with
  | e :: behind =>
    if e = 'e' ∨ e = 'E' then
      let (negativeExponent, behind) :=
        match behind with
        | '+' :: digits => (false, digits)
        | '-' :: digits => (true, digits)
        | _ => (false, behind)
      let digits := behind.takeWhile Text.isDigit
      if digits.isEmpty then throw .malformed
      let size : Int := Text.digitsValue 0 digits
      let exponent := if negativeExponent then -size else size
      return (⟨negative, whole, fraction, some exponent⟩, behind.dropWhile Text.isDigit)
    else return (⟨negative, whole, fraction, none⟩, rest)
  | [] => return (⟨negative, whole, fraction, none⟩, rest)

def numberFrom (keep : Bool) (t : Text) : Except Fault (Json × Text) := do
  let (numeral, rest) ←
    match t with
    | '-' :: behind => numeralFrom true behind
    | _ => numeralFrom false t
  match numeral.value? with
  | some value => return (value, rest)
  | none => if keep then throw .malformed else return (.null, rest)

/-- Reads a fixed word. -/
def wordFrom (word : Text) (value : Json) (t : Text) : Except Fault (Json × Text) :=
  if word.isPrefixOf t then .ok (value, t.drop word.length) else .error .malformed

mutual

/-- Reads one value; each nesting step takes one unit of fuel. -/
def valueFrom (keep : Bool) : Nat → Text → Except Fault (Json × Text)
  | 0, _ => .error .malformed
  | fuel + 1, t =>
    match skipSpace t with
    | [] => .error .malformed
    | '"' :: rest => do
      let (value, rest) ← stringFrom keep none [] rest
      return (.string value, rest)
    | '[' :: rest =>
      match skipSpace rest with
      | ']' :: rest => .ok (.array [], rest)
      | _ => itemsFrom keep fuel [] rest
    | c :: rest =>
      if c = '\x7b' then
        match skipSpace rest with
        | [] => .error .malformed
        | d :: behind =>
          if d = '\x7d' then .ok (.object [], behind) else membersFrom keep fuel [] rest
      else if c = 'n' then wordFrom "null" .null (c :: rest)
      else if c = 't' then wordFrom "true" (.bool true) (c :: rest)
      else if c = 'f' then wordFrom "false" (.bool false) (c :: rest)
      else if c = '-' || Text.isDigit c then numberFrom keep (c :: rest)
      else .error .malformed

def itemsFrom (keep : Bool) : Nat → List Json → Text → Except Fault (Json × Text)
  | 0, _, _ => .error .malformed
  | fuel + 1, done, t => do
    let (item, rest) ← valueFrom keep fuel t
    match skipSpace rest with
    | ',' :: rest => itemsFrom keep fuel (item :: done) rest
    | ']' :: rest => return (.array (item :: done).reverse, rest)
    | _ => throw .malformed

def membersFrom (keep : Bool) : Nat → List (Text × Json) → Text → Except Fault (Json × Text)
  | 0, _, _ => .error .malformed
  | fuel + 1, done, t =>
    match skipSpace t with
    | '"' :: rest => do
      let (name, rest) ← stringFrom keep none [] rest
      match skipSpace rest with
      | ':' :: rest =>
        let (value, rest) ← valueFrom keep fuel rest
        match skipSpace rest with
        | [] => throw .malformed
        | c :: rest =>
          if c = ',' then membersFrom keep fuel ((name, value) :: done) rest
          else if c = '\x7d' then return (.object ((name, value) :: done).reverse, rest)
          else throw .malformed
      | _ => throw .malformed
    | _ => .error .malformed

end

/-- Reads one value at the start of a text. -/
def valueAt (t : Text) : Except Fault (Json × Text) :=
  valueFrom true (2 * t.length + 1) t

/-- Passes over one value at the start of a text. -/
def skipValue (t : Text) : Except Fault Text :=
  (valueFrom false (2 * t.length + 1) t).map (·.2)

/-- Reads a text that holds one value and nothing else. -/
def ofText? (t : Text) : Option Json :=
  match valueAt t with
  | .ok (value, rest) => if (skipSpace rest).isEmpty then some value else none
  | .error _ => none

end TableBrowser.Json
