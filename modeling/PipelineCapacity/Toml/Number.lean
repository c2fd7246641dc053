import PipelineCapacity.Decimal
import PipelineCapacity.Document
import PipelineCapacity.Text.Numeral

/-!
Numbers of TOML texts. Underscores may stand between digits. Integers have at
most 64 binary places; positive numbers past the largest finite one are refused.
-/

set_option autoImplicit false

namespace PipelineCapacity.Toml

open Text

/-- Digits with single underscores between them; `before` is in reverse. -/
def takeRun (isMember : Char → Bool) (before : List Char) :
    List Char → Option (List Char × List Char)
  | [] => some (before.reverse, [])
  | '_' :: char :: rest =>
      if before.isEmpty then none
      else if isMember char then takeRun isMember (char :: before) rest
      else none
  | char :: rest =>
      if isMember char then takeRun isMember (char :: before) rest
      else some (before.reverse, char :: rest)

/-- At least one digit. -/
def takeSome? (isMember : Char → Bool) (chars : List Char) : Option (List Char × List Char) :=
  match takeRun isMember [] chars with
  | some ([], _) => none
  | taken => taken

/-- A whole part: a zero stands alone. -/
def takeWhole? (chars : List Char) : Option (List Char × List Char) :=
  match chars with
  | '0' :: rest => some (['0'], rest)
  | _ => takeSome? isDigit chars

def isHex (char : Char) : Bool :=
  isDigit char || ('a' ≤ char && char ≤ 'f') || ('A' ≤ char && char ≤ 'F')

def hexValue (char : Char) : Nat :=
  if isDigit char then digitValue char
  else if 'a' ≤ char then char.toNat - 87
  else char.toNat - 55

def isOctal (char : Char) : Bool := '0' ≤ char && char ≤ '7'

def isBinary (char : Char) : Bool := char == '0' || char == '1'

def ofInteger? (number : Int) : Option Document :=
  if -9223372036854775808 ≤ number ∧ number ≤ 9223372036854775807 then some (.integer number)
  else none

/-- An integer in another base, after the letter of the base. -/
def readBased? (base : Nat) (isMember : Char → Bool) (chars : List Char) :
    Option (Document × List Char) := do
  let (digits, rest) ← takeSome? isMember chars
  let number ← ofInteger? (digits.foldl (fun total char => total * base + hexValue char) 0 : Nat)
  return (number, rest)

def takeSign (chars : List Char) : Bool × List Char :=
  match chars with
  | '-' :: rest => (true, rest)
  | '+' :: rest => (false, rest)
  | _ => (false, chars)

/-- The exponent after its letter. -/
def takePower? (chars : List Char) : Option (Int × List Char) := do
  let (negative, rest) := takeSign chars
  let (digits, rest) ← takeSome? isDigit rest
  return (if negative then -(value digits : Int) else value digits, rest)

def ofReal? (negative : Bool) (significand : Nat) (exponent : Int) : Option Document :=
  match Decimal.nearest? significand exponent with
  | some amount => some (.number (Decimal.signed negative amount))
  | none => if negative then some (.number (-1.0 / 0.0)) else none

/-- What follows the digits of the whole part and the fraction. -/
def readPower? (negative : Bool) (digits : List Char) (places : Nat) (chars : List Char) :
    Option (Document × List Char) :=
  match chars with
  | 'e' :: rest | 'E' :: rest => do
      let (power, rest) ← takePower? rest
      let number ← ofReal? negative (value digits) (power - places)
      return (number, rest)
  | _ => do
      let number ← ofReal? negative (value digits) (-places)
      return (number, chars)

/-- A decimal number after its sign. -/
def readDecimal? (negative : Bool) (chars : List Char) : Option (Document × List Char) := do
  let (whole, rest) ← takeWhole? chars
  match rest with
  | '.' :: rest =>
      let (fraction, rest) ← takeSome? isDigit rest
      readPower? negative (whole ++ fraction) fraction.length rest
  | 'e' :: _ | 'E' :: _ => readPower? negative whole 0 rest
  | _ =>
      let number ← ofInteger? (if negative then -(value whole : Int) else value whole)
      return (number, rest)

def readNumber? (chars : List Char) : Option (Document × List Char) :=
  match chars with
  | '0' :: 'x' :: rest => readBased? 16 isHex rest
  | '0' :: 'o' :: rest => readBased? 8 isOctal rest
  | '0' :: 'b' :: rest => readBased? 2 isBinary rest
  | _ =>
      let (negative, rest) := takeSign chars
      match rest with
      | 'i' :: 'n' :: 'f' :: rest =>
          some (.number (Decimal.signed negative (1.0 / 0.0)), rest)
      | 'n' :: 'a' :: 'n' :: rest => some (.number (Decimal.signed negative (0.0 / 0.0)), rest)
      | _ => readDecimal? negative rest

end PipelineCapacity.Toml
