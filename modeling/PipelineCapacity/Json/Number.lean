import PipelineCapacity.Decimal
import PipelineCapacity.Document
import PipelineCapacity.Text.Numeral

/-!
Numbers of JSON texts. A numeral without fraction and exponent is an integer as
long as 64 binary places hold it; minus zero and every other numeral is a
floating-point number.
-/

set_option autoImplicit false

namespace PipelineCapacity.Json

open Text

/-- The leading digits and what follows them. -/
def takeDigits (chars : List Char) : List Char × List Char :=
  (chars.takeWhile isDigit, chars.dropWhile isDigit)

/-- Digits of the whole part: a zero stands alone. -/
def takeWhole? (chars : List Char) : Option (List Char × List Char) :=
  match takeDigits chars with
  | ([], _) => none
  | ('0' :: _ :: _, _) => none
  | taken => some taken

/-- Digits after a point, none when there is no point. -/
def takeFraction? (chars : List Char) : Option (List Char × List Char) :=
  match chars with
  | '.' :: rest =>
      match takeDigits rest with
      | ([], _) => none
      | taken => some taken
  | _ => some ([], chars)

def takePower? (negative : Bool) (chars : List Char) : Option (Option Int × List Char) :=
  match takeDigits chars with
  | ([], _) => none
  | (power, rest) =>
      some (some (if negative then -(value power : Int) else value power), rest)

/-- The exponent, absent when none is written. -/
def takeExponent? (chars : List Char) : Option (Option Int × List Char) :=
  match chars with
  | 'e' :: '-' :: rest | 'E' :: '-' :: rest => takePower? true rest
  | 'e' :: '+' :: rest | 'E' :: '+' :: rest => takePower? false rest
  | 'e' :: rest | 'E' :: rest => takePower? false rest
  | _ => some (none, chars)

def ofReal (negative : Bool) (significand : Nat) (exponent : Int) : Document :=
  match Decimal.nearest? significand exponent with
  | some amount => .number (Decimal.signed negative amount)
  | none => .unreadable

def ofWhole (negative : Bool) (number : Nat) : Document :=
  if negative then
    if number == 0 || number > 9223372036854775808 then ofReal true number 0
    else .integer (-(number : Int))
  else if number > 18446744073709551615 then ofReal false number 0
  else .integer number

/-- A numeral after its sign. -/
def readMagnitude? (negative : Bool) (chars : List Char) : Option (Document × List Char) :=
  match takeWhole? chars with
  | none => none
  | some (whole, rest) =>
      match takeFraction? rest with
      | none => none
      | some (fraction, rest) =>
          match takeExponent? rest with
          | none => none
          | some (none, rest) =>
              if fraction.isEmpty then some (ofWhole negative (value whole), rest)
              else some (ofReal negative (value (whole ++ fraction)) (-fraction.length), rest)
          | some (some power, rest) =>
              some (ofReal negative (value (whole ++ fraction)) (power - fraction.length), rest)

def readNumber? (chars : List Char) : Option (Document × List Char) :=
  match chars with
  | '-' :: rest => readMagnitude? true rest
  | _ => readMagnitude? false chars

end PipelineCapacity.Json
