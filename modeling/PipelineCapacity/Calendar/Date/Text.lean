import PipelineCapacity.Calendar.Date
import PipelineCapacity.Text.Numeral

/-!
Dates as text: year, month and day joined by dashes.

A year of the common span is written with four digits, any other with its sign
and at least four digits. Reading allows blanks before every part and dash and
at the end; an unsigned year has at most four digits, months and days at most
two. The first part that does not fit decides the fault.
-/

set_option autoImplicit false

namespace PipelineCapacity

namespace Text

/-- Inclusive code point ranges of the characters with the White_Space property,
ascending. -/
def blankRanges : List (Nat × Nat) :=
  [(0x9, 0xD), (0x20, 0x20), (0x85, 0x85), (0xA0, 0xA0), (0x1680, 0x1680), (0x2000, 0x200A),
    (0x2028, 0x2029), (0x202F, 0x202F), (0x205F, 0x205F), (0x3000, 0x3000)]

def isBlank (char : Char) : Bool :=
  blankRanges.any fun range => range.1 ≤ char.toNat && char.toNat ≤ range.2

def dropBlanks (chars : List Char) : List Char := chars.dropWhile isBlank

end Text

open Text

inductive DateFault where
  | outOfRange
  | invalidCharacters
  | prematureEnd
  | trailingInput
  deriving DecidableEq, Repr

def DateFault.message : DateFault → String
  | outOfRange => "input is out of range"
  | invalidCharacters => "input contains invalid characters"
  | prematureEnd => "premature end of input"
  | trailingInput => "trailing input"

namespace Date

def render (date : Date) : List Char :=
  let year :=
    if 0 ≤ date.year ∧ date.year ≤ 9999 then zeroPadded 4 date.year.natAbs
    else (if date.year < 0 then '-' else '+') :: zeroPadded 4 date.year.natAbs
  year ++ '-' :: zeroPadded 2 date.month ++ '-' :: zeroPadded 2 date.day

def text (date : Date) : String := String.ofList date.render

/-- A number of at least one digit among the first `width` characters, and what
follows it. -/
def takeNumber (width : Nat) (chars : List Char) : Except DateFault (Nat × List Char) :=
  let number := (chars.take width).takeWhile isDigit
  if chars.isEmpty then .error .prematureEnd
  else if number.isEmpty then .error .invalidCharacters
  else .ok (value number, chars.drop number.length)

/-- Refuses numbers outside the bounds. -/
def within (low high number : Int) : Except DateFault Unit :=
  if low ≤ number ∧ number ≤ high then .ok () else .error .outOfRange

def takeYear (chars : List Char) : Except DateFault (Int × List Char) := do
  let (year, rest) ←
    match dropBlanks chars with
    | '-' :: rest => (takeNumber rest.length rest).map fun taken => (-(taken.1 : Int), taken.2)
    | '+' :: rest => (takeNumber rest.length rest).map fun taken => ((taken.1 : Int), taken.2)
    | rest => (takeNumber 4 rest).map fun taken => ((taken.1 : Int), taken.2)
  within (-2147483648) 2147483647 year
  return (year, rest)

def takePart (high : Nat) (chars : List Char) : Except DateFault (Nat × List Char) := do
  let (number, rest) ← takeNumber 2 (dropBlanks chars)
  within 1 high number
  return (number, rest)

def takeDash (chars : List Char) : Except DateFault (List Char) :=
  match dropBlanks chars with
  | [] => .error .prematureEnd
  | '-' :: rest => .ok rest
  | _ => .error .invalidCharacters

def read (chars : List Char) : Except DateFault Date := do
  let (year, rest) ← takeYear chars
  let rest ← takeDash rest
  let (month, rest) ← takePart 12 rest
  let rest ← takeDash rest
  let (day, rest) ← takePart 31 rest
  if !(dropBlanks rest).isEmpty then throw .trailingInput
  match of? year month day with
  | some date => return date
  | none => throw .outOfRange

end Date

end PipelineCapacity
