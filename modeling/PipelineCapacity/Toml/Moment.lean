import PipelineCapacity.Calendar.Date
import PipelineCapacity.Text.Numeral

/-!
Dates and times of TOML texts. They are recognised and kept as text.
-/

set_option autoImplicit false

namespace PipelineCapacity.Toml

open Text

/-- A number of exactly `width` digits. -/
def takeFixed? (width : Nat) (chars : List Char) : Option (Nat × List Char) :=
  let digits := chars.take width
  if digits.length == width && digits.all isDigit then some (value digits, chars.drop width)
  else none

def takeChar? (isMember : Char → Bool) (chars : List Char) : Option (List Char) :=
  match chars with
  | char :: rest => if isMember char then some rest else none
  | [] => none

/-- What follows a full date. -/
def skipDate? (chars : List Char) : Option (List Char) := do
  let (year, rest) ← takeFixed? 4 chars
  let rest ← takeChar? (· == '-') rest
  let (month, rest) ← takeFixed? 2 rest
  let rest ← takeChar? (· == '-') rest
  let (day, rest) ← takeFixed? 2 rest
  if 1 ≤ month ∧ month ≤ 12 ∧ 1 ≤ day ∧ day ≤ daysInMonth year month then some rest else none

/-- What follows a fraction of a second, which may be missing. -/
def skipSecondFraction (chars : List Char) : List Char :=
  match chars with
  | '.' :: rest => if (rest.takeWhile isDigit).isEmpty then chars else rest.dropWhile isDigit
  | _ => chars

/-- What follows a time of day. -/
def skipTime? (chars : List Char) : Option (List Char) := do
  let (hour, rest) ← takeFixed? 2 chars
  let rest ← takeChar? (· == ':') rest
  let (minute, rest) ← takeFixed? 2 rest
  let rest ← takeChar? (· == ':') rest
  let (second, rest) ← takeFixed? 2 rest
  if hour ≤ 23 ∧ minute ≤ 59 ∧ second ≤ 60 then some (skipSecondFraction rest) else none

/-- What follows an offset from universal time. -/
def skipOffset? (chars : List Char) : Option (List Char) :=
  match chars with
  | 'Z' :: rest | 'z' :: rest => some rest
  | _ => do
      let rest ← takeChar? (fun char => char == '+' || char == '-') chars
      let (hour, rest) ← takeFixed? 2 rest
      let rest ← takeChar? (· == ':') rest
      let (minute, rest) ← takeFixed? 2 rest
      if hour ≤ 23 ∧ minute ≤ 59 then some rest else none

/-- What follows a time after a date, with or without an offset. -/
def skipDayTime? (chars : List Char) : Option (List Char) := do
  let rest ← takeChar? (fun char => char == 'T' || char == 't' || char == ' ') chars
  let rest ← skipTime? rest
  return (skipOffset? rest).getD rest

def skipMoment? (chars : List Char) : Option (List Char) :=
  match skipDate? chars with
  | some rest => some ((skipDayTime? rest).getD rest)
  | none => skipTime? chars

/-- The text of a date or time and what follows it. -/
def readMoment? (chars : List Char) : Option (String × List Char) :=
  (skipMoment? chars).map fun rest =>
    (String.ofList (chars.take (chars.length - rest.length)), rest)

end PipelineCapacity.Toml
