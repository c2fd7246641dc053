import PipelineCapacity.Text.Numeral

/-!
Decimal numbers and floating-point ones: the nearest floating-point number to a
decimal one, and the fewest decimal digits that read back as a given number.

A binary number stands for every real number that rounds to it. On each decimal
grid, coarsest first, the two points around the number are tried; the first
grid with a point in that interval gives the digits, and of two such points the
nearer one. Which of two equally near points is taken is the layout's choice,
as are the exponents that are written out in full and whether a whole number
keeps a zero after its point.
-/

set_option autoImplicit false

namespace PipelineCapacity.Decimal

open Text

/-! ### Reading -/

/-- Nearest to `significand * 10 ^ exponent`, absent past the largest finite
number. Exponents far outside the range are settled without computing powers. -/
def nearest? (significand : Nat) (exponent : Int) : Option Float :=
  let places : Int := significand.log2 * 30103 / 100000
  if significand == 0 then some 0.0
  else if places + exponent > 310 then none
  else if places + exponent < -350 then some 0.0
  else
    let number := Float.ofScientific significand (exponent < 0) exponent.natAbs
    if number.isInf then none else some number

def signed (negative : Bool) (number : Float) : Float := if negative then -number else number

/-- Nearest to an integer. -/
def ofInt (number : Int) : Float :=
  signed (number < 0) (Float.ofScientific number.natAbs false 0)

/-! ### Fewest digits -/

/-- The number `significand * 2 ^ exponent`. The interval below it is narrower
when the significand is the least of its exponent. -/
structure Binary where
  significand : Nat
  exponent : Int
  narrowBelow : Bool

/-- The number `significand * 10 ^ exponent`. -/
structure Digits where
  significand : Nat
  exponent : Int
  deriving DecidableEq, Repr

/-- A number and the ends of its interval over one denominator. -/
structure Interval where
  low : Nat
  mid : Nat
  high : Nat
  denominator : Nat
  closed : Bool

def Binary.interval (number : Binary) : Interval :=
  let mid := 4 * number.significand
  let low := mid - (if number.narrowBelow then 1 else 2)
  let high := mid + 2
  let closed := number.significand % 2 == 0
  let exponent := number.exponent - 2
  if 0 ≤ exponent then
    let factor := Nat.pow 2 exponent.natAbs
    ⟨low * factor, mid * factor, high * factor, 1, closed⟩
  else ⟨low, mid, high, Nat.pow 2 exponent.natAbs, closed⟩

/-- The interval measured in units of `10 ^ exponent`. -/
def Interval.onGrid (interval : Interval) (exponent : Int) : Interval :=
  let factor := Nat.pow 10 exponent.natAbs
  if 0 ≤ exponent then { interval with denominator := interval.denominator * factor }
  else
    { interval with
      low := interval.low * factor
      mid := interval.mid * factor
      high := interval.high * factor }

def Interval.contains (interval : Interval) (point : Nat) : Bool :=
  let scaled := point * interval.denominator
  if interval.closed then interval.low ≤ scaled && scaled ≤ interval.high
  else interval.low < scaled && scaled < interval.high

/-- The point of the unit grid that stands for the interval, if one lies in it. -/
def Interval.point? (interval : Interval) (tiesUp : Bool) : Option Nat :=
  let below := interval.mid / interval.denominator
  let above := below + 1
  match interval.contains below, interval.contains above with
  | true, false => some below
  | false, true => some above
  | false, false => none
  | true, true =>
      let twice := 2 * (interval.mid - below * interval.denominator)
      if twice < interval.denominator then some below
      else if interval.denominator < twice then some above
      else if tiesUp || below % 2 == 1 then some above
      else some below

/-- One more than the exponent of the leading decimal digit. -/
def Interval.magnitude (interval : Interval) : Int :=
  let bits : Int := interval.mid.log2 - interval.denominator.log2
  let guess := (bits - 1) * 30103 / 100000
  let reached (exponent : Int) : Bool :=
    let grid := interval.onGrid exponent
    grid.denominator ≤ grid.mid
  if reached (guess + 1) then guess + 2 else if reached guess then guess + 1 else guess

/-- The significand without its last zeros. -/
def Digits.trim (digits : Digits) : Nat → Digits
  | 0 => digits
  | fuel + 1 =>
      if digits.significand % 10 == 0 then
        Digits.trim ⟨digits.significand / 10, digits.exponent + 1⟩ fuel
      else digits

/-- Tries grids with ever more digits, `count` of them. -/
def search (interval : Interval) (magnitude : Int) (tiesUp : Bool) : Nat → Nat → Digits
  | places, 0 =>
      let exponent := magnitude - places
      let grid := interval.onGrid exponent
      ⟨grid.mid / grid.denominator, exponent⟩
  | places, count + 1 =>
      let exponent := magnitude - places
      match (interval.onGrid exponent).point? tiesUp with
      | some point => Digits.trim ⟨point, exponent⟩ places
      | none => search interval magnitude tiesUp (places + 1) count

/-- Seventeen digits suffice for every number of 53 binary places. -/
def Binary.shortest (number : Binary) (tiesUp : Bool) : Digits :=
  let interval := number.interval
  search interval interval.magnitude tiesUp 1 17

/-- Magnitude of a finite number as a binary one. -/
def Binary.ofFloat (number : Float) : Binary :=
  let bits := number.toBits.toNat
  let exponent : Nat := bits / Nat.pow 2 52 % 2048
  let fraction : Nat := bits % Nat.pow 2 52
  if exponent == 0 then ⟨fraction, -1074, false⟩
  else ⟨fraction + Nat.pow 2 52, (exponent : Int) - 1075, fraction == 0 && 1 < exponent⟩

/-! ### Layouts -/

structure Layout where
  /-- Exponents of the leading digit that are written in full; all when absent. -/
  positional : Option (Int × Int)
  pointZero : Bool
  tiesUp : Bool

/-- Numbers of documents. -/
def Layout.document : Layout := ⟨some (-5, 15), true, false⟩

/-- Numbers of messages. -/
def Layout.plain : Layout := ⟨none, false, true⟩

/-- Numbers quoted from a document in a message. -/
def Layout.quoted : Layout := ⟨none, true, true⟩

/-- Written out, with the point after `point` digits. -/
def inFull (pointZero : Bool) (text : List Char) (point : Int) : List Char :=
  if point ≤ 0 then '0' :: '.' :: (List.replicate point.natAbs '0' ++ text)
  else
    let whole := text.take point.toNat ++ List.replicate (point.toNat - text.length) '0'
    let fraction := text.drop point.toNat
    if fraction.isEmpty then (if pointZero then whole ++ ['.', '0'] else whole)
    else whole ++ '.' :: fraction

/-- One digit before the point and the exponent of that digit. -/
def withExponent (text : List Char) (exponent : Int) : List Char :=
  let mantissa := match text with
    | [] => []
    | [lead] => [lead]
    | lead :: fraction => lead :: '.' :: fraction
  mantissa ++ 'e' :: (if exponent < 0 then '-' else '+') :: digits exponent.natAbs

def Layout.renderMagnitude (layout : Layout) (number : Float) : List Char :=
  let shortest : Digits :=
    if number == 0.0 then ⟨0, 0⟩ else (Binary.ofFloat number).shortest layout.tiesUp
  let text := digits shortest.significand
  let point : Int := text.length + shortest.exponent
  match layout.positional with
  | none => inFull layout.pointZero text point
  | some (low, high) =>
      if low ≤ point - 1 ∧ point - 1 ≤ high then inFull layout.pointZero text point
      else withExponent text (point - 1)

/-- Negative zero keeps its sign. -/
def isNegative (number : Float) : Bool := number.toBits.toNat.testBit 63

def Layout.render (layout : Layout) (number : Float) : List Char :=
  if number.isNaN then "NaN".toList
  else
    let magnitude := if number.isInf then "inf".toList else layout.renderMagnitude number
    if isNegative number then '-' :: magnitude else magnitude

end PipelineCapacity.Decimal
