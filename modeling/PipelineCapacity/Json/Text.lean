/-!
Strings of JSON texts.

Writing escapes quotes, backslashes and control characters and nothing else.
Reading takes every escape of the grammar; a string with an unpaired surrogate
is well formed but has no value.
-/

set_option autoImplicit false

namespace PipelineCapacity.Json

def hexDigit (value : Nat) : Char :=
  if value < 10 then Char.ofNat (48 + value) else Char.ofNat (87 + value)

def hexValue? (char : Char) : Option Nat :=
  let code := char.toNat
  if 48 ≤ code ∧ code ≤ 57 then some (code - 48)
  else if 97 ≤ code ∧ code ≤ 102 then some (code - 87)
  else if 65 ≤ code ∧ code ≤ 70 then some (code - 55)
  else none

/-- The number of four hexadecimal digits. -/
def hexUnit? (first second third fourth : Char) : Option Nat := do
  return (← hexValue? first) * 4096 + (← hexValue? second) * 256 + (← hexValue? third) * 16 +
    (← hexValue? fourth)

def isControl (char : Char) : Bool := char.toNat < 32

def escape (char : Char) : List Char :=
  match char with
  | '"' => ['\\', '"']
  | '\\' => ['\\', '\\']
  | '\n' => ['\\', 'n']
  | '\r' => ['\\', 'r']
  | '\t' => ['\\', 't']
  | '\x08' => ['\\', 'b']
  | '\x0c' => ['\\', 'f']
  | _ =>
      if isControl char then
        ['\\', 'u', '0', '0', hexDigit (char.toNat / 16), hexDigit (char.toNat % 16)]
      else [char]

def renderText (text : String) : List Char := '"' :: text.toList.flatMap escape ++ ['"']

/-- What a character stands for after a backslash, `u` apart. -/
def unescape? (char : Char) : Option Char :=
  match char with
  | '"' => some '"'
  | '\\' => some '\\'
  | '/' => some '/'
  | 'b' => some '\x08'
  | 'f' => some '\x0c'
  | 'n' => some '\n'
  | 'r' => some '\r'
  | 't' => some '\t'
  | _ => none

def isHighSurrogate (unit : Nat) : Bool := 0xD800 ≤ unit && unit ≤ 0xDBFF

def isLowSurrogate (unit : Nat) : Bool := 0xDC00 ≤ unit && unit ≤ 0xDFFF

/-- The value of the string read so far, absent after an unpaired surrogate. -/
abbrev Piece := Option (List Char)

def Piece.push (piece : Piece) (char : Char) : Piece := piece.map (char :: ·)

/-- Adds one UTF-16 unit; `held` is a high surrogate waiting for the other half. -/
def Piece.pushUnit (piece : Piece) (held : Option Nat) (unit : Nat) : Piece × Option Nat :=
  match held with
  | some high =>
      if isLowSurrogate unit then
        (piece.push (Char.ofNat (0x10000 + (high - 0xD800) * 1024 + (unit - 0xDC00))), none)
      else if isHighSurrogate unit then (none, some unit)
      else (none, none)
  | none =>
      if isHighSurrogate unit then (piece, some unit)
      else if isLowSurrogate unit then (none, none)
      else (piece.push (Char.ofNat unit), none)

/-- Closes a string that may still hold half a pair. -/
def Piece.settle (piece : Piece) (held : Option Nat) : Piece :=
  if held.isSome then none else piece

/-- Reads up to the closing quote; the characters come out in reverse. -/
def takeText (piece : Piece) (held : Option Nat) : List Char → Option (Piece × List Char)
  | [] => none
  | '"' :: rest => some (piece.settle held, rest)
  | '\\' :: 'u' :: first :: second :: third :: fourth :: rest =>
      match hexUnit? first second third fourth with
      | some unit =>
          let (piece, held) := piece.pushUnit held unit
          takeText piece held rest
      | none => none
  | '\\' :: char :: rest =>
      match unescape? char with
      | some char => takeText ((piece.settle held).push char) none rest
      | none => none
  | char :: rest =>
      if isControl char || char == '\\' then none
      else takeText ((piece.settle held).push char) none rest

/-- The string after an opening quote, absent when it has no value, and the rest. -/
def readText? (chars : List Char) : Option (Option String × List Char) :=
  (takeText (some []) none chars).map fun taken =>
    (taken.1.map fun chars => String.ofList chars.reverse, taken.2)

end PipelineCapacity.Json
