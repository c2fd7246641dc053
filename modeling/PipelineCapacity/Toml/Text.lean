import PipelineCapacity.Json.Text

/-!
Strings, keys and blank space of TOML texts.
-/

set_option autoImplicit false

namespace PipelineCapacity.Toml

/-- What strings and comments may hold as it is. -/
def isPlain (char : Char) : Bool := char == '\t' || (32 ≤ char.toNat && char.toNat != 127)

def isBlank (char : Char) : Bool := char == ' ' || char == '\t'

def skipBlanks (chars : List Char) : List Char := chars.dropWhile isBlank

/-- What follows a line break, if there is one. -/
def lineBreak? (chars : List Char) : Option (List Char) :=
  match chars with
  | '\n' :: rest => some rest
  | '\r' :: '\n' :: rest => some rest
  | _ => none

/-- The rest after a comment, up to the end of its line. -/
def skipComment : List Char → Option (List Char)
  | [] => some []
  | '\n' :: rest => some ('\n' :: rest)
  | '\r' :: '\n' :: rest => some ('\r' :: '\n' :: rest)
  | char :: rest => if isPlain char then skipComment rest else none

/-- The rest after blanks and perhaps a comment at the end of a line. -/
def skipLineEnd (chars : List Char) : Option (List Char) :=
  match skipBlanks chars with
  | [] => some []
  | '#' :: rest =>
      match skipComment rest with
      | some [] => some []
      | some rest => lineBreak? rest
      | none => none
  | rest => lineBreak? rest

/-- Skips blanks, comments and line breaks between the items of a list. -/
def skipLines (inComment : Bool) : List Char → Option (List Char)
  | [] => some []
  | '\n' :: rest => skipLines false rest
  | '\r' :: '\n' :: rest => skipLines false rest
  | char :: rest =>
      if inComment then (if isPlain char then skipLines true rest else none)
      else if isBlank char then skipLines false rest
      else if char == '#' then skipLines true rest
      else some (char :: rest)

/-- The character of a code point, surrogates excluded. -/
def scalar? (code : Nat) : Option Char :=
  if code.isValidChar then some (Char.ofNat code) else none

def longUnit? (first second third fourth fifth sixth seventh eighth : Char) : Option Nat := do
  return (← Json.hexUnit? first second third fourth) * 65536 +
    (← Json.hexUnit? fifth sixth seventh eighth)

/-- What a character stands for after a backslash, code points apart. -/
def unescape? (char : Char) : Option Char :=
  match char with
  | '"' => some '"'
  | '\\' => some '\\'
  | 'b' => some '\x08'
  | 'f' => some '\x0c'
  | 'n' => some '\n'
  | 'r' => some '\r'
  | 't' => some '\t'
  | _ => none

/-- The character of an escape after its backslash, and the rest. -/
def takeEscape? (chars : List Char) : Option (Char × List Char) :=
  match chars with
  | 'u' :: first :: second :: third :: fourth :: rest => do
      let char ← scalar? (← Json.hexUnit? first second third fourth)
      return (char, rest)
  | 'U' :: first :: second :: third :: fourth :: fifth :: sixth :: seventh :: eighth :: rest => do
      let char ← scalar? (← longUnit? first second third fourth fifth sixth seventh eighth)
      return (char, rest)
  | char :: rest => (unescape? char).map fun char => (char, rest)
  | [] => none

/-- A quoted string on one line, after its opening quote; `before` is in reverse. -/
def takeBasic (fuel : Nat) (before : List Char) (chars : List Char) :
    Option (List Char × List Char) :=
  match fuel with
  | 0 => none
  | fuel + 1 =>
      match chars with
      | [] => none
      | '"' :: rest => some (before.reverse, rest)
      | '\\' :: rest =>
          match takeEscape? rest with
          | some (char, rest) => takeBasic fuel (char :: before) rest
          | none => none
      | char :: rest => if isPlain char then takeBasic fuel (char :: before) rest else none

/-- Skips blanks and line breaks. -/
def skipSpace : List Char → List Char
  | [] => []
  | '\n' :: rest => skipSpace rest
  | '\r' :: '\n' :: rest => skipSpace rest
  | char :: rest => if isBlank char then skipSpace rest else char :: rest

/-- What follows a backslash at the end of a line, all blank space included. -/
def skipFold? (chars : List Char) : Option (List Char) :=
  (lineBreak? (skipBlanks chars)).map skipSpace

/-- A quoted string over several lines. Up to two quotes may touch the closing ones. -/
def takeLongBasic (fuel : Nat) (before : List Char) (chars : List Char) :
    Option (List Char × List Char) :=
  match fuel with
  | 0 => none
  | fuel + 1 =>
      match chars with
      | [] => none
      | '"' :: '"' :: '"' :: '"' :: '"' :: rest => some (('"' :: '"' :: before).reverse, rest)
      | '"' :: '"' :: '"' :: '"' :: rest => some (('"' :: before).reverse, rest)
      | '"' :: '"' :: '"' :: rest => some (before.reverse, rest)
      | '\r' :: '\n' :: rest => takeLongBasic fuel ('\n' :: before) rest
      | '\n' :: rest => takeLongBasic fuel ('\n' :: before) rest
      | '\\' :: rest =>
          match takeEscape? rest, skipFold? rest with
          | some (char, rest), _ => takeLongBasic fuel (char :: before) rest
          | none, some rest => takeLongBasic fuel before rest
          | none, none => none
      | char :: rest => if isPlain char then takeLongBasic fuel (char :: before) rest else none

/-- A string without escapes on one line, after its opening quote. -/
def takeLiteral (before : List Char) : List Char → Option (List Char × List Char)
  | [] => none
  | '\'' :: rest => some (before.reverse, rest)
  | char :: rest => if isPlain char then takeLiteral (char :: before) rest else none

/-- A string without escapes over several lines. -/
def takeLongLiteral (before : List Char) : List Char → Option (List Char × List Char)
  | [] => none
  | '\'' :: '\'' :: '\'' :: '\'' :: '\'' :: rest => some (('\'' :: '\'' :: before).reverse, rest)
  | '\'' :: '\'' :: '\'' :: '\'' :: rest => some (('\'' :: before).reverse, rest)
  | '\'' :: '\'' :: '\'' :: rest => some (before.reverse, rest)
  | '\r' :: '\n' :: rest => takeLongLiteral ('\n' :: before) rest
  | '\n' :: rest => takeLongLiteral ('\n' :: before) rest
  | char :: rest => if isPlain char then takeLongLiteral (char :: before) rest else none

/-- A long string starts after a line break that follows its opening quotes. -/
def dropFirstBreak (chars : List Char) : List Char := (lineBreak? chars).getD chars

/-- A string of any of the four forms. -/
def readText? (chars : List Char) : Option (String × List Char) :=
  let taken := match chars with
    | '"' :: '"' :: '"' :: rest => takeLongBasic (rest.length + 1) [] (dropFirstBreak rest)
    | '"' :: rest => takeBasic (rest.length + 1) [] rest
    | '\'' :: '\'' :: '\'' :: rest => takeLongLiteral [] (dropFirstBreak rest)
    | '\'' :: rest => takeLiteral [] rest
    | _ => none
  taken.map fun taken => (String.ofList taken.1, taken.2)

def isBare (char : Char) : Bool := char.isAlphanum || char == '_' || char == '-'

/-- One part of a key. -/
def readName? (chars : List Char) : Option (String × List Char) :=
  let taken := match chars with
    | '"' :: rest => takeBasic (rest.length + 1) [] rest
    | '\'' :: rest => takeLiteral [] rest
    | _ =>
        match chars.takeWhile isBare with
        | [] => none
        | name => some (name, chars.dropWhile isBare)
  taken.map fun taken => (String.ofList taken.1, taken.2)

/-- Lists and tables may be nested to this depth, and a key has no more parts. -/
def maxDepth : Nat := 79

/-- A key of a limited number of parts. -/
def readParts? (limit : Nat) (before : List String) (chars : List Char) :
    Option (List String × String × List Char) :=
  match limit with
  | 0 => none
  | limit + 1 =>
      match readName? chars with
      | none => none
      | some (name, rest) =>
          match skipBlanks rest with
          | '.' :: rest => readParts? limit (name :: before) (skipBlanks rest)
          | rest => some (before.reverse, name, rest)

/-- A key: the parts before its last one, the last one and the rest. -/
def readKey? (chars : List Char) : Option (List String × String × List Char) :=
  readParts? maxDepth [] (skipBlanks chars)

end PipelineCapacity.Toml
