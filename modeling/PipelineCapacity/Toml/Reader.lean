import PipelineCapacity.Document.Mismatch
import PipelineCapacity.Toml.Moment
import PipelineCapacity.Toml.Number
import PipelineCapacity.Toml.Text
import PipelineCapacity.Toml.Tree

/-!
Reading TOML texts, version 1.0: values, then lines of keys and headers.
-/

set_option autoImplicit false

namespace PipelineCapacity.Toml

mutual

/-- A value at the start of the text. `depth` counts the levels still allowed. -/
def readValue (fuel depth : Nat) (chars : List Char) : Option (Document × List Char) :=
  match fuel with
  | 0 => none
  | fuel + 1 =>
      match chars with
      | 't' :: 'r' :: 'u' :: 'e' :: rest => some (.bool true, rest)
      | 'f' :: 'a' :: 'l' :: 's' :: 'e' :: rest => some (.bool false, rest)
      | '"' :: _ | '\'' :: _ => (readText? chars).map fun taken => (.text taken.1, taken.2)
      | '[' :: rest =>
          if depth == 0 then none
          else (readItems fuel (depth - 1) [] rest).map fun taken => (.list taken.1, taken.2)
      | '{' :: rest =>
          if depth == 0 then none
          else
            match skipBlanks rest with
            | '}' :: rest => some (.record [], rest)
            | rest =>
                (readPairs fuel (depth - 1) [] rest).map fun taken =>
                  ((Tree.table false false taken.1).toDocument, taken.2)
      | _ =>
          match readMoment? chars with
          | some (text, rest) => some (.moment text, rest)
          | none => readNumber? chars

/-- Items of a list up to its bracket; those before come in reverse. A comma may
follow the last one. -/
def readItems (fuel depth : Nat) (before : List Document) (chars : List Char) :
    Option (List Document × List Char) :=
  match fuel with
  | 0 => none
  | fuel + 1 =>
      match skipLines false chars with
      | none => none
      | some (']' :: rest) => some (before.reverse, rest)
      | some chars =>
          match readValue fuel depth chars with
          | none => none
          | some (item, rest) =>
              match skipLines false rest with
              | some (',' :: rest) => readItems fuel depth (item :: before) rest
              | some (']' :: rest) => some ((item :: before).reverse, rest)
              | _ => none

/-- Keys and values of a table on one line, up to its brace. -/
def readPairs (fuel depth : Nat) (fields : Branches) (chars : List Char) :
    Option (Branches × List Char) :=
  match fuel with
  | 0 => none
  | fuel + 1 =>
      match readKey? chars with
      | some (path, name, '=' :: rest) =>
          match readValue fuel depth (skipBlanks rest) with
          | none => none
          | some (item, rest) =>
              match Branches.addValue fields path name (.value item) with
              | none => none
              | some fields =>
                  match skipBlanks rest with
                  | ',' :: rest => readPairs fuel depth fields rest
                  | '}' :: rest => some (fields, rest)
                  | _ => none
      | _ => none

end

/-- Where the lines that follow belong: the header's path and name, and whether
the name holds a list of tables. Absent before the first header. -/
structure Header where
  path : List String
  name : String
  isListed : Bool

/-- A text read in part: the tables closed so far and the one still open. -/
structure Progress where
  root : Branches
  header : Option Header
  fields : Branches

namespace Progress

/-- Puts the open table in its place. -/
def close (progress : Progress) : Option Branches :=
  match progress.header with
  | none => some progress.fields
  | some header =>
      if header.isListed then
        Branches.closeTables progress.root header.path header.name progress.fields
      else Branches.closeTable progress.root header.path header.name progress.fields

/-- Begins the table of a header. -/
def enter (progress : Progress) (header : Header) : Option Progress := do
  let root ← progress.close
  if header.isListed then
    let root ← Branches.openTables root header.path header.name
    return { root, header := some header, fields := [] }
  else
    let (fields, root) ← Branches.openTable root header.path header.name
    return { root, header := some header, fields }

/-- A header after its first bracket. -/
def readHeader (progress : Progress) (chars : List Char) : Option (Progress × List Char) := do
  let isListed := chars.head? == some '['
  let chars := if isListed then chars.tail else chars
  let (path, name, rest) ← readKey? chars
  let rest ←
    match isListed, rest with
    | true, ']' :: ']' :: rest => some rest
    | false, ']' :: rest => some rest
    | _, _ => none
  let rest ← skipLineEnd rest
  let progress ← progress.enter { path, name, isListed }
  return (progress, rest)

/-- A key with its value. -/
def readPair (progress : Progress) (chars : List Char) : Option (Progress × List Char) := do
  let (path, name, rest) ← readKey? chars
  let rest ← match rest with
    | '=' :: rest => some rest
    | _ => none
  let (item, rest) ← readValue (2 * rest.length + 1) maxDepth (skipBlanks rest)
  let rest ← skipLineEnd rest
  let fields ← Branches.addValue progress.fields path name (.value item)
  return ({ progress with fields }, rest)

/-- Every line takes at least one character. -/
def readLines (fuel : Nat) (progress : Progress) (chars : List Char) : Option Branches :=
  match fuel with
  | 0 => none
  | fuel + 1 =>
      match skipBlanks chars with
      | [] => progress.close
      | '[' :: rest =>
          match progress.readHeader rest with
          | some (progress, rest) => readLines fuel progress rest
          | none => none
      | '#' :: _ | '\n' :: _ | '\r' :: _ =>
          match skipLineEnd chars with
          | some rest => readLines fuel progress rest
          | none => none
      | chars =>
          match progress.readPair chars with
          | some (progress, rest) => readLines fuel progress rest
          | none => none

end Progress

/-- A byte order mark may come first. -/
def dropMark (chars : List Char) : List Char :=
  match chars with
  | '\uFEFF' :: rest => rest
  | _ => chars

def read? (text : List Char) : Option Document :=
  (Progress.readLines (text.length + 1) ⟨[], none, []⟩ (dropMark text)).map fun fields =>
    (Tree.table false false fields).toDocument

/-- Reads a value from a text. -/
def decode {β : Type} (read : Document → Except Mismatch β) (text : String) :
    Except ReadFault β :=
  match read? text.toList with
  | none => .error .malformed
  | some document => (read document).mapError .mismatch

end PipelineCapacity.Toml
