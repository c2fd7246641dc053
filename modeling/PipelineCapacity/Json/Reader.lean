import PipelineCapacity.Document.Mismatch
import PipelineCapacity.Json.Number
import PipelineCapacity.Json.Text

/-!
Reading JSON texts.

A text is read whole before any value is taken from it. Parts nested more than
127 levels deep are checked for their form only.
-/

set_option autoImplicit false

namespace PipelineCapacity.Json

def isBlank (char : Char) : Bool := char == ' ' || char == '\n' || char == '\t' || char == '\r'

def skip (chars : List Char) : List Char := chars.dropWhile isBlank

def maxDepth : Nat := 127

/-- Builds a nested value, which has none when it lies too deep. -/
def nested (depth : Nat) (document : Document) : Document :=
  if depth == 0 then .unreadable else document

/-- The fields read so far, latest first; absent once a name had no value. -/
def closeRecord (fields : Option (List (String × Document))) : Document :=
  match fields with
  | some fields => .record fields.reverse
  | none => .unreadable

mutual

/-- A value at the start of the text. `depth` counts the levels still allowed. -/
def readValue (fuel depth : Nat) (chars : List Char) : Option (Document × List Char) :=
  match fuel with
  | 0 => none
  | fuel + 1 =>
      match chars with
      | 'n' :: 'u' :: 'l' :: 'l' :: rest => some (.null, rest)
      | 't' :: 'r' :: 'u' :: 'e' :: rest => some (.bool true, rest)
      | 'f' :: 'a' :: 'l' :: 's' :: 'e' :: rest => some (.bool false, rest)
      | '"' :: rest =>
          match readText? rest with
          | some (some text, rest) => some (.text text, rest)
          | some (none, rest) => some (.unreadable, rest)
          | none => none
      | '[' :: rest =>
          match skip rest with
          | ']' :: rest => some (nested depth (.list []), rest)
          | rest =>
              match readItems fuel (depth - 1) [] rest with
              | some (items, rest) => some (nested depth (.list items), rest)
              | none => none
      | '\x7b' :: rest =>
          match skip rest with
          | '\x7d' :: rest => some (nested depth (.record []), rest)
          | rest =>
              match readFields fuel (depth - 1) (some []) rest with
              | some (fields, rest) => some (nested depth (closeRecord fields), rest)
              | none => none
      | _ => readNumber? chars

/-- Items up to the closing bracket; those before come in reverse. -/
def readItems (fuel depth : Nat) (before : List Document) (chars : List Char) :
    Option (List Document × List Char) :=
  match fuel with
  | 0 => none
  | fuel + 1 =>
      match readValue fuel depth chars with
      | none => none
      | some (item, rest) =>
          match skip rest with
          | ',' :: rest => readItems fuel depth (item :: before) (skip rest)
          | ']' :: rest => some ((item :: before).reverse, rest)
          | _ => none

/-- Fields up to the closing brace, in reverse. -/
def readFields (fuel depth : Nat) (before : Option (List (String × Document)))
    (chars : List Char) : Option (Option (List (String × Document)) × List Char) :=
  match fuel with
  | 0 => none
  | fuel + 1 =>
      match chars with
      | '"' :: rest =>
          match readText? rest with
          | none => none
          | some (name, rest) =>
              match skip rest with
              | ':' :: rest =>
                  match readValue fuel depth (skip rest) with
                  | none => none
                  | some (value, rest) =>
                      let fields : Option (List (String × Document)) :=
                        match before, name with
                        | some before, some name => some ((name, value) :: before)
                        | _, _ => none
                      match skip rest with
                      | ',' :: rest => readFields fuel depth fields (skip rest)
                      | '\x7d' :: rest => some (fields, rest)
                      | _ => none
              | _ => none
      | _ => none

end

/-- Each value, item and field takes at least one character. -/
def read? (text : List Char) : Option Document :=
  match readValue (2 * text.length + 1) maxDepth (skip text) with
  | some (document, rest) => if (skip rest).isEmpty then some document else none
  | none => none

/-- Reads a value from a text. A text with an unreadable part counts as malformed
unless the value could be read without that part. -/
def decode {β : Type} (read : Document → Except Mismatch β) (text : String) :
    Except ReadFault β :=
  match read? text.toList with
  | none => .error .malformed
  | some document =>
      match read document with
      | .ok value => .ok value
      | .error cause =>
          if document.isReadable then .error (.mismatch cause) else .error .malformed

end PipelineCapacity.Json
