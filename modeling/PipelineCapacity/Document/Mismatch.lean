import PipelineCapacity.Document
import PipelineCapacity.InvalidParameter
import PipelineCapacity.Text.Unprintable

/-!
Why a document does not describe the wanted value, and why a text does not.

Sources differ a little in what they report: in how a number is quoted, in what
may stand for a name out of a list, and in what is said of a list that is too
long. A part that is first kept aside and read later has rules of its own. The
`Dialect` names the rules in force.

Messages quote strings between double quotes, with escapes for quotes,
backslashes, control characters and whatever else cannot be seen on its own.
-/

set_option autoImplicit false

namespace PipelineCapacity

namespace Document

/-- Hexadecimal digits of a code point, in lower case. -/
def hexadecimal (number : Nat) : List Char := Nat.toDigits 16 number

def quoteChar (char : Char) : List Char :=
  match char with
  | '\x00' => ['\\', '0']
  | '\t' => ['\\', 't']
  | '\r' => ['\\', 'r']
  | '\n' => ['\\', 'n']
  | '"' => ['\\', '"']
  | '\\' => ['\\', '\\']
  | _ =>
      if Text.isUnprintable char then
        '\\' :: 'u' :: '\x7b' :: (hexadecimal char.toNat ++ ['\x7d'])
      else [char]

def quote (text : String) : String :=
  String.ofList ('"' :: text.toList.flatMap quoteChar ++ ['"'])

end Document

inductive Mismatch where
  | wrongType (found expected : String)
  | wrongValue (found expected : String)
  | wrongLength (found : Nat) (expected : String)
  | missingField (name : String)
  | duplicateField (name : String)
  | unknownVariant (name : String) (known : List String)
  | expectedValue
  | trailingCharacters
  | date (fault : DateFault)
  | refused (cause : InvalidParameter Float)
  | shape (rule : String)
  | unreadable

namespace Mismatch

def ticked (name : String) : String := "`" ++ name ++ "`"

def message : Mismatch → String
  | wrongType found expected => s!"invalid type: {found}, expected {expected}"
  | wrongValue found expected => s!"invalid value: {found}, expected {expected}"
  | wrongLength found expected => s!"invalid length {found}, expected {expected}"
  | missingField name => "missing field " ++ ticked name
  | duplicateField name => "duplicate field " ++ ticked name
  | unknownVariant name known =>
      "unknown variant " ++ ticked name ++ ", expected one of " ++
        ", ".intercalate (known.map ticked)
  | expectedValue => "expected value"
  | trailingCharacters => "trailing characters"
  | date fault => fault.message
  | refused cause => "Invalid parameter: " ++ cause.message
  | shape rule => rule
  | unreadable => "unreadable value"

end Mismatch

/-- Why a text was not read: it is no document at all, or it is one of another
value. -/
inductive ReadFault where
  | malformed
  | mismatch (cause : Mismatch)

/-- A malformed text is reported without its position. -/
def ReadFault.message : ReadFault → String
  | malformed => "<syntax>"
  | mismatch cause => cause.message

structure Dialect where
  isToml : Bool
  isKeptAside : Bool

namespace Dialect

def json : Dialect := ⟨false, false⟩

def toml : Dialect := ⟨true, false⟩

/-- Rules for a part that was kept aside. -/
def aside (dialect : Dialect) : Dialect := { dialect with isKeptAside := true }

def numberLayout (dialect : Dialect) : Decimal.Layout :=
  if dialect.isToml then .quoted else .document

/-- What a message calls a part of a document. -/
def describe (dialect : Dialect) : Document → String
  | .null => "null"
  | .bool value => "boolean " ++ Mismatch.ticked (toString value)
  | .integer value => "integer " ++ Mismatch.ticked (String.ofList (Text.integer value))
  | .number value =>
      "floating point " ++ Mismatch.ticked (String.ofList (dialect.numberLayout.render value))
  | .text value => "string " ++ Document.quote value
  | .list _ | .tables _ => "sequence"
  | .record _ | .moment _ => "map"
  | .unreadable => "value"

def wrongType (dialect : Dialect) (found : Document) (expected : String) : Mismatch :=
  match found with
  | .unreadable => .unreadable
  | _ => .wrongType (dialect.describe found) expected

end Dialect

end PipelineCapacity
