import PipelineCapacity.Decimal
import PipelineCapacity.Document.Mismatch

/-!
Reading values out of documents.

The parts of a record are read independently and combined. When several of them
fail, the failure that comes first in the document is the one reported; a field
that is missing fails after everything that is there, in the order in which the
fields are declared. A record may also be written as the list of its fields.
-/

set_option autoImplicit false

namespace PipelineCapacity

abbrev Reading (β : Type) := Except Mismatch β

/-- A value put together from parts, or the failure that comes first. -/
inductive Gathered (β : Type) where
  | done (value : β)
  | failed (place : Nat) (cause : Mismatch)

namespace Gathered

variable {β γ : Type}

def map (f : β → γ) : Gathered β → Gathered γ
  | done value => done (f value)
  | failed place cause => failed place cause

/-- Of two failures the one at the earlier place, the left one at equal places. -/
def apply : Gathered (β → γ) → Gathered β → Gathered γ
  | done f, done value => done (f value)
  | done _, failed place cause => failed place cause
  | failed place cause, done _ => failed place cause
  | failed left leftCause, failed right rightCause =>
      if right < left then failed right rightCause else failed left leftCause

instance : Functor Gathered where
  map := map

instance : Applicative Gathered where
  pure := done
  seq := fun f value => apply f (value ())

def result : Gathered β → Reading β
  | done value => .ok value
  | failed _ cause => .error cause

def ofReading (place : Nat) : Reading β → Gathered β
  | .ok value => done value
  | .error cause => failed place cause

end Gathered

/-- A record type by its name and the number of its fields. -/
structure Shape where
  name : String
  size : Nat

namespace Shape

def label (shape : Shape) : String := "struct " ++ shape.name

def lengthLabel (shape : Shape) : String :=
  s!"{shape.label} with {shape.size} element" ++ (if shape.size == 1 then "" else "s")

end Shape

/-- The fields of a record: by name, or in the order of their declaration. -/
inductive Fields where
  | named (entries : List (String × Document))
  | listed (shape : Shape) (items : List Document)

/-- What stands for a field that is not there. -/
inductive Absence (β : Type) where
  | refused
  | unnamed (value : β)
  | allowed (value : β)

namespace Fields

variable {β : Type}

/-- Places and values of a name. -/
def occurrences (entries : List (String × Document)) (name : String) : List (Nat × Document) :=
  (entries.zipIdx.filter fun entry => entry.1.1 == name).map fun entry => (entry.2, entry.1.2)

def getNamed (entries : List (String × Document)) (name : String) (read : Document → Reading β)
    (absence : Absence β) : Gathered β :=
  match occurrences entries name with
  | [] =>
      match absence with
      | .refused => .failed entries.length (.missingField name)
      | .unnamed value => .done value
      | .allowed value => .done value
  | [(place, value)] => .ofReading place (read value)
  | (first, value) :: (second, _) :: _ =>
      match read value with
      | .error cause => .failed first cause
      | .ok _ => .failed second (.duplicateField name)

def getListed (shape : Shape) (items : List Document) (index : Nat) (read : Document → Reading β)
    (absence : Absence β) : Gathered β :=
  match items[index]? with
  | some value => .ofReading index (read value)
  | none =>
      match absence with
      | .allowed value => .done value
      | _ => .failed index (.wrongLength index shape.lengthLabel)

/-- The field of a name, declared at an index, or what stands for it. -/
def getOr (fields : Fields) (absence : Absence β) (index : Nat) (name : String)
    (read : Document → Reading β) : Gathered β :=
  match fields with
  | named entries => getNamed entries name read absence
  | listed shape items => getListed shape items index read absence

def get (fields : Fields) (index : Nat) (name : String) (read : Document → Reading β) :
    Gathered β :=
  fields.getOr .refused index name read

end Fields

/-- The one field under which a date or time shows its text as a record. -/
def momentField : String := "$__toml_private_datetime"

namespace Dialect

/-- What is said of a list that goes on after the last field of a record. -/
def surplus? (dialect : Dialect) (taken found : Nat) : Option Mismatch :=
  if found ≤ taken then none
  else if dialect.isKeptAside then
    some (.wrongLength found
      (if taken == 1 then "1 element in sequence" else s!"{taken} elements in sequence"))
  else if dialect.isToml then none
  else some .trailingCharacters

end Dialect

namespace Shape

variable {β : Type}

/-- A record written by its names or as a list of its fields. -/
def read (shape : Shape) (dialect : Dialect) (build : Fields → Gathered β)
    (document : Document) : Reading β :=
  match document with
  | .record entries => (build (.named entries)).result
  | .moment value => (build (.named [(momentField, .text value)])).result
  | .list items | .tables items =>
      match (build (.listed shape items)).result with
      | .error cause => .error cause
      | .ok value =>
          match dialect.surplus? shape.size items.length with
          | some cause => .error cause
          | none => .ok value
  | other => .error (dialect.wrongType other shape.label)

/-- A record that can only be written by its names, some of whose fields are kept
aside until its own are read. -/
def readNamed (shape : Shape) (dialect : Dialect)
    (build : List (String × Document) → Reading β) (document : Document) : Reading β :=
  if !document.isReadable then .error .unreadable
  else
    match document with
    | .record entries => build entries
    | .moment value => build [(momentField, .text value)]
    | other => .error (dialect.wrongType other shape.label)

end Shape

namespace Dialect

def readReal (dialect : Dialect) (document : Document) : Reading Float :=
  match document with
  | .number value => .ok value
  | .integer value => .ok (Decimal.ofInt value)
  | other => .error (dialect.wrongType other "f64")

/-- A real number, or nothing for an explicit null. -/
def readReal? (dialect : Dialect) (document : Document) : Reading (Option Float) :=
  match document with
  | .null => .ok none
  | other => (dialect.readReal other).map some

def readInteger (dialect : Dialect) (low high : Int) (label : String) (document : Document) :
    Reading Int :=
  match document with
  | .integer value =>
      if low ≤ value ∧ value ≤ high then .ok value
      else .error (.wrongValue (dialect.describe document) label)
  | other => .error (dialect.wrongType other label)

/-- A count of at most 32 binary places. -/
def readCount (dialect : Dialect) (document : Document) : Reading Nat :=
  (dialect.readInteger 0 4294967295 "u32" document).map Int.toNat

/-- A count of at most 64 binary places. -/
def readSize (dialect : Dialect) (document : Document) : Reading Nat :=
  (dialect.readInteger 0 18446744073709551615 "usize" document).map Int.toNat

def readYear (dialect : Dialect) (document : Document) : Reading Int :=
  dialect.readInteger (-2147483648) 2147483647 "i32" document

def readText (dialect : Dialect) (document : Document) : Reading String :=
  match document with
  | .text value => .ok value
  | other => .error (dialect.wrongType other "a string")

def readBool (dialect : Dialect) (document : Document) : Reading Bool :=
  match document with
  | .bool value => .ok value
  | other => .error (dialect.wrongType other "a boolean")

def readDate (dialect : Dialect) (document : Document) : Reading Date :=
  match document with
  | .text value => (Date.read value.toList).mapError .date
  | other => .error (dialect.wrongType other "a formatted date string")

def readList {β : Type} (dialect : Dialect) (read : Document → Reading β)
    (document : Document) : Reading (List β) :=
  match document with
  | .list items | .tables items => items.mapM read
  | other => .error (dialect.wrongType other "a sequence")

/-- What may follow a name that stands for itself. -/
def readNothing (dialect : Dialect) (document : Document) : Reading Unit :=
  if dialect.isToml && !dialect.isKeptAside then
    match document with
    | .record [] | .list [] | .tables [] => .ok ()
    | .record _ | .list _ => .error (.shape "expected empty table")
    | .tables _ => .error (.shape "expected empty array")
    | .bool _ => .error (.shape "expected table, found boolean")
    | .integer _ => .error (.shape "expected table, found integer")
    | .number _ => .error (.shape "expected table, found float")
    | .text _ => .error (.shape "expected table, found string")
    | .moment _ => .error (.shape "expected table, found datetime")
    | .null | .unreadable => .error .unreadable
  else
    match document with
    | .null => .ok ()
    | .record [] =>
        if dialect.isKeptAside then .ok () else .error (.wrongType "map" "unit")
    | other => .error (dialect.wrongType other "unit")

/-- The name a document chooses, and what it says after it. -/
def choice (dialect : Dialect) (document : Document) :
    Reading (String × Option Document × Option Mismatch) :=
  match document with
  | .text name => .ok (name, none, none)
  | .unreadable => .error .unreadable
  | .record [(name, value)] => .ok (name, some value, none)
  | other =>
      if dialect.isKeptAside then
        match other with
        | .record _ => .error (.wrongValue "map" "map with a single key")
        | .moment value => .ok (momentField, some (.text value), none)
        | _ => .error (dialect.wrongType other "string or map")
      else if dialect.isToml then
        match other with
        | .record [] => .error (.shape "wanted exactly 1 element, found 0 elements")
        | .record _ => .error (.shape "wanted exactly 1 element, more than 1 element")
        | _ => .error (.shape "wanted string or table")
      else
        match other with
        | .record ((name, value) :: _) => .ok (name, some value, some .expectedValue)
        | _ => .error .expectedValue

/-- One of a list of named values. -/
def readVariant {β : Type} (dialect : Dialect) (known : List β) (label : β → String)
    (document : Document) : Reading β := do
  let (name, value?, after?) ← dialect.choice document
  match known.find? fun variant => label variant == name with
  | none => throw (.unknownVariant name (known.map label))
  | some variant =>
      if let some value := value? then dialect.readNothing value
      if let some cause := after? then throw cause
      return variant

end Dialect

end PipelineCapacity
