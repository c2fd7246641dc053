import PipelineCapacity.Text.Numeral

/-!
Documents: trees of the values that JSON and TOML texts describe.

Records keep their fields in the order of the text, repeated names included.
`unreadable` stands for a part whose shape is known but whose value is not: a
number past every finite one, a string with half a surrogate pair, or a part
nested too deeply. Such a part does no harm where nobody reads it.
-/

set_option autoImplicit false

namespace PipelineCapacity

inductive Document where
  | null
  | bool (value : Bool)
  | integer (value : Int)
  | number (value : Float)
  | text (value : String)
  | list (items : List Document)
  /-- The tables that repeated headers of one name make: a list of at least one record. -/
  | tables (items : List Document)
  | record (fields : List (String × Document))
  /-- A date, a time or both. -/
  | moment (value : String)
  | unreadable

namespace Document

mutual

def isReadable : Document → Bool
  | unreadable => false
  | list items | tables items => areReadable items
  | record fields => fieldsReadable fields
  | _ => true

def areReadable : List Document → Bool
  | [] => true
  | item :: rest => item.isReadable && areReadable rest

def fieldsReadable : List (String × Document) → Bool
  | [] => true
  | field :: rest => field.2.isReadable && fieldsReadable rest

end

/-- Fields in ascending order of their names; of fields with one name the last
one stays. -/
def insertField (name : String) (value : Document) :
    List (String × Document) → List (String × Document)
  | [] => [(name, value)]
  | field :: rest =>
      if name < field.1 then (name, value) :: field :: rest
      else if name == field.1 then (name, value) :: rest
      else field :: insertField name value rest

mutual

/-- The document without repeated names, every record sorted by name. -/
def sorted : Document → Document
  | list items => list (sortedItems items)
  | tables items => tables (sortedItems items)
  | record fields => record (sortedFields fields [])
  | other => other

def sortedItems : List Document → List Document
  | [] => []
  | item :: rest => item.sorted :: sortedItems rest

def sortedFields : List (String × Document) → List (String × Document) → List (String × Document)
  | [], done => done
  | field :: rest, done => sortedFields rest (insertField field.1 field.2.sorted done)

end

/-- The value of the last field of a name. -/
def field? (fields : List (String × Document)) (name : String) : Option Document :=
  (fields.reverse.find? fun field => field.1 == name).map (·.2)

/-- An amount as a document; what is not finite has no numeral. -/
def ofFloat (amount : Float) : Document := if amount.isFinite then number amount else null

def ofNat (count : Nat) : Document := integer count

end Document

end PipelineCapacity
