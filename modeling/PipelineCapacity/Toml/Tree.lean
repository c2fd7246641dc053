import PipelineCapacity.Document

/-!
The tables of a TOML text while it is read.

Tables come into being by a header, by the path of a header, or by the dots of
a key. A table that a header defined is not defined again or extended by dotted
keys, and dotted keys only extend tables that dotted keys made.
-/

set_option autoImplicit false

namespace PipelineCapacity.Toml

inductive Tree where
  | value (document : Document)
  /-- `isImplicit` until a header defines it; `isDotted` if the dots of a key made it. -/
  | table (isImplicit isDotted : Bool) (fields : List (String × Tree))
  /-- Tables of one name, latest first. -/
  | tables (items : List (List (String × Tree)))

abbrev Branches := List (String × Tree)

namespace Tree

mutual

def toDocument : Tree → Document
  | value document => document
  | table _ _ fields => .record (documentFields fields)
  | tables items => .tables (documentItems items).reverse

def documentFields : Branches → List (String × Document)
  | [] => []
  | field :: rest => (field.1, field.2.toDocument) :: documentFields rest

def documentItems : List Branches → List Document
  | [] => []
  | item :: rest => .record (documentFields item) :: documentItems rest

end

end Tree

namespace Branches

def child? (fields : Branches) (name : String) : Option Tree :=
  (fields.find? fun field => field.1 == name).map (·.2)

def without (fields : Branches) (name : String) : Branches :=
  fields.filter fun field => field.1 != name

/-- Changes a field in its place, or adds it at the end. -/
def put (fields : Branches) (name : String) (tree : Tree) : Branches :=
  if fields.any fun field => field.1 == name then
    fields.map fun field => if field.1 == name then (name, tree) else field
  else fields ++ [(name, tree)]

/-- Changes the table at the end of a path, making the tables on the way. The
change is told whether the dots of a key made the table. -/
def descend {β : Type} (dotted : Bool) (change : Bool → Branches → Option (β × Branches)) :
    List String → Bool → Branches → Option (β × Branches)
  | [], isDotted, fields => change isDotted fields
  | name :: path, _, fields =>
      match child? fields name with
      | none => do
          let (result, child) ← descend dotted change path dotted []
          return (result, put fields name (.table true dotted child))
      | some (.value _) => none
      | some (.tables []) => none
      | some (.tables (latest :: earlier)) => do
          let (result, child) ← descend dotted change path false latest
          return (result, put fields name (.tables (child :: earlier)))
      | some (.table isImplicit isDotted child) =>
          if dotted && !isImplicit then none
          else do
            let (result, child) ← descend dotted change path isDotted child
            return (result, put fields name (.table isImplicit isDotted child))

/-- Adds the value of a key. -/
def addValue (fields : Branches) (path : List String) (name : String) (tree : Tree) :
    Option Branches :=
  let change (isDotted : Bool) (fields : Branches) : Option (Unit × Branches) :=
    if isDotted == path.isEmpty || (child? fields name).isSome then none
    else some ((), fields ++ [(name, tree)])
  (descend true change path false fields).map (·.2)

/-- Takes out the table of a header, which may be there only as part of a path. -/
def openTable (fields : Branches) (path : List String) (name : String) :
    Option (Branches × Branches) :=
  let change (_ : Bool) (fields : Branches) : Option (Branches × Branches) :=
    match child? fields name with
    | none => some ([], fields)
    | some (.table true false child) => some (child, without fields name)
    | some _ => none
  descend false change path false fields

/-- Makes sure that a name may hold one more table. -/
def openTables (fields : Branches) (path : List String) (name : String) : Option Branches :=
  let change (_ : Bool) (fields : Branches) : Option (Unit × Branches) :=
    match child? fields name with
    | none => some ((), fields ++ [(name, .tables [])])
    | some (.tables _) => some ((), fields)
    | some _ => none
  (descend false change path false fields).map (·.2)

def closeTable (fields : Branches) (path : List String) (name : String) (table : Branches) :
    Option Branches :=
  let change (_ : Bool) (fields : Branches) : Option (Unit × Branches) :=
    some ((), fields ++ [(name, .table false false table)])
  (descend false change path false fields).map (·.2)

def closeTables (fields : Branches) (path : List String) (name : String) (table : Branches) :
    Option Branches :=
  let change (_ : Bool) (fields : Branches) : Option (Unit × Branches) :=
    match child? fields name with
    | some (.tables items) => some ((), put fields name (.tables (table :: items)))
    | _ => none
  (descend false change path false fields).map (·.2)

end Branches

end PipelineCapacity.Toml
