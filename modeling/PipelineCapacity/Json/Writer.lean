import PipelineCapacity.Decimal
import PipelineCapacity.Document
import PipelineCapacity.Json.Text

/-!
Writing documents as JSON texts, on one line or indented by two spaces a level.
-/

set_option autoImplicit false

namespace PipelineCapacity.Json

/-- The text of a document without parts. -/
def renderLeaf : Document → List Char
  | .bool true => "true".toList
  | .bool false => "false".toList
  | .integer value => Text.integer value
  | .number value => Decimal.Layout.document.render value
  | .text value => renderText value
  | .moment value => renderText value
  | _ => "null".toList

mutual

def compact : Document → List Char
  | .list items | .tables items => '[' :: compactItems items
  | .record fields => '\x7b' :: compactFields fields
  | leaf => renderLeaf leaf

/-- Items and the closing bracket. -/
def compactItems : List Document → List Char
  | [] => [']']
  | [item] => compact item ++ [']']
  | item :: rest => compact item ++ ',' :: compactItems rest

/-- Fields and the closing brace. -/
def compactFields : List (String × Document) → List Char
  | [] => ['\x7d']
  | [field] => renderText field.1 ++ ':' :: compact field.2 ++ ['\x7d']
  | field :: rest => renderText field.1 ++ ':' :: compact field.2 ++ ',' :: compactFields rest

end

/-- A new line at a level. -/
def newLine (level : Nat) : List Char := '\n' :: List.replicate (2 * level) ' '

mutual

/-- The text of a document whose first line starts at a level. -/
def indented (level : Nat) : Document → List Char
  | .list [] | .tables [] => ['[', ']']
  | .list items | .tables items => '[' :: newLine (level + 1) ++ indentedItems level items
  | .record [] => ['\x7b', '\x7d']
  | .record fields => '\x7b' :: newLine (level + 1) ++ indentedFields level fields
  | leaf => renderLeaf leaf

def indentedItems (level : Nat) : List Document → List Char
  | [] => newLine level ++ [']']
  | [item] => indented (level + 1) item ++ newLine level ++ [']']
  | item :: rest =>
      indented (level + 1) item ++ ',' :: newLine (level + 1) ++ indentedItems level rest

def indentedFields (level : Nat) : List (String × Document) → List Char
  | [] => newLine level ++ ['\x7d']
  | [field] =>
      renderText field.1 ++ ':' :: ' ' :: indented (level + 1) field.2 ++ newLine level ++ ['\x7d']
  | field :: rest =>
      renderText field.1 ++ ':' :: ' ' :: indented (level + 1) field.2 ++
        ',' :: newLine (level + 1) ++ indentedFields level rest

end

inductive Style where
  | compact
  | pretty
  deriving DecidableEq, Repr

def write (style : Style) (document : Document) : String :=
  match style with
  | .compact => String.ofList (compact document)
  | .pretty => String.ofList (indented 0 document)

end PipelineCapacity.Json
