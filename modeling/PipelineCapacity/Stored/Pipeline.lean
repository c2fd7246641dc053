import PipelineCapacity.Document.Record
import PipelineCapacity.Pipeline.Params

/-!
Documents of pipeline parameters.

The parameters of a pipeline form one flat record: the fields of its kind and
those of the single unit side by side. Among parameters of any kind the field
`model_type` tells the kind; everything else is kept aside until it is known.
-/

set_option autoImplicit false

namespace PipelineCapacity

open Document

namespace Policy

def toDocument (policy : Policy) : Document := .text policy.name

def ofDocument (dialect : Dialect) : Document → Reading Policy :=
  dialect.readVariant all name

end Policy

namespace ScalingRule

def toFields (rule : ScalingRule Float) : List (String × Document) :=
  [("up_pct_trigger", ofFloat rule.upPercent), ("up_delay", ofNat rule.upDelay),
    ("down_pct_trigger", ofFloat rule.downPercent), ("down_delay", ofNat rule.downDelay)]

def toDocument (rule : ScalingRule Float) : Document := .record rule.toFields

def shape : Shape := ⟨"ScalingRule", 4⟩

def gather (dialect : Dialect) (fields : Fields) : Gathered (ScalingRule Float) :=
  ScalingRule.mk <$> fields.get 0 "up_pct_trigger" dialect.readReal
    <*> fields.get 1 "up_delay" dialect.readCount
    <*> fields.get 2 "down_pct_trigger" dialect.readReal
    <*> fields.get 3 "down_delay" dialect.readCount

def ofDocument (dialect : Dialect) : Document → Reading (ScalingRule Float) :=
  shape.read dialect (gather dialect)

end ScalingRule

namespace SimpleParams

def toFields (params : SimpleParams Float) : List (String × Document) :=
  [("maxrate_rph", ofFloat params.maxRate), ("per_vm_hourcost", ofFloat params.unitCost),
    ("avg_latency_s", ofFloat params.baseLatency), ("policy", params.policy.toDocument)]

def toDocument (params : SimpleParams Float) : Document := .record params.toFields

def shape : Shape := ⟨"SimpleParams", 4⟩

def gather (dialect : Dialect) (fields : Fields) : Gathered (SimpleParams Float) :=
  SimpleParams.mk <$> fields.get 0 "maxrate_rph" dialect.readReal
    <*> fields.get 1 "per_vm_hourcost" dialect.readReal
    <*> fields.get 2 "avg_latency_s" dialect.readReal
    <*> fields.get 3 "policy" (Policy.ofDocument dialect)

def ofDocument (dialect : Dialect) : Document → Reading (SimpleParams Float) :=
  shape.read dialect (gather dialect)

/-- The single unit among other fields, all of them kept aside. -/
def ofEntries (dialect : Dialect) (entries : List (String × Document)) :
    Reading (SimpleParams Float) :=
  (gather dialect.aside (.named entries)).result

end SimpleParams

namespace QuickScalingParams

def toFields (params : QuickScalingParams Float) : List (String × Document) :=
  ("fixed_hourcost", ofFloat params.fixedCost) :: params.base.toFields

def toDocument (params : QuickScalingParams Float) : Document := .record params.toFields

def shape : Shape := ⟨"QuickScalingParams", 2⟩

def ofEntries (dialect : Dialect) (entries : List (String × Document)) :
    Reading (QuickScalingParams Float) := do
  let fixedCost ← ((Fields.named entries).get 0 "fixed_hourcost" dialect.readReal).result
  let base ← SimpleParams.ofEntries dialect entries
  return { fixedCost, base }

def ofDocument (dialect : Dialect) : Document → Reading (QuickScalingParams Float) :=
  shape.readNamed dialect (ofEntries dialect)

end QuickScalingParams

namespace AutoscalingParams

def toFields (params : AutoscalingParams Float) : List (String × Document) :=
  ("fixed_hourcost", ofFloat params.fixedCost) :: (params.rule.toFields ++ params.base.toFields)

def toDocument (params : AutoscalingParams Float) : Document := .record params.toFields

def shape : Shape := ⟨"AutoscalingParams", 6⟩

/-- The fields of its own. -/
def gather (dialect : Dialect) (fields : Fields) : Gathered (Float × ScalingRule Float) :=
  Prod.mk <$> fields.get 0 "fixed_hourcost" dialect.readReal
    <*> ScalingRule.gather dialect fields

def ofEntries (dialect : Dialect) (entries : List (String × Document)) :
    Reading (AutoscalingParams Float) := do
  let (fixedCost, rule) ← (gather dialect (.named entries)).result
  let base ← SimpleParams.ofEntries dialect entries
  return { fixedCost, rule, base }

def ofDocument (dialect : Dialect) : Document → Reading (AutoscalingParams Float) :=
  shape.readNamed dialect (ofEntries dialect)

end AutoscalingParams

namespace ModelType

def toDocument (kind : ModelType) : Document := .text kind.tag

def ofDocument (dialect : Dialect) (document : Document) : Reading ModelType :=
  match document with
  | .text tag =>
      match ofTag? tag with
      | some kind => .ok kind
      | none => .error (.unknownVariant tag (all.map ModelType.tag))
  | other => .error (dialect.wrongType other "variant identifier")

end ModelType

namespace ModelParams

def toFields : ModelParams Float → List (String × Document)
  | simple params => params.toFields
  | quickScaling params => params.toFields
  | autoscaling params | autoscalingFine params => params.toFields

def toDocument (params : ModelParams Float) : Document :=
  .record (("model_type", params.kind.toDocument) :: params.toFields)

def label : String := "internally tagged enum ModelParams"

/-- Parameters of a known kind. -/
def ofKind (dialect : Dialect) (kind : ModelType) (document : Document) :
    Reading (ModelParams Float) :=
  match kind with
  | .simple => (SimpleParams.ofDocument dialect document).map simple
  | .quickScaling => (QuickScalingParams.ofDocument dialect document).map quickScaling
  | .autoscaling => (AutoscalingParams.ofDocument dialect document).map autoscaling
  | .autoscalingFine => (AutoscalingParams.ofDocument dialect document).map autoscalingFine

def ofEntries (dialect : Dialect) (entries : List (String × Document)) :
    Reading (ModelParams Float) := do
  let kind ←
    ((Fields.named entries).get 0 "model_type" (ModelType.ofDocument dialect)).result
  let others := entries.filter fun entry => entry.1 != "model_type"
  ofKind dialect.aside kind (.record others)

/-- A list gives the kind first and then the fields. -/
def ofDocument (dialect : Dialect) (document : Document) : Reading (ModelParams Float) :=
  if !document.isReadable then .error .unreadable
  else
    match document with
    | .record entries => ofEntries dialect entries
    | .moment value => ofEntries dialect [(momentField, .text value)]
    | .list [] | .tables [] => .error (.missingField "model_type")
    | .list (tag :: items) | .tables (tag :: items) => do
        let kind ← ModelType.ofDocument dialect tag
        ofKind dialect.aside kind (.list items)
    | other => .error (dialect.wrongType other label)

end ModelParams

end PipelineCapacity
