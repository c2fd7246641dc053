import Mathlib.Data.List.Nodup
import PipelineCapacity.Document.Record
import PipelineCapacity.Proofs.Document.Record

/-!
Fields found by their names. Where no two fields have one name, a field is found
wherever it stands.
-/

set_option autoImplicit false

namespace PipelineCapacity

namespace Document

variable {fields entries : List (String × Document)} {name : String} {value : Document}

/-- Values without parts. -/
def IsLeaf : Document → Prop
  | null | bool _ | integer _ | number _ | text _ => True
  | _ => False

theorem IsLeaf.sorted {document : Document} (leaf : document.IsLeaf) :
    document.sorted = document := by
  cases document <;> first | rfl | cases leaf

theorem IsLeaf.isReadable {document : Document} (leaf : document.IsLeaf) :
    document.isReadable = true := by
  cases document <;> first | rfl | cases leaf

@[simp]
theorem isLeaf_text (value : String) : (text value).IsLeaf := trivial

@[simp]
theorem isLeaf_ofFloat (amount : Float) : (ofFloat amount).IsLeaf := by
  unfold ofFloat
  split <;> trivial

@[simp]
theorem isLeaf_ofNat (count : Nat) : (ofNat count).IsLeaf := trivial

theorem isReadable_record :
    (record fields).isReadable = true ↔ ∀ field ∈ fields, field.2.isReadable = true := by
  change fieldsReadable fields = true ↔ _
  induction fields with
  | nil => simp [fieldsReadable]
  | cons field rest ih => rw [fieldsReadable, Bool.and_eq_true, ih, List.forall_mem_cons]

theorem eq_of_mem (distinct : (entries.map (·.1)).Nodup) (member : (name, value) ∈ entries)
    {other : Document} (again : (name, other) ∈ entries) : other = value := by
  have same := List.inj_on_of_nodup_map distinct again member rfl
  exact (Prod.mk.inj same).2

theorem field?_of_mem (distinct : (entries.map (·.1)).Nodup) (member : (name, value) ∈ entries) :
    field? entries name = some value := by
  unfold field?
  cases found : entries.reverse.find? fun field => field.1 == name with
  | none =>
      have missing := List.find?_eq_none.mp found _ (List.mem_reverse.mpr member)
      simp at missing
  | some field =>
      obtain ⟨other, document⟩ := field
      have named : other = name := by simpa using List.find?_some found
      have inside := List.mem_reverse.mp (List.mem_of_find?_eq_some found)
      rw [named] at inside
      rw [eq_of_mem distinct member inside]
      rfl

end Document

namespace Fields

variable {β : Type} {entries : List (String × Document)} {name : String} {value : Document}

theorem filter_zipIdx_of_not_mem (absent : name ∉ entries.map (·.1)) (start : Nat) :
    (entries.zipIdx start).filter (fun entry => entry.1.1 == name) = [] := by
  refine List.filter_eq_nil_iff.mpr fun entry member same => absent ?_
  obtain ⟨_, _, inside⟩ := List.mem_zipIdx member
  rw [← eq_of_beq same, inside]
  exact List.mem_map_of_mem (List.getElem_mem _)

theorem occurrences_of_mem (distinct : (entries.map (·.1)).Nodup)
    (member : (name, value) ∈ entries) : ∃ place, occurrences entries name = [(place, value)] := by
  obtain ⟨before, after, rfl⟩ := List.append_of_mem member
  rw [List.map_append, List.map_cons, List.nodup_append'] at distinct
  have earlier : name ∉ before.map (·.1) := fun same => distinct.2.2 same List.mem_cons_self
  have later : name ∉ after.map (·.1) := (List.nodup_cons.mp distinct.2.1).1
  unfold occurrences
  rw [List.zipIdx_append, List.filter_append, filter_zipIdx_of_not_mem earlier, List.nil_append,
    List.zipIdx_cons, List.filter_cons_of_pos, filter_zipIdx_of_not_mem later]
  · exact ⟨_, rfl⟩
  · exact beq_self_eq_true name

/-- The one field of a name is what its value is read as. -/
theorem getNamed_eq_done_iff (distinct : (entries.map (·.1)).Nodup)
    (member : (name, value) ∈ entries) {read : Document → Reading β} {absence : Absence β}
    {result : β} :
    getNamed entries name read absence = .done result ↔ read value = .ok result := by
  obtain ⟨place, found⟩ := occurrences_of_mem distinct member
  unfold getNamed
  rw [found]
  exact Gathered.ofReading_eq_done_iff

end Fields

namespace Shape

variable {β : Type} {shape : Shape} {dialect : Dialect} {entries : List (String × Document)}

theorem read_record {build : Fields → Gathered β} :
    shape.read dialect build (.record entries) = (build (.named entries)).result := rfl

theorem readNamed_record {build : List (String × Document) → Reading β}
    (readable : ∀ entry ∈ entries, entry.2.isReadable = true) :
    shape.readNamed dialect build (.record entries) = build entries := by
  unfold readNamed
  rw [Document.isReadable_record.mpr readable]
  rfl

end Shape

end PipelineCapacity
