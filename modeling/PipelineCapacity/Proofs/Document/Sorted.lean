import Mathlib.Data.List.Sort
import PipelineCapacity.Proofs.Document.Lookup
import PipelineCapacity.Proofs.Table

/-!
Documents without repeated names. A sorted record is a table of its fields: of
each name it has the value that came last, the names ascend, and two such records
in which some names have the same values are the same as far as these names go.
-/

set_option autoImplicit false

namespace PipelineCapacity

namespace Document

variable {fields entries others : List (String × Document)} {name : String}

theorem field?_eq_latest? (fields : List (String × Document)) (name : String) :
    field? fields name = latest? fields name := rfl

theorem insertField_eq_insertEntry (name : String) (value : Document)
    (fields : List (String × Document)) :
    insertField name value fields = Table.insertEntry name value fields := by
  induction fields with
  | nil => rfl
  | cons field rest ih =>
      have order : compare name field.1 = compareOfLessAndEq name field.1 := rfl
      rw [insertField, Table.insertEntry, ih, order]
      unfold compareOfLessAndEq
      by_cases less : name < field.1
      · rw [if_pos less, if_pos less]
      · rw [if_neg less, if_neg less]
        by_cases same : name = field.1
        · rw [if_pos same, if_pos (beq_iff_eq.mpr same)]
        · rw [if_neg same, if_neg (fun equal => same (beq_iff_eq.mp equal))]

/-- Sorting a record enters its fields into a table. -/
theorem sortedFields_eq_entries (fields done : List (String × Document)) :
    sortedFields fields done =
      (Table.insertAll ⟨done⟩ (fields.map (Prod.map id sorted))).entries := by
  induction fields generalizing done with
  | nil => rfl
  | cons field rest ih =>
      rw [sortedFields, ih, insertField_eq_insertEntry]
      rfl

theorem condensed_sortedFields (fields : List (String × Document)) :
    Condensed (fields.map (Prod.map id sorted)) (sortedFields fields []) := by
  rw [sortedFields_eq_entries]
  exact Table.condensed_insertAll _

theorem mem_iff_field? (distinct : (entries.map (·.1)).Nodup) {value : Document} :
    (name, value) ∈ entries ↔ field? entries name = some value := by
  constructor
  · exact field?_of_mem distinct
  · exact mem_of_latest?

/-- Fields that stay behind are found as before. -/
theorem field?_filter (distinct : (entries.map (·.1)).Nodup) {kept : String × Document → Bool}
    (stays : ∀ value, kept (name, value) = true) :
    field? (entries.filter kept) name = field? entries name := by
  have still : ((entries.filter kept).map (·.1)).Nodup :=
    (List.filter_sublist.map _).nodup distinct
  apply Option.ext
  intro value
  rw [← mem_iff_field? still, ← mem_iff_field? distinct, List.mem_filter]
  exact and_iff_left (stays value)

/-- Fields in the strict order of their names. -/
def Ascending (entries : List (String × Document)) : Prop :=
  entries.Pairwise fun earlier later => compare earlier.1 later.1 = .lt

namespace Ascending

theorem nodup (ascending : Ascending entries) : (entries.map (·.1)).Nodup :=
  (show Table.Ascending ⟨entries⟩ from ascending).keys_nodup

theorem filter (ascending : Ascending entries) (kept : String × Document → Bool) :
    Ascending (entries.filter kept) :=
  List.Pairwise.filter kept ascending

/-- Two sorted records in which some names have the same values have the same
fields of these names. -/
theorem filter_eq_filter (ascending : Ascending entries) (also : Ascending others)
    {names : List String} (agree : ∀ name ∈ names, field? entries name = field? others name) :
    entries.filter (fun entry => decide (entry.1 ∈ names)) =
      others.filter fun entry => decide (entry.1 ∈ names) := by
  have antisymmetric : Std.Antisymm fun earlier later : String × Document =>
      compare earlier.1 later.1 = .lt :=
    ⟨fun _ _ less greater => by
      rw [Std.OrientedCmp.gt_iff_lt.mpr less] at greater
      cases greater⟩
  have irreflexive : Std.Irrefl fun earlier later : String × Document =>
      compare earlier.1 later.1 = .lt :=
    ⟨fun _ less => by
      rw [Std.compare_self] at less
      cases less⟩
  apply List.Pairwise.eq_of_mem_iff (ascending.filter _) (also.filter _)
  intro ⟨name, value⟩
  rw [List.mem_filter, List.mem_filter, decide_eq_true_iff]
  apply and_congr_left
  intro known
  rw [mem_iff_field? ascending.nodup, mem_iff_field? also.nodup, agree name known]

end Ascending

theorem ascending_sortedFields (fields : List (String × Document)) :
    Ascending (sortedFields fields []) :=
  (condensed_sortedFields fields).ascending

/-- What a sorted record has under a name is what came last under it. -/
theorem field?_sortedFields (fields : List (String × Document)) (name : String) :
    field? (sortedFields fields []) name = (field? fields name).map sorted := by
  rw [field?_eq_latest? fields, ← latest?_map]
  have condensed := condensed_sortedFields fields
  cases found : latest? (fields.map (Prod.map id sorted)) name with
  | none =>
      rw [field?_eq_latest?, latest?_eq_none_iff, condensed.mem_keys_iff]
      exact latest?_eq_none_iff.mp found
  | some value =>
      exact (mem_iff_field? (ascending_sortedFields fields).nodup).mp
        ((condensed.mem_iff (name, value)).mpr found)

theorem exists_fields_of_sorted {document : Document} (sorted : document.sorted = record entries) :
    ∃ fields, document = record fields ∧ entries = sortedFields fields [] := by
  cases document with
  | record fields =>
      cases sorted
      exact ⟨fields, rfl, rfl⟩
  | _ => cases sorted

section Readable

mutual

theorem isReadable_sorted : (document : Document) → document.isReadable = true →
    document.sorted.isReadable = true
  | .list items, readable | .tables items, readable => areReadable_sortedItems items readable
  | .record fields, readable => by
      apply isReadable_record.mpr
      intro entry member
      -- An entry of the sorted record is the last field of its name, itself sorted.
      have last := (condensed_sortedFields fields).mem_iff entry |>.mp member
      obtain ⟨field, inside, same⟩ := List.mem_map.mp (mem_of_latest? last)
      rw [← (Prod.mk.inj same).2]
      exact isReadable_sorted_of_mem fields readable field inside
  | .null, _ | .bool _, _ | .integer _, _ | .number _, _ | .text _, _ | .moment _, _ => rfl

theorem areReadable_sortedItems : (items : List Document) → areReadable items = true →
    areReadable (sortedItems items) = true
  | [], _ => rfl
  | item :: rest, readable => by
      obtain ⟨first, others⟩ := Bool.and_eq_true_iff.mp readable
      exact Bool.and_eq_true_iff.mpr
        ⟨isReadable_sorted item first, areReadable_sortedItems rest others⟩

theorem isReadable_sorted_of_mem : (fields : List (String × Document)) →
    fieldsReadable fields = true → ∀ field ∈ fields, field.2.sorted.isReadable = true
  | [], _ => List.forall_mem_nil _
  | (_, value) :: rest, readable => by
      obtain ⟨first, others⟩ := Bool.and_eq_true_iff.mp readable
      exact List.forall_mem_cons.mpr
        ⟨isReadable_sorted value first, isReadable_sorted_of_mem rest others⟩

end

end Readable

end Document

/-- A field is found where its name has a value, and is what that value is read as. -/
theorem Fields.get_eq_done_iff {β : Type} {entries : List (String × Document)}
    (distinct : (entries.map (·.1)).Nodup) {index : Nat} {name : String}
    {read : Document → Reading β} {result : β} :
    (Fields.named entries).get index name read = .done result ↔
      ∃ value, Document.field? entries name = some value ∧ read value = .ok result := by
  change getNamed entries name read .refused = _ ↔ _
  cases found : Document.field? entries name with
  | none =>
      have absent : name ∉ entries.map (·.1) := latest?_eq_none_iff.mp found
      have nowhere : occurrences entries name = [] :=
        List.map_eq_nil_iff.mpr (filter_zipIdx_of_not_mem absent 0)
      unfold getNamed
      rw [nowhere]
      exact iff_of_false nofun (fun ⟨_, given, _⟩ => nomatch given)
  | some value =>
      rw [getNamed_eq_done_iff distinct (mem_of_latest? found)]
      simp

end PipelineCapacity
