import PipelineCapacity.Json.Reader
import PipelineCapacity.Json.Writer
import PipelineCapacity.Proofs.Json.Number
import PipelineCapacity.Proofs.Json.Text

/-!
Documents read back from the texts written for them, in either style. What a
text in front of something is read as does not depend on what follows, as long
as it ends the text; so lists and records are read part by part, whatever
blanks stand between the parts.
-/

set_option autoImplicit false

namespace PipelineCapacity.Json

/-- The first character is no blank and closes nothing. -/
def Opens (text : List Char) : Prop :=
  ∃ char others, text = char :: others ∧ isBlank char = false ∧ char ≠ ']' ∧ char ≠ '\x7d'

/-- From the text, in front of anything that ends it, the document is read.
Twice the length of the text is fuel enough. -/
structure Reads (depth : Nat) (document : Document) (text : List Char) : Prop where
  opens : Opens text
  reads : ∀ fuel rest, Ends rest → 2 * text.length ≤ fuel →
    readValue fuel depth (text ++ rest) = some (document, rest)

def Blank (gap : List Char) : Prop := ∀ char ∈ gap, isBlank char = true

theorem skip_append {gap : List Char} (blank : Blank gap) {char : Char}
    (solid : isBlank char = false) (rest : List Char) :
    skip (gap ++ char :: rest) = char :: rest := by
  unfold skip
  rw [List.dropWhile_append_of_pos blank, List.dropWhile_cons_of_neg (by rw [solid]; simp)]

theorem ends_of_blank {char : Char} (blank : isBlank char = true) (rest : List Char) :
    Ends (char :: rest) := by
  unfold isBlank at blank
  simp only [Bool.or_eq_true, beq_iff_eq] at blank
  rcases blank with ((rfl | rfl) | rfl) | rfl <;>
    exact ends_cons rest (by decide) (by decide) (by decide) (by decide)

theorem ends_append {gap rest : List Char} (blank : Blank gap) (ends : Ends rest) :
    Ends (gap ++ rest) := by
  cases gap with
  | nil => exact ends
  | cons char others => exact ends_of_blank (blank char List.mem_cons_self) _

/-- Texts with commas between them, each followed by the gap. -/
def joined (gap : List Char) : List (List Char) → List Char
  | [] => []
  | [text] => text
  | text :: rest => text ++ ',' :: gap ++ joined gap rest

theorem joined_cons_cons (gap first second : List Char) (rest : List (List Char)) :
    joined gap (first :: second :: rest) = first ++ ',' :: gap ++ joined gap (second :: rest) := rfl

/-- What a numeral can start with. -/
def isLead (char : Char) : Bool := char == '-' || Text.isDigit char

theorem ne_of_lead {char other : Char} (lead : isLead char = true)
    (different : isLead other = false) : char ≠ other := by
  rintro rfl
  rw [lead] at different
  cases different

theorem not_blank_of_lead {char : Char} (lead : isLead char = true) : isBlank char = false := by
  unfold isBlank
  rw [beq_false_of_ne (ne_of_lead lead rfl), beq_false_of_ne (ne_of_lead lead rfl),
    beq_false_of_ne (ne_of_lead lead rfl), beq_false_of_ne (ne_of_lead lead rfl)]
  rfl

theorem readValue_numeral {char : Char} (lead : isLead char = true) (fuel depth : Nat)
    (others : List Char) :
    readValue (fuel + 1) depth (char :: others) = readNumber? (char :: others) := by
  have elsewhere {other : Char} {rest : List Char} (different : isLead other = false)
      (same : char :: others = other :: rest) : False :=
    ne_of_lead lead different (List.cons_eq_cons.mp same).1
  rw [readValue.eq_def]
  dsimp only
  split
  · exact (elsewhere rfl ‹_›).elim
  · exact (elsewhere rfl ‹_›).elim
  · exact (elsewhere rfl ‹_›).elim
  · exact (elsewhere rfl ‹_›).elim
  · exact (elsewhere rfl ‹_›).elim
  · exact (elsewhere rfl ‹_›).elim
  · rfl

theorem Reads.of_number {document : Document} {text : List Char}
    (found : readNumber? text = some (document, [])) (depth : Nat) : Reads depth document text := by
  obtain ⟨char, others, rfl, start⟩ := readNumber?_head found
  have lead : isLead char = true := by
    rcases start with rfl | digit
    · rfl
    · exact Bool.or_eq_true_iff.mpr (.inr digit)
  refine ⟨⟨char, others, rfl, not_blank_of_lead lead, ne_of_lead lead rfl, ne_of_lead lead rfl⟩,
    fun fuel rest ends enough => ?_⟩
  cases fuel with
  | zero => exact absurd enough (by simp)
  | succ fuel =>
      rw [List.cons_append, readValue_numeral lead]
      exact readNumber?_append ends found

theorem readValue_text (fuel depth : Nat) (text : String) (rest : List Char) :
    readValue (fuel + 1) depth (renderText text ++ rest) = some (.text text, rest) := by
  have escaped : renderText text ++ rest =
      '"' :: (text.toList.flatMap escape ++ '"' :: rest) := by
    simp [renderText]
  rw [escaped, readValue, readText?_escapes]

theorem Reads.of_leaf {document : Document} {text : List Char} {depth : Nat} (opens : Opens text)
    (found : ∀ fuel rest, readValue (fuel + 1) depth (text ++ rest) = some (document, rest)) :
    Reads depth document text := by
  refine ⟨opens, fun fuel rest ends enough => ?_⟩
  cases fuel with
  | zero =>
      obtain ⟨char, others, rfl, _⟩ := opens
      simp at enough
  | succ fuel => exact found fuel rest

section Parts

variable {depth : Nat} {gap close colon : List Char} {render : Document → List Char}

theorem joined_opens (gap : List Char) {texts : List (List Char)} (present : texts ≠ [])
    (opens : ∀ text ∈ texts, Opens text) : Opens (joined gap texts) := by
  cases texts with
  | nil => exact absurd rfl present
  | cons text rest =>
      obtain ⟨char, others, rfl, solid, inside⟩ := opens text List.mem_cons_self
      cases rest with
      | nil => exact ⟨char, others, rfl, solid, inside⟩
      | cons next rest => exact ⟨char, _, rfl, solid, inside⟩

theorem skip_joined (gapBlank : Blank gap) {texts : List (List Char)} (present : texts ≠ [])
    (opens : ∀ text ∈ texts, Opens text) (rest : List Char) :
    skip (gap ++ (joined gap texts ++ rest)) = joined gap texts ++ rest := by
  obtain ⟨char, others, split, solid, _⟩ := joined_opens gap present opens
  rw [split]
  exact skip_append gapBlank solid _

theorem opens_of_reads {items : List Document}
    (each : ∀ item ∈ items, Reads depth item (render item)) :
    ∀ text ∈ items.map render, Opens text :=
  List.forall_mem_map.mpr fun item member => (each item member).opens

/-- Items one after the other, and the bracket after the last. -/
theorem readItems_joined (gapBlank : Blank gap) (closeBlank : Blank close)
    {items : List Document} (present : items ≠ [])
    (each : ∀ item ∈ items, Reads depth item (render item)) (fuel : Nat)
    (before : List Document) (rest : List Char)
    (enough : 2 * (joined gap (items.map render) ++ close ++ [']']).length ≤ fuel) :
    readItems fuel depth before (joined gap (items.map render) ++ close ++ ']' :: rest) =
      some (before.reverse ++ items, rest) := by
  induction items generalizing fuel before with
  | nil => exact absurd rfl present
  | cons item items ih =>
      obtain ⟨reads, later⟩ := List.forall_mem_cons.mp each
      cases fuel with
      | zero => simp at enough
      | succ fuel =>
          cases items with
          | nil =>
              have ends : Ends (close ++ ']' :: rest) :=
                ends_append closeBlank (ends_cons rest rfl (by decide) (by decide) (by decide))
              simp only [List.map_cons, List.map_nil, joined, List.append_assoc,
                List.length_append, List.length_singleton] at enough ⊢
              rw [readItems, reads.reads fuel _ ends (by omega)]
              dsimp only
              rw [skip_append closeBlank rfl]
              simp
          | cons next others =>
              have opens := opens_of_reads later
              have again := ih (List.cons_ne_nil _ _) later fuel (item :: before)
              simp only [List.map_cons, joined_cons_cons, List.append_assoc, List.cons_append,
                List.length_append, List.length_cons] at enough opens again ⊢
              rw [readItems, reads.reads fuel _
                (ends_cons _ rfl (by decide) (by decide) (by decide)) (by omega)]
              change readItems fuel depth (item :: before) (skip _) = _
              rw [skip_joined gapBlank (List.cons_ne_nil _ _) opens, again (by omega)]
              simp

theorem readValue_list {fuel : Nat} {rest after : List Char} {char : Char}
    {others : List Char} {items : List Document} (opened : skip rest = char :: others)
    (inside : char ≠ ']') (found : readItems fuel depth [] (char :: others) = some (items, after)) :
    readValue (fuel + 1) (depth + 1) ('[' :: rest) = some (.list items, after) := by
  rw [readValue, opened]
  split
  · rename_i same
    exact absurd (List.cons_eq_cons.mp same).1 inside
  · rw [Nat.add_sub_cancel, found]
    rfl

theorem Reads.list (gapBlank : Blank gap) (closeBlank : Blank close)
    {items : List Document} (present : items ≠ [])
    (each : ∀ item ∈ items, Reads depth item (render item)) :
    Reads (depth + 1) (.list items)
      ('[' :: gap ++ joined gap (items.map render) ++ close ++ [']']) := by
  refine ⟨⟨'[', _, rfl, rfl, by decide, by decide⟩, fun fuel rest _ enough => ?_⟩
  cases fuel with
  | zero => simp at enough
  | succ fuel =>
      have opens := opens_of_reads each
      have texts : items.map render ≠ [] := mt List.map_eq_nil_iff.mp present
      obtain ⟨char, others, split, _, inside, _⟩ := joined_opens gap texts opens
      have opened := skip_joined gapBlank texts opens (close ++ ']' :: rest)
      have found := readItems_joined gapBlank closeBlank present each fuel [] rest
      simp only [split, List.cons_append, List.append_assoc, List.nil_append, List.reverse_nil,
        List.length_cons, List.length_append, List.length_nil] at opened found enough ⊢
      exact readValue_list opened inside (found (by omega))

/-- The text of a field, blanks after the colon included. -/
def fieldText (render : Document → List Char) (colon : List Char) (field : String × Document) :
    List Char := renderText field.1 ++ ':' :: colon ++ render field.2

theorem opens_of_fields (fields : List (String × Document)) :
    ∀ text ∈ fields.map (fieldText render colon), Opens text :=
  List.forall_mem_map.mpr fun _ _ => ⟨'"', _, rfl, rfl, by decide, by decide⟩

/-- One field: a comma leads on to the next, a brace ends the record. -/
theorem readFields_field (colonBlank : Blank colon) {field : String × Document}
    (reads : Reads depth field.2 (render field.2)) {fuel : Nat} {rest : List Char}
    (ends : Ends rest) (enough : 2 * (render field.2).length ≤ fuel)
    (before : List (String × Document)) :
    (∀ tail, skip rest = ',' :: tail →
      readFields (fuel + 1) depth (some before) (fieldText render colon field ++ rest) =
        readFields fuel depth (some (field :: before)) (skip tail)) ∧
    (∀ tail, skip rest = '\x7d' :: tail →
      readFields (fuel + 1) depth (some before) (fieldText render colon field ++ rest) =
        some (some (field :: before), tail)) := by
  obtain ⟨char, others, split, solid, _⟩ := reads.opens
  have value := reads.reads fuel rest ends enough
  have named : fieldText render colon field ++ rest = '"' :: (field.1.toList.flatMap escape ++
      '"' :: ':' :: (colon ++ char :: (others ++ rest))) := by
    simp [fieldText, renderText, split]
  have opened : skip (':' :: (colon ++ char :: (others ++ rest))) =
      ':' :: (colon ++ char :: (others ++ rest)) := rfl
  rw [split, List.cons_append] at value
  rw [named, readFields, readText?_escapes]
  constructor
  · intro tail further
    simp only [opened, skip_append colonBlank solid, value, further]
  · intro tail closed
    simp only [opened, skip_append colonBlank solid, value, closed]

/-- Fields one after the other, and the brace after the last. -/
theorem readFields_joined (gapBlank : Blank gap) (colonBlank : Blank colon)
    (closeBlank : Blank close) {fields : List (String × Document)} (present : fields ≠ [])
    (each : ∀ field ∈ fields, Reads depth field.2 (render field.2)) (fuel : Nat)
    (before : List (String × Document)) (rest : List Char)
    (enough : 2 * (joined gap (fields.map (fieldText render colon)) ++ close ++
      ['\x7d']).length ≤ fuel) :
    readFields fuel depth (some before)
        (joined gap (fields.map (fieldText render colon)) ++ close ++ '\x7d' :: rest) =
      some (some (fields.reverse ++ before), rest) := by
  induction fields generalizing fuel before with
  | nil => exact absurd rfl present
  | cons field fields ih =>
      obtain ⟨reads, later⟩ := List.forall_mem_cons.mp each
      have shorter : (render field.2).length < (fieldText render colon field).length := by
        simp [fieldText]
        omega
      cases fuel with
      | zero => simp at enough
      | succ fuel =>
          cases fields with
          | nil =>
              have ends : Ends (close ++ '\x7d' :: rest) :=
                ends_append closeBlank (ends_cons rest rfl (by decide) (by decide) (by decide))
              simp only [List.map_cons, List.map_nil, joined, List.append_assoc,
                List.length_append, List.length_singleton] at enough ⊢
              have field := readFields_field colonBlank reads ends (by omega : _ ≤ fuel) before
              rw [field.2 rest (skip_append closeBlank rfl rest)]
              rfl
          | cons next others =>
              have opens : ∀ text ∈ (next :: others).map (fieldText render colon), Opens text :=
                opens_of_fields (next :: others)
              have again := ih (List.cons_ne_nil _ _) later fuel (field :: before)
              simp only [List.map_cons, joined_cons_cons, List.append_assoc, List.cons_append,
                List.length_append, List.length_cons] at enough opens again ⊢
              rw [(readFields_field colonBlank reads
                (ends_cons _ rfl (by decide) (by decide) (by decide)) (by omega) before).1 _ rfl,
                skip_joined gapBlank (List.cons_ne_nil _ _) opens, again (by omega)]
              simp

theorem readValue_record {fuel : Nat} {rest after : List Char} {char : Char}
    {others : List Char} {fields : List (String × Document)} (opened : skip rest = char :: others)
    (inside : char ≠ '\x7d')
    (found : readFields fuel depth (some []) (char :: others) = some (some fields.reverse, after)) :
    readValue (fuel + 1) (depth + 1) ('\x7b' :: rest) = some (.record fields, after) := by
  rw [readValue, opened]
  split
  · rename_i same
    exact absurd (List.cons_eq_cons.mp same).1 inside
  · rw [Nat.add_sub_cancel, found]
    simp [nested, closeRecord]

theorem Reads.record (gapBlank : Blank gap) (colonBlank : Blank colon)
    (closeBlank : Blank close) {fields : List (String × Document)} (present : fields ≠ [])
    (each : ∀ field ∈ fields, Reads depth field.2 (render field.2)) :
    Reads (depth + 1) (.record fields)
      ('\x7b' :: gap ++ joined gap (fields.map (fieldText render colon)) ++ close ++
        ['\x7d']) := by
  refine ⟨⟨'\x7b', _, rfl, rfl, by decide, by decide⟩, fun fuel rest _ enough => ?_⟩
  cases fuel with
  | zero => simp at enough
  | succ fuel =>
      have opens : ∀ text ∈ fields.map (fieldText render colon), Opens text :=
        opens_of_fields fields
      have texts : fields.map (fieldText render colon) ≠ [] :=
        mt List.map_eq_nil_iff.mp present
      obtain ⟨char, others, split, _, _, inside⟩ := joined_opens gap texts opens
      have opened := skip_joined gapBlank texts opens (close ++ '\x7d' :: rest)
      have found := readFields_joined gapBlank colonBlank closeBlank present each fuel [] rest
      simp only [split, List.cons_append, List.append_assoc, List.nil_append, List.append_nil,
        List.length_cons, List.length_append, List.length_nil] at opened found enough ⊢
      exact readValue_record opened inside (found (by omega))

end Parts

/-- The numeral that is written for an amount is read as this amount. -/
def ReadsBack (amount : Float) : Prop :=
  readNumber? (Decimal.Layout.document.render amount) = some (.number amount, [])

/-- The amount a numeral is read as, if it is read to its end as a number. -/
def numeralValue? (numeral : List Char) : Option Float :=
  match readNumber? numeral with
  | some (.number amount, []) => some amount
  | _ => none

theorem numeralValue?_eq_some_iff {numeral : List Char} {amount : Float} :
    numeralValue? numeral = some amount ↔ readNumber? numeral = some (.number amount, []) := by
  unfold numeralValue?
  split
  · rename_i found
    rw [found]
    simp
  · rename_i other
    constructor
    · intro impossible
      cases impossible
    · intro found
      exact (other amount found).elim

instance (amount : Float) : Decidable (ReadsBack amount) :=
  decidable_of_iff (numeralValue? (Decimal.Layout.document.render amount) = some amount)
    numeralValue?_eq_some_iff

/-- Documents a text can be written for: texts, truth values, nulls, integers of
64 binary places and numbers whose numerals read back, in lists and records
nested at most so many levels deep. -/
inductive Legible : Nat → Document → Prop
  | null {depth : Nat} : Legible depth .null
  | bool {depth : Nat} (value : Bool) : Legible depth (.bool value)
  | integer {depth : Nat} {value : Int} (least : -9223372036854775808 ≤ value)
      (greatest : value ≤ 18446744073709551615) : Legible depth (.integer value)
  | number {depth : Nat} {amount : Float} (reads : ReadsBack amount) :
      Legible depth (.number amount)
  | text {depth : Nat} (value : String) : Legible depth (.text value)
  | list {depth : Nat} {items : List Document} (each : ∀ item ∈ items, Legible depth item) :
      Legible (depth + 1) (.list items)
  | record {depth : Nat} {fields : List (String × Document)}
      (each : ∀ field ∈ fields, Legible depth field.2) : Legible (depth + 1) (.record fields)

variable {depth : Nat} {document : Document}

/-- Documents without parts are written alike in both styles. -/
theorem Reads.leaf (legible : Legible depth document) (list : ∀ items, document ≠ .list items)
    (record : ∀ fields, document ≠ .record fields) :
    Reads depth document (renderLeaf document) := by
  cases legible with
  | null => exact .of_leaf ⟨_, _, rfl, rfl, by decide, by decide⟩ fun fuel rest => rfl
  | bool value =>
      cases value
      · exact .of_leaf ⟨_, _, rfl, rfl, by decide, by decide⟩ fun fuel rest => rfl
      · exact .of_leaf ⟨_, _, rfl, rfl, by decide, by decide⟩ fun fuel rest => rfl
  | integer least greatest => exact .of_number (readNumber?_integer least greatest) _
  | number reads => exact .of_number reads _
  | text value =>
      exact .of_leaf ⟨_, _, rfl, rfl, by decide, by decide⟩ fun fuel rest =>
        readValue_text fuel depth value rest
  | list each => exact absurd rfl (list _)
  | record each => exact absurd rfl (record _)

theorem Reads.emptyList : Reads (depth + 1) (.list []) ['[', ']'] :=
  .of_leaf ⟨_, _, rfl, rfl, by decide, by decide⟩ fun fuel rest => rfl

theorem Reads.emptyRecord : Reads (depth + 1) (.record []) ['\x7b', '\x7d'] :=
  .of_leaf ⟨_, _, rfl, rfl, by decide, by decide⟩ fun fuel rest => rfl

theorem compactItems_eq (items : List Document) :
    compactItems items = joined [] (items.map compact) ++ [']'] := by
  induction items with
  | nil => rfl
  | cons item items ih =>
      cases items with
      | nil => rfl
      | cons next others =>
          rw [compactItems, ih]
          · simp [joined]
          · exact List.cons_ne_nil _ _

theorem compactFields_eq (fields : List (String × Document)) :
    compactFields fields = joined [] (fields.map (fieldText compact [])) ++ ['\x7d'] := by
  induction fields with
  | nil => rfl
  | cons field fields ih =>
      cases fields with
      | nil => simp [compactFields, joined, fieldText]
      | cons next others =>
          rw [compactFields, ih]
          · simp [joined, fieldText]
          · exact List.cons_ne_nil _ _

theorem indentedItems_eq (level : Nat) {items : List Document} (present : items ≠ []) :
    indentedItems level items =
      joined (newLine (level + 1)) (items.map (indented (level + 1))) ++ newLine level ++ [']'] := by
  induction items with
  | nil => exact absurd rfl present
  | cons item items ih =>
      cases items with
      | nil => rfl
      | cons next others =>
          rw [indentedItems, ih (List.cons_ne_nil _ _)]
          · simp [joined]
          · exact List.cons_ne_nil _ _

theorem indentedFields_eq (level : Nat) {fields : List (String × Document)}
    (present : fields ≠ []) :
    indentedFields level fields =
      joined (newLine (level + 1)) (fields.map (fieldText (indented (level + 1)) [' '])) ++
        newLine level ++ ['\x7d'] := by
  induction fields with
  | nil => exact absurd rfl present
  | cons field fields ih =>
      cases fields with
      | nil => simp [indentedFields, joined, fieldText]
      | cons next others =>
          rw [indentedFields, ih (List.cons_ne_nil _ _)]
          · simp [joined, fieldText]
          · exact List.cons_ne_nil _ _

theorem Legible.ofFloat {amount : Float} (reads : amount.isFinite = true → ReadsBack amount) :
    Legible depth (.ofFloat amount) := by
  unfold Document.ofFloat
  split
  · rename_i finite
    exact .number (reads finite)
  · exact .null

theorem Legible.ofNat {count : Nat} (small : count ≤ 18446744073709551615) :
    Legible depth (.ofNat count) := by
  refine .integer ?_ ?_ <;> omega

theorem blank_nil : Blank [] := fun _ member => by cases member

theorem blank_newLine (level : Nat) : Blank (newLine level) := by
  intro char member
  rcases List.mem_cons.mp member with rfl | space
  · rfl
  · rw [List.eq_of_mem_replicate space]
    rfl

theorem Legible.compact (legible : Legible depth document) :
    Reads depth document (compact document) := by
  induction legible with
  | null => exact .leaf .null nofun nofun
  | bool value => exact .leaf (.bool value) nofun nofun
  | integer least greatest => exact .leaf (.integer least greatest) nofun nofun
  | number reads => exact .leaf (.number reads) nofun nofun
  | text value => exact .leaf (.text value) nofun nofun
  | @list depth items each ih =>
      by_cases vacant : items = []
      · rw [vacant]
        exact .emptyList
      · have reads := Reads.list blank_nil blank_nil vacant ih
        rw [List.append_nil] at reads
        change Reads _ _ ('[' :: compactItems items)
        rw [compactItems_eq]
        exact reads
  | @record depth fields each ih =>
      by_cases vacant : fields = []
      · rw [vacant]
        exact .emptyRecord
      · have reads := Reads.record blank_nil blank_nil blank_nil vacant ih
        rw [List.append_nil] at reads
        change Reads _ _ ('\x7b' :: compactFields fields)
        rw [compactFields_eq]
        exact reads

theorem Legible.indented (legible : Legible depth document) (level : Nat) :
    Reads depth document (indented level document) := by
  induction legible generalizing level with
  | null => exact .leaf .null nofun nofun
  | bool value => exact .leaf (.bool value) nofun nofun
  | integer least greatest => exact .leaf (.integer least greatest) nofun nofun
  | number reads => exact .leaf (.number reads) nofun nofun
  | text value => exact .leaf (.text value) nofun nofun
  | @list depth items each ih =>
      by_cases vacant : items = []
      · rw [vacant]
        exact .emptyList
      · have reads := Reads.list (blank_newLine (level + 1)) (blank_newLine level) vacant
          fun item member => ih item member (level + 1)
        rw [Json.indented, indentedItems_eq level vacant]
        · simpa using reads
        · exact vacant
  | @record depth fields each ih =>
      by_cases vacant : fields = []
      · rw [vacant]
        exact .emptyRecord
      · have space : Blank [' '] := List.forall_mem_singleton.mpr rfl
        have reads := Reads.record (blank_newLine (level + 1)) space (blank_newLine level) vacant
          fun field member => ih field member (level + 1)
        rw [Json.indented, indentedFields_eq level vacant]
        · simpa using reads
        · exact vacant

theorem Reads.read? {text : List Char} (reads : Reads maxDepth document text) :
    Json.read? text = some document := by
  obtain ⟨char, others, split, solid, _⟩ := reads.opens
  have found := reads.reads (2 * text.length + 1) [] ends_nil (Nat.le_succ _)
  rw [List.append_nil] at found
  have begun : skip text = text := by
    rw [split]
    exact skip_append blank_nil solid others
  unfold Json.read?
  rw [begun, found]
  rfl

/-- What is written in either style reads back as it was. -/
theorem read?_write (legible : Legible maxDepth document) (style : Style) :
    read? (write style document).toList = some document := by
  cases style with
  | compact =>
      rw [write, String.toList_ofList]
      exact legible.compact.read?
  | pretty =>
      rw [write, String.toList_ofList]
      exact (legible.indented 0).read?

end PipelineCapacity.Json
