import Mathlib.Data.Finset.Card
import PipelineCapacity.Proofs.Table
import PipelineCapacity.Repository

/-!
A store after any number of saves. Kinds and names may both hold colons, so a key
does not tell where its kind ends: two different entries have one key exactly if
the kind of the one is that of the other with the start of its name. A store
keeps the entries of some places apart, in every history, exactly if no two of
these places are of that form. Kinds without a colon never are, whatever the
names.
-/

set_option autoImplicit false

namespace PipelineCapacity

/-- Texts in front of separators, of which there may be more on either side. -/
theorem append_cons_eq_iff {separator : Char} {left right leftRest rightRest : List Char} :
    left ++ separator :: leftRest = right ++ separator :: rightRest ↔
      (left = right ∧ leftRest = rightRest) ∨
      (∃ part, left = right ++ separator :: part ∧ rightRest = part ++ separator :: leftRest) ∨
      ∃ part, right = left ++ separator :: part ∧ leftRest = part ++ separator :: rightRest := by
  constructor
  · intro same
    rcases List.append_eq_append_iff.mp same with ⟨between, longer, rest⟩ | ⟨between, longer, rest⟩
    · cases between with
      | nil =>
          rw [List.append_nil] at longer
          exact .inl ⟨longer.symm, (List.cons.inj rest).2⟩
      | cons char part =>
          obtain ⟨first, others⟩ := List.cons.inj rest
          subst first
          exact .inr (.inr ⟨part, longer, others⟩)
    · cases between with
      | nil =>
          rw [List.append_nil] at longer
          exact .inl ⟨longer, (List.cons.inj rest).2.symm⟩
      | cons char part =>
          obtain ⟨first, others⟩ := List.cons.inj rest
          subst first
          exact .inr (.inl ⟨part, longer, others⟩)
  · rintro (⟨rfl, rfl⟩ | ⟨part, rfl, rfl⟩ | ⟨part, rfl, rfl⟩)
    · rfl
    · rw [List.append_assoc, List.cons_append]
    · rw [List.append_assoc, List.cons_append]

namespace Store

/-- The key of an entry, given by its kind and its name. -/
def address (store : Store) (place : String × String) : String := store.key place.1 place.2

/-- The kind of the first entry is the kind of the second with the start of the
name of the second. -/
def Overlaps (first second : String × String) : Prop :=
  ∃ part, first.1 = second.1 ++ ":" ++ part ∧ second.2 = part ++ ":" ++ first.2

theorem overlaps_iff {first second : String × String} :
    Overlaps first second ↔
      ∃ part, first.1.toList = second.1.toList ++ ':' :: part ∧
        second.2.toList = part ++ ':' :: first.2.toList := by
  constructor
  · rintro ⟨part, kind, name⟩
    refine ⟨part.toList, ?_, ?_⟩
    · rw [kind]
      simp
    · rw [name]
      simp
  · rintro ⟨part, kind, name⟩
    refine ⟨String.ofList part, String.toList_inj.mp ?_, String.toList_inj.mp ?_⟩
    · rw [kind]
      simp
    · rw [name]
      simp

/-- Two entries that a store takes for one another. -/
def Confusable (left right : String × String) : Prop := Overlaps left right ∨ Overlaps right left

variable {store : Store} {left right : String × String}

theorem address_eq_iff :
    store.address left = store.address right ↔ left = right ∨ Confusable left right := by
  have texts : store.address left = store.address right ↔
      left.1.toList ++ ':' :: left.2.toList = right.1.toList ++ ':' :: right.2.toList := by
    unfold address key
    simp only [String.append_assoc, String.append_right_inj]
    rw [← String.toList_inj]
    simp
  rw [texts, append_cons_eq_iff, Confusable, overlaps_iff, overlaps_iff, Prod.ext_iff,
    String.toList_inj, String.toList_inj]

theorem Overlaps.ne (overlaps : Overlaps left right) : left ≠ right := by
  rintro rfl
  obtain ⟨part, longer, _⟩ := overlaps_iff.mp overlaps
  have lengths := congrArg List.length longer
  rw [List.length_append, List.length_cons] at lengths
  omega

theorem Confusable.ne (confusable : Confusable left right) : left ≠ right := by
  rcases confusable with overlaps | overlaps
  · exact overlaps.ne
  · exact overlaps.ne.symm

theorem Overlaps.colon_mem (overlaps : Overlaps left right) : ':' ∈ left.1.toList := by
  obtain ⟨part, longer, _⟩ := overlaps_iff.mp overlaps
  rw [longer]
  exact List.mem_append_right _ List.mem_cons_self

theorem not_confusable_of_plain (leftPlain : ':' ∉ left.1.toList)
    (rightPlain : ':' ∉ right.1.toList) : ¬Confusable left right := by
  rintro (overlaps | overlaps)
  · exact leftPlain overlaps.colon_mem
  · exact rightPlain overlaps.colon_mem

/-- Kinds without a colon: entries have one address only if they are one. -/
theorem address_inj (leftPlain : ':' ∉ left.1.toList) (rightPlain : ':' ∉ right.1.toList)
    (same : store.address left = store.address right) : left = right :=
  (address_eq_iff.mp same).resolve_right (not_confusable_of_plain leftPlain rightPlain)

theorem load?_save (store : Store) (saved loaded : String × String) (data : String) :
    (store.save saved.1 saved.2 data).load? loaded.1 loaded.2 =
      if store.address saved = store.address loaded then some data
      else store.load? loaded.1 loaded.2 :=
  Table.find?_insert store.entries (store.address saved) data (store.address loaded)

/-- A save replaces what is loaded at its own place and at those it is confused
with, and nothing else. -/
theorem load?_save_cases (store : Store) (saved loaded : String × String) (data : String) :
    (saved = loaded ∨ Confusable saved loaded →
      (store.save saved.1 saved.2 data).load? loaded.1 loaded.2 = some data) ∧
    (¬(saved = loaded ∨ Confusable saved loaded) →
      (store.save saved.1 saved.2 data).load? loaded.1 loaded.2 =
        store.load? loaded.1 loaded.2) := by
  rw [load?_save]
  constructor
  · intro alike
    exact if_pos (address_eq_iff.mpr alike)
  · intro apart
    exact if_neg fun same => apart (address_eq_iff.mp same)

/-- Saves one after the other, each a kind and a name with the data. -/
def saveAll (store : Store) (writes : List ((String × String) × String)) : Store :=
  writes.foldl (fun store write => store.save write.1.1 write.1.2 write.2) store

variable {writes : List ((String × String) × String)}

theorem saveAll_eq (store : Store) (writes : List ((String × String) × String)) :
    store.saveAll writes =
      { store with
        entries := store.entries.insertAll (writes.map (Prod.map store.address id)) } := by
  induction writes generalizing store with
  | nil => rfl
  | cons write writes ih =>
      change (store.save write.1.1 write.1.2 write.2).saveAll writes = _
      rw [ih]
      rfl

/-- What is loaded at a place that no place saved under is confused with is what
was saved there last. -/
theorem load?_of_not_confusable {place : String × String}
    (apart : ∀ write ∈ writes, ¬Confusable write.1 place) :
    (store.saveAll writes).load? place.1 place.2 =
      (latest? writes place).or (store.load? place.1 place.2) := by
  have renamed : latest? (writes.map (Prod.map store.address id)) (store.address place) =
      latest? writes place :=
    latest?_rename fun write member same =>
      (address_eq_iff.mp same).resolve_right (apart write member)
  rw [saveAll_eq, ← renamed]
  exact Table.find?_insertAll _ _ _

section Plain

variable (plain : ∀ write ∈ writes, ':' ∉ write.1.1.toList)

include plain

theorem load?_saveAll {kind : String} (plainKind : ':' ∉ kind.toList) (name : String) :
    (store.saveAll writes).load? kind name =
      (latest? writes (kind, name)).or (store.load? kind name) := by
  have apart : ∀ write ∈ writes, ¬Confusable write.1 (kind, name) :=
    fun write member => not_confusable_of_plain (plain write member) plainKind
  exact @load?_of_not_confusable store writes (kind, name) apart

/-- From the empty store on there are as many entries as places saved under. -/
theorem size_saveAll {space : String} :
    ((ofSpace space).saveAll writes).size = (writes.map (·.1)).toFinset.card := by
  have apart : Set.InjOn (ofSpace space).address (writes.map (·.1)).toFinset := by
    intro left leftSaved right rightSaved same
    simp only [Finset.mem_coe, List.mem_toFinset, List.mem_map] at leftSaved rightSaved
    obtain ⟨leftWrite, leftMember, rfl⟩ := leftSaved
    obtain ⟨rightWrite, rightMember, rfl⟩ := rightSaved
    exact address_inj (plain leftWrite leftMember) (plain rightWrite rightMember) same
  have ascending := Table.ascending_empty.insertAll
    (writes.map (Prod.map (ofSpace space).address id))
  have keys : (Table.empty.insertAll
      (writes.map (Prod.map (ofSpace space).address id))).keys.toFinset =
        (writes.map (·.1)).toFinset.image (ofSpace space).address := by
    ext key
    rw [List.mem_toFinset, Table.mem_keys_insertAll]
    simp [Table.keys, Table.empty]
  rw [saveAll_eq, ← Finset.card_image_of_injOn apart, ← keys,
    List.toFinset_card_of_nodup ascending.keys_nodup]
  exact (List.length_map _).symm

end Plain

/-- In every history of saves and loads at some places, from the empty store on,
each load gives what was saved last under exactly its kind and its name, or nothing
if nothing was, exactly if no two of the places can be confused. Any save replaces
the entry of its own place and of those confused with it, and no other. -/
theorem keeps_apart_iff (space : String) (places : Set (String × String)) :
    ((∀ writes : List ((String × String) × String), (∀ write ∈ writes, write.1 ∈ places) →
        ∀ place ∈ places,
          ((ofSpace space).saveAll writes).load? place.1 place.2 = latest? writes place) ↔
      ∀ left ∈ places, ∀ right ∈ places, ¬Confusable left right) ∧
    ∀ (writes : List ((String × String) × String)) (saved loaded : String × String)
      (data : String),
      let store := (ofSpace space).saveAll writes
      let after := store.save saved.1 saved.2 data
      (saved = loaded ∨ Confusable saved loaded → after.load? loaded.1 loaded.2 = some data) ∧
      (¬(saved = loaded ∨ Confusable saved loaded) →
        after.load? loaded.1 loaded.2 = store.load? loaded.1 loaded.2) := by
  refine ⟨⟨?_, ?_⟩, fun writes saved loaded data => load?_save_cases _ saved loaded data⟩
  · intro kept left leftMember right rightMember confusable
    have asked := kept [(left, "")] (by simpa using leftMember) right rightMember
    have exposed : ((ofSpace space).saveAll [(left, "")]).load? right.1 right.2 = some "" :=
      (load?_save_cases (ofSpace space) left right "").1 (.inr confusable)
    rw [exposed, latest?_singleton, if_neg confusable.ne] at asked
    cases asked
  · intro apart writes inside place member
    refine (load?_of_not_confusable fun write saved => ?_).trans Option.or_none
    exact apart write.1 (inside write saved) place member

/-- Two kinds without a colon, under a name with one. -/
theorem keeps_apart_iff_plainKinds :
    let places : Set (String × String) := {("results", "peak:week"), ("summary", "peak:week")}
    let writes := [(("results", "peak:week"), "rows"), (("summary", "peak:week"), "figures"),
      (("results", "peak:week"), "more rows")]
    let store := (ofSpace usualSpace).saveAll writes
    (∀ left ∈ places, ∀ right ∈ places, ¬Confusable left right) ∧
      (∀ write ∈ writes, write.1 ∈ places) ∧
      store.load? "results" "peak:week" = some "more rows" ∧
      store.load? "summary" "peak:week" = some "figures" := by
  intro places writes store
  have apart : ∀ left ∈ places, ∀ right ∈ places, ¬Confusable left right := by
    rintro left (rfl | rfl) right (rfl | rfl) <;>
      exact not_confusable_of_plain (by decide) (by decide)
  have inside : ∀ write ∈ writes, write.1 ∈ places := by simp [writes, places]
  have kept := (keeps_apart_iff usualSpace places).1.mpr apart writes inside
  exact ⟨apart, inside, kept ("results", "peak:week") (.inl rfl),
    kept ("summary", "peak:week") (.inr rfl)⟩

/-- A save under one kind and name shows up under another of each, under which
nothing was saved, and a save there replaces it. -/
theorem save_exposed_elsewhere :
    let store := (ofSpace usualSpace).save "simulation" "traffic:peak" "first"
    store.load? "simulation:traffic" "peak" = some "first" ∧
      latest? [(("simulation", "traffic:peak"), "first")] ("simulation:traffic", "peak") = none ∧
      (store.save "simulation:traffic" "peak" "second").load? "simulation" "traffic:peak" =
        some "second" := by
  decide

end Store

end PipelineCapacity
