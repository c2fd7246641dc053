import Mathlib.Data.List.Induction
import Mathlib.Data.List.Nodup
import PipelineCapacity.Table

/-!
Tables as histories. Pairs entered one after the other leave of each key the
value that came last, and a table is nothing but this: entered anew, its own
entries make it again.
-/

set_option autoImplicit false

namespace PipelineCapacity

section Latest

variable {κ β γ : Type} [DecidableEq κ] {pairs : List (κ × β)} {key : κ} {value : β}

/-- The value of the last pair with a key. -/
def latest? (pairs : List (κ × β)) (key : κ) : Option β :=
  (pairs.reverse.find? fun pair => decide (pair.1 = key)).map (·.2)

@[simp]
theorem latest?_nil (key : κ) : latest? ([] : List (κ × β)) key = none := rfl

theorem latest?_append (earlier later : List (κ × β)) (key : κ) :
    latest? (earlier ++ later) key = (latest? later key).or (latest? earlier key) := by
  unfold latest?
  rw [List.reverse_append, List.find?_append]
  cases later.reverse.find? fun pair => decide (pair.1 = key) <;> rfl

theorem latest?_singleton (pair : κ × β) (key : κ) :
    latest? [pair] key = if pair.1 = key then some pair.2 else none := by
  unfold latest?
  by_cases same : pair.1 = key <;> simp [same]

theorem latest?_cons (pair : κ × β) (pairs : List (κ × β)) (key : κ) :
    latest? (pair :: pairs) key =
      (latest? pairs key).or (if pair.1 = key then some pair.2 else none) := by
  rw [← List.singleton_append, latest?_append, latest?_singleton]

theorem latest?_concat (pairs : List (κ × β)) (pair : κ × β) (key : κ) :
    latest? (pairs ++ [pair]) key = if pair.1 = key then some pair.2 else latest? pairs key := by
  rw [latest?_append, latest?_singleton]
  split <;> rfl

theorem latest?_eq_none_iff : latest? pairs key = none ↔ key ∉ pairs.map (·.1) := by
  rw [latest?, Option.map_eq_none_iff, List.find?_eq_none]
  constructor
  · intro different member
    obtain ⟨pair, inside, same⟩ := List.mem_map.mp member
    exact different pair (List.mem_reverse.mpr inside) (decide_eq_true same)
  · intro absent pair inside same
    refine absent ?_
    rw [← of_decide_eq_true same]
    exact List.mem_map_of_mem (List.mem_reverse.mp inside)

theorem mem_of_latest? (found : latest? pairs key = some value) : (key, value) ∈ pairs := by
  obtain ⟨pair, last, rfl⟩ := Option.map_eq_some_iff.mp found
  have same : pair.1 = key := by simpa using List.find?_some last
  rw [← same]
  exact List.mem_reverse.mp (List.mem_of_find?_eq_some last)

theorem latest?_map (f : β → γ) (pairs : List (κ × β)) (key : κ) :
    latest? (pairs.map (Prod.map id f)) key = (latest? pairs key).map f := by
  induction pairs using List.reverseRecOn with
  | nil => rfl
  | append_singleton pairs pair ih =>
      rw [List.map_append, List.map_singleton, latest?_concat, latest?_concat, ih]
      change (if pair.1 = key then some (f pair.2) else _) = _
      split <;> rfl

/-- Under a renaming of the keys that takes no other key to the one sought. -/
theorem latest?_rename {κ' : Type} [DecidableEq κ'] {rename : κ → κ'}
    (alone : ∀ pair ∈ pairs, rename pair.1 = rename key → pair.1 = key) :
    latest? (pairs.map (Prod.map rename id)) (rename key) = latest? pairs key := by
  induction pairs using List.reverseRecOn with
  | nil => rfl
  | append_singleton pairs pair ih =>
      obtain ⟨earlier, last⟩ := List.forall_mem_append.mp alone
      rw [List.map_append, List.map_singleton, latest?_concat, latest?_concat, ih earlier]
      change (if rename pair.1 = rename key then some pair.2 else _) = _
      by_cases same : pair.1 = key
      · rw [if_pos same, if_pos (congrArg rename same)]
      · rw [if_neg same, if_neg fun renamed => same (List.forall_mem_singleton.mp last renamed)]

/-- Pairs that come in batches, each of which has of one key what another list of
batches has of another. -/
theorem latest?_flatMap {σ κ' : Type} [DecidableEq κ'] {batch : σ → List (κ × β)}
    {other : σ → List (κ' × γ)} {otherKey : κ'} {f : γ → β}
    (each : ∀ item, latest? (batch item) key = (latest? (other item) otherKey).map f)
    (items : List σ) :
    latest? (items.flatMap batch) key = (latest? (items.flatMap other) otherKey).map f := by
  induction items with
  | nil => rfl
  | cons item items ih =>
      rw [List.flatMap_cons, List.flatMap_cons, latest?_append, latest?_append, ih, each]
      cases latest? (items.flatMap other) otherKey <;> rfl

/-- Nothing with the key comes after its last pair. -/
theorem exists_split_of_latest? (found : latest? pairs key = some value) :
    ∃ before after, pairs = before ++ (key, value) :: after ∧ key ∉ after.map (·.1) := by
  induction pairs using List.reverseRecOn with
  | nil => cases found
  | append_singleton pairs pair ih =>
      rw [latest?_concat] at found
      split at found
      · rename_i same
        cases found
        rw [← same]
        exact ⟨pairs, [], rfl, List.not_mem_nil⟩
      · rename_i different
        obtain ⟨before, after, rfl, later⟩ := ih found
        refine ⟨before, after ++ [pair], by simp, ?_⟩
        rw [List.map_append, List.mem_append, not_or]
        exact ⟨later, by simpa using Ne.symm different⟩

end Latest

namespace Table

variable {κ β : Type} [Ord κ] {table : Table κ β}

/-- Enters pairs one after the other. -/
def insertAll (table : Table κ β) (pairs : List (κ × β)) : Table κ β :=
  pairs.foldl (fun table pair => table.insert pair.1 pair.2) table

theorem insertAll_concat (table : Table κ β) (pairs : List (κ × β)) (pair : κ × β) :
    table.insertAll (pairs ++ [pair]) = (table.insertAll pairs).insert pair.1 pair.2 := by
  unfold insertAll
  rw [List.foldl_append]
  rfl

/-- Every key is greater than those before it. -/
def Ascending (table : Table κ β) : Prop :=
  table.entries.Pairwise fun earlier later => compare earlier.1 later.1 = .lt

theorem ascending_empty : (empty : Table κ β).Ascending := .nil

section Rebuilt

variable [Std.TransOrd κ]

/-- A key greater than all others goes to the end. -/
theorem insertEntry_of_greater {entries : List (κ × β)} {key : κ}
    (greatest : ∀ entry ∈ entries, compare entry.1 key = .lt) (value : β) :
    insertEntry key value entries = entries ++ [(key, value)] := by
  induction entries with
  | nil => rfl
  | cons entry rest ih =>
      obtain ⟨less, others⟩ := List.forall_mem_cons.mp greatest
      rw [insertEntry, Std.OrientedCmp.gt_iff_lt.mpr less, ih others]
      rfl

/-- A table is made again by its own entries. -/
theorem Ascending.insertAll_entries (ascending : table.Ascending) :
    empty.insertAll table.entries = table := by
  obtain ⟨entries⟩ := table
  unfold Ascending at ascending
  dsimp only at ascending ⊢
  induction entries using List.reverseRecOn with
  | nil => rfl
  | append_singleton entries entry ih =>
      obtain ⟨before, _, greatest⟩ := List.pairwise_append.mp ascending
      rw [insertAll_concat, ih before]
      exact congrArg Table.mk (insertEntry_of_greater
        (fun other member => greatest other member entry (List.mem_singleton_self _)) _)

end Rebuilt

variable [Std.LawfulEqOrd κ]

theorem mem_keys_insert {key other : κ} {value : β} :
    other ∈ (table.insert key value).keys ↔ other = key ∨ other ∈ table.keys := by
  change other ∈ (insertEntry key value table.entries).map (·.1) ↔
    other = key ∨ other ∈ table.entries.map (·.1)
  induction table.entries with
  | nil => simp [insertEntry]
  | cons entry rest ih =>
      unfold insertEntry
      split
      · simp
      · rename_i same
        rw [Std.compare_eq_iff_eq.mp same]
        simp
      · rw [List.map_cons, List.mem_cons, ih, List.map_cons, List.mem_cons]
        exact or_left_comm

theorem find?_insert [DecidableEq κ] (table : Table κ β) (key : κ) (value : β) (other : κ) :
    (table.insert key value).find? other = if key = other then some value else table.find? other := by
  have here (entries : List (κ × β)) :
      (insertEntry key value entries).find? (fun entry => compare other entry.1 == .eq) =
        if key = other then some (key, value)
        else entries.find? fun entry => compare other entry.1 == .eq := by
    induction entries with
    | nil =>
        by_cases same : key = other
        · simp [insertEntry, same]
        · simp [insertEntry, same, Ne.symm same]
    | cons entry rest ih =>
        unfold insertEntry
        split
        · by_cases same : key = other
          · simp [same]
          · rw [if_neg same, List.find?_cons_of_neg]
            simpa using Ne.symm same
        · rename_i equal
          by_cases same : key = other
          · simp [same]
          · rw [if_neg same, List.find?_cons_of_neg, List.find?_cons_of_neg]
            · simpa [← Std.compare_eq_iff_eq.mp equal] using Ne.symm same
            · simpa using Ne.symm same
        · rename_i greater
          rw [List.find?_cons, List.find?_cons, ih]
          by_cases same : key = other
          · rw [← same, greater]
            simp
          · rw [if_neg same, if_neg same]
  unfold find? insert
  rw [here]
  split <;> rfl

/-- What is found under a key is what was entered last. -/
theorem find?_insertAll [DecidableEq κ] (table : Table κ β) (pairs : List (κ × β)) (key : κ) :
    (table.insertAll pairs).find? key = (latest? pairs key).or (table.find? key) := by
  induction pairs using List.reverseRecOn with
  | nil => rfl
  | append_singleton pairs pair ih =>
      rw [insertAll_concat, find?_insert, latest?_concat, ih]
      split <;> rfl

theorem mem_keys_insertAll {pairs : List (κ × β)} {key : κ} :
    key ∈ (table.insertAll pairs).keys ↔ key ∈ pairs.map (·.1) ∨ key ∈ table.keys := by
  induction pairs using List.reverseRecOn with
  | nil => simp [insertAll]
  | append_singleton pairs pair ih =>
      rw [insertAll_concat, mem_keys_insert, ih, List.map_append, List.map_singleton,
        List.mem_append, List.mem_singleton, ← or_assoc, or_comm (a := key = pair.1)]

theorem Ascending.keys_nodup (ascending : table.Ascending) : table.keys.Nodup := by
  refine List.pairwise_map.mpr (List.Pairwise.imp ?_ ascending)
  intro earlier later less same
  rw [same, Std.compare_self] at less
  cases less

/-- An entry is what is found under its key. -/
theorem Ascending.mem_entries_iff (ascending : table.Ascending) {key : κ} {value : β} :
    (key, value) ∈ table.entries ↔ table.find? key = some value := by
  unfold find?
  constructor
  · intro member
    cases found : table.entries.find? fun entry => compare key entry.1 == .eq with
    | none =>
        have missing := List.find?_eq_none.mp found _ member
        simp at missing
    | some entry =>
        have same : key = entry.1 := by simpa using List.find?_some found
        rw [same] at member
        have inside := List.mem_of_find?_eq_some found
        have once := List.inj_on_of_nodup_map ascending.keys_nodup member inside rfl
        rw [← once]
        rfl
  · intro found
    obtain ⟨entry, first, rfl⟩ := Option.map_eq_some_iff.mp found
    have same : key = entry.1 := by simpa using List.find?_some first
    rw [same]
    exact List.mem_of_find?_eq_some first

variable [Std.TransOrd κ]

theorem Ascending.insert (ascending : table.Ascending) (key : κ) (value : β) :
    (table.insert key value).Ascending := by
  change (insertEntry key value table.entries).Pairwise _
  unfold Ascending at ascending
  induction entries : table.entries generalizing table with
  | nil => exact List.pairwise_singleton _ _
  | cons entry rest ih =>
      rw [entries, List.pairwise_cons] at ascending
      unfold insertEntry
      split
      · rename_i less
        refine .cons (fun later member => ?_) (.cons ascending.1 ascending.2)
        rcases List.mem_cons.mp member with rfl | inside
        · exact less
        · exact Std.TransCmp.lt_trans less (ascending.1 later inside)
      · rename_i equal
        rw [Std.compare_eq_iff_eq.mp equal]
        exact .cons ascending.1 ascending.2
      · rename_i greater
        refine .cons (fun later member => ?_) (@ih ⟨rest⟩ ascending.2 rfl)
        have key := @mem_keys_insert κ β _ ⟨rest⟩ _ key later.1 value
        rcases key.mp (List.mem_map_of_mem member) with same | inside
        · rw [same]
          exact Std.OrientedCmp.gt_iff_lt.mp greater
        · obtain ⟨other, old, same⟩ := List.mem_map.mp inside
          rw [← same]
          exact ascending.1 other old

theorem Ascending.insertAll (ascending : table.Ascending) (pairs : List (κ × β)) :
    (table.insertAll pairs).Ascending := by
  induction pairs using List.reverseRecOn with
  | nil => exact ascending
  | append_singleton pairs pair ih =>
      rw [insertAll_concat]
      exact ih.insert pair.1 pair.2

end Table

/-- A list of every key of some pairs with the value that came last, keys ascending. -/
structure Condensed {κ β : Type} [Ord κ] [DecidableEq κ] (pairs listed : List (κ × β)) : Prop where
  ascending : listed.Pairwise fun earlier later => compare earlier.1 later.1 = .lt
  mem_iff : ∀ pair, pair ∈ listed ↔ latest? pairs pair.1 = some pair.2

section Condensed

variable {κ β : Type} [Ord κ] [DecidableEq κ] {pairs listed : List (κ × β)}

theorem Condensed.mem_keys_iff (condensed : Condensed pairs listed) {key : κ} :
    key ∈ listed.map (·.1) ↔ key ∈ pairs.map (·.1) := by
  constructor
  · intro member
    obtain ⟨pair, inside, rfl⟩ := List.mem_map.mp member
    exact List.mem_map_of_mem (mem_of_latest? ((condensed.mem_iff pair).mp inside))
  · intro member
    cases found : latest? pairs key with
    | none => exact absurd member (latest?_eq_none_iff.mp found)
    | some value => exact List.mem_map_of_mem ((condensed.mem_iff (key, value)).mpr found)

theorem Table.condensed_insertAll [Std.TransOrd κ] [Std.LawfulEqOrd κ] (pairs : List (κ × β)) :
    Condensed pairs (Table.empty.insertAll pairs).entries where
  ascending := ascending_empty.insertAll pairs
  mem_iff := by
    intro pair
    rw [(ascending_empty.insertAll pairs).mem_entries_iff, find?_insertAll]
    exact iff_of_eq (congrArg (· = some pair.2) Option.or_none)

end Condensed

end PipelineCapacity
