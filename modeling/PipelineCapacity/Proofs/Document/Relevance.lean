import PipelineCapacity.Proofs.Document.Sorted

/-!
Readers that look at some names only. An entry of another name moves the places
of all failures behind it, but none past another one; so it changes neither the
value that is read nor the failure that comes first.
-/

set_option autoImplicit false

namespace PipelineCapacity

variable {β γ : Type}

namespace Gathered

/-- The same outcome with failures at other places. -/
def relocate (move : Nat → Nat) : Gathered β → Gathered β
  | done value => done value
  | failed place cause => failed (move place) cause

variable {move : Nat → Nat}

@[simp]
theorem result_relocate (gathered : Gathered β) :
    (gathered.relocate move).result = gathered.result := by
  cases gathered <;> rfl

theorem relocate_map (f : β → γ) (gathered : Gathered β) :
    (f <$> gathered).relocate move = f <$> gathered.relocate move := by
  cases gathered <;> rfl

/-- Of two failures the same one comes first as long as their order is kept. -/
theorem relocate_seq (monotone : StrictMono move) (f : Gathered (β → γ)) (gathered : Gathered β) :
    (f <*> gathered).relocate move = f.relocate move <*> gathered.relocate move := by
  cases f with
  | done build => cases gathered <;> rfl
  | failed left leftCause =>
      cases gathered with
      | done part => rfl
      | failed right rightCause =>
          change (if right < left then failed right rightCause
              else failed left leftCause).relocate move =
            if move right < move left then failed (move right) rightCause
              else failed (move left) leftCause
          by_cases earlier : right < left
          · rw [if_pos earlier, if_pos (monotone earlier)]
            rfl
          · rw [if_neg earlier, if_neg (fun moved => earlier (monotone.lt_iff_lt.mp moved))]
            rfl

theorem relocate_ofReading (place : Nat) (reading : Reading β) :
    (ofReading place reading).relocate move = ofReading (move place) reading := by
  cases reading <;> rfl

end Gathered

/-- The place of an entry once another one stands before it or behind it. -/
def makeRoom (position place : Nat) : Nat := if place < position then place else place + 1

theorem strictMono_makeRoom (position : Nat) : StrictMono (makeRoom position) := by
  intro earlier later less
  unfold makeRoom
  split <;> split <;> omega

namespace Fields

variable {name : String} {extra : String × Document} {before after : List (String × Document)}

theorem occurrences_insert (other : extra.1 ≠ name) :
    occurrences (before ++ extra :: after) name =
      (occurrences (before ++ after) name).map (Prod.map (makeRoom before.length) id) := by
  unfold occurrences
  have shifted : (after.zipIdx (before.length + 1)).filter (fun entry => entry.1.1 == name) =
      ((after.zipIdx before.length).filter fun entry => entry.1.1 == name).map
        (Prod.map id (· + 1)) := by
    rw [List.zipIdx_succ, List.filter_map]
    rfl
  rw [List.zipIdx_append, List.zipIdx_append, List.zipIdx_cons, List.filter_append,
    List.filter_append, List.filter_cons_of_neg (by simpa using other), List.map_append,
    List.map_append, List.map_append, Nat.zero_add, shifted, List.map_map, List.map_map,
    List.map_map]
  congr 1
  -- What stands before the extra entry keeps its place, what stands behind moves by one.
  · apply List.map_congr_left
    intro entry member
    have inside : entry.2 < before.length := by
      have bound := List.snd_lt_of_mem_zipIdx (List.mem_filter.mp member).1
      omega
    change _ = (makeRoom before.length entry.2, entry.1.2)
    rw [makeRoom, if_pos inside]
  · apply List.map_congr_left
    intro entry member
    have behind : ¬entry.2 < before.length := by
      have bound := List.le_snd_of_mem_zipIdx (List.mem_filter.mp member).1
      omega
    change (entry.2 + 1, entry.1.2) = (makeRoom before.length entry.2, entry.1.2)
    rw [makeRoom, if_neg behind]

theorem getNamed_insert (other : extra.1 ≠ name) (read : Document → Reading β)
    (absence : Absence β) :
    getNamed (before ++ extra :: after) name read absence =
      (getNamed (before ++ after) name read absence).relocate (makeRoom before.length) := by
  have last : (before ++ extra :: after).length =
      makeRoom before.length (before ++ after).length := by
    rw [makeRoom, if_neg (by simp), List.length_append, List.length_cons, List.length_append]
    rfl
  unfold getNamed
  rw [occurrences_insert other, last]
  rcases occurrences (before ++ after) name with _ | ⟨⟨first, value⟩, _ | ⟨⟨second, _⟩, _⟩⟩
  · cases absence <;> rfl
  · exact (Gathered.relocate_ofReading first (read value)).symm
  · simp only [List.map_cons, Prod.map, id_eq]
    cases read value <;> rfl

end Fields

/-- A reader of records to which entries of other names make no difference but
for the places of failures. -/
def Reads (names : List String) (build : Fields → Gathered β) : Prop :=
  ∀ before extra after, extra.1 ∉ names →
    build (.named (before ++ extra :: after)) =
      (build (.named (before ++ after))).relocate (makeRoom before.length)

namespace Reads

variable {names : List String}

theorem get {name : String} (known : name ∈ names) (index : Nat) (read : Document → Reading β) :
    Reads names fun fields => fields.get index name read :=
  fun _ _ _ unknown => Fields.getNamed_insert
    (fun same => unknown (same ▸ known)) read .refused

theorem map {build : Fields → Gathered β} (reads : Reads names build) (f : β → γ) :
    Reads names fun fields => f <$> build fields := by
  intro before extra after unknown
  dsimp only
  rw [reads before extra after unknown, Gathered.relocate_map]

theorem seq {make : Fields → Gathered (β → γ)} {build : Fields → Gathered β}
    (makes : Reads names make) (reads : Reads names build) :
    Reads names fun fields => make fields <*> build fields := by
  intro before extra after unknown
  dsimp only
  rw [makes before extra after unknown, reads before extra after unknown,
    Gathered.relocate_seq (strictMono_makeRoom _)]

variable {build : Fields → Gathered β}

/-- Only the entries of the names matter. -/
theorem result_filter (reads : Reads names build) (entries : List (String × Document)) :
    (build (.named entries)).result =
      (build (.named (entries.filter fun entry => decide (entry.1 ∈ names)))).result := by
  -- The induction is on the entries still to be filtered, behind those that are settled.
  have onward (before after : List (String × Document)) :
      (build (.named (before ++ after))).result =
        (build (.named (before ++ after.filter fun entry => decide (entry.1 ∈ names)))).result := by
    induction after generalizing before with
    | nil => rfl
    | cons entry rest ih =>
        by_cases known : entry.1 ∈ names
        · rw [List.filter_cons, if_pos (decide_eq_true known), List.append_cons, ih,
            ← List.append_cons]
        · rw [List.filter_cons, if_neg (by simpa using known), reads before entry rest known,
            Gathered.result_relocate, ih]
  exact onward [] entries

theorem result_congr (reads : Reads names build) {entries others : List (String × Document)}
    (ascending : Document.Ascending entries) (also : Document.Ascending others)
    (agree : ∀ name ∈ names, Document.field? entries name = Document.field? others name) :
    (build (.named entries)).result = (build (.named others)).result := by
  rw [reads.result_filter entries, reads.result_filter others,
    ascending.filter_eq_filter also agree]

end Reads

end PipelineCapacity
