/-!
Tables: keys with one value each, kept in ascending order of the keys. Equal
contents make equal tables. What holds of every value that is set holds of every
value that is found.
-/

set_option autoImplicit false

namespace PipelineCapacity

structure Table (κ β : Type) where
  entries : List (κ × β)

namespace Table

variable {κ β : Type}

def empty : Table κ β := ⟨[]⟩

def size (table : Table κ β) : Nat := table.entries.length

def isEmpty (table : Table κ β) : Bool := table.entries.isEmpty

def keys (table : Table κ β) : List κ := table.entries.map (·.1)

/-- Holds of every value. -/
def All (holds : β → Prop) (table : Table κ β) : Prop := ∀ entry ∈ table.entries, holds entry.2

variable {holds : β → Prop}

theorem all_empty : (empty : Table κ β).All holds := fun _ member => by cases member

variable [Ord κ]

def insertEntry (key : κ) (value : β) : List (κ × β) → List (κ × β)
  | [] => [(key, value)]
  | entry :: rest =>
      match compare key entry.1 with
      | .lt => (key, value) :: entry :: rest
      | .eq => (key, value) :: rest
      | .gt => entry :: insertEntry key value rest

/-- Sets the value of a key. -/
def insert (table : Table κ β) (key : κ) (value : β) : Table κ β :=
  ⟨insertEntry key value table.entries⟩

def find? (table : Table κ β) (key : κ) : Option β :=
  (table.entries.find? fun entry => compare key entry.1 == .eq).map (·.2)

theorem mem_insertEntry {key : κ} {value : β} {entries : List (κ × β)} {entry : κ × β}
    (member : entry ∈ insertEntry key value entries) :
    entry = (key, value) ∨ entry ∈ entries := by
  induction entries with
  | nil => exact .inl (List.mem_singleton.mp member)
  | cons head rest ih =>
      unfold insertEntry at member
      split at member
      · exact List.mem_cons.mp member
      · rcases List.mem_cons.mp member with new | old
        · exact .inl new
        · exact .inr (List.mem_cons_of_mem head old)
      · rcases List.mem_cons.mp member with same | later
        · exact .inr (same ▸ List.mem_cons_self)
        · exact (ih later).imp_right (List.mem_cons_of_mem head)

theorem All.insert {table : Table κ β} (all : table.All holds) (key : κ) {value : β}
    (new : holds value) : (table.insert key value).All holds := by
  intro entry member
  rcases mem_insertEntry member with rfl | old
  · exact new
  · exact all entry old

theorem All.getD_find? {table : Table κ β} (all : table.All holds) (key : κ) {usual : β}
    (otherwise : holds usual) : holds ((table.find? key).getD usual) := by
  unfold find?
  cases found : table.entries.find? fun entry => compare key entry.1 == .eq with
  | none => exact otherwise
  | some entry => exact all entry (List.mem_of_find?_eq_some found)

end Table

end PipelineCapacity
