/-!
# Tables of named objects

A table holds at most one object for each name, in the order in which the names
came in. Replacing an object keeps its place.
-/

set_option autoImplicit false

namespace QueryResult

/-- Objects of type `α` under names of type `κ`. -/
structure Table (κ α : Type) where
  entries : List (κ × α)

namespace Table

variable {κ α : Type} [DecidableEq κ]

def empty : Table κ α := ⟨[]⟩

def get? (table : Table κ α) (name : κ) : Option α :=
  (table.entries.find? fun entry => decide (entry.1 = name)).map Prod.snd

/-- The entries with the object of a name replaced, or with the name added at the end. -/
def insertEntry (name : κ) (object : α) : List (κ × α) → List (κ × α)
  | [] => [(name, object)]
  | entry :: rest =>
      if entry.1 = name then (entry.1, object) :: rest else entry :: insertEntry name object rest

def insert (table : Table κ α) (name : κ) (object : α) : Table κ α :=
  ⟨insertEntry name object table.entries⟩

def erase (table : Table κ α) (name : κ) : Table κ α :=
  ⟨table.entries.filter fun entry => decide (entry.1 ≠ name)⟩

def map (change : α → α) (table : Table κ α) : Table κ α :=
  ⟨table.entries.map fun entry => (entry.1, change entry.2)⟩

theorem get?_insert_self (table : Table κ α) (name : κ) (object : α) :
    (table.insert name object).get? name = some object := by
  obtain ⟨entries⟩ := table
  simp only [get?, insert]
  induction entries with
  | nil => simp [insertEntry]
  | cons entry rest ih =>
      by_cases same : entry.1 = name
      · simp [insertEntry, same]
      · simpa [insertEntry, same] using ih

theorem get?_insert_other (table : Table κ α) {name other : κ} (object : α)
    (different : name ≠ other) : (table.insert name object).get? other = table.get? other := by
  obtain ⟨entries⟩ := table
  simp only [get?, insert]
  induction entries with
  | nil => simp [insertEntry, different]
  | cons entry rest ih =>
      by_cases same : entry.1 = name
      · simp [insertEntry, same, different]
      · by_cases found : entry.1 = other
        · subst found
          simp [insertEntry, same]
        · simpa [insertEntry, same, found] using ih

theorem get?_erase_self (table : Table κ α) (name : κ) : (table.erase name).get? name = none := by
  simp [get?, erase]

theorem get?_erase_other (table : Table κ α) {name other : κ} (different : name ≠ other) :
    (table.erase name).get? other = table.get? other := by
  obtain ⟨entries⟩ := table
  simp only [get?, erase]
  induction entries with
  | nil => rfl
  | cons entry rest ih =>
      by_cases same : entry.1 = name
      · have missed : entry.1 ≠ other := same ▸ different
        simpa [same, missed, different] using ih
      · by_cases found : entry.1 = other
        · subst found
          simp [same]
        · simpa [same, found] using ih

theorem get?_map (table : Table κ α) (change : α → α) (name : κ) :
    (table.map change).get? name = (table.get? name).map change := by
  obtain ⟨entries⟩ := table
  simp only [get?, map]
  induction entries with
  | nil => rfl
  | cons entry rest ih =>
      by_cases found : entry.1 = name
      · simp [found]
      · simpa [found] using ih

end Table

end QueryResult
