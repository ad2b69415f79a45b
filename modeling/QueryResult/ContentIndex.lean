import QueryResult.HashTree
import QueryResult.RowKey

/-!
# Content indexes

A content index holds one row for each row key. Putting a row under a key that
is already there replaces the row and keeps the key. The order of the entries
means nothing to callers.
-/

set_option autoImplicit false

namespace QueryResult

/-- Rows under row keys, at most one row for each key. -/
structure ContentIndex where
  tree : HashTree (RowKey × Row)
  /-- The number of keys. -/
  size : Nat
  size_eq : size = tree.toList.length
  deriving DecidableEq

namespace ContentIndex

def empty : ContentIndex := ⟨.leaf, 0, rfl⟩

def toList (index : ContentIndex) : List (RowKey × Row) :=
  index.tree.toList

def isEmpty (index : ContentIndex) : Bool :=
  index.size == 0

/-- The entries among which a key is looked for. -/
def candidates (index : ContentIndex) (key : RowKey) : List (RowKey × Row) :=
  index.tree.bucket key.hash

def find? (index : ContentIndex) (key : RowKey) : Option Row :=
  ((index.candidates key).find? fun entry => key.agrees entry.1).map Prod.snd

def contains (index : ContentIndex) (key : RowKey) : Bool :=
  (index.candidates key).any fun entry => key.agrees entry.1

/-- The entries with the row of the first matching one replaced. -/
def replaceRow (key : RowKey) (row : Row) : List (RowKey × Row) → List (RowKey × Row)
  | [] => []
  | entry :: rest =>
      if key.agrees entry.1 then (entry.1, row) :: rest else entry :: replaceRow key row rest

theorem length_replaceRow (key : RowKey) (row : Row) (entries : List (RowKey × Row)) :
    (replaceRow key row entries).length = entries.length := by
  induction entries with
  | nil => rfl
  | cons entry rest ih =>
      by_cases found : key.agrees entry.1 = true
      · simp [replaceRow, found]
      · simp [replaceRow, found, ih]

theorem length_toList_setBucket (index : ContentIndex) (key : RowKey)
    (entries : List (RowKey × Row)) :
    (index.tree.setBucket key.hash entries).toList.length + (index.candidates key).length =
      index.size + entries.length := by
  rw [index.size_eq]
  exact index.tree.length_toList_setBucket key.hash entries

/-- Puts a row under a key. The answer is whether the key is new. -/
def insert (index : ContentIndex) (key : RowKey) (row : Row) : Bool × ContentIndex :=
  if index.contains key then
    (false,
      { tree := index.tree.setBucket key.hash (replaceRow key row (index.candidates key))
        size := index.size
        size_eq := by
          have counted :=
            index.length_toList_setBucket key (replaceRow key row (index.candidates key))
          rw [length_replaceRow] at counted
          omega })
  else
    (true,
      { tree := index.tree.setBucket key.hash ((key, row) :: index.candidates key)
        size := index.size + 1
        size_eq := by
          have counted := index.length_toList_setBucket key ((key, row) :: index.candidates key)
          rw [List.length_cons] at counted
          omega })

/-- Removes a key with its row. The answer is whether it was there. -/
def erase (index : ContentIndex) (key : RowKey) : Bool × ContentIndex :=
  if found : index.contains key = true then
    (true,
      { tree := index.tree.setBucket key.hash
          ((index.candidates key).eraseP fun entry => key.agrees entry.1)
        size := index.size - 1
        size_eq := by
          have counted := index.length_toList_setBucket key
            ((index.candidates key).eraseP fun entry => key.agrees entry.1)
          obtain ⟨entry, listed, agreed⟩ := List.any_eq_true.mp found
          have shorter :=
            List.length_eraseP_of_mem (p := fun entry => key.agrees entry.1) listed agreed
          have occupied := List.length_pos_of_mem listed
          omega })
  else (false, index)

def values (index : ContentIndex) : List Row :=
  index.toList.map Prod.snd

def removeAll (index : ContentIndex) : List Row × ContentIndex :=
  (index.values, empty)

/-- The index of rows under their leading `visible` values; of rows with one key the last
counts. -/
def ofRows (visible : Nat) (rows : List Row) : Except Fault ContentIndex :=
  rows.foldlM
    (fun index row => do
      let key ← RowKey.ofVisible row visible
      return (index.insert key row).2)
    empty

/-- The index after the content of a source has changed. Keys keep their hashes and so their
places. -/
def follow (source : String) (content : Bytes) (index : ContentIndex) : ContentIndex :=
  { tree := index.tree.map fun entry =>
      (entry.1.follow source content, entry.2.map (Value.follow source content))
    size := index.size
    size_eq := by rw [HashTree.toList_map, List.length_map]; exact index.size_eq }

theorem length_values (index : ContentIndex) : index.values.length = index.size := by
  rw [values, List.length_map, index.size_eq, toList]

end ContentIndex

end QueryResult
