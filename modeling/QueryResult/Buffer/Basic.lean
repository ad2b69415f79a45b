import QueryResult.ContentIndex
import QueryResult.Context
import QueryResult.OrderBy.Basic
import QueryResult.Outcome
import QueryResult.Schema

/-!
# Buffers and row stores

A *row store* holds the rows of a result. Until a distinct result is finalized,
its rows are held in the distinct index of the store instead. A store becomes
*frozen* when a shallow copy begins to share it.

A *buffer* is one consumer's access to a row store: how the result is to be
built, whether it has been finalized, and where the consumer's cursor stands.
Several buffers can share one store, which they name by its number.

`ResultState` is a buffer together with its store and the context it belongs
to: all that an operation on the buffer can see and change.
-/

set_option autoImplicit false

namespace QueryResult

/-- The rows of a result. -/
structure RowStore where
  rows : Array Row
  /-- The distinct index: present in distinct mode until the result is finalized, and after that
  only if the result is declared random access. -/
  index : Option ContentIndex
  /-- Whether the store is shared with a shallow copy. -/
  frozen : Bool
  deriving DecidableEq

namespace RowStore

def empty : RowStore := ⟨#[], none, false⟩

def follow (source : String) (content : Bytes) (store : RowStore) : RowStore :=
  { store with
    rows := store.rows.map fun row => row.map (Value.follow source content)
    index := store.index.map (ContentIndex.follow source content) }

end RowStore

/-- One consumer's access to a result. -/
structure Buffer where
  /-- The name of the context the buffer belongs to. -/
  context : Option String
  schema : Schema
  /-- The number of leading columns that clients see. -/
  visible : Nat
  /-- The number of rows that the buffer may hold. -/
  threshold : UInt64
  /-- The number of the row store. -/
  store : Nat
  /-- A membership index over the rows of the store, built on demand and private to the buffer. -/
  lookup : Option ContentIndex
  order : Option OrderBy
  offset : UInt64
  /-- The number of rows to return; negative for no limit. -/
  limit : Int64
  rowCount : Nat
  /-- The position of the cursor: -1 before the first row, `rowCount` behind the last. -/
  position : Int
  /-- The position of the current row in the store. -/
  current : Option Nat
  /-- The handles of the large objects that this buffer registered. -/
  registered : List Nat
  distinct : Bool
  randomAccess : Bool
  finalized : Bool
  closed : Bool
  deriving DecidableEq

namespace Buffer

/-- The threshold of a buffer without a context. -/
def unbounded : UInt64 := 0xffffffffffffffff

def empty (context : Option String) (schema : Schema) (visible : Nat) (threshold : UInt64)
    (store : Nat) : Buffer :=
  { context := context
    schema := schema
    visible := visible
    threshold := threshold
    store := store
    lookup := none
    order := none
    offset := 0
    limit := -1
    rowCount := 0
    position := -1
    current := none
    registered := []
    distinct := false
    randomAccess := false
    finalized := false
    closed := false }

/-- The text of a buffer: its shape and where its cursor stands. -/
def text (buffer : Buffer) : String :=
  "columns: " ++ buffer.visible.repr ++ " rows: " ++ buffer.rowCount.repr ++ " pos: " ++
    buffer.position.repr

/-- The buffer with its cursor before the first row. -/
def rewound (buffer : Buffer) : Buffer :=
  { buffer with position := -1, current := none }

def follow (source : String) (content : Bytes) (buffer : Buffer) : Buffer :=
  { buffer with lookup := buffer.lookup.map (ContentIndex.follow source content) }

end Buffer

structure ResultState where
  buffer : Buffer
  store : RowStore
  context : Option Context
  deriving DecidableEq

namespace ResultState

/-- Whether membership can be answered without building an index. -/
def hasIndex (state : ResultState) : Bool :=
  state.store.index.isSome || state.buffer.lookup.isSome

def currentRow (state : ResultState) : Option Row :=
  match state.buffer.current with
  | some position => state.store.rows[position]?
  | none => none

/-- The rows of the result in the order in which an open cursor delivers them. -/
def rows (state : ResultState) : List Row :=
  state.store.rows.toList

end ResultState

end QueryResult
