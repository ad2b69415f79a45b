import QueryResult.Fault
import QueryResult.Value.Content

/-!
# Row keys

A row key identifies rows by the content of their values. Its hash is computed
once, when the key is made, each value seeding the hash of the next. Keys agree
if their hashes do and their values have equal content position by position.
-/

set_option autoImplicit false

namespace QueryResult

/-- Whether two value lists have the same length and equal content at every position. -/
def sameContent : List Value → List Value → Bool
  | [], [] => true
  | left :: lefts, right :: rights => left.contentEq right && sameContent lefts rights
  | _, _ => false

/-- The hash of a list of values from a starting hash, each value seeding the next. -/
def chainHash (start : UInt64) (values : List Value) : UInt64 :=
  values.foldl (fun hash value => value.contentHash hash) start

/-- Values that identify a row, with their hash at the time the key was made. -/
structure RowKey where
  values : List Value
  hash : UInt64
  deriving DecidableEq

namespace RowKey

def ofValues (values : List Value) : RowKey :=
  ⟨values, chainHash 0 values⟩

def ofRow (row : Row) : RowKey :=
  ofValues row

/-- The key made of the leading `visible` values of a row, which must have as many. -/
def ofVisible (row : Row) (visible : Nat) : Except Fault RowKey :=
  if visible ≤ row.length then .ok (ofValues (row.take visible))
  else .error .rowNarrowerThanProjection

/-- The key of a row: of its leading values if a number of them is given, else of all. -/
def ofRow? (row : Row) (visible : Option Nat) : Except Fault RowKey :=
  match visible with
  | some count => ofVisible row count
  | none => .ok (ofRow row)

/-- Whether two keys identify the same rows. The hashes are compared first; they settle almost
every comparison of different keys. -/
def agrees (left right : RowKey) : Bool :=
  left.hash == right.hash && sameContent left.values right.values

/-- The key after the content of a source has changed. Its hash stays the one it was made
with. -/
def follow (source : String) (content : Bytes) (key : RowKey) : RowKey :=
  { key with values := key.values.map (Value.follow source content) }

end RowKey

end QueryResult
