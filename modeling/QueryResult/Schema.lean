import QueryResult.Fault

/-!
# Result schemas

The description of a result's columns, as clients see it.
-/

set_option autoImplicit false

namespace QueryResult

inductive Nullability
  | noNulls
  | nullable
  | unknown
  deriving DecidableEq, Repr

structure Column where
  /-- The name under which the column is shown. -/
  label : String := ""
  /-- The name of the column in its table. -/
  name : String := ""
  table : String := ""
  schema : String := ""
  type : SqlType := .varchar
  precision : Int64 := 0
  scale : Int32 := 0
  displaySize : Int32 := 0
  nullability : Nullability := .unknown
  autoIncrement : Bool := false
  deriving DecidableEq, Repr

/-- A nullable column of which only name and type are known; the name is also its label. -/
def Column.named (name : String) (type : SqlType) : Column :=
  { label := name, name := name, type := type, nullability := .nullable }

structure Schema where
  columns : List Column
  deriving DecidableEq, Repr

namespace Schema

def width (schema : Schema) : Nat :=
  schema.columns.length

/-- The column at a position, which must be one of the schema. -/
def column (schema : Schema) (position : Nat) : Except Fault Column :=
  match schema.columns[position]? with
  | some column => .ok column
  | none => .error (.columnOutOfRange position schema.width)

/-- The text of a schema: label and type of every column. -/
def text (schema : Schema) : String :=
  "cols=[" ++
    ",".intercalate (schema.columns.map fun column => column.label ++ ":" ++ column.type.name) ++
    "]"

end Schema

end QueryResult
