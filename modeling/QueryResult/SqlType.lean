/-!
# Value types and column types

`ValueType` is the type of a stored value, `SqlType` the type a column
advertises to the client. Every value type has a column type; some column
types (`decimal`, `date`, …) have no value type of their own.
-/

set_option autoImplicit false

namespace QueryResult

/-- The type of a stored value. -/
inductive ValueType
  | boolean
  | tinyInt
  | smallInt
  | integer
  | bigInt
  | float
  | double
  | varchar
  | blob
  | clob
  deriving DecidableEq, Repr

/-- The type a result column advertises. -/
inductive SqlType
  | boolean
  | tinyInt
  | smallInt
  | integer
  | bigInt
  | real
  | double
  | decimal
  | date
  | timestamp
  | char
  | varchar
  | blob
  | clob
  deriving DecidableEq, Repr

namespace ValueType

/-- All value types, each at the position of its code. -/
def all : List ValueType :=
  [.boolean, .tinyInt, .smallInt, .integer, .bigInt, .float, .double, .varchar, .blob, .clob]

/-- The code of a value type. It takes part in hashing, so it is fixed. -/
def code : ValueType → UInt8
  | .boolean => 0
  | .tinyInt => 1
  | .smallInt => 2
  | .integer => 3
  | .bigInt => 4
  | .float => 5
  | .double => 6
  | .varchar => 7
  | .blob => 8
  | .clob => 9

def ofCode? (code : Nat) : Option ValueType :=
  all[code]?

def name : ValueType → String
  | .boolean => "Boolean"
  | .tinyInt => "TinyInt"
  | .smallInt => "SmallInt"
  | .integer => "Integer"
  | .bigInt => "BigInt"
  | .float => "Float"
  | .double => "Double"
  | .varchar => "Varchar"
  | .blob => "Blob"
  | .clob => "Clob"

/-- The column type under which values of this type are returned. -/
def sqlType : ValueType → SqlType
  | .boolean => .boolean
  | .tinyInt => .tinyInt
  | .smallInt => .smallInt
  | .integer => .integer
  | .bigInt => .bigInt
  | .float => .real
  | .double => .double
  | .varchar => .varchar
  | .blob => .blob
  | .clob => .clob

def isLargeObject : ValueType → Bool
  | .blob | .clob => true
  | _ => false

def isNumeric : ValueType → Bool
  | .tinyInt | .smallInt | .integer | .bigInt | .float | .double => true
  | _ => false

theorem ofCode?_code (type : ValueType) : ofCode? type.code.toNat = some type := by
  cases type <;> rfl

end ValueType

namespace SqlType

/-- All column types, each at the position of its code. -/
def all : List SqlType :=
  [.boolean, .tinyInt, .smallInt, .integer, .bigInt, .real, .double, .decimal, .date, .timestamp,
    .char, .varchar, .blob, .clob]

def ofCode? (code : Nat) : Option SqlType :=
  all[code]?

/-- The SQL spelling of a column type. -/
def name : SqlType → String
  | .boolean => "BOOLEAN"
  | .tinyInt => "TINYINT"
  | .smallInt => "SMALLINT"
  | .integer => "INTEGER"
  | .bigInt => "BIGINT"
  | .real => "REAL"
  | .double => "DOUBLE"
  | .decimal => "DECIMAL"
  | .date => "DATE"
  | .timestamp => "TIMESTAMP"
  | .char => "CHAR"
  | .varchar => "VARCHAR"
  | .blob => "BLOB"
  | .clob => "CLOB"

end SqlType

end QueryResult
