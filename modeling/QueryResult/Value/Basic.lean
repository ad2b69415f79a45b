import QueryResult.Bytes
import QueryResult.SqlType

/-!
# Values

A single SQL value, possibly NULL. A large object is either *owned*, with
content that no one else can change, or *linked* to a named source outside of
the result. A linked value shows the current content of its source: whoever
changes a source shows the change to every linked value with `follow`.
`detach` turns a linked value into an owned copy of its present content.
-/

set_option autoImplicit false

namespace QueryResult

/-- Who controls the content of a large object. -/
inductive Origin
  | owned
  | linked (source : String)
  deriving DecidableEq, Repr

inductive LargeObjectKind
  | blob
  | clob
  deriving DecidableEq, Repr

def LargeObjectKind.type : LargeObjectKind → ValueType
  | .blob => .blob
  | .clob => .clob

/-- A single SQL value. Floating-point numbers are held as their bit patterns. -/
inductive Value
  | null (type : ValueType)
  | boolean (truth : Bool)
  | tinyInt (number : Int8)
  | smallInt (number : Int16)
  | integer (number : Int32)
  | bigInt (number : Int64)
  | float (bits : UInt32)
  | double (bits : UInt64)
  | varchar (content : Bytes)
  | largeObject (kind : LargeObjectKind) (content : Bytes) (origin : Origin)
  deriving DecidableEq

/-- A row of a result. Its leading columns are visible to clients, the others are hidden. -/
abbrev Row := List Value

namespace Value

/-- The type of a value, also of NULL. -/
def type : Value → ValueType
  | .null type => type
  | .boolean _ => .boolean
  | .tinyInt _ => .tinyInt
  | .smallInt _ => .smallInt
  | .integer _ => .integer
  | .bigInt _ => .bigInt
  | .float _ => .float
  | .double _ => .double
  | .varchar _ => .varchar
  | .largeObject kind _ _ => kind.type

def isNull : Value → Bool
  | .null _ => true
  | _ => false

/-- The source a value is linked to. -/
def link? : Value → Option String
  | .largeObject _ _ (.linked source) => some source
  | _ => none

/-- Whether a value depends on a source and so must be copied before it is kept. -/
def isLinked (value : Value) : Bool :=
  value.link?.isSome

/-- The value with the same content that depends on no source. -/
def detach : Value → Value
  | .largeObject kind content _ => .largeObject kind content .owned
  | value => value

/-- The value after the content of a source has become `content`. -/
def follow (source : String) (content : Bytes) : Value → Value
  | .largeObject kind shown (.linked name) =>
      .largeObject kind (if name = source then content else shown) (.linked name)
  | value => value

theorem isLinked_detach (value : Value) : value.detach.isLinked = false := by
  cases value <;> rfl

theorem detach_of_not_linked {value : Value} (unlinked : value.isLinked = false) :
    value.detach = value := by
  cases value with
  | largeObject kind content origin =>
      cases origin with
      | owned => rfl
      | linked source => simp [isLinked, link?] at unlinked
  | _ => rfl

theorem follow_of_not_linked {value : Value} (source : String) (content : Bytes)
    (unlinked : value.isLinked = false) : value.follow source content = value := by
  cases value with
  | largeObject kind shown origin =>
      cases origin with
      | owned => rfl
      | linked name => simp [isLinked, link?] at unlinked
  | _ => rfl

end Value

end QueryResult
