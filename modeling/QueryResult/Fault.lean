import QueryResult.SqlType
import QueryResult.Template

/-!
# Faults

Every way in which an operation on a result can be refused, by its cause. The
wording of a fault is decided here and nowhere else: `Fault.text` says what
went wrong, and `Fault.message` adds the label of the error kind for the faults
that are reported to callers as errors.
-/

set_option autoImplicit false

namespace QueryResult

/-- The kinds of error reported to callers. -/
inductive ErrorKind
  | invalidState
  | notImplemented
  | outOfRange
  | overflow
  | typeMismatch
  deriving DecidableEq, Repr

namespace ErrorKind

/-- All error kinds, each at the position of its code. -/
def all : List ErrorKind :=
  [.invalidState, .notImplemented, .outOfRange, .overflow, .typeMismatch]

def label : ErrorKind → String
  | .invalidState => "Invalid State"
  | .notImplemented => "Not implemented"
  | .outOfRange => "Out of Range"
  | .overflow => "Overflow"
  | .typeMismatch => "Type Mismatch"

/-- The label of the error kind with a given code; other codes are unknown. -/
def labelOfCode (code : Nat) : String :=
  match all[code]? with
  | some kind => kind.label
  | none => "Unknown"

/-- A report: the label of the kind, then the text. -/
def report (kind : ErrorKind) (text : String) : String :=
  kind.label ++ ": " ++ text

/-- A report whose text is a template with its arguments. It is read up to the first NUL
character, which a template or an argument may hold. -/
def reportTemplate (kind : ErrorKind) (template : String) (arguments : List String) : String :=
  String.ofList
    ((kind.report (Template.fill template arguments)).toList.takeWhile fun char =>
      char != '\x00')

/-- A report that one type was found in place of another. The explanation follows the two type
names and is part of the same template, so brackets in it are read as template brackets. -/
def reportMismatch (found expected : ValueType) (explanation : String) : String :=
  reportTemplate .typeMismatch
    ("Type '\x7b\x7d' does not match type '\x7b\x7d'. " ++ explanation) [found.name, expected.name]

end ErrorKind

/-- What an operation wanted to do with rows that are shared with a shallow copy. -/
inductive SharedUse
  | enableDistinct
  | addRow
  | removeRow
  | materialize
  | sort
  | applyOffset
  | applyLimit
  deriving DecidableEq, Repr

def SharedUse.phrase : SharedUse → String
  | .enableDistinct => "enable distinct mode"
  | .addRow => "add a row"
  | .removeRow => "remove a distinct row"
  | .materialize => "materialize distinct rows"
  | .sort => "sort"
  | .applyOffset => "apply the offset"
  | .applyLimit => "apply the limit"

/-- Why a value's type was not the one needed. -/
inductive MismatchReason
  | notComparable
  | noStringContent
  deriving DecidableEq, Repr

def MismatchReason.explanation : MismatchReason → String
  | .notComparable => "Values are not comparable."
  | .noStringContent => "Value has no string content."

/-- The kinds of object that requests name. -/
inductive NamedObject
  | buffer
  | context
  | source
  | index
  deriving DecidableEq, Repr

def NamedObject.noun : NamedObject → String
  | .buffer => "buffer"
  | .context => "context"
  | .source => "source"
  | .index => "index"

/-- The cause for which an operation is refused. -/
inductive Fault
  | distinctAfterRows
  /-- The rows to change are shared with a shallow copy. -/
  | rowsShared (use : SharedUse)
  | addToFinalized
  | removeFromNonDistinct
  | removeFromFinalized
  | readUnfinalized
  /-- A row has fewer columns than are visible. -/
  | rowTooNarrow (width visible : Nat)
  | columnOutOfRange (column width : Nat)
  /-- Holding one more row would exceed the row threshold. -/
  | overThreshold (threshold : UInt64)
  /-- Two types differ where they have to agree. -/
  | typeMismatch (found expected : ValueType) (reason : MismatchReason)
  /-- A setting holds a value of another kind than the one it is read as. -/
  | settingKind
  | unknownSetting
  | nullContent
  /-- A sort key names a column that a row does not have. -/
  | sortKeyOutsideRow
  | rowNarrowerThanProjection
  | schemaMissing
  | notLargeObject
  | impossibleType
  | missing (object : NamedObject)
  | contextExists
  | indexMissing
  /-- The cursor was to stand on a row that the store does not hold. -/
  | rowMissing
  deriving DecidableEq, Repr

/-- How a fault reaches the caller. -/
inductive FaultCategory
  | error (kind : ErrorKind)
  | settingAccess
  | assertion
  /-- As a point of the program that must never be reached. -/
  | unreachable
  | request
  /-- Not at all: the representation of a result is broken, and no run of operations leads here
  as long as no finalization has failed. -/
  | broken
  deriving DecidableEq, Repr

namespace Fault

/-- How a fault reaches the caller. -/
def category : Fault → FaultCategory
  | .distinctAfterRows | .rowsShared _ | .addToFinalized | .removeFromNonDistinct
  | .removeFromFinalized | .readUnfinalized => .error .invalidState
  | .rowTooNarrow .. | .columnOutOfRange .. => .error .outOfRange
  | .overThreshold _ => .error .overflow
  | .typeMismatch .. => .error .typeMismatch
  | .settingKind => .settingAccess
  | .unknownSetting | .nullContent | .sortKeyOutsideRow | .rowNarrowerThanProjection
  | .schemaMissing | .notLargeObject => .assertion
  | .impossibleType => .unreachable
  | .missing _ | .contextExists => .request
  | .indexMissing | .rowMissing => .broken

def text : Fault → String
  | .distinctAfterRows => "Distinct mode must be enabled before rows are added"
  | .rowsShared use => "Cannot " ++ use.phrase ++ ": rows are shared with a shallow copy"
  | .addToFinalized => "Cannot add a row to a finalized result"
  | .removeFromNonDistinct =>
      "Cannot remove a distinct row from a result that is not distinct"
  | .removeFromFinalized => "Cannot remove a distinct row from a finalized result"
  | .readUnfinalized => "Result must be finalized before it is read"
  | .rowTooNarrow width visible =>
      "Row has " ++ width.repr ++ " columns, but " ++ visible.repr ++ " are visible"
  | .columnOutOfRange column width =>
      "Column index " ++ column.repr ++ " out of range for schema with " ++ width.repr ++ " columns"
  | .overThreshold threshold =>
      "too big result: row count exceeds " ++ threshold.toNat.repr
  | .typeMismatch found expected reason =>
      "Type '" ++ found.name ++ "' does not match type '" ++ expected.name ++ "'. " ++
        reason.explanation
  | .settingKind => "Setting holds a value of another kind"
  | .unknownSetting => "Invalid setting"
  | .nullContent => "NULL values have no content"
  | .sortKeyOutsideRow => "Sort key outside of row"
  | .rowNarrowerThanProjection => "Row narrower than its visible projection"
  | .schemaMissing => "Result buffer requires column metadata"
  | .notLargeObject => "Only large objects can be registered"
  | .impossibleType => "Impossible type"
  | .missing object => "no " ++ object.noun
  | .contextExists => "context exists"
  | .indexMissing => "Distinct result without its index"
  | .rowMissing => "Cursor beyond the rows held"

/-- The report of a fault: with the label of its kind if it is an error, else its text alone. -/
def message (fault : Fault) : String :=
  match fault.category with
  | .error kind => kind.report fault.text
  | _ => fault.text

end Fault

/-- The value type with a given code, which must be one. -/
def ValueType.decode (code : Nat) : Except Fault ValueType :=
  match ofCode? code with
  | some type => .ok type
  | none => .error .impossibleType

/-- The column type with a given code, which must be one. -/
def SqlType.decode (code : Nat) : Except Fault SqlType :=
  match ofCode? code with
  | some type => .ok type
  | none => .error .impossibleType

end QueryResult
