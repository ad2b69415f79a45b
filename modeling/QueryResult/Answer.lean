import QueryResult.Logging
import QueryResult.Settings
import QueryResult.Value.Basic

/-!
# Answers

What an operation that was not refused answers.
-/

set_option autoImplicit false

namespace QueryResult

/-- The answer of an operation. -/
inductive Answer
  | done
  | flag (truth : Bool)
  /-- Whether the cursor stands on a row, and on which. -/
  | step (advanced : Bool) (row : Option Row)
  | threshold (rows : UInt64)
  /-- The handle of a registered large object. -/
  | handle (number : Nat)
  | row (found : Option Row)
  /-- Rows in no particular order. -/
  | rows (found : List Row)
  | setting (value : SettingValue)
  | logger (source : LoggerSource)
  | notCopyable
  deriving DecidableEq

end QueryResult
