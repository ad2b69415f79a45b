import QueryResult.Buffer.Cursor
import QueryResult.Buffer.Filling

/-!
# Reading one result into another

The rows ahead of the cursor of one result are added to another one, with their
visible columns only.
-/

set_option autoImplicit false

namespace QueryResult.ResultState

/-- The number of times the cursor can move forward onto a row. -/
def rowsAhead (state : ResultState) : Nat :=
  ((state.buffer.rowCount : Int) - 1 - state.buffer.position).toNat

/-- The number of times to try the cursor when at most `limit` rows are to be read, zero meaning
no limit: once for each row, and once more to find the end unless the limit comes first. -/
def attempts (limit : UInt64) (state : ResultState) : Nat :=
  if limit = 0 then state.rowsAhead + 1 else min limit.toNat (state.rowsAhead + 1)

/-- Two results between which rows are read. -/
structure Transfer where
  source : ResultState
  target : ResultState
  deriving DecidableEq

/-- Reads at most `count` rows of the source into the target. It ends early at the end of the
source, and with the first fault of either result. -/
def transfer : Nat → Transfer → Outcome Transfer Unit
  | 0, pair => .accept () pair []
  | count + 1, pair =>
      let moved := pair.source.next
      match moved.answer with
      | .error fault => .refuse fault { pair with source := moved.state }
      | .ok false => .accept () { pair with source := moved.state } []
      | .ok true =>
          match moved.state.currentRow with
          | none => .refuse .rowMissing { pair with source := moved.state }
          | some row =>
              let added := pair.target.add (row.take pair.source.buffer.visible)
              match added.answer with
              | .error fault => .refuse fault ⟨moved.state, added.state⟩
              | .ok _ =>
                  let outcome := transfer count ⟨moved.state, added.state⟩
                  ⟨outcome.answer, outcome.state, added.events ++ outcome.events⟩

end QueryResult.ResultState
