import QueryResult.Answer
import QueryResult.Buffer.Cursor
import QueryResult.Buffer.Filling
import QueryResult.Buffer.Finalization
import QueryResult.Buffer.Membership

/-!
# Commands on a buffer

Every operation on one buffer as data, so that runs of operations are lists of
commands.
-/

set_option autoImplicit false

namespace QueryResult

/-- An operation on one buffer. -/
inductive Command
  | setThreshold (rows : UInt64)
  | setDistinct
  | setRandomAccess
  | setOrder (order : Option OrderBy)
  | setOffset (rows : UInt64)
  | setLimit (rows : Int64)
  /-- A hint on how many rows to fetch at once; all rows are in memory, so it has no effect. -/
  | setFetchSize (rows : UInt32)
  | add (row : Row)
  | remove (row : Row)
  | contains (row : Row)
  | buildIndex
  | finalize
  | rewind
  | next
  | close
  deriving DecidableEq

namespace ResultState

/-- Changes the buffer alone, which always succeeds. -/
def configure (change : Buffer → Buffer) (state : ResultState) : Outcome ResultState Answer :=
  .accept .done { state with buffer := change state.buffer } []

/-- Carries out a command. -/
def perform (settings : Settings) : Command → ResultState → Outcome ResultState Answer
  | .setThreshold rows, state => state.configure fun buffer => { buffer with threshold := rows }
  | .setDistinct, state => state.setDistinct.mapAnswer fun _ _ => .done
  | .setRandomAccess, state =>
      state.configure fun buffer => { buffer with randomAccess := true }
  | .setOrder order, state => state.configure fun buffer => { buffer with order := order }
  | .setOffset rows, state => state.configure fun buffer => { buffer with offset := rows }
  | .setLimit rows, state => state.configure fun buffer => { buffer with limit := rows }
  | .setFetchSize _, state => state.configure id
  | .add row, state => (state.add row).mapAnswer fun _ _ => .done
  | .remove row, state => (state.remove row).mapAnswer fun _ _ => .done
  | .contains row, state => (state.contains row).mapAnswer fun found _ => .flag found
  | .buildIndex, state => state.buildIndex.mapAnswer fun _ _ => .done
  | .finalize, state => (state.finalize settings).mapAnswer fun _ _ => .done
  | .rewind, state => state.rewind.mapAnswer fun _ _ => .done
  | .next, state =>
      state.next.mapAnswer fun advanced after => .step advanced after.currentRow
  | .close, state => state.close.mapAnswer fun _ _ => .done

/-- Carries out commands in order, whether or not some of them are refused: the answers, and
the state in the end. -/
def performAll (settings : Settings) :
    List Command → ResultState → List (Except Fault Answer) × ResultState
  | [], state => ([], state)
  | command :: rest, state =>
      let outcome := state.perform settings command
      let others := performAll settings rest outcome.state
      (outcome.answer :: others.1, others.2)

end ResultState

end QueryResult
