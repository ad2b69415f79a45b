import QueryResult.Buffer.Basic

/-!
# Reading a result

The cursor of a finalized result moves forward one row at a time and can be put
before the first row at any time. Closing the buffer ends the reading and
releases the large objects that the buffer registered.

A finalized result can be copied without copying its rows: the copy shares the
row store, which is frozen from then on, and has a cursor of its own.
-/

set_option autoImplicit false

namespace QueryResult.ResultState

/-- Puts the cursor before the first row. -/
def rewind (state : ResultState) : Outcome ResultState Unit :=
  .accept () { state with buffer := state.buffer.rewound } []

/-- Moves the cursor forward. The answer is whether it stands on a row. -/
def next (state : ResultState) : Outcome ResultState Bool :=
  if !state.buffer.finalized then .refuse .readUnfinalized state
  else if state.buffer.closed ∨ (state.buffer.rowCount : Int) ≤ state.buffer.position then
    .accept false state []
  else
    let position := state.buffer.position + 1
    if position < state.buffer.rowCount then
      if position.toNat < state.store.rows.size then
        .accept true
          { state with
            buffer := { state.buffer with position := position, current := some position.toNat } }
          []
      else .refuse .rowMissing state
    else
      .accept false
        { state with buffer := { state.buffer with position := position, current := none } } []

/-- Closes the buffer and releases the large objects that it registered. -/
def close (state : ResultState) : Outcome ResultState Unit :=
  if state.buffer.closed then .accept () state []
  else
    .accept ()
      { state with
        buffer := { state.buffer with closed := true, current := none, registered := [] }
        context := state.context.map fun context => context.releaseAll state.buffer.registered }
      []

/-- A copy of a finalized result for another consumer, in the given context, and the result
itself with its rows frozen. Nothing if the result is not finalized or not all of its rows are
held. -/
def shallowCopy (context : Option String) (state : ResultState) :
    Option (ResultState × Buffer) :=
  if state.buffer.finalized ∧ state.buffer.rowCount ≤ state.store.rows.size then
    some
      ({ state with store := { state.store with frozen := true } },
        { Buffer.empty context state.buffer.schema state.buffer.visible state.buffer.threshold
            state.buffer.store with
          order := state.buffer.order
          rowCount := state.buffer.rowCount
          distinct := state.buffer.distinct
          randomAccess := state.buffer.randomAccess
          finalized := true })
  else none

end QueryResult.ResultState
