import QueryResult.Buffer.Basic
import QueryResult.OrderBy.Sorting

/-!
# Finalizing a result

A result is finalized once, in four stages: the rows of a distinct result move
from its index into the row store, the rows are sorted, the rows before the
offset are dropped, and the rows beyond the limit are dropped. If a stage
fails, the result is not finalized, but the stages before it have taken effect.

If a window is set, only the rows up to its end are put in order: the others do
not survive the last two stages.
-/

set_option autoImplicit false

namespace QueryResult.ResultState

/-- Moves the rows of a distinct result into the row store. The index is kept only for random
access. -/
def materialize (state : ResultState) : Outcome ResultState Unit :=
  if !state.buffer.distinct then .accept () state []
  else if state.store.frozen then .refuse (.rowsShared .materialize) state
  else
    match state.store.index with
    | none => .refuse .indexMissing state
    | some index =>
        if state.buffer.randomAccess then
          .accept () { state with store := { state.store with rows := index.values.toArray } } []
        else
          .accept ()
            { state with
              store := { state.store with rows := index.removeAll.1.toArray, index := none } }
            []

/-- The rows of the store in the order of the result. All of them are put in order if there is
no limit, and also if offset and limit are both zero; else only those up to the end of the
window. -/
def orderedRows (settings : Settings) (order : OrderBy) (state : ResultState) :
    Except Fault (List Row × List Event) :=
  if state.buffer.limit < 0 ∨ (state.buffer.offset = 0 ∧ state.buffer.limit = 0) then
    order.sort settings state.rows
  else order.sortWindow settings state.buffer.offset state.buffer.limit.toUInt64 state.rows

def sortRows (settings : Settings) (state : ResultState) : Outcome ResultState Unit :=
  match state.buffer.order with
  | none => .accept () state []
  | some order =>
      if state.store.frozen then .refuse (.rowsShared .sort) state
      else
        match state.orderedRows settings order with
        | .error fault => .refuse fault state
        | .ok (rows, events) =>
            .accept () { state with store := { state.store with rows := rows.toArray } } events

def applyOffset (state : ResultState) : Outcome ResultState Unit :=
  if state.buffer.offset = 0 then .accept () state []
  else if state.store.frozen then .refuse (.rowsShared .applyOffset) state
  else
    let rows :=
      if state.store.rows.size ≤ state.buffer.offset.toNat then #[]
      else (state.rows.drop state.buffer.offset.toNat).toArray
    .accept ()
      { state with
        store := { state.store with rows := rows }
        buffer := { state.buffer with rowCount := rows.size } }
      []

def applyLimit (state : ResultState) : Outcome ResultState Unit :=
  if state.buffer.limit < 0 then .accept () state []
  else
    let limit := state.buffer.limit.toUInt64.toNat
    if state.store.rows.size ≤ limit then .accept () state []
    else if state.store.frozen then .refuse (.rowsShared .applyLimit) state
    else
      .accept ()
        { state with
          store := { state.store with rows := (state.rows.take limit).toArray }
          buffer := { state.buffer with rowCount := limit } }
        []

/-- Finalizes the result and puts the cursor before its first row. A result that is finalized
already only has its cursor put there. -/
def finalize (settings : Settings) (state : ResultState) : Outcome ResultState Unit :=
  if state.buffer.finalized then
    .accept () { state with buffer := state.buffer.rewound } []
  else
    let before := state.buffer.rowCount
    state.materialize.andThen fun _ materialized =>
    (materialized.sortRows settings).andThen fun _ sorted =>
    sorted.applyOffset.andThen fun _ shifted =>
    shifted.applyLimit.andThen fun _ cut =>
    .accept () { cut with buffer := { cut.buffer.rewound with finalized := true } }
      [.finalized before cut.buffer.rowCount]

end QueryResult.ResultState
