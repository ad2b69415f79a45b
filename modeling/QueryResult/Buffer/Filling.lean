import QueryResult.Buffer.Basic

/-!
# Filling a result

Rows are added until the result is finalized. A linked large object is replaced
by an owned copy before its row is looked at any further, and the copies are
registered with the context once it is certain that the row is accepted. In
distinct mode a row takes the place of the one with the same visible values.

A row that would take the result beyond its threshold is refused. In distinct
mode that concerns rows with new visible values only.
-/

set_option autoImplicit false

namespace QueryResult

/-- The row with owned copies in place of its linked large objects. -/
def Row.detached (row : Row) : Row :=
  row.map Value.detach

theorem Row.isLinked_of_mem_detached {row : Row} {value : Value} (held : value ∈ row.detached) :
    value.isLinked = false := by
  obtain ⟨source, _, rfl⟩ := List.mem_map.mp held
  exact Value.isLinked_detach source

/-- The owned copies of the linked large objects of a row, in column order. -/
def Row.copies (row : Row) : List Value :=
  (row.filter Value.isLinked).map Value.detach

namespace ResultState

/-- Registers large objects with the context, if there is one, and remembers their handles. -/
def registerCopies (state : ResultState) (copies : List Value) : ResultState × List Event :=
  match state.context with
  | none => (state, [])
  | some context =>
      let kept := context.keepAll copies
      ({ state with
          buffer := { state.buffer with registered := state.buffer.registered ++ kept.1 }
          context := some kept.2.1 },
        kept.2.2)

def setDistinct (state : ResultState) : Outcome ResultState Unit :=
  if 0 < state.buffer.rowCount then .refuse .distinctAfterRows state
  else if state.store.frozen then .refuse (.rowsShared .enableDistinct) state
  else
    .accept ()
      { state with
        store := { state.store with index := some .empty }
        buffer := { state.buffer with distinct := true } }
      []

/-- Adds a row to the end of the row store. -/
def append (row : Row) (state : ResultState) : Outcome ResultState Unit :=
  if state.buffer.threshold.toNat < state.store.rows.size + 1 then
    .refuse (.overThreshold state.buffer.threshold) state
  else
    match state.registerCopies row.copies with
    | (registered, events) =>
        .accept ()
          { registered with
            store := { registered.store with rows := registered.store.rows.push row.detached }
            buffer := { registered.buffer with rowCount := registered.buffer.rowCount + 1 } }
          events

/-- Puts a row into the distinct index under its visible values. -/
def putDistinct (row : Row) (state : ResultState) : Outcome ResultState Unit :=
  match RowKey.ofVisible row.detached state.buffer.visible with
  | .error fault => .refuse fault state
  | .ok key =>
      match state.store.index with
      | none => .refuse .indexMissing state
      | some index =>
          let added := index.insert key row.detached
          let size := added.2.size
          if added.1 = true ∧ state.buffer.threshold.toNat < size then
            .refuse (.overThreshold state.buffer.threshold) state
          else
            match state.registerCopies row.copies with
            | (registered, events) =>
                .accept ()
                  { registered with
                    store := { registered.store with index := some added.2 }
                    buffer := { registered.buffer with rowCount := size } }
                  events

def add (row : Row) (state : ResultState) : Outcome ResultState Unit :=
  if row.length < state.buffer.visible then
    .refuse (.rowTooNarrow row.length state.buffer.visible) state
  else if state.buffer.finalized then .refuse .addToFinalized state
  else if state.store.frozen then .refuse (.rowsShared .addRow) state
  else if state.buffer.distinct then state.putDistinct row
  else state.append row

/-- Removes the row whose visible values are the given values, if there is one. -/
def remove (row : Row) (state : ResultState) : Outcome ResultState Unit :=
  if !state.buffer.distinct then .refuse .removeFromNonDistinct state
  else if state.buffer.finalized then .refuse .removeFromFinalized state
  else if state.store.frozen then .refuse (.rowsShared .removeRow) state
  else
    match state.store.index with
    | none => .refuse .indexMissing state
    | some index =>
        let removed := (index.erase (RowKey.ofRow row)).2
        .accept ()
          { state with
            store := { state.store with index := some removed }
            buffer := { state.buffer with rowCount := removed.size } }
          []

end ResultState

end QueryResult
