import QueryResult.Buffer.Basic

/-!
# Membership

Whether a result holds a row with given visible values is answered by the
distinct index of the row store if there is one, and else by an index that the
buffer builds over the rows of the store when it is first asked.
-/

set_option autoImplicit false

namespace QueryResult.ResultState

/-- Builds the private index, unless there is an index already. -/
def buildIndex (state : ResultState) : Outcome ResultState Unit :=
  if state.hasIndex then .accept () state []
  else
    match ContentIndex.ofRows state.buffer.visible state.rows with
    | .error fault => .refuse fault state
    | .ok index =>
        .accept () { state with buffer := { state.buffer with lookup := some index } }
          [.indexBuilt state.store.rows.size index.size]

/-- The index that answers questions of membership: the one of the store before the private
one. -/
def membershipIndex (state : ResultState) : Option ContentIndex :=
  match state.store.index with
  | some index => some index
  | none => state.buffer.lookup

/-- Whether the result holds a row whose visible values are the given ones. -/
def contains (row : Row) (state : ResultState) : Outcome ResultState Bool :=
  state.buildIndex.andThen fun _ built =>
    match built.membershipIndex with
    | none => .refuse .indexMissing built
    | some index => .accept (index.contains (RowKey.ofRow row)) built []

end QueryResult.ResultState
