import QueryResult.Event
import QueryResult.HeapSelection
import QueryResult.OrderBy.Basic
import QueryResult.PartitionSort
import QueryResult.Settings

/-!
# Sorting rows

`OrderBy.sorted` is the stable sort of a list of rows. The rows are arranged
under the total order `OrderBy.arrange`, and the arrangement is accepted only if
each row can be compared with the next. That is enough: rows that tie on all
keys before a mismatch stand together, so if any two rows mismatch, two
neighbours do.

`OrderBy.sortWindow` orders only the rows up to the end of a window and leaves
the others behind them. Ties are settled by the positions of the rows, so the
ordered rows are the leading rows of the stable sort.
-/

set_option autoImplicit false

namespace QueryResult.OrderBy

/-- Whether a row does not come after another in the total order. -/
def notAfter (order : OrderBy) (left right : Row) : Bool :=
  (order.arrange left right).isLE

/-- Succeeds if every row can be compared with the next one. -/
def checkNeighbours (order : OrderBy) : List Row → Except Fault Unit
  | [] => .ok ()
  | [_] => .ok ()
  | row :: next :: rest =>
      match order.compare row next with
      | .ok _ => checkNeighbours order (next :: rest)
      | .error fault => .error fault

/-- Whether a row with its position comes before another: by the order, then by position. -/
def comesBefore (order : OrderBy) (left right : Row × Nat) : Except Fault Bool := do
  match ← order.compare left.1 right.1 with
  | .lt => return true
  | .gt => return false
  | .eq => return decide (left.2 < right.2)

/-- The fault met first when the rows are sorted by partitions, or `otherwise` if there is none. -/
def firstFault (order : OrderBy) (rows : List Row) (otherwise : Fault) : Fault :=
  match PartitionSort.sort order.comesBefore rows.zipIdx.toArray with
  | .error fault => fault
  | .ok _ => otherwise

/-- The rows in stable order. If two of them cannot be compared there is no order; of the faults
the one is reported that sorting by partitions meets first. -/
def sorted (order : OrderBy) (rows : List Row) : Except Fault (List Row) :=
  let arrangement := rows.mergeSort order.notAfter
  match order.checkNeighbours arrangement with
  | .ok _ => .ok arrangement
  | .error fault => .error (order.firstFault rows fault)

/-- The rows with the `count` least of them in order at the front. -/
def leastFirst (order : OrderBy) (count : Nat) (rows : List Row) : Except Fault (List Row) := do
  let selected ← HeapSelection.selectLeast order.comesBefore count rows.zipIdx.toArray
  return selected.toList.map Prod.fst

/-- The number of leading rows that a window over `size` rows needs in order: up to its end, or
all of them if it reaches the end of the rows. The sum is taken only where it is less than
`size`. -/
def windowEnd (size : Nat) (offset limit : UInt64) : Nat :=
  if size ≤ offset.toNat ∨ size - offset.toNat ≤ limit.toNat then size
  else (offset + limit).toNat

theorem windowEnd_le {size : Nat} {offset limit : UInt64} : windowEnd size offset limit ≤ size := by
  unfold windowEnd
  split
  · exact Nat.le_refl size
  · rw [UInt64.toNat_add]
    have reduced := Nat.mod_le (offset.toNat + limit.toNat) (2 ^ 64)
    omega

/-- The rows with the first `count` of them in order. Fewer than two rows, or none to order, are
left as they are. -/
def sortLeading (order : OrderBy) (settings : Settings) (count : Nat) (rows : List Row) :
    Except Fault (List Row × List Event) :=
  if rows.length < 2 ∨ count = 0 then .ok (rows, [])
  else
    match settings.integer .parallelSortMinRows with
    | .error fault => .error fault
    | .ok _ => do
        let ordered ←
          if count < rows.length then order.leastFirst count rows else order.sorted rows
        return (ordered, [.rowsSorted count rows.length])

def sort (order : OrderBy) (settings : Settings) (rows : List Row) :
    Except Fault (List Row × List Event) :=
  order.sortLeading settings rows.length rows

/-- The rows with those up to the end of a window in order. -/
def sortWindow (order : OrderBy) (settings : Settings) (offset limit : UInt64)
    (rows : List Row) : Except Fault (List Row × List Event) :=
  order.sortLeading settings (windowEnd rows.length offset limit) rows

end QueryResult.OrderBy
