import QueryResult.HeapSelection

/-!
# Sorting by partitions

`sort` puts an array in order. Long ranges are partitioned around the median of
three of their items, again and again until only short ranges are left; a range
that has been partitioned too often is put in order with a heap. In the end
every item is moved forward to its place, which is then close by.

Comparisons may fail, and the first failure ends the sorting. As in a bounded
heap, items only ever move by exchanges, or by the selection from a range.
-/

set_option autoImplicit false

namespace QueryResult.PartitionSort

open HeapSelection (beforeAt selectLeast)

variable {α ε : Type} (before : α → α → Except ε Bool)

/-- The length up to which a range is left for the final insertions. -/
def shortLength : Nat := 16

/-- Which of three positions holds the item that comes between the other two. -/
def median (items : Array α) (left middle right : Nat) : Except ε Nat := do
  if ← beforeAt before items left middle then
    if ← beforeAt before items middle right then return middle
    if ← beforeAt before items left right then return right
    return left
  else
    if ← beforeAt before items left right then return left
    if ← beforeAt before items middle right then return right
    return middle

/-- The last position under the given one whose item does not come after the item at `pivot`, or
the first of all. -/
def lastNotAfter (items : Array α) (pivot : Nat) : Nat → Except ε Nat
  | 0 => .ok 0
  | position + 1 => do
      if ← beforeAt before items pivot position then
        lastNotAfter items pivot position
      else
        return position

/-- Exchanges items from `low` on that do not come before the pivot with items under `high` that do
not come after it, until the two positions meet. The answer is where they meet: items from there
on do not come before the pivot, items under it do not come after it. -/
def partition (pivot : Nat) (items : Array α) (low high : Nat) : Except ε (Array α × Nat) :=
  if low < items.size then do
    if ← beforeAt before items low pivot then
      partition pivot items (low + 1) high
    else
      let last ← lastNotAfter before items pivot high
      if low < last then
        partition pivot (items.swapIfInBounds low last) (low + 1) last
      else
        return (items, low)
  else
    .ok (items, low)
termination_by items.size - low
decreasing_by
  · omega
  · rw [Array.size_swapIfInBounds]
    omega

/-- Parts the range from `first` up to `stop` around the median of its second, middle and last
item, which is put first. The answer is where the second part begins. -/
def split (items : Array α) (first stop : Nat) : Except ε (Array α × Nat) := do
  let pivot ← median before items (first + 1) (first + (stop - first) / 2) (stop - 1)
  partition before first (items.swapIfInBounds first pivot) (first + 1) stop

/-- Puts the range from `first` up to `stop` in order with a heap. -/
def heapSortRange (items : Array α) (first stop : Nat) : Except ε (Array α) := do
  let range ← selectLeast before (stop - first) (items.extract first stop)
  return items.extract 0 first ++ range ++ items.extract stop

/-- Parts the range from `first` up to `stop` until its parts are short, the later part before the
earlier one. Parts of parts are made at most as often as the first argument says. -/
def divide : Nat → Array α → Nat → Nat → Except ε (Array α)
  | depth, items, first, stop =>
      if stop - first ≤ shortLength then .ok items
      else
        match depth with
        | 0 => heapSortRange before items first stop
        | depth + 1 => do
            let (parted, middle) ← split before items first stop
            divide depth (← divide depth parted middle stop) first middle

/-- Moves the item at a position to the front, and those ahead of it one place back. -/
def moveToFront : Nat → Array α → Array α
  | 0, items => items
  | position + 1, items => moveToFront position (items.swapIfInBounds (position + 1) position)

/-- Moves the item at a position forward past all items that it comes before. -/
def moveForward : Nat → Array α → Except ε (Array α)
  | 0, items => .ok items
  | position + 1, items => do
      if ← beforeAt before items (position + 1) position then
        moveForward position (items.swapIfInBounds (position + 1) position)
      else
        return items

/-- Moves the item at a position forward to its place, looking first whether that is the front. -/
def place (items : Array α) (position : Nat) : Except ε (Array α) := do
  if ← beforeAt before items position 0 then
    return moveToFront position items
  else
    moveForward before position items

/-- The items in order. Ranges are parted at most twice as often as the number of items can be
halved. Only among the first items can one have the front as its place. -/
def sort (items : Array α) : Except ε (Array α) := do
  let divided ← divide before (2 * items.size.log2) items 0 items.size
  let started ←
    (List.range' 1 (min shortLength items.size - 1)).foldlM (place before) divided
  (List.range' shortLength (items.size - shortLength)).foldlM
    (fun placed position => moveForward before position placed) started

end QueryResult.PartitionSort
