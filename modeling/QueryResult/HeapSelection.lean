/-!
# Selecting the least items with a bounded heap

`selectLeast` puts the `count` least items of an array in order at its front.
The front is kept as a heap whose first item is the greatest; every later item
that comes before that one takes its place. In the end the heap is taken apart
from the back.

Comparisons may fail, and the first failure ends the selection. Items only ever
move by exchanges, so the items of the result are those of the input. Positions
are counted from zero; the children of position `i` are `2 * i + 1` and
`2 * i + 2`.
-/

set_option autoImplicit false

namespace QueryResult.HeapSelection

variable {α ε : Type} (before : α → α → Except ε Bool)

/-- Whether the item at one position comes before the item at another. -/
def beforeAt (items : Array α) (left right : Nat) : Except ε Bool :=
  match items[left]?, items[right]? with
  | some leftItem, some rightItem => before leftItem rightItem
  | _, _ => .ok false

/-- Moves the item at `hole` down to a leaf of the heap in the first `size` positions, each time
in exchange for the later of its two children. The answer is the leaf. -/
def descend (items : Array α) (hole size : Nat) : Except ε (Array α × Nat) :=
  if 2 * hole + 2 < size then do
    let leftIsLater ← beforeAt before items (2 * hole + 2) (2 * hole + 1)
    let child := if leftIsLater then 2 * hole + 1 else 2 * hole + 2
    descend (items.swapIfInBounds hole child) child size
  else if 2 * hole + 2 = size then
    .ok (items.swapIfInBounds hole (2 * hole + 1), 2 * hole + 1)
  else
    .ok (items, hole)
termination_by size - hole
decreasing_by split <;> omega

/-- Moves the item at `position` up, as long as its parent comes before it, but not above
`top`. -/
def ascend (items : Array α) (top position : Nat) : Except ε (Array α) :=
  if top < position then do
    if ← beforeAt before items ((position - 1) / 2) position then
      ascend (items.swapIfInBounds position ((position - 1) / 2)) top ((position - 1) / 2)
    else
      return items
  else
    .ok items
termination_by position
decreasing_by omega

/-- Makes a heap of the positions under `top`, given that those under its children are heaps:
the item at `top` goes down to a leaf and from there up to its place. -/
def sift (items : Array α) (top size : Nat) : Except ε (Array α) := do
  let (lowered, leaf) ← descend before items top size
  ascend before lowered top leaf

/-- Makes a heap of the first `size` positions, working from position `tops - 1` up to the
first. -/
def heapify (size : Nat) : Nat → Array α → Except ε (Array α)
  | 0, items => .ok items
  | tops + 1, items => do heapify size tops (← sift before items tops size)

/-- Lets the item at a later position take the place of the heap's first, if it comes before
it. -/
def offer (size : Nat) (items : Array α) (position : Nat) : Except ε (Array α) := do
  if ← beforeAt before items position 0 then
    sift before (items.swapIfInBounds 0 position) 0 size
  else
    return items

/-- Puts a heap in order: its first item goes to the last position, and the rest is a smaller
heap. -/
def unheap : Nat → Array α → Except ε (Array α)
  | 0, items => .ok items
  | 1, items => .ok items
  | last + 2, items => do
      unheap (last + 1) (← sift before (items.swapIfInBounds 0 (last + 1)) 0 (last + 1))

/-- The items with the `count` least of them in order at the front. -/
def selectLeast (count : Nat) (items : Array α) : Except ε (Array α) := do
  let heap ← heapify before count (count / 2) items
  let chosen ← (List.range' count (items.size - count)).foldlM (offer before count) heap
  unheap before count chosen

end QueryResult.HeapSelection
