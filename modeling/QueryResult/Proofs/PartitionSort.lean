import QueryResult.PartitionSort
import QueryResult.Proofs.HeapSelection

/-!
# Sorting by partitions sorts

Nothing is assumed of the comparisons. Whatever the partitions leave, they leave
the same items; the insertions that follow compare every item with the one that
comes to stand ahead of it. A sort that succeeds has therefore compared all
neighbours of its result, and found each pair of them in order.
-/

set_option autoImplicit false

namespace QueryResult.PartitionSort

open HeapSelection

variable {α ε : Type} {before : α → α → Except ε Bool}

/-! ## The partitions leave the same items -/

theorem partition_perm {items parted : Array α} {pivot low high middle : Nat}
    (accepted : partition before pivot items low high = .ok (parted, middle)) :
    parted.Perm items := by
  fun_induction partition before pivot items low high with
  | case1 items low high _ further exchanged =>
      obtain ⟨earlier, _, rest⟩ := bind_eq_ok accepted
      split at rest
      · exact further rest
      · obtain ⟨last, _, rest⟩ := bind_eq_ok rest
        split at rest
        · exact (exchanged last rest).trans (swapIfInBounds_perm _ _ _)
        · cases rest
          exact .refl _
  | case2 =>
      cases accepted
      exact .refl _

theorem split_perm {items parted : Array α} {first stop middle : Nat}
    (accepted : split before items first stop = .ok (parted, middle)) : parted.Perm items := by
  obtain ⟨pivot, _, rest⟩ := bind_eq_ok accepted
  exact (partition_perm rest).trans (swapIfInBounds_perm _ _ _)

theorem heapSortRange_perm {items ordered : Array α} {first stop : Nat} (inOrder : first ≤ stop)
    (accepted : heapSortRange before items first stop = .ok ordered) : ordered.Perm items := by
  obtain ⟨range, selected, rest⟩ := bind_eq_ok accepted
  cases rest
  have parts : items.extract 0 first ++ items.extract first stop ++ items.extract stop = items := by
    rw [Array.extract_append_extract, Nat.max_eq_right inOrder, Array.extract_append_extract,
      Nat.zero_min, Nat.zero_min]
    exact Array.extract_eq_self_of_le (Nat.le_max_right stop items.size)
  have rearranged := ((Array.Perm.refl (items.extract 0 first)).append
    (selectLeast_perm selected)).append (.refl (items.extract stop))
  rwa [parts] at rearranged

theorem divide_perm (depth : Nat) {items divided : Array α} {first stop : Nat}
    (accepted : divide before depth items first stop = .ok divided) : divided.Perm items := by
  induction depth generalizing items divided first stop with
  | zero =>
      unfold divide at accepted
      split at accepted
      · cases accepted
        exact .refl _
      · exact heapSortRange_perm (by omega) accepted
  | succ depth ih =>
      unfold divide at accepted
      split at accepted
      · cases accepted
        exact .refl _
      · obtain ⟨parted, parting, rest⟩ := bind_eq_ok accepted
        obtain ⟨later, laterDivided, rest⟩ := bind_eq_ok rest
        exact (ih rest).trans ((ih laterDivided).trans (split_perm parting))

/-! ## Neighbours in order -/

/-- Comparing the two items has shown that the first may stand ahead of the second. -/
def InOrder (before : α → α → Except ε Bool) (first second : α) : Prop :=
  before second first = .ok false ∨ before first second = .ok true

/-- The items at two positions are in order. -/
def InOrderAt (before : α → α → Except ε Bool) (items : Array α) (left right : Nat) : Prop :=
  ∀ leftItem rightItem, items[left]? = some leftItem → items[right]? = some rightItem →
    InOrder before leftItem rightItem

/-- Neighbours among the first `count` items are in order. -/
def OrderedUpTo (before : α → α → Except ε Bool) (items : Array α) (count : Nat) : Prop :=
  ∀ position, position + 1 < count → InOrderAt before items position (position + 1)

/-- Neighbours among the first `count` items are in order, but for the one at `hole`, which has
come forward from behind them and may have to go further. -/
structure Passing (before : α → α → Except ε Bool) (items : Array α) (hole count : Nat) :
    Prop where
  apart : ∀ position, position + 1 < count → position ≠ hole → position + 1 ≠ hole →
    InOrderAt before items position (position + 1)
  behind : hole + 1 < count → InOrderAt before items hole (hole + 1)
  across : ∀ ahead, ahead + 1 = hole → hole + 1 < count → InOrderAt before items ahead (hole + 1)

theorem InOrderAt.of_same {items other : Array α} {left right left' right' : Nat}
    (leftSame : other[left']? = items[left]?) (rightSame : other[right']? = items[right]?)
    (kept : InOrderAt before items left right) : InOrderAt before other left' right' := by
  intro leftItem rightItem leftFound rightFound
  exact kept _ _ (leftSame ▸ leftFound) (rightSame ▸ rightFound)

theorem inOrderAt_of_before {items : Array α} {left right : Nat}
    (answered : beforeAt before items left right = .ok true) :
    InOrderAt before items left right := by
  intro leftItem rightItem leftFound rightFound
  simp only [beforeAt, leftFound, rightFound] at answered
  exact .inr answered

theorem inOrderAt_of_not_before {items : Array α} {left right : Nat}
    (answered : beforeAt before items left right = .ok false) :
    InOrderAt before items right left := by
  intro rightItem leftItem rightFound leftFound
  simp only [beforeAt, leftFound, rightFound] at answered
  exact .inl answered

/-! ## Insertions -/

theorem OrderedUpTo.passing {items : Array α} {position : Nat}
    (ordered : OrderedUpTo before items position) :
    Passing before items position (position + 1) where
  apart := fun other small notHole notNext => ordered other (by omega)
  behind := fun beyond => absurd beyond (Nat.lt_irrefl _)
  across := fun _ _ beyond => absurd beyond (Nat.lt_irrefl _)

theorem Passing.ordered {items : Array α} {hole count : Nat}
    (passing : Passing before items hole count)
    (ahead : ∀ position, position + 1 = hole → InOrderAt before items position hole) :
    OrderedUpTo before items count := by
  intro position small
  by_cases atHole : position = hole
  · subst atHole
    exact passing.behind small
  · by_cases next : position + 1 = hole
    · rw [next]
      exact ahead position next
    · exact passing.apart position small atHole next

/-- The item at the hole goes past the one ahead of it, which it comes before. -/
theorem Passing.forward {items : Array α} {hole count : Nat}
    (passing : Passing before items (hole + 1) count) (held : hole + 1 < items.size)
    (passes : InOrderAt before items (hole + 1) hole) :
    Passing before (items.swapIfInBounds (hole + 1) hole) hole count := by
  have moved := getElem?_swap held (Nat.lt_of_succ_lt held)
  have toHole : (items.swapIfInBounds (hole + 1) hole)[hole]? = items[hole + 1]? := by
    rw [moved, exchange_right]
  have fromHole : (items.swapIfInBounds (hole + 1) hole)[hole + 1]? = items[hole]? := by
    rw [moved, exchange_left]
  have elsewhere : ∀ position, position ≠ hole → position ≠ hole + 1 →
      (items.swapIfInBounds (hole + 1) hole)[position]? = items[position]? := by
    intro position notHole notNext
    rw [moved, exchange_of_ne notNext notHole]
  constructor
  case apart =>
    intro position small notHole notNext
    by_cases next : position = hole + 1
    · subst next
      exact (passing.across hole rfl small).of_same fromHole (elsewhere _ (by omega) (by omega))
    · exact (passing.apart position small next (by omega)).of_same
        (elsewhere _ notHole next) (elsewhere _ (by omega) (by omega))
  case behind => exact fun _ => passes.of_same toHole fromHole
  case across =>
    intro ahead next _
    exact (passing.apart ahead (by omega) (by omega) (by omega)).of_same
      (elsewhere _ (by omega) (by omega)) (next ▸ fromHole)

theorem moveForward_ordered {items placed : Array α} {hole count : Nat}
    (passing : Passing before items hole count) (held : hole < items.size)
    (accepted : moveForward before hole items = .ok placed) :
    placed.Perm items ∧ OrderedUpTo before placed count := by
  induction hole generalizing items with
  | zero =>
      cases accepted
      exact ⟨.refl _, passing.ordered fun position next => absurd next (Nat.succ_ne_zero _)⟩
  | succ hole ih =>
      obtain ⟨earlier, answered, rest⟩ := bind_eq_ok accepted
      cases earlier with
      | true =>
          obtain ⟨rearranged, ordered⟩ := ih
            (passing.forward held (inOrderAt_of_before answered))
            (by rw [Array.size_swapIfInBounds]; omega) rest
          exact ⟨rearranged.trans (swapIfInBounds_perm _ _ _), ordered⟩
      | false =>
          cases rest
          refine ⟨.refl _, passing.ordered fun position next => ?_⟩
          cases next
          exact inOrderAt_of_not_before answered

theorem moveToFront_perm (position : Nat) (items : Array α) :
    (moveToFront position items).Perm items := by
  induction position generalizing items with
  | zero => exact .refl _
  | succ position ih => exact (ih _).trans (swapIfInBounds_perm _ _ _)

/-- The item is at the front, and those that were ahead of it stand one place further back. -/
theorem getElem?_moveToFront {position : Nat} {items : Array α} (held : position < items.size) :
    (moveToFront position items)[0]? = items[position]? ∧
      (∀ other, other < position → (moveToFront position items)[other + 1]? = items[other]?) ∧
      ∀ other, position < other → (moveToFront position items)[other]? = items[other]? := by
  induction position generalizing items with
  | zero => exact ⟨rfl, fun other small => absurd small (Nat.not_lt_zero _), fun _ _ => rfl⟩
  | succ position ih =>
      have moved := getElem?_swap held (Nat.lt_of_succ_lt held)
      have stillHeld : position < (items.swapIfInBounds (position + 1) position).size := by
        rw [Array.size_swapIfInBounds]
        omega
      obtain ⟨front, ahead, beyond⟩ := ih stillHeld
      refine ⟨?_, fun other small => ?_, fun other large => ?_⟩
      · rw [moveToFront, front, moved, exchange_right]
      · rw [moveToFront]
        by_cases last : other = position
        · subst last
          rw [beyond _ (Nat.lt_succ_self _), moved, exchange_left]
        · rw [ahead other (by omega), moved, exchange_of_ne (by omega) last]
      · rw [moveToFront, beyond other (by omega), moved, exchange_of_ne (by omega) (by omega)]

theorem place_ordered {items placed : Array α} {position : Nat}
    (ordered : OrderedUpTo before items position) (held : position < items.size)
    (accepted : place before items position = .ok placed) :
    placed.Perm items ∧ OrderedUpTo before placed (position + 1) := by
  obtain ⟨first, answered, rest⟩ := bind_eq_ok accepted
  cases first with
  | false => exact moveForward_ordered ordered.passing held rest
  | true =>
      cases rest
      obtain ⟨front, ahead, _⟩ := getElem?_moveToFront held
      refine ⟨moveToFront_perm position items, fun other small => ?_⟩
      cases other with
      | zero => exact (inOrderAt_of_before answered).of_same front (ahead 0 (by omega))
      | succ other =>
          exact (ordered other (by omega)).of_same (ahead other (by omega))
            (ahead (other + 1) (by omega))

/-- Inserting the items from `start` on, one after another, puts them all in order. -/
theorem insertions_ordered {step : Array α → Nat → Except ε (Array α)}
    (inserts : ∀ {items placed position}, OrderedUpTo before items position →
      position < items.size → step items position = .ok placed →
      placed.Perm items ∧ OrderedUpTo before placed (position + 1))
    {items sorted : Array α} {start count : Nat} (ordered : OrderedUpTo before items start)
    (fits : start + count ≤ items.size)
    (accepted : (List.range' start count).foldlM step items = .ok sorted) :
    sorted.Perm items ∧ OrderedUpTo before sorted (start + count) := by
  induction count generalizing items start with
  | zero =>
      cases accepted
      exact ⟨.refl _, ordered⟩
  | succ count ih =>
      rw [List.range'_succ, List.foldlM_cons] at accepted
      obtain ⟨placed, placing, rest⟩ := bind_eq_ok accepted
      obtain ⟨rearranged, further⟩ := inserts ordered (by omega) placing
      have sizes := rearranged.size_eq
      obtain ⟨others, whole⟩ := ih further (by omega) rest
      refine ⟨others.trans rearranged, ?_⟩
      rwa [Nat.add_assoc, Nat.add_comm 1] at whole

/-- A sort that succeeds has the items of the input, and has found all neighbours in order. -/
theorem sort_ordered {items sorted : Array α} (accepted : sort before items = .ok sorted) :
    sorted.Perm items ∧ OrderedUpTo before sorted sorted.size := by
  obtain ⟨divided, dividing, rest⟩ := bind_eq_ok accepted
  obtain ⟨started, starting, finishing⟩ := bind_eq_ok rest
  have dividedPerm := divide_perm _ dividing
  have dividedSize := dividedPerm.size_eq
  cases Nat.eq_zero_or_pos items.size with
  | inl empty =>
      simp only [empty, Nat.zero_sub, Nat.min_zero, List.range'_zero, List.foldlM_nil]
        at starting finishing
      cases starting
      cases finishing
      exact ⟨dividedPerm, fun position small => by omega⟩
  | inr positive =>
      have alone : OrderedUpTo before divided 1 := fun position small => by omega
      obtain ⟨startedPerm, leading⟩ := insertions_ordered place_ordered alone
        (by omega) starting
      have startedSize := startedPerm.size_eq
      have leading : OrderedUpTo before started (min shortLength items.size) :=
        fun position small => leading position (by omega)
      by_cases short : items.size ≤ shortLength
      · have none : items.size - shortLength = 0 := by omega
        rw [none] at finishing
        cases finishing
        exact ⟨startedPerm.trans dividedPerm, fun position small => leading position (by omega)⟩
      · have leading : OrderedUpTo before started shortLength :=
          fun position small => leading position (by omega)
        obtain ⟨sortedPerm, ordered⟩ := insertions_ordered
          (fun ordered held placing => moveForward_ordered ordered.passing held placing) leading
          (by omega) finishing
        have sortedSize := sortedPerm.size_eq
        exact ⟨sortedPerm.trans (startedPerm.trans dividedPerm),
          fun position small => ordered position (by omega)⟩

end QueryResult.PartitionSort
