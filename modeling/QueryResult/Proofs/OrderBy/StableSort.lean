import QueryResult.OrderBy.Sorting
import QueryResult.Proofs.HeapSelection
import QueryResult.Proofs.OrderBy.Arrangement

/-!
# Sorting is stable

A stable sort of rows is their arrangement in which every row comes before every
later one: it is less, or it compares equal and came first. There is at most one.
The full sort yields it, and the sort up to the end of a window yields its
leading rows, so that both deliver the same window.
-/

set_option autoImplicit false

namespace QueryResult.OrderBy

/-- Every two of the rows can be compared. -/
def Comparable (order : OrderBy) (rows : List Row) : Prop :=
  ∀ left ∈ rows, ∀ right ∈ rows, ∃ outcome, order.compare left right = .ok outcome

/-- A row with its position comes before another: it is less, or equal and at an earlier
position. -/
def Precedes (order : OrderBy) (left right : Row × Nat) : Prop :=
  order.compare left.1 right.1 = .ok .lt ∨
    order.compare left.1 right.1 = .ok .eq ∧ left.2 < right.2

/-- The rows in order, those that compare equal in the order in which they were given. -/
def StableSort (order : OrderBy) (rows sorted : List Row) : Prop :=
  ∃ tagged : List (Row × Nat), tagged.Perm rows.zipIdx ∧ tagged.Pairwise order.Precedes ∧
    tagged.map Prod.fst = sorted

theorem Comparable.compare_eq {order : OrderBy} {rows : List Row} (comparable : order.Comparable rows)
    {left right : Row} (leftHeld : left ∈ rows) (rightHeld : right ∈ rows) :
    order.compare left right = .ok (order.arrange left right) := by
  obtain ⟨outcome, compared⟩ := comparable left leftHeld right rightHeld
  rw [compared, arrange_of_compare compared]

/-- A row with all columns of the order can be compared with itself, so that only different rows
matter. -/
theorem comparable_of_pairwise {order : OrderBy} {rows : List Row}
    (columns : ∀ row ∈ rows, ∀ key ∈ order.keys, key.column < row.length)
    (pairwise : rows.Pairwise fun left right => ∃ outcome, order.compare left right = .ok outcome) :
    order.Comparable rows := by
  intro left leftHeld right rightHeld
  refine List.Pairwise.forall_of_forall_of_flip
    (R := fun left right => ∃ outcome, order.compare left right = .ok outcome)
    (fun row held => compare_self (columns row held)) pairwise ?_ leftHeld rightHeld
  exact pairwise.imp fun ⟨_, compared⟩ => compare_swap compared

/-!
## One stable sort
-/

theorem Precedes.asymm {order : OrderBy} {left right : Row × Nat}
    (before : order.Precedes left right) : ¬ order.Precedes right left := by
  intro after
  have swapped : order.arrange left.1 right.1 = (order.arrange right.1 left.1).swap :=
    Std.OrientedCmp.eq_swap
  rcases before with less | ⟨equal, earlier⟩
  · rw [arrange_of_compare less] at swapped
    rcases after with greater | ⟨same, _⟩
    · rw [arrange_of_compare greater] at swapped
      cases swapped
    · rw [arrange_of_compare same] at swapped
      cases swapped
  · rw [arrange_of_compare equal] at swapped
    rcases after with greater | ⟨_, later⟩
    · rw [arrange_of_compare greater] at swapped
      cases swapped
    · omega

theorem eq_of_perm_of_precedes {order : OrderBy} {left right : List (Row × Nat)}
    (rearranged : left.Perm right) (leftSorted : left.Pairwise order.Precedes)
    (rightSorted : right.Pairwise order.Precedes) : left = right :=
  List.Perm.eq_of_pairwise (fun _ _ _ _ before after => absurd after before.asymm) leftSorted
    rightSorted rearranged

theorem StableSort.unique {order : OrderBy} {rows sorted other : List Row}
    (stable : order.StableSort rows sorted) (otherStable : order.StableSort rows other) :
    sorted = other := by
  obtain ⟨tagged, rearranged, ascending, rfl⟩ := stable
  obtain ⟨otherTagged, otherRearranged, otherAscending, rfl⟩ := otherStable
  rw [eq_of_perm_of_precedes (rearranged.trans otherRearranged.symm) ascending otherAscending]

theorem perm_map_fst {rows : List Row} {tagged : List (Row × Nat)}
    (rearranged : tagged.Perm rows.zipIdx) : (tagged.map Prod.fst).Perm rows := by
  have plain := rearranged.map Prod.fst
  rwa [List.zipIdx_map_fst] at plain

theorem StableSort.perm {order : OrderBy} {rows sorted : List Row}
    (stable : order.StableSort rows sorted) : sorted.Perm rows := by
  obtain ⟨tagged, rearranged, _, rfl⟩ := stable
  exact perm_map_fst rearranged

/-!
## Rows with their positions
-/

/-- The order of rows with their positions: the arrangement of the rows, then the positions. -/
def positional (order : OrderBy) : Row × Nat → Row × Nat → Ordering :=
  compareLex (fun left right => order.arrange left.1 right.1)
    (compareOn fun tagged : Row × Nat => tagged.2)

instance transCmp_positional (order : OrderBy) : Std.TransCmp order.positional := by
  have rows : Std.TransCmp fun left right : Row × Nat => order.arrange left.1 right.1 :=
    transCmp_on order.arrange Prod.fst
  exact inferInstanceAs (Std.TransCmp (compareLex
    (fun left right => order.arrange left.1 right.1) (compareOn fun tagged : Row × Nat => tagged.2)))

theorem positional_eq_lt_iff {order : OrderBy} {left right : Row × Nat} :
    order.positional left right = .lt ↔
      order.arrange left.1 right.1 = .lt ∨
        order.arrange left.1 right.1 = .eq ∧ left.2 < right.2 := by
  simp [positional, compareLex, compareOn, Ordering.then_eq_lt, Nat.compare_eq_lt]

theorem position_eq_of_positional {order : OrderBy} {left right : Row × Nat}
    (same : order.positional left right = .eq) : left.2 = right.2 := by
  simp only [positional, compareLex, compareOn, Ordering.then_eq_eq] at same
  exact Nat.compare_eq_eq.mp same.2

theorem Comparable.precedes_iff {order : OrderBy} {rows : List Row}
    (comparable : order.Comparable rows) {left right : Row × Nat} (leftHeld : left.1 ∈ rows)
    (rightHeld : right.1 ∈ rows) :
    order.Precedes left right ↔ order.positional left right = .lt := by
  simp only [Precedes, comparable.compare_eq leftHeld rightHeld, Except.ok.injEq,
    positional_eq_lt_iff]

theorem comesBefore_of_compare {order : OrderBy} {left right : Row × Nat} {outcome : Ordering}
    (compared : order.compare left.1 right.1 = .ok outcome) :
    order.comesBefore left right = .ok (order.positional left right).isLT := by
  simp only [comesBefore, compared, bind, Except.bind, positional, compareLex, compareOn,
    arrange_of_compare compared]
  cases outcome with
  | lt => rfl
  | gt => rfl
  | eq =>
      simp only [Ordering.then, pure, Except.pure]
      by_cases earlier : left.2 < right.2
      · simp [earlier, Nat.compare_eq_lt.mpr earlier]
      · have notLess : compare left.2 right.2 ≠ .lt := fun less =>
          earlier (Nat.compare_eq_lt.mp less)
        cases compared : compare left.2 right.2 with
        | lt => exact absurd compared notLess
        | eq => simp [earlier]
        | gt => simp [earlier]

theorem Comparable.comesBefore_eq {order : OrderBy} {rows : List Row}
    (comparable : order.Comparable rows) {left right : Row × Nat} (leftHeld : left.1 ∈ rows)
    (rightHeld : right.1 ∈ rows) :
    order.comesBefore left right = .ok (order.positional left right).isLT :=
  comesBefore_of_compare (comparable.compare_eq leftHeld rightHeld)

theorem fst_mem_of_mem_zipIdx {rows : List Row} {tagged : Row × Nat} (held : tagged ∈ rows.zipIdx) :
    tagged.1 ∈ rows := by
  have mapped := List.mem_map_of_mem (f := Prod.fst) held
  rwa [List.zipIdx_map_fst] at mapped

theorem nodup_positions (rows : List Row) : (rows.zipIdx.map Prod.snd).Nodup := by
  rw [List.zipIdx_map_snd]
  exact List.nodup_range'

/-- With positions that differ, what does not come after comes before. -/
theorem Comparable.pairwise_precedes {order : OrderBy} {rows : List Row}
    (comparable : order.Comparable rows) {tagged : List (Row × Nat)}
    (rearranged : tagged.Perm rows.zipIdx)
    (ascending : tagged.Pairwise fun left right => (order.positional left right).isLE = true) :
    tagged.Pairwise order.Precedes := by
  have held : ∀ item ∈ tagged, item.1 ∈ rows := fun item listed =>
    fst_mem_of_mem_zipIdx (rearranged.mem_iff.mp listed)
  have different : tagged.Pairwise fun left right => left.2 ≠ right.2 :=
    List.pairwise_map.mp ((rearranged.map Prod.snd).nodup_iff.mpr (nodup_positions rows))
  refine (ascending.and different).imp_of_mem ?_
  intro left right leftListed rightListed both
  rw [comparable.precedes_iff (held left leftListed) (held right rightListed)]
  cases compared : order.positional left right with
  | lt => rfl
  | eq => exact absurd (position_eq_of_positional compared) both.2
  | gt => simp [compared] at both

theorem zipIdxLE_notAfter (order : OrderBy) :
    List.zipIdxLE order.notAfter = fun left right => (order.positional left right).isLE := by
  funext left right
  have swapped : order.arrange right.1 left.1 = (order.arrange left.1 right.1).swap :=
    Std.OrientedCmp.eq_swap
  simp only [List.zipIdxLE, notAfter, positional, compareLex, compareOn, swapped]
  cases order.arrange left.1 right.1 with
  | lt => rfl
  | gt => rfl
  | eq =>
      change decide (left.2 ≤ right.2) = (compare left.2 right.2).isLE
      rw [Bool.eq_iff_iff, decide_eq_true_eq]
      exact Nat.isLE_compare.symm

theorem pairwise_mergeSort_positional (order : OrderBy) (tagged : List (Row × Nat)) :
    (tagged.mergeSort fun left right => (order.positional left right).isLE).Pairwise
      fun left right => (order.positional left right).isLE = true := by
  refine List.pairwise_mergeSort ?_ ?_ tagged
  · intro first second third
    exact Std.TransCmp.isLE_trans
  · intro left right
    have swapped : order.positional right left = (order.positional left right).swap :=
      Std.OrientedCmp.eq_swap
    rw [swapped]
    cases order.positional left right <;> rfl

theorem Comparable.stableSort_mergeSort {order : OrderBy} {rows : List Row}
    (comparable : order.Comparable rows) :
    order.StableSort rows (rows.mergeSort order.notAfter) := by
  refine ⟨rows.zipIdx.mergeSort (List.zipIdxLE order.notAfter), List.mergeSort_perm _ _, ?_,
    List.mergeSort_zipIdx⟩
  rw [zipIdxLE_notAfter]
  exact comparable.pairwise_precedes (List.mergeSort_perm _ _) (order.pairwise_mergeSort_positional _)

/-!
## The sorts
-/

theorem Comparable.checkNeighbours_eq {order : OrderBy} {rows : List Row}
    (comparable : order.Comparable rows) : order.checkNeighbours rows = .ok () := by
  induction rows with
  | nil => rfl
  | cons row rest ih =>
      cases rest with
      | nil => rfl
      | cons next rest =>
          obtain ⟨outcome, compared⟩ := comparable row (by simp) next (by simp)
          simp only [checkNeighbours, compared]
          exact ih fun left leftHeld right rightHeld =>
            comparable left (.tail _ leftHeld) right (.tail _ rightHeld)

theorem Comparable.of_perm {order : OrderBy} {rows other : List Row}
    (comparable : order.Comparable rows) (rearranged : other.Perm rows) : order.Comparable other :=
  fun left leftHeld right rightHeld =>
    comparable left (rearranged.mem_iff.mp leftHeld) right (rearranged.mem_iff.mp rightHeld)

theorem Comparable.sorted_stable {order : OrderBy} {rows : List Row}
    (comparable : order.Comparable rows) :
    ∃ sorted, order.sorted rows = .ok sorted ∧ order.StableSort rows sorted := by
  refine ⟨rows.mergeSort order.notAfter, ?_, comparable.stableSort_mergeSort⟩
  simp only [OrderBy.sorted,
    (comparable.of_perm (List.mergeSort_perm rows order.notAfter)).checkNeighbours_eq]

theorem isGE_of_not_isLT {outcome : Ordering} (notLess : outcome.isLT = false) :
    outcome.isGE = true := by
  cases outcome <;> first | rfl | cases notLess

theorem isLE_of_not_isLT {order : OrderBy} {left right : Row × Nat}
    (notLess : (order.positional right left).isLT = false) :
    (order.positional left right).isLE = true :=
  Std.OrientedCmp.isLE_of_isGE (isGE_of_not_isLT notLess)

theorem positional_strictWeakOrder (order : OrderBy) :
    HeapSelection.StrictWeakOrder fun left right => (order.positional left right).isLT where
  asymm := by
    intro left right less
    have swapped : order.positional right left = (order.positional left right).swap :=
      Std.OrientedCmp.eq_swap
    rw [swapped]
    cases compared : order.positional left right <;> simp [compared] at less ⊢
  trans := by
    intro first second third notLess alsoNotLess
    have greater : (order.positional third first).isGE = true :=
      Std.TransCmp.isGE_trans (isGE_of_not_isLT alsoNotLess) (isGE_of_not_isLT notLess)
    cases compared : order.positional third first <;> simp [compared] at greater ⊢

theorem Comparable.decides {order : OrderBy} {rows : List Row} (comparable : order.Comparable rows) :
    HeapSelection.Decides order.comesBefore (fun left right => (order.positional left right).isLT)
      rows.zipIdx.toArray := by
  intro left leftHeld right rightHeld
  exact comparable.comesBefore_eq (fst_mem_of_mem_zipIdx (by simpa using leftHeld))
    (fst_mem_of_mem_zipIdx (by simpa using rightHeld))

/-- A rearrangement whose first items are in order and not after any of the others begins like
the stable sort. -/
theorem Comparable.take_eq_of_least {order : OrderBy} {rows sorted : List Row}
    (comparable : order.Comparable rows) (stable : order.StableSort rows sorted)
    {selected : List (Row × Nat)} {count : Nat} (rearranged : selected.Perm rows.zipIdx)
    (least : (selected.take count).Pairwise
      fun left right => (order.positional left right).isLE = true)
    (rest : ∀ early ∈ selected.take count, ∀ late ∈ selected.drop count,
      (order.positional early late).isLE = true) :
    (selected.map Prod.fst).take count = sorted.take count := by
  obtain ⟨tagged, taggedPerm, ascending, rfl⟩ := stable
  have restPerm := List.mergeSort_perm (selected.drop count)
    (fun left right => (order.positional left right).isLE)
  have wholePerm : (selected.take count ++ (selected.drop count).mergeSort
      (fun left right => (order.positional left right).isLE)).Perm rows.zipIdx := by
    refine ((restPerm.append_left _).trans ?_).trans rearranged
    rw [List.take_append_drop]
  have wholeAscending : (selected.take count ++ (selected.drop count).mergeSort
      (fun left right => (order.positional left right).isLE)).Pairwise order.Precedes := by
    refine comparable.pairwise_precedes wholePerm (List.pairwise_append.mpr ⟨least, ?_, ?_⟩)
    · exact order.pairwise_mergeSort_positional _
    · intro early earlyHeld late lateHeld
      exact rest early earlyHeld late (restPerm.mem_iff.mp lateHeld)
  have same := eq_of_perm_of_precedes (wholePerm.trans taggedPerm.symm) wholeAscending ascending
  rw [← List.map_take, ← List.map_take, ← same, List.take_append, List.take_take, Nat.min_self]
  have nothing : List.take (count - (selected.take count).length) ((selected.drop count).mergeSort
      fun left right => (order.positional left right).isLE) = [] := by
    rw [List.take_eq_nil_iff, List.length_take]
    by_cases long : count ≤ selected.length
    · exact .inl (by omega)
    · rw [List.drop_eq_nil_of_le (by omega), List.mergeSort_nil]
      exact .inr rfl
  rw [nothing, List.append_nil]

theorem Comparable.leastFirst_stable {order : OrderBy} {rows sorted : List Row}
    (comparable : order.Comparable rows) (stable : order.StableSort rows sorted) {count : Nat}
    (positive : 0 < count) (fits : count ≤ rows.length) :
    ∃ ordered, order.leastFirst count rows = .ok ordered ∧ ordered.Perm rows ∧
      ordered.take count = sorted.take count := by
  obtain ⟨selected, accepted, rearranged, ascending⟩ :=
    HeapSelection.selectLeast_spec order.positional_strictWeakOrder comparable.decides positive
      (by simpa using fits)
  have listPerm : selected.toList.Perm rows.zipIdx :=
    Array.perm_iff_toList_perm.mp rearranged
  have sizes : selected.size = rows.length := by simpa using rearranged.size_eq
  have inOrder : ∀ (earlier later : Nat) (before : earlier < later) (held : later < selected.size),
      earlier < count → (order.positional selected[earlier] selected[later]).isLE = true := by
    intro earlier later before held least
    exact isLE_of_not_isLT (ascending earlier later before least (by simpa [sizes] using held)
      _ _ (Array.getElem?_eq_getElem held) (Array.getElem?_eq_getElem (by omega)))
  refine ⟨selected.toList.map Prod.fst, ?_, ?_, ?_⟩
  · simp only [leastFirst, accepted, bind, Except.bind]
    rfl
  · exact perm_map_fst listPerm
  · refine comparable.take_eq_of_least stable listPerm ?_ ?_
    · rw [List.pairwise_iff_getElem]
      intro earlier later earlierHeld laterHeld before
      simp only [List.length_take, Array.length_toList] at earlierHeld laterHeld
      simpa using inOrder earlier later before (by omega) (by omega)
    · intro early earlyHeld late lateHeld
      obtain ⟨earlier, earlierHeld, rfl⟩ := List.mem_iff_getElem.mp earlyHeld
      obtain ⟨later, laterHeld, rfl⟩ := List.mem_iff_getElem.mp lateHeld
      simp only [List.length_take, List.length_drop, Array.length_toList] at earlierHeld laterHeld
      simpa using inOrder earlier (count + later) (by omega) (by omega) (by omega)

/-- Whatever number of rows is put in order, they are the leading rows of the stable sort. -/
theorem Comparable.sortLeading_stable {order : OrderBy} {settings : Settings} {rows : List Row}
    {threshold : Int64} (comparable : order.Comparable rows)
    (readable : settings.integer .parallelSortMinRows = .ok threshold) {count : Nat}
    (fits : count ≤ rows.length) :
    ∃ sorted ordered events, order.StableSort rows sorted ∧
      order.sortLeading settings count rows = .ok (ordered, events) ∧ ordered.Perm rows ∧
      ordered.take count = sorted.take count := by
  obtain ⟨sorted, sortedAccepted, stable⟩ := comparable.sorted_stable
  by_cases trivial : rows.length < 2 ∨ count = 0
  · refine ⟨sorted, rows, [], stable, by simp only [sortLeading, trivial, if_true], .refl rows, ?_⟩
    rcases trivial with short | none
    · have rearranged := stable.perm
      match rows, short with
      | [], _ => rw [rearranged.eq_nil]
      | [row], _ => rw [List.perm_singleton.mp rearranged]
    · rw [none, List.take_zero, List.take_zero]
  · simp only [not_or, Nat.not_lt] at trivial
    have notTrivial : ¬ (rows.length < 2 ∨ count = 0) := by omega
    by_cases partly : count < rows.length
    · obtain ⟨ordered, accepted, rearranged, leading⟩ :=
        comparable.leastFirst_stable stable (by omega) fits
      refine ⟨sorted, ordered, [.rowsSorted count rows.length], stable, ?_, rearranged, leading⟩
      simp only [sortLeading, notTrivial, readable, partly, if_true, if_false, accepted, bind,
        Except.bind]
      rfl
    · refine ⟨sorted, sorted, [.rowsSorted count rows.length], stable, ?_, stable.perm, rfl⟩
      simp only [sortLeading, notTrivial, readable, partly, if_false, sortedAccepted, bind,
        Except.bind]
      rfl

/-- A sort that succeeds has all rows, also when some of them cannot be compared. -/
theorem perm_of_sortLeading {order : OrderBy} {settings : Settings} {count : Nat}
    {rows ordered : List Row} {events : List Event}
    (accepted : order.sortLeading settings count rows = .ok (ordered, events)) :
    ordered.Perm rows := by
  unfold sortLeading at accepted
  split at accepted
  · cases accepted
    exact .refl _
  · cases readable : settings.integer .parallelSortMinRows with
    | error fault => simp [readable] at accepted
    | ok threshold =>
        simp only [readable] at accepted
        split at accepted
        · obtain ⟨leading, selection, rest⟩ := HeapSelection.bind_eq_ok accepted
          cases rest
          obtain ⟨selected, selecting, rest⟩ := HeapSelection.bind_eq_ok selection
          cases rest
          exact perm_map_fst
            (Array.perm_iff_toList_perm.mp (HeapSelection.selectLeast_perm selecting))
        · obtain ⟨sorted, sorting, rest⟩ := HeapSelection.bind_eq_ok accepted
          cases rest
          unfold OrderBy.sorted at sorting
          dsimp only at sorting
          split at sorting
          · cases sorting
            exact List.mergeSort_perm _ _
          · cases sorting

end QueryResult.OrderBy
