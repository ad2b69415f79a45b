import QueryResult.Proofs.Buffer.Window
import QueryResult.Proofs.OrderBy.Mismatch

/-!
# Sorting rows in place

What is arranged are the positions of the rows, each with the row that stands
there. Only when no comparison is left to make are the rows taken out of their
places, one after the other. A sort that fails has therefore moved none of them,
and one that succeeds leaves what `sortLeading` answers.

From the setting `parallelSortMinRows` on, rows are arranged in parallel. All
that is asked of that procedure is that it sorts, or that it sorts by
comparisons.
-/

set_option autoImplicit false

namespace QueryResult.OrderBy

variable {order : OrderBy} {settings : Settings} {rows : List Row} {count : Nat}
  {parallel : Procedure (Row × Nat) Fault}

/-! ## Moving the rows -/

/-- Takes the rows at the given positions out of their places, one after the other. An empty row
stays behind. -/
def moveOut : List Nat → List Row → List Row
  | [], _ => []
  | position :: rest, rows => rows[position]?.getD [] :: moveOut rest (rows.set position [])

/-- Every row that is still to be moved stands at its position. -/
theorem moveOut_positions {tagged : List (Row × Nat)} (different : (tagged.map Prod.snd).Nodup)
    (standing : ∀ item ∈ tagged, rows[item.2]? = some item.1) :
    moveOut (tagged.map Prod.snd) rows = tagged.map Prod.fst := by
  induction tagged generalizing rows with
  | nil => rfl
  | cons item rest ih =>
      rw [List.map_cons, List.nodup_cons] at different
      have left : ∀ other ∈ rest, (rows.set item.2 [])[other.2]? = some other.1 := by
        intro other listed
        have elsewhere : item.2 ≠ other.2 := fun same =>
          different.1 (same ▸ List.mem_map_of_mem listed)
        rw [List.getElem?_set_ne elsewhere]
        exact standing other (.tail _ listed)
      rw [List.map_cons, List.map_cons, moveOut, standing item List.mem_cons_self,
        ih different.2 left]
      rfl

theorem moveOut_of_perm {tagged : List (Row × Nat)} (rearranged : tagged.Perm rows.zipIdx) :
    moveOut (tagged.map Prod.snd) rows = tagged.map Prod.fst :=
  moveOut_positions ((rearranged.map Prod.snd).nodup_iff.mpr (nodup_positions rows))
    fun _ listed => List.mem_zipIdx_iff_getElem?.mp (rearranged.mem_iff.mp listed)

/-! ## The whole sort -/

/-- How rows with their positions are arranged: only the least of them if no more are needed, else
by a procedure that depends on how many they are. -/
def arranging (parallel : Procedure (Row × Nat) Fault) (threshold : Int64) (count size : Nat) :
    Procedure (Row × Nat) Fault :=
  if count < size then fun before => HeapSelection.selectLeast before count
  else if threshold ≤ Int64.ofNat size then parallel
  else PartitionSort.sort

/-- The sort with the rows as its state. -/
def sortInPlace (order : OrderBy) (parallel : Procedure (Row × Nat) Fault) (settings : Settings)
    (count : Nat) (rows : List Row) : Outcome (List Row) Unit :=
  if rows.length < 2 ∨ count = 0 then .accept () rows []
  else
    match settings.integer .parallelSortMinRows with
    | .error fault => .refuse fault rows
    | .ok threshold =>
        match arranging parallel threshold count rows.length order.comesBefore
            rows.zipIdx.toArray with
        | .error fault => .refuse fault rows
        | .ok tagged =>
            .accept () (moveOut (tagged.toList.map Prod.snd) rows) [.rowsSorted count rows.length]

theorem sortInPlace_refused {fault : Fault}
    (refused : (order.sortInPlace parallel settings count rows).answer = .error fault) :
    order.sortInPlace parallel settings count rows = .refuse fault rows := by
  unfold sortInPlace at refused ⊢
  split
  · rename_i trivial
    rw [if_pos trivial] at refused
    cases refused
  · rename_i notTrivial
    rw [if_neg notTrivial] at refused
    cases readable : settings.integer .parallelSortMinRows with
    | error unreadable =>
        simp only [readable] at refused
        cases refused
        rfl
    | ok threshold =>
        simp only [readable] at refused
        dsimp only
        cases arranged : arranging parallel threshold count rows.length order.comesBefore
            rows.zipIdx.toArray with
        | error met =>
            simp only [arranged] at refused
            cases refused
            rfl
        | ok tagged =>
            simp only [arranged] at refused
            cases refused

theorem arranging_rearranges {threshold : Int64} {tagged : Array (Row × Nat)}
    (rearranges : ∀ tagged, parallel order.comesBefore rows.zipIdx.toArray = .ok tagged →
      tagged.Perm rows.zipIdx.toArray)
    (accepted : arranging parallel threshold count rows.length order.comesBefore
      rows.zipIdx.toArray = .ok tagged) : tagged.Perm rows.zipIdx.toArray := by
  unfold arranging at accepted
  split at accepted
  · exact HeapSelection.selectLeast_perm accepted
  · split at accepted
    · exact rearranges tagged accepted
    · exact (PartitionSort.sort_ordered accepted).1

/-- The rows are moved as they have been arranged. -/
theorem sortInPlace_eq (long : 2 ≤ rows.length) (positive : count ≠ 0) {threshold : Int64}
    (readable : settings.integer .parallelSortMinRows = .ok threshold)
    (rearranges : ∀ tagged, parallel order.comesBefore rows.zipIdx.toArray = .ok tagged →
      tagged.Perm rows.zipIdx.toArray) :
    order.sortInPlace parallel settings count rows =
      match order.sortedBy (arranging parallel threshold count rows.length) rows with
      | .error fault => .refuse fault rows
      | .ok ordered => .accept () ordered [.rowsSorted count rows.length] := by
  unfold sortInPlace sortedBy
  rw [if_neg (by omega), readable]
  dsimp only
  cases arranged : arranging parallel threshold count rows.length order.comesBefore
      rows.zipIdx.toArray with
  | error fault => rfl
  | ok tagged =>
      have listPerm : tagged.toList.Perm rows.zipIdx :=
        Array.perm_iff_toList_perm.mp (arranging_rearranges rearranges arranged)
      dsimp only
      rw [moveOut_of_perm listPerm]
      rfl

theorem sortLeading_eq (long : 2 ≤ rows.length) (positive : count ≠ 0) {threshold : Int64}
    (readable : settings.integer .parallelSortMinRows = .ok threshold) :
    order.sortLeading settings count rows =
      match (if count < rows.length then order.leastFirst count rows else order.sorted rows) with
      | .error fault => .error fault
      | .ok ordered => .ok (ordered, [.rowsSorted count rows.length]) := by
  unfold sortLeading
  rw [if_neg (by omega), readable]
  dsimp only
  split
  · cases order.leastFirst count rows <;> rfl
  · cases order.sorted rows <;> rfl

theorem sortedBy_arranging_of_lt (partly : count < rows.length) {threshold : Int64} :
    order.sortedBy (arranging parallel threshold count rows.length) rows =
      order.leastFirst count rows := by
  rw [arranging, if_pos partly]
  rfl

theorem arranging_sorts (sorts : parallel.Sorts) {threshold : Int64} {size : Nat}
    (whole : ¬ count < size) : (arranging parallel threshold count size).Sorts := by
  rw [arranging, if_neg whole]
  split
  · exact sorts
  · exact PartitionSort.comparing.sorts

theorem arranging_comparing (comparing : parallel.Comparing) {threshold : Int64} {size : Nat}
    (whole : ¬ count < size) : (arranging parallel threshold count size).Comparing := by
  rw [arranging, if_neg whole]
  split
  · exact comparing
  · exact PartitionSort.comparing

/-- Whether or not rows are sorted in parallel, they are left as `sortLeading` answers. -/
theorem Comparable.sortInPlace_eq (comparable : order.Comparable rows) (sorts : parallel.Sorts)
    {ordered : List Row} {events : List Event}
    (accepted : order.sortLeading settings count rows = .ok (ordered, events)) :
    order.sortInPlace parallel settings count rows = .accept () ordered events := by
  by_cases trivial : rows.length < 2 ∨ count = 0
  · rw [sortLeading, if_pos trivial] at accepted
    cases accepted
    rw [sortInPlace, if_pos trivial]
  · cases readable : settings.integer .parallelSortMinRows with
    | error fault =>
        rw [sortLeading, if_neg trivial, readable] at accepted
        cases accepted
    | ok threshold =>
        simp only [not_or, Nat.not_lt] at trivial
        have rearranges : ∀ tagged, parallel order.comesBefore rows.zipIdx.toArray = .ok tagged →
            tagged.Perm rows.zipIdx.toArray := by
          intro tagged arranged
          obtain ⟨other, otherArranged, rearranged, _⟩ :=
            sorts order.positional_strictWeakOrder comparable.decides
          cases arranged.symm.trans otherArranged
          exact rearranged
        rw [sortLeading_eq trivial.1 trivial.2 readable] at accepted
        rw [OrderBy.sortInPlace_eq trivial.1 trivial.2 readable rearranges]
        by_cases partly : count < rows.length
        · rw [if_pos partly] at accepted
          rw [sortedBy_arranging_of_lt partly]
          cases selected : order.leastFirst count rows with
          | error fault => simp [selected] at accepted
          | ok leading =>
              rw [selected] at accepted
              cases accepted
              rfl
        · have chosen : (arranging parallel threshold count rows.length).Sorts :=
            arranging_sorts sorts partly
          obtain ⟨sorted, sorting, stable⟩ := comparable.sorted_stable
          obtain ⟨other, otherSorting, otherStable⟩ := comparable.sortedBy_stable chosen
          rw [if_neg partly, sorting] at accepted
          rw [otherSorting, ← stable.unique otherStable]
          cases accepted
          rfl

/-- Without a parallel procedure of its own, the sort in place does what `sortLeading` answers, also
where that is a fault. -/
theorem sortInPlace_eq_sortLeading
    (columns : ∀ row ∈ rows, ∀ key ∈ order.keys, key.column < row.length) :
    order.sortInPlace PartitionSort.sort settings count rows =
      match order.sortLeading settings count rows with
      | .error fault => .refuse fault rows
      | .ok (ordered, events) => .accept () ordered events := by
  by_cases trivial : rows.length < 2 ∨ count = 0
  · rw [sortLeading, if_pos trivial, sortInPlace, if_pos trivial]
  · cases readable : settings.integer .parallelSortMinRows with
    | error fault =>
        rw [sortLeading, if_neg trivial, sortInPlace, if_neg trivial, readable]
    | ok threshold =>
        simp only [not_or, Nat.not_lt] at trivial
        have same : order.sortedBy (arranging PartitionSort.sort threshold count rows.length) rows =
            if count < rows.length then order.leastFirst count rows else order.sorted rows := by
          by_cases partly : count < rows.length
          · rw [sortedBy_arranging_of_lt partly, if_pos partly]
          · rw [if_neg partly, arranging, if_neg partly, ite_self, sorted_eq_sortedBy columns]
        rw [sortLeading_eq trivial.1 trivial.2 readable,
          OrderBy.sortInPlace_eq trivial.1 trivial.2 readable
            fun tagged arranged => (PartitionSort.sort_ordered arranged).1, same]
        cases (if count < rows.length then order.leastFirst count rows else order.sorted rows) <;> rfl

end QueryResult.OrderBy
