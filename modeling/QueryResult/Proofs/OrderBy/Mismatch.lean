import Mathlib.Data.List.Chain
import Mathlib.Data.List.Nodup
import QueryResult.Proofs.ComparisonSort

/-!
# Rows that cannot be compared are met

A row that is not after a second one, where the second is not after a third, can
be compared with the third: a key under which the outer two have values has one
in the middle too, for a NULL cannot be both the last and the first. In an
arrangement in which neighbours can be compared, all rows therefore can.

A procedure that sorts by comparisons compares the neighbours of its result, so
that it cannot succeed if any two rows mismatch.
-/

set_option autoImplicit false

namespace QueryResult

/-! ## From neighbours to all -/

theorem SortKey.compare_ok_iff {key : SortKey} {left right : Row} :
    (∃ outcome, key.compare left right = .ok outcome) ↔
      ∃ leftValue rightValue, left[key.column]? = some leftValue ∧
        right[key.column]? = some rightValue ∧
        (leftValue.isNull = true ∨ rightValue.isNull = true ∨
          leftValue.type = rightValue.type) := by
  unfold SortKey.compare SortKey.compareValues
  cases leftFound : left[key.column]? with
  | none => simp
  | some leftValue =>
      cases rightFound : right[key.column]? with
      | none => simp
      | some rightValue =>
          by_cases sameType : leftValue.type = rightValue.type <;>
            cases leftNull : leftValue.isNull <;> cases rightNull : rightValue.isNull <;>
              simp [sameType, leftNull, rightNull, Value.compare, Except.map]

theorem SortKey.compare_trans {key : SortKey} {first second third : Row}
    {forth further : Ordering} (compared : key.compare first second = .ok forth)
    (comparedNext : key.compare second third = .ok further) (ascends : forth.isLE = true)
    (ascendsNext : further.isLE = true) : ∃ outcome, key.compare first third = .ok outcome := by
  obtain ⟨firstValue, secondValue, firstFound, secondFound, sameType⟩ :=
    SortKey.compare_ok_iff.mp ⟨_, compared⟩
  obtain ⟨middleValue, thirdValue, middleFound, thirdFound, sameTypeNext⟩ :=
    SortKey.compare_ok_iff.mp ⟨_, comparedNext⟩
  cases secondFound.symm.trans middleFound
  refine SortKey.compare_ok_iff.mpr ⟨firstValue, thirdValue, firstFound, thirdFound, ?_⟩
  cases firstNull : firstValue.isNull with
  | true => exact .inl rfl
  | false =>
      cases thirdNull : thirdValue.isNull with
      | true => exact .inr (.inl rfl)
      | false =>
          cases secondNull : secondValue.isNull with
          | true =>
              -- The NULL would have to be placed last for the first row, and first for the third.
              simp only [SortKey.compare, firstFound, secondFound, thirdFound,
                SortKey.compareValues, firstNull, secondNull, thirdNull,
                Except.ok.injEq] at compared comparedNext
              cases nullsFirst : key.nullsFirst with
              | true => simp [← compared, nullsFirst] at ascends
              | false => simp [← comparedNext, nullsFirst] at ascendsNext
          | false =>
              simp only [firstNull, secondNull, thirdNull, Bool.false_eq_true, false_or]
                at sameType sameTypeNext
              exact .inr (.inr (sameType.trans sameTypeNext))

theorem compareKeys_trans {keys : List SortKey} {first second third : Row}
    {forth further : Ordering} (compared : compareKeys keys first second = .ok forth)
    (comparedNext : compareKeys keys second third = .ok further) (ascends : forth.isLE = true)
    (ascendsNext : further.isLE = true) :
    ∃ outcome, compareKeys keys first third = .ok outcome := by
  induction keys with
  | nil => exact ⟨.eq, rfl⟩
  | cons key rest ih =>
      unfold compareKeys at compared comparedNext ⊢
      cases own : key.compare first second with
      | error fault => simp [own] at compared
      | ok decided =>
          cases ownNext : key.compare second third with
          | error fault => simp [ownNext] at comparedNext
          | ok decidedNext =>
              rw [own] at compared
              rw [ownNext] at comparedNext
              have notAfter : decided.isLE = true := by
                cases decided <;> simp_all
              have notAfterNext : decidedNext.isLE = true := by
                cases decidedNext <;> simp_all
              obtain ⟨outcome, ownOuter⟩ :=
                SortKey.compare_trans own ownNext notAfter notAfterNext
              rw [ownOuter]
              cases outcome with
              | lt => exact ⟨.lt, rfl⟩
              | gt => exact ⟨.gt, rfl⟩
              | eq =>
                  have outer := SortKey.arrange_of_compare ownOuter
                  have inner := SortKey.arrange_of_compare own
                  have innerNext := SortKey.arrange_of_compare ownNext
                  cases decided with
                  | gt => cases notAfter
                  | lt =>
                      have less := Std.TransCmp.lt_of_lt_of_isLE inner (innerNext ▸ notAfterNext)
                      rw [outer] at less
                      cases less
                  | eq =>
                      cases decidedNext with
                      | gt => cases notAfterNext
                      | lt =>
                          have less := Std.TransCmp.lt_of_eq_of_lt inner innerNext
                          rw [outer] at less
                          cases less
                      | eq => exact ih compared comparedNext

namespace OrderBy

variable {order : OrderBy} {rows : List Row}

/-- The rows can be compared, and the first is not after the second. -/
def AtMost (order : OrderBy) (left right : Row) : Prop :=
  ∃ outcome, order.compare left right = .ok outcome ∧ outcome.isLE = true

theorem AtMost.trans {first second third : Row} (atMost : order.AtMost first second)
    (atMostNext : order.AtMost second third) : order.AtMost first third := by
  obtain ⟨forth, compared, ascends⟩ := atMost
  obtain ⟨further, comparedNext, ascendsNext⟩ := atMostNext
  obtain ⟨outcome, comparedOuter⟩ :=
    compareKeys_trans compared comparedNext ascends ascendsNext
  refine ⟨outcome, comparedOuter, ?_⟩
  rw [← arrange_of_compare comparedOuter]
  exact Std.TransCmp.isLE_trans (b := second) (by rwa [arrange_of_compare compared])
    (by rwa [arrange_of_compare comparedNext])

instance : Trans order.AtMost order.AtMost order.AtMost :=
  ⟨AtMost.trans⟩

/-- If neighbours can be compared and are in order, all rows can. -/
theorem comparable_of_isChain (columns : ∀ row ∈ rows, ∀ key ∈ order.keys, key.column < row.length)
    {arrangement : List Row} (rearranged : arrangement.Perm rows)
    (ascending : arrangement.IsChain order.AtMost) : order.Comparable rows := by
  have comparable : order.Comparable arrangement :=
    comparable_of_pairwise (fun row held => columns row (rearranged.mem_iff.mp held))
      (ascending.pairwise.imp fun ⟨outcome, compared, _⟩ => ⟨outcome, compared⟩)
  exact comparable.of_perm rearranged.symm

theorem isChain_of_checkNeighbours {arrangement : List Row}
    (ascending : arrangement.Pairwise fun left right => order.notAfter left right = true)
    (checked : order.checkNeighbours arrangement = .ok ()) : arrangement.IsChain order.AtMost := by
  induction arrangement with
  | nil => exact .nil
  | cons row rest ih =>
      cases rest with
      | nil => exact .singleton row
      | cons next rest =>
          unfold checkNeighbours at checked
          split at checked
          · rename_i outcome compared
            have inOrder := (List.pairwise_cons.mp ascending).1 next List.mem_cons_self
            refine .cons_cons ⟨outcome, compared, ?_⟩ (ih ascending.tail checked)
            rwa [notAfter, arrange_of_compare compared] at inOrder
          · cases checked

theorem pairwise_mergeSort_notAfter (order : OrderBy) (rows : List Row) :
    (rows.mergeSort order.notAfter).Pairwise
      fun left right => order.notAfter left right = true := by
  refine List.pairwise_mergeSort ?_ ?_ rows
  · intro first second third
    exact Std.TransCmp.isLE_trans
  · intro left right
    have swapped : order.arrange right left = (order.arrange left right).swap :=
      Std.OrientedCmp.eq_swap
    rw [notAfter, notAfter, swapped]
    cases order.arrange left right <;> rfl

theorem comparable_of_sorted (columns : ∀ row ∈ rows, ∀ key ∈ order.keys, key.column < row.length)
    {sorted : List Row} (accepted : order.sorted rows = .ok sorted) : order.Comparable rows := by
  unfold OrderBy.sorted at accepted
  dsimp only at accepted
  split at accepted
  · rename_i checked
    exact comparable_of_isChain columns (List.mergeSort_perm rows order.notAfter)
      (isChain_of_checkNeighbours (order.pairwise_mergeSort_notAfter rows) checked)
  · cases accepted

/-! ## Sorting by any procedure -/

/-- The rows in the order that a procedure gives to them with their positions. -/
def sortedBy (order : OrderBy) (procedure : Procedure (Row × Nat) Fault) (rows : List Row) :
    Except Fault (List Row) := do
  let tagged ← procedure order.comesBefore rows.zipIdx.toArray
  return tagged.toList.map Prod.fst

variable {procedure : Procedure (Row × Nat) Fault}

theorem Comparable.sortedBy_stable (comparable : order.Comparable rows) (sorts : procedure.Sorts) :
    ∃ sorted, order.sortedBy procedure rows = .ok sorted ∧ order.StableSort rows sorted := by
  obtain ⟨tagged, accepted, rearranged, ascending⟩ :=
    sorts order.positional_strictWeakOrder comparable.decides
  have listPerm : tagged.toList.Perm rows.zipIdx :=
    Array.perm_iff_toList_perm.mp rearranged
  refine ⟨tagged.toList.map Prod.fst, ?_, tagged.toList, listPerm, ?_, rfl⟩
  · simp only [sortedBy, accepted, bind, Except.bind]
    rfl
  · refine comparable.pairwise_precedes listPerm (List.pairwise_iff_getElem.mpr ?_)
    intro earlier later earlierHeld laterHeld inOrder
    exact isLE_of_not_isLT (ascending earlier later inOrder _ _
      (Array.getElem?_eq_getElem laterHeld) (Array.getElem?_eq_getElem earlierHeld))

theorem eq_of_mem_zipIdx {left right : Row × Nat} (leftHeld : left ∈ rows.zipIdx)
    (rightHeld : right ∈ rows.zipIdx) (samePosition : left.2 = right.2) : left = right := by
  have leftFound := List.mem_zipIdx_iff_getElem?.mp leftHeld
  have rightFound := List.mem_zipIdx_iff_getElem?.mp rightHeld
  rw [samePosition, rightFound] at leftFound
  exact Prod.ext (Option.some.inj leftFound).symm samePosition

theorem tellsApart_positional (order : OrderBy) (rows : List Row) :
    TellsApart (fun left right => (order.positional left right).isLT) rows.zipIdx.toArray := by
  intro left leftHeld right rightHeld different notBefore
  have swapped : order.positional right left = (order.positional left right).swap :=
    Std.OrientedCmp.eq_swap
  change (order.positional right left).isLT = true
  rw [swapped]
  cases compared : order.positional left right with
  | lt => simp [compared] at notBefore
  | gt => rfl
  | eq =>
      exact absurd (eq_of_mem_zipIdx (by simpa using leftHeld) (by simpa using rightHeld)
        (position_eq_of_positional compared)) different

theorem compare_of_comesBefore {left right : Row × Nat} {answer : Bool}
    (answered : order.comesBefore left right = .ok answer) :
    ∃ outcome, order.compare left.1 right.1 = .ok outcome := by
  obtain ⟨outcome, compared, _⟩ := HeapSelection.bind_eq_ok answered
  exact ⟨outcome, compared⟩

theorem isLT_positional_of_comesBefore {left right : Row × Nat} {answer : Bool}
    (answered : order.comesBefore left right = .ok answer) :
    (order.positional left right).isLT = answer := by
  obtain ⟨outcome, compared⟩ := compare_of_comesBefore answered
  rw [comesBefore_of_compare compared] at answered
  exact Except.ok.inj answered

theorem ascending_of_comparing (comparing : procedure.Comparing) {tagged : Array (Row × Nat)}
    (accepted : procedure order.comesBefore rows.zipIdx.toArray = .ok tagged) :
    tagged.Perm rows.zipIdx.toArray ∧
      Ascending (fun left right => (order.positional left right).isLT) tagged :=
  comparing.ascending order.positional_strictWeakOrder
    (fun _ _ _ _ _ => isLT_positional_of_comesBefore) accepted

theorem isLE_arrange_of_positional {left right : Row × Nat}
    (ascends : (order.positional left right).isLE = true) :
    (order.arrange left.1 right.1).isLE = true := by
  unfold positional compareLex at ascends
  cases arranged : order.arrange left.1 right.1 with
  | lt => rfl
  | eq => rfl
  | gt => simp [arranged] at ascends

/-- No procedure that sorts by comparisons overlooks a mismatch. -/
theorem comparable_of_sortedBy
    (columns : ∀ row ∈ rows, ∀ key ∈ order.keys, key.column < row.length)
    (comparing : procedure.Comparing) {sorted : List Row}
    (accepted : order.sortedBy procedure rows = .ok sorted) : order.Comparable rows := by
  obtain ⟨tagged, arranged, _⟩ := HeapSelection.bind_eq_ok accepted
  have different : rows.zipIdx.toArray.toList.Nodup :=
    List.Nodup.of_map Prod.snd (nodup_positions rows)
  obtain ⟨rearranged, ascending⟩ := ascending_of_comparing comparing arranged
  have listPerm : tagged.toList.Perm rows.zipIdx :=
    Array.perm_iff_toList_perm.mp rearranged
  refine comparable_of_isChain columns (perm_map_fst listPerm) (List.isChain_iff_getElem.mpr ?_)
  intro position within
  have held : position + 1 < tagged.size := by simpa using within
  have inOrder := isLE_arrange_of_positional (isLE_of_not_isLT
    (ascending position (position + 1) (Nat.lt_succ_self _) _ _
      (Array.getElem?_eq_getElem held) (Array.getElem?_eq_getElem (by omega))))
  have compared : ∃ outcome,
      order.compare tagged[position].1 tagged[position + 1].1 = .ok outcome := by
    rcases comparing.compares_neighbours order.positional_strictWeakOrder
      (order.tellsApart_positional rows) different (fun _ _ _ _ _ => isLT_positional_of_comesBefore)
      arranged held with
      ⟨answer, answered⟩ | ⟨answer, answered⟩
    · exact compare_of_comesBefore answered
    · obtain ⟨outcome, found⟩ := compare_of_comesBefore answered
      exact compare_swap found
  obtain ⟨outcome, compared⟩ := compared
  rw [arrange_of_compare compared] at inOrder
  simp only [List.getElem_map, Array.getElem_toList]
  exact ⟨outcome, compared, inOrder⟩

theorem metBy_of_sortedBy (comparing : procedure.Comparing) {fault : Fault}
    (failed : order.sortedBy procedure rows = .error fault) : order.MetBy rows fault := by
  unfold sortedBy at failed
  cases arranged : procedure order.comesBefore rows.zipIdx.toArray with
  | ok tagged => simp [arranged, bind, Except.bind, pure, Except.pure] at failed
  | error met =>
      rw [arranged] at failed
      cases failed
      obtain ⟨left, leftHeld, right, rightHeld, compared⟩ := comparing.fails arranged
      have leftRow := fst_mem_of_mem_zipIdx (List.mem_toArray.mp leftHeld)
      have rightRow := fst_mem_of_mem_zipIdx (List.mem_toArray.mp rightHeld)
      have yields := order.comesBefore_yields rows left right leftRow rightRow
      rwa [compared] at yields

theorem sorted_eq_sortedBy
    (columns : ∀ row ∈ rows, ∀ key ∈ order.keys, key.column < row.length) :
    order.sorted rows = order.sortedBy PartitionSort.sort rows := by
  by_cases comparable : order.Comparable rows
  · obtain ⟨sorted, accepted, stable⟩ := comparable.sorted_stable
    obtain ⟨other, otherAccepted, otherStable⟩ :=
      comparable.sortedBy_stable PartitionSort.comparing.sorts
    rw [accepted, otherAccepted, stable.unique otherStable]
  · cases sorting : order.sortedBy PartitionSort.sort rows with
    | ok other =>
        exact absurd (comparable_of_sortedBy columns PartitionSort.comparing sorting) comparable
    | error fault =>
        have met : PartitionSort.sort order.comesBefore rows.zipIdx.toArray = .error fault := by
          unfold sortedBy at sorting
          cases arranged : PartitionSort.sort order.comesBefore rows.zipIdx.toArray with
          | ok tagged => simp [arranged, bind, Except.bind, pure, Except.pure] at sorting
          | error met =>
              rw [arranged] at sorting
              exact congrArg Except.error (Except.error.inj sorting)
        cases sorted : order.sorted rows with
        | ok other => exact absurd (comparable_of_sorted columns sorted) comparable
        | error other =>
            unfold OrderBy.sorted firstFault at sorted
            dsimp only at sorted
            rw [met] at sorted
            split at sorted
            · cases sorted
            · exact sorted.symm

/-! ## What cannot be compared -/

/-- Two of the rows have values of different types under the key that they are compared by. -/
def Mismatched (order : OrderBy) (rows : List Row) : Prop :=
  ∃ left ∈ rows, ∃ right ∈ rows, ∃ found expected,
    order.compare left right = .error (.typeMismatch found expected .notComparable)

theorem MetBy.typeMismatch (columns : ∀ row ∈ rows, ∀ key ∈ order.keys, key.column < row.length)
    {fault : Fault} (met : order.MetBy rows fault) :
    ∃ found expected, fault = .typeMismatch found expected .notComparable := by
  rcases met.cases with mismatch | ⟨_, key, listed, row, held, narrow⟩
  · exact mismatch
  · exact absurd (columns row held key listed) (Nat.not_lt.mpr narrow)

theorem MetBy.mismatched {found expected : ValueType}
    (met : order.MetBy rows (.typeMismatch found expected .notComparable)) :
    order.Mismatched rows := by
  obtain ⟨left, leftHeld, right, rightHeld, failed⟩ := met
  exact ⟨left, leftHeld, right, rightHeld, found, expected, failed⟩

theorem Comparable.not_mismatched (comparable : order.Comparable rows) : ¬ order.Mismatched rows := by
  rintro ⟨left, leftHeld, right, rightHeld, found, expected, failed⟩
  obtain ⟨outcome, compared⟩ := comparable left leftHeld right rightHeld
  rw [failed] at compared
  cases compared

end OrderBy

end QueryResult
