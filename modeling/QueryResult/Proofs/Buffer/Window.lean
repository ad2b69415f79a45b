import QueryResult.Proofs.Buffer.Effect
import QueryResult.Proofs.OrderBy.StableSort

/-!
# Finalizing leaves a window

The last two stages of finalizing cut a window out of the rows. The sort before
them may leave rows behind the window in any order, so that only the window of
the sorted rows is determined; it is the window of the stable sort.
-/

set_option autoImplicit false

namespace QueryResult

/-- The rows that an offset and a limit leave. There is no limit if it is negative. -/
def window (offset : UInt64) (limit : Int64) (rows : List Row) : List Row :=
  if limit < 0 then rows.drop offset.toNat
  else (rows.drop offset.toNat).take limit.toInt.toNat

theorem window_of_limit_neg {offset : UInt64} {limit : Int64} {rows : List Row}
    (unlimited : limit < 0) : window offset limit rows = rows.drop offset.toNat :=
  if_pos unlimited

theorem window_of_limit_nonneg {offset : UInt64} {limit : Int64} {rows : List Row}
    (limited : ¬ limit < 0) :
    window offset limit rows = (rows.drop offset.toNat).take limit.toUInt64.toNat := by
  rw [window, if_neg limited, Int64.toNat_toUInt64_of_le (Int64.not_lt.mp limited)]
  rfl

theorem window_sublist (offset : UInt64) (limit : Int64) (rows : List Row) :
    (window offset limit rows).Sublist rows := by
  unfold window
  split
  · exact List.drop_sublist _ _
  · exact (List.take_sublist _ _).trans (List.drop_sublist _ _)

/-- The window is decided by the rows up to its end. -/
theorem window_eq_of_take_eq {offset : UInt64} {limit : Int64} {left right : List Row}
    (limited : ¬ limit < 0) (sameLength : left.length = right.length)
    (bounded : left.length < UInt64.size)
    (leading : left.take (OrderBy.windowEnd left.length offset limit.toUInt64) =
      right.take (OrderBy.windowEnd left.length offset limit.toUInt64)) :
    window offset limit left = window offset limit right := by
  rw [window_of_limit_nonneg limited, window_of_limit_nonneg limited]
  unfold OrderBy.windowEnd at leading
  split at leading
  · rw [List.take_length, sameLength, List.take_length] at leading
    rw [leading]
  · have sum : (offset + limit.toUInt64).toNat = offset.toNat + limit.toUInt64.toNat := by
      have short : offset.toNat + limit.toUInt64.toNat ≤ left.length := by omega
      rw [UInt64.toNat_add]
      exact Nat.mod_eq_of_lt (Nat.lt_of_le_of_lt short bounded)
    rw [sum] at leading
    rw [List.take_drop, List.take_drop, leading]

/-- The rows in the order that is set, if one is: as they were given, or stably sorted. -/
def Arranged (order : Option OrderBy) (rows arranged : List Row) : Prop :=
  match order with
  | none => arranged = rows
  | some order => order.StableSort rows arranged

theorem Arranged.unique {order : Option OrderBy} {rows arranged other : List Row}
    (first : Arranged order rows arranged) (second : Arranged order rows other) :
    arranged = other := by
  cases order with
  | none => exact Eq.trans first (Eq.symm second)
  | some order => exact OrderBy.StableSort.unique first second

namespace ResultState

variable {settings : Settings} {state : ResultState}

/-! ## The stages -/

/-- The rows that finalizing puts in order, if they are all there. -/
def pending? (state : ResultState) : Option (List Row) :=
  if state.buffer.distinct then state.store.index.map ContentIndex.values else some state.rows

theorem pending?_of_plain (plain : state.buffer.distinct = false) :
    state.pending? = some state.rows :=
  if_neg (by simp [plain])

theorem pending?_of_index (distinct : state.buffer.distinct = true) {index : ContentIndex}
    (present : state.store.index = some index) : state.pending? = some index.values := by
  rw [pending?, if_pos distinct, present]
  rfl

theorem pending?_of_missing (distinct : state.buffer.distinct = true)
    (missing : state.store.index = none) : state.pending? = none := by
  rw [pending?, if_pos distinct, missing]
  rfl

/-- The index that is left after finalizing. -/
def keptIndex (state : ResultState) : Option ContentIndex :=
  if state.buffer.distinct ∧ state.buffer.randomAccess = false then none else state.store.index

/-- The state with the given rows in its store. -/
def materialized (state : ResultState) (rows : List Row) : ResultState :=
  { state with store := { state.store with rows := rows.toArray, index := state.keptIndex } }

/-- The state with the rows of its store in the given order. -/
def inOrder (state : ResultState) (ordered : List Row) : ResultState :=
  { state with store := { state.store with rows := ordered.toArray } }

/-- The state with the given rows in its store and counted. -/
def holding (state : ResultState) (rows : List Row) : ResultState :=
  { state with
    store := { state.store with rows := rows.toArray }
    buffer := { state.buffer with rowCount := rows.length } }

/-- The finalized state that is left of rows in the given order. -/
def finished (state : ResultState) (ordered : List Row) : ResultState :=
  let rows := window state.buffer.offset state.buffer.limit ordered
  { state with
    store := { state.store with rows := rows.toArray, index := state.keptIndex }
    buffer := { state.buffer.rewound with rowCount := rows.length, finalized := true } }

theorem holding_self (counted : state.buffer.rowCount = state.store.rows.size) :
    state.holding state.rows = state := by
  unfold holding rows
  rw [Array.toArray_toList, Array.length_toList, ← counted]

theorem materialize_eq (unshared : state.store.frozen = false) {rows : List Row}
    (gathered : state.pending? = some rows) :
    state.materialize = .accept () (state.materialized rows) [] := by
  unfold materialize materialized keptIndex
  unfold pending? at gathered
  by_cases distinct : state.buffer.distinct = true
  · rw [if_pos distinct] at gathered
    obtain ⟨index, held, rfl⟩ := Option.map_eq_some_iff.mp gathered
    simp only [distinct, unshared, held, Bool.not_true, Bool.false_eq_true, if_false, true_and]
    cases state.buffer.randomAccess <;> rfl
  · rw [if_neg distinct] at gathered
    cases gathered
    rw [if_pos (by simp [distinct]), if_neg (by simp [distinct])]
    unfold ResultState.rows
    rw [Array.toArray_toList]

theorem materialize_indexMissing (unshared : state.store.frozen = false)
    (missing : state.pending? = none) : state.materialize = .refuse .indexMissing state := by
  unfold pending? at missing
  split at missing
  · rename_i distinct
    unfold materialize
    rw [if_neg (by simp [distinct]), if_neg (by simp [unshared]), Option.map_eq_none_iff.mp missing]
  · cases missing

theorem applyOffset_eq (unshared : state.store.frozen = false)
    (counted : state.buffer.rowCount = state.store.rows.size) :
    state.applyOffset =
      .accept () (state.holding (state.rows.drop state.buffer.offset.toNat)) [] := by
  unfold applyOffset
  by_cases none : state.buffer.offset = 0
  · rw [if_pos none, none]
    exact congrArg (Outcome.accept () · []) (holding_self counted).symm
  · rw [if_neg none, if_neg (by simp [unshared])]
    dsimp only
    split
    · rename_i beyond
      rw [List.drop_eq_nil_of_le (by rwa [rows, Array.length_toList])]
      rfl
    · unfold holding
      rw [List.size_toArray]

theorem applyLimit_eq (unshared : state.store.frozen = false)
    (counted : state.buffer.rowCount = state.store.rows.size) :
    state.applyLimit = .accept () (state.holding (window 0 state.buffer.limit state.rows)) [] := by
  unfold applyLimit
  by_cases unlimited : state.buffer.limit < 0
  · rw [if_pos unlimited, window_of_limit_neg unlimited]
    exact congrArg (Outcome.accept () · []) (holding_self counted).symm
  · rw [if_neg unlimited, window_of_limit_nonneg unlimited]
    dsimp only
    split
    · rename_i within
      rw [List.take_of_length_le (by simpa [rows] using within)]
      exact congrArg (Outcome.accept () · []) (holding_self counted).symm
    · rename_i beyond
      rw [if_neg (by simp [unshared])]
      unfold holding
      congr 3
      simp [rows]
      omega

theorem window_zero_drop (offset : UInt64) (limit : Int64) (rows : List Row) :
    window 0 limit (rows.drop offset.toNat) = window offset limit rows := by
  simp [window]

/-- The two stages that cut the window, whatever follows them. -/
theorem applyOffset_andThen_applyLimit (unshared : state.store.frozen = false)
    (counted : state.buffer.rowCount = state.store.rows.size)
    (continuation : ResultState → Outcome ResultState Unit) :
    (state.applyOffset.andThen fun _ shifted => shifted.applyLimit.andThen fun _ cut =>
      continuation cut) =
        continuation
          (state.holding (window state.buffer.offset state.buffer.limit state.rows)) := by
  have shiftedUnshared :
      (state.holding (state.rows.drop state.buffer.offset.toNat)).store.frozen = false := unshared
  rw [applyOffset_eq unshared counted, Outcome.andThen_accept, applyLimit_eq shiftedUnshared rfl,
    Outcome.andThen_accept, ← window_zero_drop]
  rfl

/-- The rows of the store in the order that finalizing gives them. -/
def arrangement (settings : Settings) (state : ResultState) :
    Except Fault (List Row × List Event) :=
  match state.buffer.order with
  | none => .ok (state.rows, [])
  | some order => state.orderedRows settings order

theorem perm_of_arrangement {ordered : List Row} {events : List Event}
    (arranged : state.arrangement settings = .ok (ordered, events)) : ordered.Perm state.rows := by
  unfold arrangement at arranged
  split at arranged
  · cases arranged
    exact .refl _
  · unfold orderedRows at arranged
    split at arranged
    · exact OrderBy.perm_of_sortLeading arranged
    · exact OrderBy.perm_of_sortLeading arranged

theorem sortRows_of_ok (unshared : state.store.frozen = false) {ordered : List Row}
    {events : List Event} (arranged : state.arrangement settings = .ok (ordered, events)) :
    state.sortRows settings =
      .accept () (state.inOrder ordered) events := by
  unfold arrangement at arranged
  unfold sortRows
  cases ordering : state.buffer.order with
  | none =>
      simp only [ordering] at arranged
      cases arranged
      unfold inOrder rows
      rw [Array.toArray_toList]
  | some order =>
      simp only [ordering] at arranged
      dsimp only
      rw [if_neg (by simp [unshared]), arranged]
      rfl

theorem sortRows_of_error (unshared : state.store.frozen = false) {fault : Fault}
    (failed : state.arrangement settings = .error fault) :
    state.sortRows settings = .refuse fault state := by
  unfold arrangement at failed
  unfold sortRows
  cases ordering : state.buffer.order with
  | none =>
      simp only [ordering] at failed
      cases failed
  | some order =>
      simp only [ordering] at failed
      dsimp only
      rw [if_neg (by simp [unshared]), failed]

theorem orderedRows_stable {order : OrderBy} (comparable : order.Comparable state.rows)
    {minimum : Int64} (readable : settings.integer .parallelSortMinRows = .ok minimum)
    (bounded : state.rows.length < UInt64.size) :
    ∃ sorted ordered events, order.StableSort state.rows sorted ∧
      state.orderedRows settings order = .ok (ordered, events) ∧
      window state.buffer.offset state.buffer.limit ordered =
        window state.buffer.offset state.buffer.limit sorted := by
  unfold orderedRows
  by_cases whole : state.buffer.limit < 0 ∨ (state.buffer.offset = 0 ∧ state.buffer.limit = 0)
  · obtain ⟨sorted, ordered, events, stable, accepted, rearranged, leading⟩ :=
      comparable.sortLeading_stable readable (Nat.le_refl _)
    have same : ordered = sorted := by
      rwa [← rearranged.length_eq, List.take_length, rearranged.length_eq,
        ← stable.perm.length_eq, List.take_length] at leading
    rw [if_pos whole]
    exact ⟨sorted, ordered, events, stable, accepted, by rw [same]⟩
  · have fits : OrderBy.windowEnd state.rows.length state.buffer.offset
        state.buffer.limit.toUInt64 ≤ state.rows.length := OrderBy.windowEnd_le
    obtain ⟨sorted, ordered, events, stable, accepted, rearranged, leading⟩ :=
      comparable.sortLeading_stable readable fits
    rw [if_neg whole]
    refine ⟨sorted, ordered, events, stable, accepted, ?_⟩
    rw [← rearranged.length_eq] at leading
    exact window_eq_of_take_eq (fun unlimited => whole (.inl unlimited))
      (rearranged.length_eq.trans stable.perm.length_eq.symm)
      (by rw [rearranged.length_eq]; exact bounded) leading

theorem arrangement_stable
    (comparable : ∀ order, state.buffer.order = some order → order.Comparable state.rows)
    {minimum : Int64} (readable : settings.integer .parallelSortMinRows = .ok minimum)
    (bounded : state.rows.length < UInt64.size) :
    ∃ arranged ordered events, Arranged state.buffer.order state.rows arranged ∧
      state.arrangement settings = .ok (ordered, events) ∧
      window state.buffer.offset state.buffer.limit ordered =
        window state.buffer.offset state.buffer.limit arranged := by
  unfold arrangement
  cases ordering : state.buffer.order with
  | none => exact ⟨state.rows, state.rows, [], rfl, rfl, rfl⟩
  | some order => exact orderedRows_stable (comparable order ordering) readable bounded

/-! ## The whole -/

/-- Finalizing from the point where the given rows have been gathered. -/
def finalizeFrom (settings : Settings) (gathered : List Row) (state : ResultState) :
    Outcome ResultState Unit :=
  ((state.materialized gathered).sortRows settings).andThen fun _ sorted =>
  sorted.applyOffset.andThen fun _ shifted =>
  shifted.applyLimit.andThen fun _ cut =>
  .accept () { cut with buffer := { cut.buffer.rewound with finalized := true } }
    [.finalized state.buffer.rowCount cut.buffer.rowCount]

theorem finalize_eq_finalizeFrom (settings : Settings) (fillable : state.Fillable)
    {pending : List Row} (gathered : state.pending? = some pending) :
    state.finalize settings = state.finalizeFrom settings pending := by
  unfold finalize
  rw [if_neg (by simp [fillable.unfinalized]), materialize_eq fillable.unshared gathered]
  rfl

theorem finalizeFrom_of_error (unshared : state.store.frozen = false) {gathered : List Row}
    {fault : Fault} (failed : (state.materialized gathered).arrangement settings = .error fault) :
    state.finalizeFrom settings gathered = .refuse fault (state.materialized gathered) := by
  have stillUnshared : (state.materialized gathered).store.frozen = false := unshared
  rw [finalizeFrom, sortRows_of_error stillUnshared failed, Outcome.andThen_refuse]

theorem finalizeFrom_of_ok (unshared : state.store.frozen = false) {gathered ordered : List Row}
    (counted : state.buffer.rowCount = gathered.length) {sorting : List Event}
    (arranged : (state.materialized gathered).arrangement settings = .ok (ordered, sorting)) :
    ∃ events, state.finalizeFrom settings gathered = .accept () (state.finished ordered) events := by
  have stillUnshared : (state.materialized gathered).store.frozen = false := unshared
  have sortedUnshared : ((state.materialized gathered).inOrder ordered).store.frozen = false :=
    unshared
  have sortedCounted : ((state.materialized gathered).inOrder ordered).buffer.rowCount =
      ((state.materialized gathered).inOrder ordered).store.rows.size :=
    counted.trans (perm_of_arrangement arranged).length_eq.symm
  rw [finalizeFrom, sortRows_of_ok stillUnshared arranged, Outcome.andThen_accept,
    applyOffset_andThen_applyLimit sortedUnshared sortedCounted]
  exact ⟨_, rfl⟩

/-- The outcomes of finalizing a result whose rows are not shared. -/
inductive Finalization (settings : Settings) (state : ResultState) :
    Outcome ResultState Unit → Prop
  | indexMissing (missing : state.pending? = none) :
      Finalization settings state (.refuse .indexMissing state)
  | unordered (pending : List Row) (fault : Fault) (gathered : state.pending? = some pending)
      (failed : (state.materialized pending).arrangement settings = .error fault) :
      Finalization settings state (.refuse fault (state.materialized pending))
  | finished (pending ordered : List Row) (events : List Event)
      (gathered : state.pending? = some pending)
      (arranged :
        ∃ sorting, (state.materialized pending).arrangement settings = .ok (ordered, sorting)) :
      Finalization settings state (.accept () (state.finished ordered) events)

theorem finalize_outcome (settings : Settings) (fillable : state.Fillable)
    (counted : ∀ pending, state.pending? = some pending →
      state.buffer.rowCount = pending.length) :
    Finalization settings state (state.finalize settings) := by
  have unshared := fillable.unshared
  cases gathered : state.pending? with
  | none =>
      unfold finalize
      rw [if_neg (by simp [fillable.unfinalized]), materialize_indexMissing unshared gathered,
        Outcome.andThen_refuse]
      exact .indexMissing gathered
  | some pending =>
      rw [finalize_eq_finalizeFrom settings fillable gathered]
      cases arranged : (state.materialized pending).arrangement settings with
      | error fault =>
          rw [finalizeFrom_of_error unshared arranged]
          exact .unordered pending fault gathered arranged
      | ok result =>
          obtain ⟨ordered, sorting⟩ := result
          obtain ⟨events, accepted⟩ :=
            finalizeFrom_of_ok unshared (counted pending gathered) arranged
          rw [accepted]
          exact .finished pending ordered events gathered ⟨sorting, arranged⟩

end ResultState

end QueryResult
