import QueryResult.Proofs.Buffer.DistinctResult

/-!
# Sorted distinct results

An index lists its rows in no particular order, and sorting keeps the order of
rows that compare equal. If the sort keys tell all rows of a distinct result
apart, nothing of this shows: there is one ascending arrangement of the rows,
and finalizing leaves its window, whatever the index listed first and whatever
was added and removed before.
-/

set_option autoImplicit false

namespace QueryResult

/-- The order tells the rows of a map apart: its columns are in every row, and of two rows under
different contents one is less. -/
structure OrderBy.Separates (order : OrderBy) (map : ContentMap) : Prop where
  columns : ∀ entry ∈ map.entries, ∀ key ∈ order.keys, key.column < entry.2.length
  decides : ∀ left ∈ map.entries, ∀ right ∈ map.entries, left.1 ≠ right.1 →
    order.compare left.2 right.2 = .ok .lt ∨ order.compare left.2 right.2 = .ok .gt

/-- The rows of a map, listed in any order. -/
def ContentMap.Lists (map : ContentMap) (rows : List Row) : Prop :=
  (rows : Multiset Row) = map.entries.map Sigma.snd

/-- The rows of a map, each less than all behind it. -/
structure ContentMap.Ascending (map : ContentMap) (order : OrderBy) (rows : List Row) : Prop where
  listed : map.Lists rows
  ascends : rows.Pairwise fun left right => order.compare left right = .ok .lt

namespace ContentMap

variable {map : ContentMap} {order : OrderBy} {rows other : List Row}

theorem exists_lists (map : ContentMap) : ∃ rows, map.Lists rows :=
  ⟨(map.entries.map Sigma.snd).toList, by rw [Lists, Multiset.coe_toList]⟩

theorem Lists.perm (listed : map.Lists rows) (alsoListed : map.Lists other) : rows.Perm other :=
  Multiset.coe_eq_coe.mp (listed.trans alsoListed.symm)

theorem Lists.of_perm (listed : map.Lists rows) (rearranged : other.Perm rows) : map.Lists other :=
  (Multiset.coe_eq_coe.mpr rearranged).trans listed

theorem Lists.length_eq (listed : map.Lists rows) : rows.length = map.entries.card := by
  rw [← Multiset.coe_card, listed, Multiset.card_map]

theorem Lists.exists_entry (listed : map.Lists rows) {row : Row} (held : row ∈ rows) :
    ∃ entry ∈ map.entries, entry.2 = row := by
  rw [← Multiset.mem_coe, listed] at held
  exact Multiset.mem_map.mp held

/-- There is at most one ascending arrangement. -/
theorem Ascending.unique (ascending : map.Ascending order rows)
    (alsoAscending : map.Ascending order other) : rows = other := by
  refine List.Perm.eq_of_pairwise ?_ ascending.ascends alsoAscending.ascends
    (ascending.listed.perm alsoAscending.listed)
  intro left right _ _ less greater
  have swapped : order.arrange left right = (order.arrange right left).swap :=
    Std.OrientedCmp.eq_swap
  rw [OrderBy.arrange_of_compare less, OrderBy.arrange_of_compare greater] at swapped
  cases swapped

end ContentMap

namespace OrderBy.Separates

variable {order : OrderBy} {map : ContentMap} {rows : List Row}

theorem comparable (separates : order.Separates map) (listed : map.Lists rows) :
    order.Comparable rows := by
  intro left leftHeld right rightHeld
  obtain ⟨⟨content, row⟩, entry, rfl⟩ := listed.exists_entry leftHeld
  obtain ⟨⟨other, otherRow⟩, otherEntry, rfl⟩ := listed.exists_entry rightHeld
  by_cases same : content = other
  · subst same
    have sameRow : some row = some otherRow :=
      (Finmap.lookup_eq_some_iff.mpr entry).symm.trans (Finmap.lookup_eq_some_iff.mpr otherEntry)
    cases sameRow
    exact OrderBy.compare_self (separates.columns _ entry)
  · rcases separates.decides _ entry _ otherEntry same with less | greater
    · exact ⟨.lt, less⟩
    · exact ⟨.gt, greater⟩

theorem ne_eq (separates : order.Separates map) {left right : Sigma fun _ : RowContent => Row}
    (leftHeld : left ∈ map.entries) (rightHeld : right ∈ map.entries)
    (different : left.1 ≠ right.1) : order.compare left.2 right.2 ≠ .ok .eq := by
  intro equal
  rcases separates.decides left leftHeld right rightHeld different with less | greater
  · cases equal.symm.trans less
  · cases equal.symm.trans greater

/-- No two rows compare equal, in either direction. -/
theorem pairwise_ne (separates : order.Separates map) (listed : map.Lists rows) :
    rows.Pairwise fun left right =>
      order.compare left right ≠ .ok .eq ∧ order.compare right left ≠ .ok .eq := by
  have nodup : map.entries.toList.NodupKeys := by
    rw [← Multiset.coe_nodupKeys, Multiset.coe_toList]
    exact map.nodupKeys
  have enumerated : map.Lists (map.entries.toList.map Sigma.snd) := by
    rw [ContentMap.Lists, ← Multiset.map_coe, Multiset.coe_toList]
  -- Pairwise facts move between enumerations as they hold in both directions.
  refine ((listed.perm enumerated).pairwise_iff fun ne => ⟨ne.2, ne.1⟩).mpr ?_
  refine List.pairwise_map.mpr (nodup.pairwise_ne.imp_of_mem ?_)
  intro left right leftListed rightListed different
  have leftHeld := Multiset.mem_toList.mp leftListed
  have rightHeld := Multiset.mem_toList.mp rightListed
  exact ⟨separates.ne_eq leftHeld rightHeld different,
    separates.ne_eq rightHeld leftHeld different.symm⟩

/-- A stable sort of the rows has no ties to settle. -/
theorem ascending_of_stableSort (separates : order.Separates map) (listed : map.Lists rows)
    {sorted : List Row} (stable : order.StableSort rows sorted) : map.Ascending order sorted := by
  have listedSorted := listed.of_perm stable.perm
  have ne := separates.pairwise_ne listedSorted
  refine ⟨listedSorted, ?_⟩
  obtain ⟨tagged, _, precedes, rfl⟩ := stable
  rw [List.pairwise_map] at ne ⊢
  refine (precedes.and ne).imp ?_
  rintro left right ⟨less | ⟨equal, _⟩, distinct⟩
  · exact less
  · exact absurd equal distinct.1

theorem exists_ascending (separates : order.Separates map) :
    ∃ ascending, map.Ascending order ascending := by
  obtain ⟨rows, listed⟩ := map.exists_lists
  exact ⟨_, separates.ascending_of_stableSort listed
    (separates.comparable listed).stableSort_mergeSort⟩

end OrderBy.Separates

namespace ResultState

variable {settings : Settings} {state : ResultState} {visible : Nat} {map : ContentMap}

/-- Finalizing the state left the given rows, which an open cursor delivers. -/
structure Leaves (state : ResultState) (rows : List Row) (final : ResultState) : Prop where
  held : final.rows = rows
  counted : final.buffer.rowCount = rows.length
  delivered : state.buffer.closed = false → ∀ other, Delivers final other ↔ other = rows

theorem leaves_finished (state : ResultState) (ordered : List Row) :
    state.Leaves (window state.buffer.offset state.buffer.limit ordered)
      (state.finished ordered) where
  held := rfl
  counted := rfl
  delivered := by
    intro isOpen other
    have ready : (state.finished ordered).Readable := ⟨rfl, isOpen, rfl⟩
    have delivered := ready.delivers_rows rfl
    constructor
    · intro also
      exact also.unique delivered
    · rintro rfl
      exact delivered

/-! ## One enumeration is as good as another -/

theorem Deduplicating.finalizeFrom_leaves (deduplicating : state.Deduplicating visible map)
    (bounded : state.buffer.rowCount < UInt64.size) {order : OrderBy}
    (ordering : state.buffer.order = some order) (separates : order.Separates map)
    {minimum : Int64} (readable : settings.integer .parallelSortMinRows = .ok minimum)
    {gathered ascending : List Row} (listed : map.Lists gathered)
    (inOrder : map.Ascending order ascending) :
    ∃ final events, state.finalizeFrom settings gathered = .accept () final events ∧
      state.Leaves (window state.buffer.offset state.buffer.limit ascending) final := by
  have counted : state.buffer.rowCount = gathered.length :=
    deduplicating.counted.trans listed.length_eq.symm
  have comparable : ∀ other, (state.materialized gathered).buffer.order = some other →
      other.Comparable (state.materialized gathered).rows := by
    intro other set
    cases ordering.symm.trans set
    exact separates.comparable listed
  obtain ⟨arranged, ordered, sorting, sorted, accepted, sameWindow⟩ :=
    arrangement_stable comparable readable (counted ▸ bounded)
  have stable : order.StableSort gathered arranged := by
    have set : (state.materialized gathered).buffer.order = some order := ordering
    rw [set] at sorted
    exact sorted
  have isAscending : arranged = ascending :=
    (separates.ascending_of_stableSort listed stable).unique inOrder
  obtain ⟨events, finalized⟩ :=
    finalizeFrom_of_ok deduplicating.fillable.unshared counted accepted
  refine ⟨state.finished ordered, events, finalized, ?_⟩
  have windowed : window state.buffer.offset state.buffer.limit ascending =
      window state.buffer.offset state.buffer.limit ordered := by
    rw [← isAscending]
    exact sameWindow.symm
  rw [windowed]
  exact state.leaves_finished ordered

/-! ## The number of rows -/

theorem Deduplicating.bounded_perform (deduplicating : state.Deduplicating visible map)
    (bounded : state.buffer.rowCount < UInt64.size) {command : Command}
    (unfinalizing : command ≠ .finalize) :
    (state.perform settings command).state.buffer.rowCount < UInt64.size := by
  have counts : ∀ index, state.store.index = some index → index.size = state.buffer.rowCount :=
    fun index present =>
      (deduplicating.held index present).card_eq.symm.trans deduplicating.counted.symm
  have effect := state.perform_effect settings unfinalizing
  generalize state.perform settings command = outcome at effect
  cases effect with
  | appended row registered context events _ plain => simp [deduplicating.distinct] at plain
  | put row index registered context events _ _ _ present fits =>
      show (index.insert (state.keyOf row) row.detached).2.size < UInt64.size
      have below := state.buffer.threshold.toNat_lt_size
      by_cases contained : index.contains (state.keyOf row) = true
      · rw [(ContentIndex.insert_of_contains contained row.detached).2, counts index present]
        exact bounded
      · exact Nat.lt_of_le_of_lt (fits (ContentIndex.insert_of_not_contains contained _).1) below
  | removed row index _ _ present =>
      exact Nat.lt_of_le_of_lt (index.size_erase_le _) (counts index present ▸ bounded)
  | _ => exact bounded

theorem bounded_performAll (settings : Settings) (commands : List Command)
    (fillable : state.Fillable) (noRows : state.buffer.rowCount = 0) :
    let filled := (state.performAll settings (.setDistinct :: commands)).2
    let map := lastRows state.buffer.visible (.setDistinct :: commands)
      (state.performAll settings (.setDistinct :: commands)).1
    filled.buffer.finalized = true ∨
      filled.Deduplicating state.buffer.visible map ∧ filled.buffer.rowCount < UInt64.size := by
  have first := deduplicating_setDistinct settings fillable noRows
  have few : (state.perform settings .setDistinct).state.buffer.rowCount < UInt64.size := by
    rw [first.counted]
    decide
  refine replay_holds
    (fun after map => after.buffer.finalized = true ∨
      after.Deduplicating state.buffer.visible map ∧ after.buffer.rowCount < UInt64.size)
    (fun _ => True) ?_ (.inr ⟨first, few⟩) (fun _ _ => trivial)
  rintro before map command - (finalized | ⟨deduplicating, bounded⟩)
  · exact .inl (finalized_perform settings finalized command)
  rcases deduplicating_perform settings (.inr deduplicating) command with finalized | after
  · exact .inl finalized
  by_cases finalizing : command = .finalize
  · subst finalizing
    have kept : map = map.note state.buffer.visible .finalize
        (before.perform settings .finalize).answer := rfl
    refine .inr ⟨after, ?_⟩
    rw [after.counted, ← kept, ← deduplicating.counted]
    exact bounded
  · exact .inr ⟨after, deduplicating.bounded_perform bounded finalizing⟩

/-! ## The whole -/

/-- If the sort keys tell the rows of a distinct result apart, what finalizing leaves is told by
the map alone: every history that ends in the map and every enumeration of its rows lead to the
same rows, the window of the one ascending arrangement. -/
theorem sorted_distinct_result_told_by_map {order : OrderBy} {map : ContentMap}
    (separates : order.Separates map) :
    ∃ ascending, (∀ rows, map.Ascending order rows ↔ rows = ascending) ∧
      ∀ (filling settings : Settings) (minimum : Int64) (state filled : ResultState)
        (commands : List Command) (answers : List (Except Fault Answer)),
        state.Fillable → state.buffer.rowCount = 0 →
        state.performAll filling (.setDistinct :: commands) = (answers, filled) →
        lastRows state.buffer.visible (.setDistinct :: commands) answers = map →
        filled.buffer.finalized = false →
        (∀ command ∈ commands, command ≠ .finalize) ∨ filled.store.index.isSome = true →
        filled.buffer.order = some order →
        settings.integer .parallelSortMinRows = .ok minimum →
        let rows := window filled.buffer.offset filled.buffer.limit ascending
        (∃ final events, filled.perform settings .finalize = .accept .done final events ∧
          filled.Leaves rows final) ∧
        (∃ gathered, map.Lists gathered ∧
          filled.finalize settings = filled.finalizeFrom settings gathered) ∧
        ∀ gathered, map.Lists gathered →
          ∃ final events, filled.finalizeFrom settings gathered = .accept () final events ∧
            filled.Leaves rows final := by
  obtain ⟨ascending, inOrder⟩ := separates.exists_ascending
  refine ⟨ascending, fun rows => ⟨fun also => also.unique inOrder, ?_⟩, ?_⟩
  · rintro rfl
    exact inOrder
  intro filling settings minimum state filled commands answers fillable noRows ran sameMap
    unfinalized notLost ordering readable rows
  obtain ⟨deduplicating, bounded⟩ :
      filled.Deduplicating state.buffer.visible map ∧ filled.buffer.rowCount < UInt64.size := by
    have held := bounded_performAll filling commands fillable noRows
    rw [ran, sameMap] at held
    exact held.resolve_left (by simp [unfinalized])
  have present : filled.store.index.isSome = true := by
    rcases notLost with unfinalizing | present
    · have kept := index_isSome_performAll_setDistinct filling fillable noRows unfinalizing
      rwa [ran] at kept
    · exact present
  obtain ⟨index, present⟩ := Option.isSome_iff_exists.mp present
  have listed : map.Lists index.values := (deduplicating.held index present).values_eq
  have begun : filled.finalize settings = filled.finalizeFrom settings index.values :=
    finalize_eq_finalizeFrom settings deduplicating.fillable
      (pending?_of_index deduplicating.distinct present)
  have finishes : ∀ gathered, map.Lists gathered →
      ∃ final events, filled.finalizeFrom settings gathered = .accept () final events ∧
        filled.Leaves rows final := fun gathered listed =>
    deduplicating.finalizeFrom_leaves bounded ordering separates readable listed inOrder
  refine ⟨?_, ⟨index.values, listed, begun⟩, finishes⟩
  obtain ⟨final, events, accepted, leaves⟩ := finishes index.values listed
  refine ⟨final, events, ?_, leaves⟩
  rw [perform, begun, accepted]
  rfl

theorem sorted_distinct_result_told_by_map_sample :
    let order : OrderBy := ⟨[⟨0, .descending, .byDirection⟩]⟩
    let commands : List Command :=
      [.add [.integer 1, .boolean true], .setOrder (some order), .add [.integer 3],
        .setRandomAccess, .add [.integer 2], .add [.integer 1, .boolean false], .setOffset 1,
        .add [.null .integer], .remove [.null .integer], .setLimit 5]
    let state := opened none ⟨[]⟩ 1 Buffer.unbounded 0 none
    let run := state.performAll .initial (.setDistinct :: commands)
    order.Separates (lastRows 1 (.setDistinct :: commands) run.1) ∧
      ∃ final events, run.2.perform .initial .finalize = .accept .done final events ∧
        run.2.Leaves [[.integer 2], [.integer 1, .boolean false]] final := by
  intro order commands state run
  let map := lastRows 1 (.setDistinct :: commands) run.1
  have separates : order.Separates map := ⟨by decide, by decide⟩
  have inOrder : map.Ascending order
      [[.integer 3], [.integer 2], [.integer 1, .boolean false]] :=
    ⟨by unfold ContentMap.Lists; decide, by decide⟩
  obtain ⟨ascending, unique, told⟩ := sorted_distinct_result_told_by_map separates
  have least := (unique _).mp inOrder
  have readable : Settings.initial.integer .parallelSortMinRows = .ok 10000 := rfl
  obtain ⟨⟨final, events, accepted, leaves⟩, _⟩ :=
    told .initial .initial 10000 state run.2 commands run.1 ⟨rfl, rfl⟩ rfl (Prod.eta run).symm rfl
      (by decide) (.inl (by decide)) (by decide) readable
  have windowed : window run.2.buffer.offset run.2.buffer.limit
      [[.integer 3], [.integer 2], [.integer 1, .boolean false]] =
        [[.integer 2], [.integer 1, .boolean false]] := by decide
  rw [← least, windowed] at leaves
  exact ⟨separates, final, events, accepted, leaves⟩

end ResultState

end QueryResult
