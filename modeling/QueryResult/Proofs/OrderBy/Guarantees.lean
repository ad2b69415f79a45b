import QueryResult.Buffer.Finalization
import QueryResult.Proofs.OrderBy.InPlace

/-!
# What sorting guarantees

Rows that can be compared are sorted stably, and there is one stable sort,
whichever procedure finds it. The sort up to the end of a window begins like it
and has the other rows behind. Sorting is refused exactly if two rows mismatch,
and what is refused leaves the rows as they are.
-/

set_option autoImplicit false

namespace QueryResult.OrderBy

variable {order : OrderBy} {rows : List Row}

/-! ## Full sorts -/

/-- Whether two rows can be compared and are equal under all keys. -/
def ties (order : OrderBy) (row other : Row) : Bool :=
  decide (order.compare row other = .ok .eq)

theorem Comparable.not_less_of_ties (comparable : order.Comparable rows) {row left right : Row}
    (leftHeld : left ∈ rows) (rightHeld : right ∈ rows) (leftTies : order.ties row left = true)
    (rightTies : order.ties row right = true) : order.compare left right ≠ .ok .lt := by
  have leftEqual := arrange_of_compare (of_decide_eq_true leftTies)
  have rightEqual := arrange_of_compare (of_decide_eq_true rightTies)
  rw [comparable.compare_eq leftHeld rightHeld,
    Std.TransCmp.eq_trans (Std.OrientedCmp.eq_symm leftEqual) rightEqual]
  exact fun less => by cases less

theorem pairwise_positions (rows : List Row) :
    rows.zipIdx.Pairwise fun left right => left.2 < right.2 := by
  have positions : (rows.zipIdx.map Prod.snd).Pairwise (· < ·) := by
    rw [List.zipIdx_map_snd]
    exact List.pairwise_lt_range'
  exact List.pairwise_map.mp positions

/-- The rows that tie with one of them stand in the order in which they were given. -/
theorem Comparable.filter_ties (comparable : order.Comparable rows) {sorted : List Row}
    (stable : order.StableSort rows sorted) (row : Row) :
    sorted.filter (order.ties row) = rows.filter (order.ties row) := by
  obtain ⟨tagged, rearranged, ascending, rfl⟩ := stable
  let tied := fun item : Row × Nat => order.ties row item.1
  have inOrder : (tagged.filter tied).Pairwise fun left right => left.2 < right.2 := by
    refine (ascending.filter tied).imp_of_mem ?_
    intro left right leftListed rightListed precedes
    obtain ⟨leftHeld, leftTies⟩ := List.mem_filter.mp leftListed
    obtain ⟨rightHeld, rightTies⟩ := List.mem_filter.mp rightListed
    rcases precedes with less | ⟨_, earlier⟩
    · exact absurd less (comparable.not_less_of_ties
        (fst_mem_of_mem_zipIdx (rearranged.mem_iff.mp leftHeld))
        (fst_mem_of_mem_zipIdx (rearranged.mem_iff.mp rightHeld)) leftTies rightTies)
    · exact earlier
  have same : tagged.filter tied = rows.zipIdx.filter tied :=
    List.Perm.eq_of_pairwise (fun _ _ _ _ earlier later => absurd later (Nat.lt_asymm earlier))
      inOrder ((pairwise_positions rows).filter tied) (rearranged.filter tied)
  calc (tagged.map Prod.fst).filter (order.ties row)
      = (tagged.filter tied).map Prod.fst := List.filter_map
    _ = (rows.zipIdx.filter tied).map Prod.fst := by rw [same]
    _ = (rows.zipIdx.map Prod.fst).filter (order.ties row) := by rw [List.filter_map]; rfl
    _ = rows.filter (order.ties row) := by rw [List.zipIdx_map_fst]

theorem StableSort.pairwise_atMost {sorted : List Row} (stable : order.StableSort rows sorted) :
    sorted.Pairwise order.AtMost := by
  obtain ⟨tagged, _, ascending, rfl⟩ := stable
  refine List.pairwise_map.mpr (ascending.imp fun precedes => ?_)
  rcases precedes with less | ⟨equal, _⟩
  · exact ⟨.lt, less, rfl⟩
  · exact ⟨.eq, equal, rfl⟩

theorem Comparable.sort_eq (comparable : order.Comparable rows) {sorted : List Row}
    (stable : order.StableSort rows sorted) {settings : Settings} {threshold : Int64}
    (readable : settings.integer .parallelSortMinRows = .ok threshold) :
    ∃ events, order.sort settings rows = .ok (sorted, events) := by
  obtain ⟨other, ordered, events, otherStable, accepted, rearranged, leading⟩ :=
    comparable.sortLeading_stable readable (Nat.le_refl _)
  refine ⟨events, ?_⟩
  rw [sort, accepted, stable.unique otherStable]
  rw [← rearranged.length_eq, List.take_length, rearranged.length_eq,
    ← otherStable.perm.length_eq, List.take_length] at leading
  rw [leading]

/-- Rows of which no two mismatch are sorted stably. There is one way to do so, and it is taken for
every threshold of parallel sorting, by every procedure that sorts. -/
theorem sort_stable (columns : ∀ row ∈ rows, ∀ key ∈ order.keys, key.column < row.length)
    (pairwise : rows.Pairwise fun left right => ∃ outcome, order.compare left right = .ok outcome) :
    ∃ sorted,
      order.StableSort rows sorted ∧
      (∀ other, order.StableSort rows other → other = sorted) ∧
      sorted.Perm rows ∧
      sorted.Pairwise order.AtMost ∧
      (∀ row, sorted.filter (order.ties row) = rows.filter (order.ties row)) ∧
      ∀ (settings : Settings) (threshold : Int64),
        settings.integer .parallelSortMinRows = .ok threshold →
          ∃ events, order.sort settings rows = .ok (sorted, events) ∧
            ∀ parallel : Procedure (Row × Nat) Fault, parallel.Sorts →
              order.sortInPlace parallel settings rows.length rows = .accept () sorted events := by
  have comparable := comparable_of_pairwise columns pairwise
  obtain ⟨sorted, _, stable⟩ := comparable.sorted_stable
  refine ⟨sorted, stable, fun other otherStable => otherStable.unique stable, stable.perm,
    stable.pairwise_atMost, comparable.filter_ties stable, ?_⟩
  intro settings threshold readable
  obtain ⟨events, accepted⟩ := comparable.sort_eq stable readable
  exact ⟨events, accepted, fun parallel sorts => comparable.sortInPlace_eq sorts accepted⟩

theorem sort_stable_sample :
    let order : OrderBy := ⟨[⟨0, .ascending, .last⟩, ⟨1, .descending, .byDirection⟩]⟩
    let rows : List Row :=
      [[.integer 2, .integer 5], [.integer 1, .varchar [97]], [.null .integer, .boolean true],
        [.integer 2, .integer 7], [.integer 1, .varchar [98]], [.integer 2, .integer 5, .null .clob]]
    let sorted : List Row :=
      [[.integer 1, .varchar [98]], [.integer 1, .varchar [97]], [.integer 2, .integer 7],
        [.integer 2, .integer 5], [.integer 2, .integer 5, .null .clob],
        [.null .integer, .boolean true]]
    ∃ events, order.sort .initial rows = .ok (sorted, events) ∧
      order.sortInPlace PartitionSort.sort .initial 6 rows = .accept () sorted events := by
  intro order rows sorted
  have columns : ∀ row ∈ rows, ∀ key ∈ order.keys, key.column < row.length := by decide
  have arranged : rows.Pairwise fun left right =>
      order.compare left right = .ok (order.arrange left right) := by decide
  obtain ⟨only, _, unique, _, _, _, found⟩ :=
    sort_stable columns (arranged.imp fun compared => ⟨_, compared⟩)
  have stable : order.StableSort rows sorted := by
    refine ⟨[([.integer 1, .varchar [98]], 4), ([.integer 1, .varchar [97]], 1),
      ([.integer 2, .integer 7], 3), ([.integer 2, .integer 5], 0),
      ([.integer 2, .integer 5, .null .clob], 5), ([.null .integer, .boolean true], 2)],
      by decide, ?_, rfl⟩
    unfold Precedes
    decide
  obtain ⟨events, accepted, inPlace⟩ := found .initial 10000 rfl
  rw [unique sorted stable]
  exact ⟨events, accepted, inPlace PartitionSort.sort PartitionSort.comparing.sorts⟩

/-! ## Windows -/

/-- The end of a window, the sum taken as that of numbers. -/
theorem windowEnd_eq_min {size : Nat} (bounded : size < UInt64.size) (offset limit : UInt64) :
    windowEnd size offset limit = min (offset.toNat + limit.toNat) size := by
  unfold windowEnd
  split
  · omega
  · have short : offset.toNat + limit.toNat < 2 ^ 64 := by
      have small : size < 2 ^ 64 := bounded
      omega
    rw [UInt64.toNat_add, Nat.mod_eq_of_lt short]
    omega

/-- The sort up to the end of a window begins like the full sort, and behind that has the same rows
as the full sort. Rows are counted in 64 bits, as offsets and limits are, but no sum of these two has
to fit. -/
theorem sortWindow_agrees (columns : ∀ row ∈ rows, ∀ key ∈ order.keys, key.column < row.length)
    (pairwise : rows.Pairwise fun left right => ∃ outcome, order.compare left right = .ok outcome)
    (bounded : rows.length < UInt64.size) {settings : Settings} {threshold : Int64}
    (readable : settings.integer .parallelSortMinRows = .ok threshold) (offset limit : UInt64) :
    ∃ sorted windowed events windowEvents,
      order.sort settings rows = .ok (sorted, events) ∧
      order.sortWindow settings offset limit rows = .ok (windowed, windowEvents) ∧
      windowed.Perm rows ∧
      windowed.take (min (offset.toNat + limit.toNat) rows.length) =
        sorted.take (min (offset.toNat + limit.toNat) rows.length) ∧
      (windowed.drop (min (offset.toNat + limit.toNat) rows.length)).Perm
        (sorted.drop (min (offset.toNat + limit.toNat) rows.length)) ∧
      ∀ parallel : Procedure (Row × Nat) Fault, parallel.Sorts →
        order.sortInPlace parallel settings rows.length rows = .accept () sorted events ∧
        order.sortInPlace parallel settings (windowEnd rows.length offset limit) rows =
          .accept () windowed windowEvents := by
  have comparable := comparable_of_pairwise columns pairwise
  have fits : windowEnd rows.length offset limit ≤ rows.length := windowEnd_le
  obtain ⟨sorted, windowed, windowEvents, stable, windowAccepted, rearranged, leading⟩ :=
    comparable.sortLeading_stable readable fits
  obtain ⟨events, accepted⟩ := comparable.sort_eq stable readable
  rw [windowEnd_eq_min bounded] at leading
  refine ⟨sorted, windowed, events, windowEvents, accepted, windowAccepted, rearranged, leading, ?_,
    fun parallel sorts => ⟨comparable.sortInPlace_eq sorts accepted,
      comparable.sortInPlace_eq sorts windowAccepted⟩⟩
  have whole := rearranged.trans stable.perm.symm
  rw [← List.take_append_drop (min (offset.toNat + limit.toNat) rows.length) windowed,
    ← List.take_append_drop (min (offset.toNat + limit.toNat) rows.length) sorted, leading] at whole
  exact (List.perm_append_left_iff _).mp whole

theorem sortWindow_agrees_sample :
    let order : OrderBy := ⟨[⟨0, .descending, .byDirection⟩]⟩
    let rows : List Row :=
      [[.bigInt 3], [.bigInt 9], [.null .bigInt], [.bigInt 5], [.bigInt 9, .boolean true]]
    ∃ sorted windowed events windowEvents,
      order.sort .initial rows = .ok (sorted, events) ∧
      order.sortWindow .initial 1 2 rows = .ok (windowed, windowEvents) ∧
      windowed.take 3 = sorted.take 3 ∧ (windowed.drop 3).Perm (sorted.drop 3) ∧
      order.sortInPlace PartitionSort.sort .initial 3 rows = .accept () windowed windowEvents := by
  intro order rows
  have columns : ∀ row ∈ rows, ∀ key ∈ order.keys, key.column < row.length := by decide
  have arranged : rows.Pairwise fun left right =>
      order.compare left right = .ok (order.arrange left right) := by decide
  have readable : Settings.initial.integer .parallelSortMinRows = .ok 10000 := rfl
  obtain ⟨sorted, windowed, events, windowEvents, accepted, windowAccepted, _, leading, behind,
    inPlace⟩ := sortWindow_agrees columns (arranged.imp fun compared => ⟨_, compared⟩) (by decide)
      readable 1 2
  exact ⟨sorted, windowed, events, windowEvents, accepted, windowAccepted, leading, behind,
    (inPlace PartitionSort.sort PartitionSort.comparing.sorts).2⟩

/-! ## Refusals -/

/-- How a sort of rows with all columns ends: all of them can be compared and it succeeds, or two of
them mismatch and it is refused. -/
inductive Settled (order : OrderBy) (rows : List Row) {β : Type} : Except Fault β → Prop
  | accepted (answer : β) (comparable : order.Comparable rows) : Settled order rows (.ok answer)
  | refused (found expected : ValueType) (mismatched : order.Mismatched rows) :
      Settled order rows (.error (.typeMismatch found expected .notComparable))

section Settled

variable {β : Type} {result : Except Fault β}

theorem Settled.refused_iff (settled : Settled order rows result) :
    (∃ found expected, result = .error (.typeMismatch found expected .notComparable)) ↔
      order.Mismatched rows := by
  cases settled with
  | accepted answer comparable =>
      constructor
      · rintro ⟨found, expected, refused⟩
        cases refused
      · exact fun mismatched => absurd mismatched comparable.not_mismatched
  | refused found expected mismatched => exact ⟨fun _ => mismatched, fun _ => ⟨_, _, rfl⟩⟩

theorem Settled.of_error (columns : ∀ row ∈ rows, ∀ key ∈ order.keys, key.column < row.length)
    {fault : Fault} (met : order.MetBy rows fault) :
    Settled order rows (.error fault : Except Fault β) := by
  obtain ⟨found, expected, rfl⟩ := met.typeMismatch columns
  exact .refused found expected met.mismatched

end Settled

theorem comparable_of_short (columns : ∀ row ∈ rows, ∀ key ∈ order.keys, key.column < row.length)
    (short : rows.length < 2) : order.Comparable rows := by
  refine comparable_of_pairwise columns ?_
  match rows, short with
  | [], _ => exact .nil
  | [row], _ => exact List.pairwise_singleton _ row

theorem sort_settled (columns : ∀ row ∈ rows, ∀ key ∈ order.keys, key.column < row.length)
    {settings : Settings} {threshold : Int64}
    (readable : settings.integer .parallelSortMinRows = .ok threshold) :
    Settled order rows (order.sort settings rows) := by
  cases sorting : order.sort settings rows with
  | error fault =>
      have yields := order.sortLeading_yields settings rows.length rows
      rw [← sort, sorting] at yields
      rcases yields with unreadable | met
      · rw [readable] at unreadable
        cases unreadable
      · exact .of_error columns met
  | ok answer =>
      refine .accepted answer ?_
      by_cases short : rows.length < 2
      · exact comparable_of_short columns short
      · rw [sort, sortLeading_eq (by omega) (by omega) readable, if_neg (Nat.lt_irrefl _)] at sorting
        cases sorted : order.sorted rows with
        | ok ordered => exact comparable_of_sorted columns sorted
        | error fault => simp [sorted] at sorting

theorem sortInPlace_settled (columns : ∀ row ∈ rows, ∀ key ∈ order.keys, key.column < row.length)
    {settings : Settings} {threshold : Int64}
    (readable : settings.integer .parallelSortMinRows = .ok threshold)
    {parallel : Procedure (Row × Nat) Fault} (comparing : parallel.Comparing) :
    Settled order rows (order.sortInPlace parallel settings rows.length rows).answer := by
  by_cases short : rows.length < 2
  · rw [sortInPlace, if_pos (.inl short)]
    exact .accepted () (comparable_of_short columns short)
  · have chosen : (arranging parallel threshold rows.length rows.length).Comparing :=
      arranging_comparing comparing (Nat.lt_irrefl rows.length)
    rw [sortInPlace_eq (by omega) (by omega) readable
      fun tagged arranged => (ascending_of_comparing comparing arranged).1]
    cases sorting : order.sortedBy (arranging parallel threshold rows.length rows.length) rows with
    | error fault => exact .of_error columns (metBy_of_sortedBy chosen sorting)
    | ok ordered => exact .accepted () (comparable_of_sortedBy columns chosen sorting)

/-- Sorting is refused for a mismatch exactly if two rows mismatch, and for nothing else if the
setting can be read; no procedure that sorts by comparisons overlooks a mismatch. What is refused
leaves the rows as they were, whether all of them were to be put in order or not. -/
theorem sort_refused_iff_mismatched
    (columns : ∀ row ∈ rows, ∀ key ∈ order.keys, key.column < row.length) :
    (∀ (settings : Settings) (threshold : Int64),
      settings.integer .parallelSortMinRows = .ok threshold →
        ((∃ found expected,
            order.sort settings rows = .error (.typeMismatch found expected .notComparable)) ↔
          order.Mismatched rows) ∧
        (order.Mismatched rows ∨ ∃ answer, order.sort settings rows = .ok answer) ∧
        ∀ parallel : Procedure (Row × Nat) Fault, parallel.Comparing →
          ((∃ found expected, (order.sortInPlace parallel settings rows.length rows).answer =
              .error (.typeMismatch found expected .notComparable)) ↔
            order.Mismatched rows)) ∧
    (∀ (parallel : Procedure (Row × Nat) Fault) (settings : Settings) (count : Nat) (fault : Fault),
      (order.sortInPlace parallel settings count rows).answer = .error fault →
        (order.sortInPlace parallel settings count rows).state = rows) ∧
    (∀ (settings : Settings) (count : Nat),
      order.sortInPlace PartitionSort.sort settings count rows =
        match order.sortLeading settings count rows with
        | .error fault => .refuse fault rows
        | .ok (ordered, events) => .accept () ordered events) ∧
    ∀ (settings : Settings) (state : ResultState) (fault : Fault),
      state.buffer.order = some order → state.rows = rows →
        (state.sortRows settings).answer = .error fault →
          (state.sortRows settings).state.rows = rows := by
  refine ⟨fun settings threshold readable => ?_, fun parallel settings count fault refused => ?_,
    fun settings count => sortInPlace_eq_sortLeading columns,
    fun settings state fault ordering held refused => ?_⟩
  · have settled := sort_settled columns readable
    refine ⟨settled.refused_iff, ?_,
      fun parallel comparing => (sortInPlace_settled columns readable comparing).refused_iff⟩
    generalize order.sort settings rows = result at settled
    cases settled with
    | accepted answer comparable => exact .inr ⟨answer, rfl⟩
    | refused found expected mismatched => exact .inl mismatched
  · rw [sortInPlace_refused refused]
    rfl
  · unfold ResultState.sortRows at refused ⊢
    rw [ordering] at refused ⊢
    dsimp only at refused ⊢
    split
    · exact held
    · rename_i unshared
      rw [if_neg unshared] at refused
      cases sorting : state.orderedRows settings order with
      | error met => exact held
      | ok answer =>
          rw [sorting] at refused
          cases refused

theorem sort_refused_iff_mismatched_sample :
    let order : OrderBy := ⟨[⟨0, .ascending, .byDirection⟩, ⟨1, .ascending, .byDirection⟩]⟩
    let rows : List Row :=
      [[.integer 1, .integer 4], [.integer 2, .null .integer], [.integer 1, .null .varchar],
        [.integer 1, .varchar [97]]]
    order.Mismatched rows ∧
      ∃ found expected,
        order.sortInPlace PartitionSort.sort .initial 4 rows =
          .refuse (.typeMismatch found expected .notComparable) rows := by
  intro order rows
  have columns : ∀ row ∈ rows, ∀ key ∈ order.keys, key.column < row.length := by decide
  have mismatched : order.Mismatched rows :=
    ⟨[.integer 1, .integer 4], by decide, [.integer 1, .varchar [97]], by decide, .integer, .varchar,
      by decide⟩
  obtain ⟨refusals, _, same, _⟩ := sort_refused_iff_mismatched columns
  obtain ⟨found, expected, refused⟩ := (refusals .initial 10000 rfl).1.mpr mismatched
  refine ⟨mismatched, found, expected, ?_⟩
  rw [same .initial 4]
  change (match order.sort .initial rows with
    | .error fault => Outcome.refuse fault rows
    | .ok (ordered, events) => .accept () ordered events) = _
  rw [refused]

end QueryResult.OrderBy
