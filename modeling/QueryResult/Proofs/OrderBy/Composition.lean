import QueryResult.Proofs.OrderBy.Guarantees
import QueryResult.Proofs.OrderBy.Preorder

/-!
# Sorting by several keys

Sorting by minor keys and then by major ones is sorting by both lists at once:
rows that tie under the major keys stand where the first sort has left them. Two
sorts by the same keys are therefore a sort by these keys twice over, and a key
whose column an earlier key has named decides nothing.
-/

set_option autoImplicit false

namespace QueryResult

/-! ## Comparing by joined keys -/

variable {major minor : List SortKey} {left right : Row}

theorem compareKeys_append :
    compareKeys (major ++ minor) left right =
      match compareKeys major left right with
      | .ok .eq => compareKeys minor left right
      | decided => decided := by
  induction major with
  | nil => rfl
  | cons key rest ih =>
      simp only [List.cons_append, compareKeys]
      cases key.compare left right with
      | error fault => rfl
      | ok outcome =>
          cases outcome with
          | lt => rfl
          | eq => exact ih
          | gt => rfl

theorem compareKeys_append_self (keys : List SortKey) :
    compareKeys (keys ++ keys) left right = compareKeys keys left right := by
  rw [compareKeys_append]
  split
  · rfl
  · rfl

theorem SortKey.Ties.of_column_eq {key repeated : SortKey} (ties : key.Ties left right)
    (sameColumn : repeated.column = key.column) : repeated.Ties left right := by
  unfold Ties at ties ⊢
  rwa [sameColumn]

theorem ties_of_compareKeys_eq {keys : List SortKey}
    (equal : compareKeys keys left right = .ok .eq) : ∀ key ∈ keys, key.Ties left right := by
  induction keys with
  | nil => simp
  | cons key rest ih =>
      unfold compareKeys at equal
      split at equal
      · rename_i own
        exact List.forall_mem_cons.mpr ⟨SortKey.compare_eq_iff_ties.mp own, ih equal⟩
      · rename_i decided
        exact absurd equal decided

/-- A key is reached only where all keys before it tie. If one of these has its column, it ties as
well. -/
theorem compareKeys_repeated {repeated : SortKey}
    (named : ∃ key ∈ major, repeated.column = key.column) :
    compareKeys (major ++ repeated :: minor) left right = compareKeys (major ++ minor) left right := by
  obtain ⟨key, listed, sameColumn⟩ := named
  rw [compareKeys_append, compareKeys_append]
  split
  · rename_i equal
    have ties : repeated.Ties left right :=
      (ties_of_compareKeys_eq equal key listed).of_column_eq sameColumn
    simp only [compareKeys, SortKey.compare_eq_iff_ties.mpr ties]
  · rfl

namespace OrderBy

variable {rows once sorted : List Row}

theorem StableSort.of_compare_eq {order other : OrderBy} (stable : order.StableSort rows sorted)
    (same : ∀ left right, other.compare left right = order.compare left right) :
    other.StableSort rows sorted := by
  obtain ⟨tagged, rearranged, ascending, rfl⟩ := stable
  refine ⟨tagged, rearranged, ascending.imp fun precedes => ?_, rfl⟩
  simpa only [Precedes, same] using precedes

theorem Comparable.of_compare_eq {order other : OrderBy} (comparable : order.Comparable rows)
    (same : ∀ left right, other.compare left right = order.compare left right) :
    other.Comparable rows := by
  simpa only [Comparable, same] using comparable

/-! ## One stable sort after another -/

/-- A row at its place in the order that `early` holds rows in, taken back to its place before. -/
def origin (early : List (Row × Nat)) (item : Row × Nat) : Row × Nat :=
  (item.1, (early[item.2]?.map Prod.snd).getD 0)

theorem getElem?_eq_origin {early : List (Row × Nat)} {item : Row × Nat}
    (held : item ∈ (early.map Prod.fst).zipIdx) : early[item.2]? = some (origin early item) := by
  have found := List.mem_zipIdx_iff_getElem?.mp held
  rw [List.getElem?_map, Option.map_eq_some_iff] at found
  obtain ⟨entry, listed, same⟩ := found
  rw [listed, origin, listed]
  exact congrArg some (Prod.ext same rfl)

theorem map_origin (early : List (Row × Nat)) :
    (early.map Prod.fst).zipIdx.map (origin early) = early := by
  refine List.ext_getElem (by simp) fun place inside held => ?_
  simp [origin, List.getElem?_eq_getElem held]

/-- Where the major keys tie, the place after the first sort decides, and that sort has put the rows
in order by the minor keys. -/
theorem Precedes.append {left right before after : Row × Nat} (outer : Precedes ⟨major⟩ left right)
    (inner : left.2 < right.2 → Precedes ⟨minor⟩ before after)
    (leftRow : before.1 = left.1) (rightRow : after.1 = right.1) :
    Precedes ⟨major ++ minor⟩ before after := by
  unfold Precedes OrderBy.compare at outer inner ⊢
  rw [leftRow, rightRow] at inner ⊢
  rw [compareKeys_append]
  rcases outer with less | ⟨equal, earlier⟩
  · exact .inl (by rw [less])
  · rw [equal]
    exact inner earlier

theorem StableSort.append (first : StableSort ⟨minor⟩ rows once)
    (second : StableSort ⟨major⟩ once sorted) : StableSort ⟨major ++ minor⟩ rows sorted := by
  obtain ⟨early, earlyPerm, earlyAscending, rfl⟩ := first
  obtain ⟨late, latePerm, lateAscending, rfl⟩ := second
  refine ⟨late.map (origin early), ?_, ?_, ?_⟩
  · have moved := latePerm.map (origin early)
    rw [map_origin] at moved
    exact moved.trans earlyPerm
  · refine List.pairwise_map.mpr (lateAscending.imp_of_mem ?_)
    intro left right leftListed rightListed outer
    -- The places of `late` are those of the rows in the first sort, which took `early` as its order.
    refine outer.append (fun earlier => ?_) rfl rfl
    obtain ⟨leftInside, leftFound⟩ :=
      List.getElem?_eq_some_iff.mp (getElem?_eq_origin (latePerm.mem_iff.mp leftListed))
    obtain ⟨rightInside, rightFound⟩ :=
      List.getElem?_eq_some_iff.mp (getElem?_eq_origin (latePerm.mem_iff.mp rightListed))
    rw [← leftFound, ← rightFound]
    exact List.pairwise_iff_getElem.mp earlyAscending _ _ leftInside rightInside earlier
  · rw [List.map_map]
    rfl

/-- A second sort by the same keys finds the rows in order. -/
theorem StableSort.idempotent {order : OrderBy} (first : order.StableSort rows once)
    (second : order.StableSort once sorted) : sorted = once := by
  have twice : OrderBy.StableSort ⟨order.keys ++ order.keys⟩ rows sorted := first.append second
  exact (twice.of_compare_eq fun left right => (compareKeys_append_self order.keys).symm).unique first

/-! ## Rows of one type under each key -/

/-- All rows have the columns of all keys, and under each key the values that are not NULL are of one
type. -/
structure UniformUnder (keys : List SortKey) (rows : List Row) : Prop where
  columns : ∀ row ∈ rows, ∀ key ∈ keys, key.column < row.length
  types : ∀ key ∈ keys, ∃ type, ∀ row ∈ rows, ∀ value, row[key.column]? = some value →
    value.isNull = true ∨ value.type = type

theorem UniformUnder.of_subset {keys part : List SortKey} (uniform : UniformUnder keys rows)
    (subset : part ⊆ keys) : UniformUnder part rows where
  columns := fun row held key listed => uniform.columns row held key (subset listed)
  types := fun key listed => uniform.types key (subset listed)

theorem UniformUnder.comparable {keys : List SortKey} (uniform : UniformUnder keys rows) :
    Comparable ⟨keys⟩ rows := by
  intro left leftHeld right rightHeld
  cases compared : OrderBy.compare ⟨keys⟩ left right with
  | ok outcome => exact ⟨outcome, rfl⟩
  | error fault =>
      -- With all columns there, only a clash is left, and that takes values of two types.
      obtain ⟨found, expected, rfl⟩ := compare_mismatch_of_error (uniform.columns left leftHeld)
        (uniform.columns right rightHeld) compared
      obtain ⟨before, key, after, split, clashes, -⟩ : ClashAfterTies keys left right found expected :=
        compareKeys_eq_mismatch_iff.mp compared
      obtain ⟨leftValue, rightValue, leftFound, rightFound, leftPresent, rightPresent, rfl, rfl,
        differ⟩ := clashes
      have listed : key ∈ keys := by rw [split]; exact List.mem_append_cons_self
      obtain ⟨type, ofType⟩ := uniform.types key listed
      have leftType : leftValue.type = type :=
        (ofType left leftHeld leftValue leftFound).resolve_left (by simp [leftPresent])
      have rightType : rightValue.type = type :=
        (ofType right rightHeld rightValue rightFound).resolve_left (by simp [rightPresent])
      exact absurd (leftType.trans rightType.symm) differ

/-- Sorting the rows answers `sorted`, with rows sorted in parallel by any procedure that sorts. -/
def SortsTo (order : OrderBy) (settings : Settings) (rows sorted : List Row) : Prop :=
  ∃ events, order.sort settings rows = .ok (sorted, events) ∧
    ∀ parallel : Procedure (Row × Nat) Fault, parallel.Sorts →
      order.sortInPlace parallel settings rows.length rows = .accept () sorted events

theorem SortsTo.unique {order : OrderBy} {settings : Settings} {other : List Row}
    (answer : order.SortsTo settings rows sorted) (otherAnswer : order.SortsTo settings rows other) :
    sorted = other := by
  obtain ⟨events, accepted, -⟩ := answer
  obtain ⟨otherEvents, otherAccepted, -⟩ := otherAnswer
  cases accepted.symm.trans otherAccepted
  rfl

theorem Comparable.sortsTo {order : OrderBy} (comparable : order.Comparable rows)
    (stable : order.StableSort rows sorted) {settings : Settings} {threshold : Int64}
    (readable : settings.integer .parallelSortMinRows = .ok threshold) :
    order.SortsTo settings rows sorted := by
  obtain ⟨events, accepted⟩ := comparable.sort_eq stable readable
  exact ⟨events, accepted, fun parallel sorts => comparable.sortInPlace_eq sorts accepted⟩

/-- Rows of one type under each key are sorted by minor keys and then by major ones as they are by both
lists at once. Sorting them again changes nothing, and neither does a key whose column a key before it
has named. -/
theorem sort_decomposes {settings : Settings} {threshold : Int64}
    (readable : settings.integer .parallelSortMinRows = .ok threshold) (rows : List Row) :
    (∀ major minor : List SortKey, UniformUnder (major ++ minor) rows →
      ∃ once sorted,
        SortsTo ⟨minor⟩ settings rows once ∧ SortsTo ⟨major⟩ settings once sorted ∧
          SortsTo ⟨major ++ minor⟩ settings rows sorted) ∧
    (∀ keys : List SortKey, UniformUnder keys rows →
      ∃ sorted, SortsTo ⟨keys⟩ settings rows sorted ∧ SortsTo ⟨keys⟩ settings sorted sorted) ∧
    ∀ (major minor : List SortKey) (repeated : SortKey),
      (∃ key ∈ major, repeated.column = key.column) → UniformUnder (major ++ minor) rows →
        ∃ sorted, SortsTo ⟨major ++ minor⟩ settings rows sorted ∧
          SortsTo ⟨major ++ repeated :: minor⟩ settings rows sorted := by
  refine ⟨fun major minor uniform => ?_, fun keys uniform => ?_,
    fun major minor repeated named uniform => ?_⟩
  · have byMinor := (uniform.of_subset (List.subset_append_right major minor)).comparable
    have byMajor := (uniform.of_subset (List.subset_append_left major minor)).comparable
    obtain ⟨once, _, first⟩ := byMinor.sorted_stable
    have onceByMajor := byMajor.of_perm first.perm
    obtain ⟨sorted, _, second⟩ := onceByMajor.sorted_stable
    exact ⟨once, sorted, byMinor.sortsTo first readable, onceByMajor.sortsTo second readable,
      uniform.comparable.sortsTo (first.append second) readable⟩
  · obtain ⟨once, _, first⟩ := uniform.comparable.sorted_stable
    have again := uniform.comparable.of_perm first.perm
    obtain ⟨sorted, _, second⟩ := again.sorted_stable
    rw [first.idempotent second] at second
    exact ⟨once, uniform.comparable.sortsTo first readable, again.sortsTo second readable⟩
  · have same : ∀ left right, OrderBy.compare ⟨major ++ repeated :: minor⟩ left right =
        OrderBy.compare ⟨major ++ minor⟩ left right := fun left right => compareKeys_repeated named
    obtain ⟨sorted, _, stable⟩ := uniform.comparable.sorted_stable
    exact ⟨sorted, uniform.comparable.sortsTo stable readable,
      (uniform.comparable.of_compare_eq same).sortsTo (stable.of_compare_eq same) readable⟩

theorem sort_decomposes_sample :
    let major : List SortKey := [⟨0, .ascending, .first⟩]
    let minor : List SortKey := [⟨1, .ascending, .last⟩]
    let rows : List Row :=
      [[.integer 2, .varchar [97]], [.null .varchar, .varchar [98]], [.integer 1, .varchar [98]],
        [.integer 2, .null .clob], [.integer 1, .varchar [97], .boolean true]]
    let sorted : List Row :=
      [[.null .varchar, .varchar [98]], [.integer 1, .varchar [97], .boolean true],
        [.integer 1, .varchar [98]], [.integer 2, .varchar [97]], [.integer 2, .null .clob]]
    (∃ once, SortsTo ⟨minor⟩ .initial rows once ∧ SortsTo ⟨major⟩ .initial once sorted) ∧
      SortsTo ⟨major ++ minor⟩ .initial sorted sorted ∧
      SortsTo ⟨major ++ ⟨0, .descending, .last⟩ :: minor⟩ .initial rows sorted := by
  intro major minor rows sorted
  have uniform : UniformUnder (major ++ minor) rows := by
    have columns : ∀ row ∈ rows, ∀ key ∈ major ++ minor, key.column < row.length := by decide
    have integers : ∀ row ∈ rows, ∀ value ∈ row[0]?, value.isNull = true ∨ value.type = .integer := by
      decide
    have strings : ∀ row ∈ rows, ∀ value ∈ row[1]?, value.isNull = true ∨ value.type = .varchar := by
      decide
    exact ⟨columns, List.forall_mem_cons.mpr ⟨⟨.integer, integers⟩,
      List.forall_mem_singleton.mpr ⟨.varchar, strings⟩⟩⟩
  have stable : OrderBy.StableSort ⟨major ++ minor⟩ rows sorted := by
    refine ⟨[([.null .varchar, .varchar [98]], 1), ([.integer 1, .varchar [97], .boolean true], 4),
      ([.integer 1, .varchar [98]], 2), ([.integer 2, .varchar [97]], 0),
      ([.integer 2, .null .clob], 3)], by decide, ?_, rfl⟩
    unfold Precedes
    decide
  have readable : Settings.initial.integer .parallelSortMinRows = .ok 10000 := rfl
  obtain ⟨decomposes, idempotent, repeats⟩ := sort_decomposes readable rows
  have answer := uniform.comparable.sortsTo stable readable
  obtain ⟨once, other, first, second, both⟩ := decomposes major minor uniform
  cases both.unique answer
  obtain ⟨other, again, same⟩ := idempotent (major ++ minor) uniform
  cases again.unique answer
  obtain ⟨other, without, repeated⟩ := repeats major minor ⟨0, .descending, .last⟩
    ⟨_, List.mem_singleton_self _, rfl⟩ uniform
  cases without.unique answer
  exact ⟨⟨once, first, second⟩, same, repeated⟩

end OrderBy

end QueryResult
