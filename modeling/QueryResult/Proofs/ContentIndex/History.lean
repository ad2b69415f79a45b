import QueryResult.Proofs.ContentIndex

/-!
# Histories of a content index

Whatever has been put under keys, removed and taken out, an index answers as
the finite map does on which the same was done: a key leads to the row that was
last put under equal content, unless it was removed since or everything was
taken out.
-/

set_option autoImplicit false

namespace QueryResult

/-- A change of the rows under keys. -/
inductive IndexChange
  | put (key : List Value) (row : Row)
  | remove (key : List Value)
  | takeAll
  deriving DecidableEq

/-- The index after a change. -/
def ContentIndex.change (index : ContentIndex) : IndexChange → ContentIndex
  | .put key row => (index.insert (RowKey.ofValues key) row).2
  | .remove key => (index.erase (RowKey.ofValues key)).2
  | .takeAll => index.removeAll.2

/-- The map after a change. -/
def ContentMap.change (map : ContentMap) : IndexChange → ContentMap
  | .put key row => map.insert (RowContent.of key) row
  | .remove key => map.erase (RowContent.of key)
  | .takeAll => ∅

/-- The row under a key after changes of which the latest comes first: the one last put under
equal content since that was removed or everything was taken. -/
def IndexChange.latest (key : List Value) : List IndexChange → Option Row
  | [] => none
  | .put other row :: earlier => if sameContent key other then some row else latest key earlier
  | .remove other :: earlier => if sameContent key other then none else latest key earlier
  | .takeAll :: _ => none

/-! ## Answers from the map -/

namespace ContentIndex

variable {index : ContentIndex} {map : ContentMap}

theorem SplitAt.find?_eq {values : List Value} {before after : List (RowKey × Row)}
    {entry : RowKey × Row} (split : index.SplitAt values before entry after) :
    index.find? (RowKey.ofValues values) = some entry.2 := by
  have missed : before.find? (fun other => (RowKey.ofValues values).agrees other.1) = none :=
    List.find?_eq_none.mpr fun other listed => by simp [split.earlier other listed]
  rw [find?, split.candidates, List.find?_append, missed, List.find?_cons, split.agrees]
  rfl

theorem find?_of_not_contains {key : RowKey} (absent : ¬ index.contains key = true) :
    index.find? key = none := by
  rw [find?, Option.map_eq_none_iff, List.find?_eq_none]
  intro entry listed agrees
  exact absent (List.any_eq_true.mpr ⟨entry, listed, agrees⟩)

/-- An index finds what its map has. -/
theorem Represents.find?_eq (represents : index.Represents map) (values : List Value) :
    index.find? (RowKey.ofValues values) = map.lookup (RowContent.of values) := by
  by_cases held : index.contains (RowKey.ofValues values) = true
  · obtain ⟨before, entry, after, split⟩ := exists_splitAt held
    obtain ⟨others, present, _⟩ :=
      index.tree.exists_toList_perm (RowKey.ofValues values).hash
    have listed : ⟨RowContent.of values, entry.2⟩ ∈ map.entries := by
      rw [split.entries_eq represents present]
      exact Multiset.mem_cons_self _ _
    rw [split.find?_eq, Finmap.lookup_eq_some_iff.mpr listed]
  · rw [find?_of_not_contains held, Finmap.lookup_eq_none.mpr]
    exact fun inMap => held (represents.contains_iff.mpr inMap)

theorem Represents.contains_eq (represents : index.Represents map) (values : List Value) :
    index.contains (RowKey.ofValues values) = (map.lookup (RowContent.of values)).isSome := by
  rw [Bool.eq_iff_iff, represents.contains_iff, Finmap.lookup_isSome]

theorem insert_fst (index : ContentIndex) (key : RowKey) (row : Row) :
    (index.insert key row).1 = !index.contains key := by
  by_cases contained : index.contains key = true
  · rw [(insert_of_contains contained row).1, contained]
    rfl
  · rw [(insert_of_not_contains contained row).1, Bool.eq_false_iff.mpr contained]
    rfl

theorem Represents.size_eq_card (represents : index.Represents map) :
    index.size = map.keys.card := by
  rw [← represents.card_eq]
  exact (Multiset.card_map _ _).symm

theorem Represents.isEmpty_iff (represents : index.Represents map) :
    index.isEmpty = true ↔ map = ∅ := by
  rw [isEmpty, beq_iff_eq, ← represents.card_eq, Multiset.card_eq_zero]
  constructor
  · intro none
    exact Finmap.ext none
  · rintro rfl
    rfl

/-! ## Changes -/

theorem Represents.change (represents : index.Represents map) (change : IndexChange) :
    (index.change change).Represents (map.change change) := by
  cases change with
  | put key row => exact represents.insert key row
  | remove key => exact represents.erase key
  | takeAll => exact represents_empty

theorem Represents.changeAll (represents : index.Represents map) (changes : List IndexChange) :
    (changes.foldl ContentIndex.change index).Represents (changes.foldl ContentMap.change map) := by
  induction changes generalizing index map with
  | nil => exact represents
  | cons change rest ih => exact ih (represents.change change)

end ContentIndex

theorem ContentMap.lookup_change (map : ContentMap) (key : List Value) {earlier : List IndexChange}
    (looked : map.lookup (RowContent.of key) = IndexChange.latest key earlier)
    (change : IndexChange) :
    (map.change change).lookup (RowContent.of key) =
      IndexChange.latest key (change :: earlier) := by
  cases change with
  | put other row =>
      rw [ContentMap.change, IndexChange.latest]
      split
      · rename_i same
        rw [RowContent.of_eq_of_iff.mpr same, Finmap.lookup_insert]
      · rename_i different
        rw [Finmap.lookup_insert_of_ne _ (mt RowContent.of_eq_of_iff.mp different), looked]
  | remove other =>
      rw [ContentMap.change, IndexChange.latest]
      split
      · rename_i same
        rw [RowContent.of_eq_of_iff.mpr same, Finmap.lookup_erase]
      · rename_i different
        rw [Finmap.lookup_erase_ne (mt RowContent.of_eq_of_iff.mp different), looked]
  | takeAll => rw [ContentMap.change, IndexChange.latest, Finmap.lookup_empty]

theorem ContentMap.lookup_changeAll (key : List Value) (changes : List IndexChange) :
    (changes.foldl ContentMap.change ∅).lookup (RowContent.of key) =
      IndexChange.latest key changes.reverse := by
  induction changes using List.reverseRecOn with
  | nil => exact Finmap.lookup_empty _
  | append_singleton earlier change ih =>
      rw [List.foldl_concat, List.reverse_concat]
      exact ContentMap.lookup_change _ key ih change

/-- Keys lead to the rows last put under them, and everything that an index answers agrees. -/
theorem index_refines_map (changes : List IndexChange) :
    let index := changes.foldl ContentIndex.change .empty
    let map := changes.foldl ContentMap.change ∅
    let latest := fun key => IndexChange.latest key changes.reverse
    (∀ key, map.lookup (RowContent.of key) = latest key ∧
      index.find? (RowKey.ofValues key) = latest key ∧
      index.contains (RowKey.ofValues key) = (latest key).isSome) ∧
    (∀ key row,
      let put := index.insert (RowKey.ofValues key) row
      put.1 = (latest key).isNone ∧ put.2.find? (RowKey.ofValues key) = some row) ∧
    (∀ key,
      let removed := index.erase (RowKey.ofValues key)
      removed.1 = (latest key).isSome ∧ removed.2.find? (RowKey.ofValues key) = none) ∧
    index.size = map.keys.card ∧
    (index.isEmpty = true ↔ map = ∅) ∧
    (index.values : Multiset Row) = map.entries.map Sigma.snd ∧
    (index.removeAll.1 : Multiset Row) = index.values ∧ index.removeAll.2 = .empty := by
  intro index map latest
  have represents : index.Represents map := ContentIndex.represents_empty.changeAll changes
  have looked : ∀ key, map.lookup (RowContent.of key) = latest key := fun key =>
    ContentMap.lookup_changeAll key changes
  have contained : ∀ key, index.contains (RowKey.ofValues key) = (latest key).isSome := by
    intro key
    rw [represents.contains_eq, looked]
  refine ⟨?find, ?put, ?remove, represents.size_eq_card, represents.isEmpty_iff,
    represents.values_eq, rfl, rfl⟩
  case find =>
    intro key
    exact ⟨looked key, (represents.find?_eq key).trans (looked key), contained key⟩
  case put =>
    intro key row
    constructor
    · rw [ContentIndex.insert_fst, contained, Option.not_isSome]
    · rw [(represents.insert key row).find?_eq, Finmap.lookup_insert]
  case remove =>
    intro key
    constructor
    · rw [ContentIndex.erase_fst, contained]
    · rw [(represents.erase key).find?_eq, Finmap.lookup_erase]

end QueryResult
