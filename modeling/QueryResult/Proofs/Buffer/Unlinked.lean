import QueryResult.Proofs.Buffer.Soundness

/-!
# Results do not depend on sources

Linked large objects are replaced by owned copies before a row is kept. Rows and
indexes of a result therefore stay the same when the content of a source
changes.
-/

set_option autoImplicit false

namespace QueryResult

/-- No value of the row depends on a source. -/
def Row.Unlinked (row : Row) : Prop :=
  ∀ value ∈ row, value.isLinked = false

namespace Row

variable {row : Row}

theorem unlinked_detached (row : Row) : row.detached.Unlinked :=
  fun _ held => isLinked_of_mem_detached held

theorem Unlinked.detached_eq (unlinked : row.Unlinked) : row.detached = row := by
  have same : row.map Value.detach = row.map id :=
    List.map_congr_left fun value held => Value.detach_of_not_linked (unlinked value held)
  rw [detached, same, List.map_id]

theorem Unlinked.take (unlinked : row.Unlinked) (count : Nat) : Unlinked (row.take count) :=
  fun value held => unlinked value (List.mem_of_mem_take held)

theorem Unlinked.follow (unlinked : row.Unlinked) (source : String) (content : Bytes) :
    row.map (Value.follow source content) = row := by
  have same : row.map (Value.follow source content) = row.map id :=
    List.map_congr_left fun value held =>
      Value.follow_of_not_linked source content (unlinked value held)
  rw [same, List.map_id]

end Row

theorem HashTree.map_eq_self {α : Type} {change : α → α} {tree : HashTree α}
    (unchanged : ∀ item ∈ tree.toList, change item = item) : tree.map change = tree := by
  induction tree with
  | leaf => rfl
  | node left hash items right leftIH rightIH =>
      have own : items.map change = items.map id :=
        List.map_congr_left fun item held => unchanged item
          (List.mem_append_right _ (List.mem_append_left _ held))
      rw [map, leftIH fun item held => unchanged item (List.mem_append_left _ held),
        rightIH fun item held => unchanged item
          (List.mem_append_right _ (List.mem_append_right _ held)), own, List.map_id]

/-- No key and no row of the index depends on a source. -/
def ContentIndex.Unlinked (index : ContentIndex) : Prop :=
  ∀ entry ∈ index.toList, Row.Unlinked entry.1.values ∧ Row.Unlinked entry.2

namespace ContentIndex

variable {index : ContentIndex}

theorem unlinked_empty : Unlinked empty :=
  fun _ held => absurd held List.not_mem_nil

theorem Unlinked.insert (unlinked : index.Unlinked) {values : List Value} {row : Row}
    (ownKey : Row.Unlinked values) (own : row.Unlinked) :
    (index.insert (RowKey.ofValues values) row).2.Unlinked := by
  intro entry listed
  rcases mem_insert listed with kept | ⟨replaced, key⟩
  · exact unlinked entry kept
  · refine ⟨?_, replaced ▸ own⟩
    rcases key with fresh | ⟨old, present⟩
    · exact fresh ▸ ownKey
    · exact (unlinked _ present).1

theorem Unlinked.erase (unlinked : index.Unlinked) (key : RowKey) :
    (index.erase key).2.Unlinked :=
  fun entry listed => unlinked entry (mem_erase listed)

theorem Unlinked.values (unlinked : index.Unlinked) {row : Row} (held : row ∈ index.values) :
    row.Unlinked := by
  obtain ⟨entry, listed, rfl⟩ := List.mem_map.mp held
  exact (unlinked entry listed).2

theorem Unlinked.follow (unlinked : index.Unlinked) (source : String) (content : Bytes) :
    index.follow source content = index := by
  have sameTree : (index.follow source content).tree = index.tree := by
    refine HashTree.map_eq_self fun entry listed => ?_
    obtain ⟨key, row⟩ := unlinked entry listed
    exact Prod.ext (congrArg (RowKey.mk · _) (key.follow source content))
      (row.follow source content)
  obtain ⟨tree, size, sizeEq⟩ := index
  simp only [ContentIndex.follow] at sameTree ⊢
  congr

theorem ofRows_unlinked {visible : Nat} {rows : List Row} {made : ContentIndex}
    (unlinked : ∀ row ∈ rows, row.Unlinked) (indexed : ofRows visible rows = .ok made) :
    made.Unlinked := by
  have grown : ∀ start : ContentIndex, start.Unlinked →
      (rows.foldlM
          (fun index row => do
            let key ← RowKey.ofVisible row visible
            return (index.insert key row).2) start : Except Fault ContentIndex) = .ok made →
        made.Unlinked := by
    clear indexed
    induction rows with
    | nil =>
        intro start startUnlinked finished
        cases finished
        exact startUnlinked
    | cons row rest ih =>
        intro start startUnlinked finished
        have own := unlinked row (by simp)
        rw [List.foldlM_cons] at finished
        cases key : RowKey.ofVisible row visible with
        | error fault =>
            simp only [key] at finished
            cases finished
        | ok found =>
            simp only [key] at finished
            have leading : found = RowKey.ofValues (row.take visible) := by
              unfold RowKey.ofVisible at key
              split at key
              · cases key
                rfl
              · cases key
            refine ih (fun other held => unlinked other (.tail _ held)) _ ?_ finished
            rw [leading]
            exact startUnlinked.insert (own.take visible) own
  exact grown empty unlinked_empty indexed

end ContentIndex

/-- No row of the store, and nothing in its index, depends on a source. -/
structure RowStore.Unlinked (store : RowStore) : Prop where
  rows : ∀ row ∈ store.rows.toList, row.Unlinked
  index : ∀ index, store.index = some index → index.Unlinked

theorem RowStore.Unlinked.follow {store : RowStore} (unlinked : store.Unlinked) (source : String)
    (content : Bytes) : store.follow source content = store := by
  have sameRows : (store.rows.map fun row => row.map (Value.follow source content)) =
      store.rows := by
    refine Array.ext' ?_
    have same : (store.rows.toList.map fun row => row.map (Value.follow source content)) =
        store.rows.toList.map id :=
      List.map_congr_left fun row held => (unlinked.rows row held).follow source content
    rw [Array.toList_map, same, List.map_id]
  have sameIndex : store.index.map (ContentIndex.follow source content) = store.index := by
    cases present : store.index with
    | none => rfl
    | some index => exact congrArg some ((unlinked.index index present).follow source content)
  rw [RowStore.follow, sameRows, sameIndex]

namespace ResultState

variable {settings : Settings} {state : ResultState}

/-- Nothing that the store and the buffer hold depends on a source. -/
structure Unlinked (state : ResultState) : Prop where
  rows : ∀ row ∈ state.rows, row.Unlinked
  index : ∀ index, state.store.index = some index → index.Unlinked
  lookup : ∀ index, state.buffer.lookup = some index → index.Unlinked

theorem Unlinked.store (unlinked : state.Unlinked) : state.store.Unlinked :=
  ⟨unlinked.rows, unlinked.index⟩

theorem unlinked_opened (name : Option String) (schema : Schema) (visible : Nat)
    (threshold : UInt64) (store : Nat) (context : Option Context) :
    (opened name schema visible threshold store context).Unlinked where
  rows := fun _ held => absurd held List.not_mem_nil
  index := fun _ present => by cases present
  lookup := fun _ present => by cases present

theorem Unlinked.follow_buffer (unlinked : state.Unlinked) (source : String) (content : Bytes) :
    state.buffer.follow source content = state.buffer := by
  have sameLookup : state.buffer.lookup.map (ContentIndex.follow source content) =
      state.buffer.lookup := by
    cases present : state.buffer.lookup with
    | none => rfl
    | some index => exact congrArg some ((unlinked.lookup index present).follow source content)
  rw [Buffer.follow, sameLookup]

theorem Unlinked.effected (unlinked : state.Unlinked) {command : Command}
    {outcome : Outcome ResultState Answer} (effect : state.Effect command outcome) :
    outcome.state.Unlinked := by
  cases effect with
  | madeDistinct =>
      refine ⟨unlinked.rows, ?_, unlinked.lookup⟩
      rintro index made
      cases made
      exact ContentIndex.unlinked_empty
  | appended row =>
      refine ⟨fun other held => ?_, unlinked.index, unlinked.lookup⟩
      have held : other ∈ (state.store.rows.push row.detached).toList := held
      rw [Array.toList_push, List.mem_append, List.mem_singleton] at held
      rcases held with kept | rfl
      · exact unlinked.rows other kept
      · exact row.unlinked_detached
  | put row index registered context events _ _ _ present =>
      refine ⟨unlinked.rows, ?_, unlinked.lookup⟩
      rintro inserted made
      cases made
      exact (unlinked.index index present).insert (row.unlinked_detached.take _)
        row.unlinked_detached
  | removed row index _ _ present =>
      refine ⟨unlinked.rows, ?_, unlinked.lookup⟩
      rintro erased made
      cases made
      exact (unlinked.index index present).erase _
  | answeredFromRows row index _ _ made =>
      refine ⟨unlinked.rows, unlinked.index, ?_⟩
      rintro lookup present
      cases present
      exact ContentIndex.ofRows_unlinked unlinked.rows made
  | builtIndex index _ _ made =>
      refine ⟨unlinked.rows, unlinked.index, ?_⟩
      rintro lookup present
      cases present
      exact ContentIndex.ofRows_unlinked unlinked.rows made
  | _ => exact ⟨unlinked.rows, unlinked.index, unlinked.lookup⟩

theorem Unlinked.pending (unlinked : state.Unlinked) {pending : List Row}
    (gathered : state.pending? = some pending) {row : Row} (held : row ∈ pending) :
    row.Unlinked := by
  unfold pending? at gathered
  split at gathered
  · obtain ⟨index, present, rfl⟩ := Option.map_eq_some_iff.mp gathered
    exact (unlinked.index index present).values held
  · cases gathered
    exact unlinked.rows row held

theorem Unlinked.keptIndex (unlinked : state.Unlinked) {index : ContentIndex}
    (kept : state.keptIndex = some index) : index.Unlinked := by
  unfold ResultState.keptIndex at kept
  split at kept
  · cases kept
  · exact unlinked.index index kept

theorem Unlinked.perform (unlinked : state.Unlinked) (sound : state.Sound) (settings : Settings)
    (command : Command) : (state.perform settings command).state.Unlinked := by
  have reached := sound.reached settings command
  generalize (state.perform settings command).state = after at reached
  cases reached with
  | effected _ outcome _ effect => exact unlinked.effected effect
  | finalizedBefore => exact ⟨unlinked.rows, unlinked.index, unlinked.lookup⟩
  | indexMissing => exact unlinked
  | unordered pending fault _ gathered =>
      exact ⟨fun row held => unlinked.pending gathered held,
        fun index kept => unlinked.keptIndex kept, unlinked.lookup⟩
  | finished pending ordered _ gathered rearranged =>
      exact ⟨fun row held => unlinked.pending gathered
          (rearranged.mem_iff.mp ((window_sublist _ _ ordered).mem held)),
        fun index kept => unlinked.keptIndex kept, unlinked.lookup⟩

end ResultState

end QueryResult
