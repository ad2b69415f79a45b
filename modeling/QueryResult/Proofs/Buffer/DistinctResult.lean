import QueryResult.Proofs.Buffer.Run
import QueryResult.Proofs.Buffer.Scan
import QueryResult.Proofs.Buffer.Window
import QueryResult.Proofs.ContentIndex

/-!
# Distinct results

A distinct result is a finite map from the contents of visible values to rows:
an accepted row takes the place of the one with its content, and removing
deletes a content. The row count is the size of the map throughout, and
finalizing delivers the rows of the map.
-/

set_option autoImplicit false

namespace QueryResult

/-- The map after a command, given its answer. -/
def ContentMap.note (visible : Nat) (map : ContentMap) : Command → Except Fault Answer → ContentMap
  | .add row, .ok _ => map.insert (RowContent.of (row.take visible)) row.detached
  | .remove row, .ok _ => map.erase (RowContent.of row)
  | _, _ => map

/-- The rows that a run of commands leaves, by the contents of their visible values. -/
def lastRows (visible : Nat) (commands : List Command) (answers : List (Except Fault Answer)) :
    ContentMap :=
  replay (ContentMap.note visible) ∅ commands answers

namespace ContentMap

variable {visible : Nat} {map : ContentMap}

theorem note_error (map : ContentMap) (command : Command) (fault : Fault) :
    map.note visible command (.error fault) = map := by
  cases command <;> rfl

theorem note_configures (map : ContentMap) {command : Command}
    (configures : command.configures = true) (answer : Except Fault Answer) :
    map.note visible command answer = map := by
  cases command with
  | add row => cases configures
  | remove row => cases configures
  | _ => rfl

end ContentMap

theorem RowContent.of_detached_take (row : Row) (visible : Nat) :
    RowContent.of (row.detached.take visible) = RowContent.of (row.take visible) := by
  rw [RowContent.of_eq_of_iff, sameContent_iff, Row.detached, ← List.map_take, List.map_map]
  exact List.map_congr_left fun value _ => value.canonical_detach

theorem ContentMap.Keyed.note {visible : Nat} {map : ContentMap} (keyed : map.Keyed visible)
    (command : Command) (answer : Except Fault Answer) :
    (map.note visible command answer).Keyed visible := by
  cases answer with
  | error fault => rwa [note_error]
  | ok answer =>
      cases command with
      | add row => exact keyed.insert (RowContent.of_detached_take row visible)
      | remove row => exact keyed.erase (RowContent.of row)
      | _ => exact keyed

theorem keyed_lastRows (visible : Nat) (commands : List Command)
    (answers : List (Except Fault Answer)) : (lastRows visible commands answers).Keyed visible := by
  unfold lastRows replay
  have grown : ∀ (steps : List (Command × Except Fault Answer)) (map : ContentMap),
      map.Keyed visible →
      (steps.foldl (fun map step => map.note visible step.1 step.2) map).Keyed visible := by
    intro steps
    induction steps with
    | nil => exact fun _ keyed => keyed
    | cons step rest ih => exact fun map keyed => ih _ (keyed.note step.1 step.2)
  exact grown _ ∅ (ContentMap.keyed_empty visible)

namespace ResultState

variable {settings : Settings} {state : ResultState} {visible : Nat} {map : ContentMap}

/-- The state is distinct and holds the rows of a map. If a sort has failed before, the index with
the rows can be missing. -/
structure Deduplicating (state : ResultState) (visible : Nat) (map : ContentMap) : Prop where
  fillable : state.Fillable
  distinct : state.buffer.distinct = true
  projection : state.buffer.visible = visible
  counted : state.buffer.rowCount = map.entries.card
  held : ∀ index, state.store.index = some index → index.Represents map

theorem Deduplicating.perform (deduplicating : state.Deduplicating visible map)
    {command : Command} (unfinalizing : command ≠ .finalize) :
    (state.perform settings command).state.Deduplicating visible
      (map.note visible command (state.perform settings command).answer) := by
  obtain ⟨fillable, distinct, projection, counted, held⟩ := deduplicating
  have unchanged : ∀ (buffer : Buffer) (context : Option Context),
      buffer.finalized = state.buffer.finalized →
      buffer.distinct = state.buffer.distinct → buffer.visible = state.buffer.visible →
      buffer.rowCount = state.buffer.rowCount →
      Deduplicating { state with buffer := buffer, context := context } visible map :=
    fun buffer context finalized stillDistinct sameVisible rowCount =>
      ⟨⟨finalized.trans fillable.unfinalized, fillable.unshared⟩, stillDistinct.trans distinct,
        sameVisible.trans projection, rowCount.trans counted, held⟩
  have effect := state.perform_effect settings unfinalizing
  generalize state.perform settings command = outcome at effect
  cases effect with
  | refused _ fault =>
      rw [Outcome.refuse, ContentMap.note_error]
      exact unchanged state.buffer state.context rfl rfl rfl rfl
  | configured _ threshold order offset limit randomAccess configures =>
      rw [ContentMap.note_configures map configures]
      exact unchanged _ state.context rfl rfl rfl rfl
  | madeDistinct noRows =>
      have nothing : map = ∅ := by
        rw [noRows] at counted
        exact Finmap.ext (Multiset.card_eq_zero.mp counted.symm)
      refine ⟨⟨fillable.unfinalized, fillable.unshared⟩, rfl, projection, counted, ?_⟩
      rintro index made
      cases made
      exact nothing ▸ ContentIndex.represents_empty
  | appended row registered context events _ plain => simp [distinct] at plain
  | put row index registered context events _ _ wide present =>
      have represents := (held index present).insert (row.detached.take visible) row.detached
      rw [RowContent.of_detached_take] at represents
      have key : state.keyOf row = RowKey.ofValues (row.detached.take visible) := by
        rw [keyOf, projection]
      refine ⟨⟨fillable.unfinalized, fillable.unshared⟩, distinct, projection, ?_, ?_⟩
      · rw [key]
        exact represents.card_eq.symm
      · rintro inserted made
        cases made
        rw [key]
        exact represents
  | removed row index _ _ present =>
      have represents := (held index present).erase row
      refine ⟨⟨fillable.unfinalized, fillable.unshared⟩, distinct, projection,
        represents.card_eq.symm, ?_⟩
      rintro erased made
      cases made
      exact represents
  | answered => exact unchanged state.buffer state.context rfl rfl rfl rfl
  | answeredFromRows => exact unchanged _ state.context rfl rfl rfl rfl
  | keptIndex => exact unchanged state.buffer state.context rfl rfl rfl rfl
  | builtIndex => exact unchanged _ state.context rfl rfl rfl rfl
  | rewound => exact unchanged _ state.context rfl rfl rfl rfl
  | moved => exact unchanged _ state.context rfl rfl rfl rfl
  | closed => exact unchanged _ _ rfl rfl rfl rfl

theorem Deduplicating.finalization (settings : Settings)
    (deduplicating : state.Deduplicating visible map) :
    Finalization settings state (state.finalize settings) := by
  refine finalize_outcome settings deduplicating.fillable fun pending gathered => ?_
  rw [pending?, if_pos deduplicating.distinct] at gathered
  obtain ⟨index, present, rfl⟩ := Option.map_eq_some_iff.mp gathered
  rw [deduplicating.counted, index.length_values, (deduplicating.held index present).card_eq]

theorem Deduplicating.materialized (deduplicating : state.Deduplicating visible map)
    (rows : List Row) : (state.materialized rows).Deduplicating visible map where
  fillable := ⟨deduplicating.fillable.unfinalized, deduplicating.fillable.unshared⟩
  distinct := deduplicating.distinct
  projection := deduplicating.projection
  counted := deduplicating.counted
  held := by
    intro index present
    simp only [ResultState.materialized, keptIndex] at present
    split at present
    · cases present
    · exact deduplicating.held index present

/-- Until the result is finalized, it holds the rows of the map. -/
theorem deduplicating_perform (settings : Settings)
    (before : state.buffer.finalized = true ∨ state.Deduplicating visible map)
    (command : Command) :
    (state.perform settings command).state.buffer.finalized = true ∨
      (state.perform settings command).state.Deduplicating visible
        (map.note visible command (state.perform settings command).answer) := by
  rcases before with finalized | deduplicating
  · exact .inl (finalized_perform settings finalized command)
  by_cases finalizing : command = .finalize
  · subst finalizing
    have outcome := deduplicating.finalization settings
    simp only [ResultState.perform]
    generalize state.finalize settings = finalized at outcome
    cases outcome with
    | indexMissing => exact .inr deduplicating
    | unordered pending => exact .inr (deduplicating.materialized pending)
    | finished => exact .inl rfl
  · exact .inr (deduplicating.perform finalizing)

theorem setDistinct_eq (unshared : state.store.frozen = false)
    (noRows : state.buffer.rowCount = 0) :
    state.setDistinct =
      .accept ()
        { state with
          store := { state.store with index := some .empty }
          buffer := { state.buffer with distinct := true } }
        [] := by
  rw [setDistinct, if_neg (by simp [noRows]), if_neg (by simp [unshared])]

theorem deduplicating_setDistinct (settings : Settings) (fillable : state.Fillable)
    (noRows : state.buffer.rowCount = 0) :
    (state.perform settings .setDistinct).state.Deduplicating state.buffer.visible ∅ := by
  rw [ResultState.perform, setDistinct_eq fillable.unshared noRows]
  refine ⟨⟨fillable.unfinalized, fillable.unshared⟩, rfl, rfl, noRows, ?_⟩
  rintro index present
  cases present
  exact ContentIndex.represents_empty

theorem deduplicating_performAll (settings : Settings) (commands : List Command)
    (fillable : state.Fillable) (noRows : state.buffer.rowCount = 0) :
    (state.performAll settings (.setDistinct :: commands)).2.buffer.finalized = true ∨
      (state.performAll settings (.setDistinct :: commands)).2.Deduplicating state.buffer.visible
        (lastRows state.buffer.visible (.setDistinct :: commands)
          (state.performAll settings (.setDistinct :: commands)).1) := by
  have first := deduplicating_setDistinct settings fillable noRows
  exact replay_holds
    (fun after map =>
      after.buffer.finalized = true ∨ after.Deduplicating state.buffer.visible map)
    (fun _ => True)
    (fun _ _ command _ before => deduplicating_perform settings before command) (.inr first)
    (fun _ _ => trivial)

/-- What a distinct result without order and window delivers: the rows of the map. -/
theorem Deduplicating.delivers_values (deduplicating : state.Deduplicating visible map)
    (isOpen : state.buffer.closed = false) (unordered : state.buffer.order = none)
    (noOffset : state.buffer.offset = 0) (noLimit : state.buffer.limit < 0) {final : ResultState}
    {events : List Event} (accepted : state.finalize settings = .accept () final events) :
    ∃ rows, Delivers final rows ∧ final.buffer.rowCount = rows.length ∧
      (rows : Multiset Row) = map.entries.map Sigma.snd := by
  have outcome := deduplicating.finalization settings
  rw [accepted] at outcome
  cases outcome with
  | finished pending ordered _ gathered arranged =>
      obtain ⟨sorting, arranged⟩ := arranged
      have inOrder : ordered = pending := by
        have order : (state.materialized pending).buffer.order = none := unordered
        rw [arrangement, order] at arranged
        exact (Prod.mk.inj (Except.ok.inj arranged)).1.symm
      have whole : (state.finished ordered).rows = pending := by
        simp [finished, ResultState.rows, noOffset, window_of_limit_neg noLimit, inOrder]
      have ready : (state.finished ordered).Readable := ⟨rfl, isOpen, rfl⟩
      refine ⟨pending, whole ▸ ready.delivers_rows rfl, whole ▸ rfl, ?_⟩
      rw [pending?, if_pos deduplicating.distinct] at gathered
      obtain ⟨index, present, rfl⟩ := Option.map_eq_some_iff.mp gathered
      exact (deduplicating.held index present).values_eq

/-- If no sort has failed before, finalizing without order succeeds. -/
theorem Deduplicating.finalizes (settings : Settings)
    (deduplicating : state.Deduplicating visible map)
    {index : ContentIndex} (present : state.store.index = some index)
    (unordered : state.buffer.order = none) :
    ∃ final events, state.finalize settings = .accept () final events := by
  have outcome := deduplicating.finalization settings
  generalize state.finalize settings = finalized at outcome
  cases outcome with
  | indexMissing missing => simp [pending?, deduplicating.distinct, present] at missing
  | unordered pending fault gathered failed =>
      have order : (state.materialized pending).buffer.order = none := unordered
      rw [arrangement, order] at failed
      cases failed
  | finished => exact ⟨_, _, rfl⟩

theorem index_isSome_perform (settings : Settings) {command : Command}
    (unfinalizing : command ≠ .finalize) (present : state.store.index.isSome = true) :
    (state.perform settings command).state.store.index.isSome = true := by
  have effect := state.perform_effect settings unfinalizing
  generalize state.perform settings command = outcome at effect
  cases effect with
  | madeDistinct | put | removed => rfl
  | _ => exact present

theorem index_isSome_performAll (settings : Settings) {commands : List Command}
    (unfinalizing : ∀ command ∈ commands, command ≠ .finalize)
    (present : state.store.index.isSome = true) :
    (state.performAll settings commands).2.store.index.isSome = true :=
  performAll_holds (fun after => after.store.index.isSome = true)
    (fun command => command ≠ .finalize)
    (fun _ _ unfinalizing present => index_isSome_perform settings unfinalizing present) present
    unfinalizing

theorem index_isSome_performAll_setDistinct (settings : Settings) (fillable : state.Fillable)
    (noRows : state.buffer.rowCount = 0) {commands : List Command}
    (unfinalizing : ∀ command ∈ commands, command ≠ .finalize) :
    (state.performAll settings (.setDistinct :: commands)).2.store.index.isSome = true := by
  have made : (state.perform settings .setDistinct).state.store.index.isSome = true := by
    rw [ResultState.perform, setDistinct_eq fillable.unshared noRows]
    rfl
  have kept := index_isSome_performAll settings unfinalizing made
  exact kept

/-- From the moment an empty result is made distinct until it is finalized, it is the map that
replaying the accepted commands gives: its row count is the size of the map, and finalized without
order, offset and limit it delivers the rows of the map, one for each content of visible values.
Finalizing can be tried in between; as long as it was not, it will succeed. -/
theorem distinct_result_is_map (filling settings : Settings) {filled : ResultState}
    {commands : List Command} {answers : List (Except Fault Answer)} (fillable : state.Fillable)
    (noRows : state.buffer.rowCount = 0)
    (ran : state.performAll filling (.setDistinct :: commands) = (answers, filled))
    (unfinalized : filled.buffer.finalized = false) :
    let map := lastRows state.buffer.visible (.setDistinct :: commands) answers
    filled.buffer.rowCount = map.entries.card ∧
      ((∀ command ∈ commands, command ≠ .finalize) → filled.buffer.order = none →
        ∃ final events, filled.perform settings .finalize = .accept .done final events) ∧
      ∀ final events, filled.perform settings .finalize = .accept .done final events →
        filled.buffer.closed = false → filled.buffer.order = none → filled.buffer.offset = 0 →
        filled.buffer.limit < 0 →
        ∃ rows, (∀ other, Delivers final other ↔ other = rows) ∧
          final.buffer.rowCount = map.entries.card ∧
          (rows : Multiset Row) = map.entries.map Sigma.snd ∧
          (rows.map fun row => RowContent.of (row.take state.buffer.visible) : Multiset RowContent) =
            map.keys.val := by
  intro map
  have deduplicating : filled.Deduplicating state.buffer.visible map := by
    have held := deduplicating_performAll filling commands fillable noRows
    rw [ran] at held
    exact held.resolve_left (by simp [unfinalized])
  refine ⟨deduplicating.counted, ?_, ?_⟩
  · intro unfinalizing unordered
    have present := index_isSome_performAll_setDistinct filling fillable noRows unfinalizing
    rw [ran] at present
    obtain ⟨index, present⟩ := Option.isSome_iff_exists.mp present
    obtain ⟨final, events, accepted⟩ := deduplicating.finalizes settings present unordered
    exact ⟨final, events, by rw [ResultState.perform, accepted]; rfl⟩
  · intro final events accepted isOpen unordered noOffset noLimit
    have finalized := finalize_of_perform accepted
    obtain ⟨rows, delivered, counted, values⟩ :=
      deduplicating.delivers_values isOpen unordered noOffset noLimit finalized
    refine ⟨rows, fun other => ⟨fun also => also.unique delivered, ?_⟩, ?_, values, ?_⟩
    · rintro rfl
      exact delivered
    · rw [counted, ← Multiset.coe_card, values, Multiset.card_map]
    · rw [← Multiset.map_coe, values]
      exact (keyed_lastRows _ _ _).map_entries

theorem distinct_result_is_map_sample :
    let state := opened none ⟨[]⟩ 1 Buffer.unbounded 0 none
    let commands : List Command :=
      [.add [.integer 1, .boolean true], .add [.null .integer], .add [.integer 1, .boolean false],
        .remove [.null .integer], .remove [.integer 1, .boolean false], .add []]
    let run := state.performAll .initial (.setDistinct :: commands)
    let map := lastRows 1 (.setDistinct :: commands) run.1
    run.2.buffer.rowCount = 1 ∧ run.2.buffer.rowCount = map.entries.card ∧
      ∃ final events, run.2.perform .initial .finalize = .accept .done final events ∧
        ∃ rows, (∀ other, Delivers final other ↔ other = rows) ∧
          final.buffer.rowCount = map.entries.card ∧
          (rows : Multiset Row) = map.entries.map Sigma.snd ∧
          (rows.map fun row => RowContent.of (row.take 1) : Multiset RowContent) = map.keys.val := by
  intro state commands run map
  obtain ⟨counted, finalizes, delivers⟩ :=
    distinct_result_is_map .initial .initial ⟨rfl, rfl⟩ rfl (Prod.eta run).symm (by decide)
  obtain ⟨final, events, accepted⟩ := finalizes (by decide) (by decide)
  exact ⟨by decide, counted, final, events, accepted,
    delivers final events accepted (by decide) (by decide) (by decide) (by decide)⟩

end ResultState

end QueryResult
