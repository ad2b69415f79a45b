import QueryResult.Proofs.Buffer.Run
import QueryResult.Proofs.Buffer.Window
import QueryResult.Proofs.ContentIndex

/-!
# Sound states

What holds of a buffer and its store whatever was done to them: the rows are
wide enough, an index has them under the contents of their visible values, and
the row count is the number of rows. A distinct result can lose its index in a
sort that fails; it cannot be filled or finalized after that.
-/

set_option autoImplicit false

namespace QueryResult

/-- Every row of the index has all visible values. -/
def ContentIndex.Wide (visible : Nat) (index : ContentIndex) : Prop :=
  ∀ entry ∈ index.toList, visible ≤ entry.2.length

/-- The index has rows under the contents of their visible values. -/
structure ContentIndex.Projects (visible : Nat) (index : ContentIndex) : Prop where
  wide : index.Wide visible
  keyed : ∃ map, index.Represents map ∧ map.Keyed visible

namespace ContentIndex

variable {visible : Nat} {index : ContentIndex}

theorem projects_empty (visible : Nat) : Projects visible empty :=
  ⟨fun _ held => absurd held List.not_mem_nil, ∅, represents_empty, ContentMap.keyed_empty visible⟩

theorem Projects.insert (projects : index.Projects visible) {row : Row}
    (wide : visible ≤ row.length) :
    (index.insert (RowKey.ofValues (row.take visible)) row).2.Projects visible := by
  obtain ⟨allWide, map, represents, keyed⟩ := projects
  refine ⟨fun entry listed => ?_, _, represents.insert (row.take visible) row, keyed.insert rfl⟩
  rcases mem_insert listed with kept | ⟨replaced, _⟩
  · exact allWide entry kept
  · rw [replaced]
    exact wide

theorem Projects.erase (projects : index.Projects visible) (values : List Value) :
    (index.erase (RowKey.ofValues values)).2.Projects visible := by
  obtain ⟨allWide, map, represents, keyed⟩ := projects
  exact ⟨fun entry listed => allWide entry (mem_erase listed), _, represents.erase values,
    keyed.erase _⟩

theorem Projects.values_wide (projects : index.Projects visible) {row : Row}
    (held : row ∈ index.values) : visible ≤ row.length := by
  obtain ⟨entry, listed, rfl⟩ := List.mem_map.mp held
  exact projects.wide entry listed

end ContentIndex

namespace ResultState

variable {settings : Settings} {state : ResultState}

/-- What holds in every state that operations on new buffers lead to. -/
structure Sound (state : ResultState) : Prop where
  wide : ∀ row ∈ state.rows, state.buffer.visible ≤ row.length
  plain : state.buffer.distinct = false → state.store.index = none
  projects : ∀ index, state.store.index = some index → index.Projects state.buffer.visible
  unshared : state.buffer.finalized = false → state.store.frozen = false
  pending : state.buffer.finalized = false → ∀ rows, state.pending? = some rows →
    state.buffer.rowCount = rows.length
  missing : state.buffer.finalized = false → state.pending? = none → 0 < state.buffer.rowCount
  counted : state.buffer.finalized = true → state.buffer.rowCount = state.store.rows.size

theorem sound_opened (name : Option String) (schema : Schema) (visible : Nat) (threshold : UInt64)
    (store : Nat) (context : Option Context) :
    (opened name schema visible threshold store context).Sound where
  wide := fun _ held => absurd held List.not_mem_nil
  plain := fun _ => rfl
  projects := fun _ present => by cases present
  unshared := fun _ => rfl
  pending := fun _ rows gathered => by cases gathered; rfl
  missing := fun _ missing => by cases missing
  counted := fun finalized => by cases finalized

theorem Sound.fillable (sound : state.Sound) (unfinalized : state.buffer.finalized = false) :
    state.Fillable :=
  ⟨unfinalized, sound.unshared unfinalized⟩

theorem Sound.counted_rows (sound : state.Sound) (unfinalized : state.buffer.finalized = false)
    (plain : state.buffer.distinct = false) : state.buffer.rowCount = state.store.rows.size :=
  sound.pending unfinalized _ (pending?_of_plain plain)

theorem Sound.counted_index (sound : state.Sound) (unfinalized : state.buffer.finalized = false)
    (distinct : state.buffer.distinct = true) {index : ContentIndex}
    (present : state.store.index = some index) : state.buffer.rowCount = index.size := by
  rw [sound.pending unfinalized _ (pending?_of_index distinct present), index.length_values]

/-- A change of the buffer that keeps what its soundness depends on. -/
theorem Sound.of_buffer (sound : state.Sound) {buffer : Buffer} {context : Option Context}
    (visible : buffer.visible = state.buffer.visible)
    (distinct : buffer.distinct = state.buffer.distinct)
    (finalized : buffer.finalized = state.buffer.finalized)
    (rowCount : buffer.rowCount = state.buffer.rowCount) :
    Sound { state with buffer := buffer, context := context } where
  wide := by
    simp only [visible]
    exact sound.wide
  plain := by
    simp only [distinct]
    exact sound.plain
  projects := by
    simp only [visible]
    exact sound.projects
  unshared := by
    simp only [finalized]
    exact sound.unshared
  pending := by
    simp only [finalized, rowCount, pending?, distinct]
    exact sound.pending
  missing := by
    simp only [finalized, rowCount, pending?, distinct]
    exact sound.missing
  counted := by
    simp only [finalized, rowCount]
    exact sound.counted

theorem Sound.madeDistinct (sound : state.Sound) (noRows : state.buffer.rowCount = 0)
    (unshared : state.store.frozen = false) :
    Sound
      { state with
        store := { state.store with index := some .empty }
        buffer := { state.buffer with distinct := true } } where
  wide := sound.wide
  plain := fun plain => by cases plain
  projects := fun index present => by
    cases present
    exact ContentIndex.projects_empty _
  unshared := fun _ => unshared
  pending := fun _ rows gathered => by
    cases gathered
    exact noRows
  missing := fun _ missing => by cases missing
  counted := sound.counted

theorem Sound.appended (sound : state.Sound) {row : Row} {registered : List Nat}
    {context : Option Context} (fillable : state.Fillable)
    (plain : state.buffer.distinct = false) (wide : state.buffer.visible ≤ row.length) :
    Sound
      { store := { state.store with rows := state.store.rows.push row }
        buffer :=
          { state.buffer with registered := registered, rowCount := state.buffer.rowCount + 1 }
        context := context } where
  wide := by
    intro other held
    rw [rows, Array.toList_push, List.mem_append, List.mem_singleton] at held
    rcases held with kept | rfl
    · exact sound.wide other kept
    · exact wide
  plain := sound.plain
  projects := sound.projects
  unshared := fun _ => fillable.unshared
  pending := by
    intro unfinalized rows gathered
    have counted := sound.counted_rows unfinalized plain
    rw [pending?, if_neg (by simp [plain])] at gathered
    cases gathered
    simp [ResultState.rows, counted]
  missing := by
    intro _ missing
    rw [pending?, if_neg (by simp [plain])] at missing
    cases missing
  counted := by
    intro finalized
    simp [fillable.unfinalized] at finalized

/-- The distinct state with another index, which it counts. -/
theorem Sound.reindexed (sound : state.Sound) {index : ContentIndex} {registered : List Nat}
    {context : Option Context} (fillable : state.Fillable)
    (distinct : state.buffer.distinct = true) (projects : index.Projects state.buffer.visible) :
    Sound
      { store := { state.store with index := some index }
        buffer := { state.buffer with registered := registered, rowCount := index.size }
        context := context } where
  wide := sound.wide
  plain := fun plain => by simp [distinct] at plain
  projects := fun other present => by
    cases present
    exact projects
  unshared := fun _ => fillable.unshared
  pending := by
    intro _ rows gathered
    rw [pending?, if_pos distinct] at gathered
    cases gathered
    exact index.length_values.symm
  missing := by
    intro _ missing
    rw [pending?, if_pos distinct] at missing
    cases missing
  counted := by
    intro finalized
    simp [fillable.unfinalized] at finalized

theorem Sound.effected (sound : state.Sound) {command : Command}
    {outcome : Outcome ResultState Answer} (effect : state.Effect command outcome) :
    outcome.state.Sound := by
  cases effect with
  | refused => exact sound
  | configured => exact sound.of_buffer rfl rfl rfl rfl
  | madeDistinct noRows unshared => exact sound.madeDistinct noRows unshared
  | appended row registered context events fillable plain wide =>
      exact sound.appended fillable plain (by rwa [Row.length_detached])
  | put row index registered context events fillable distinct wide present =>
      exact sound.reindexed fillable distinct
        ((sound.projects index present).insert (by rwa [Row.length_detached]))
  | removed row index fillable distinct present =>
      exact sound.reindexed fillable distinct ((sound.projects index present).erase row)
  | answered => exact sound
  | answeredFromRows => exact sound.of_buffer rfl rfl rfl rfl
  | keptIndex => exact sound
  | builtIndex => exact sound.of_buffer rfl rfl rfl rfl
  | rewound => exact sound.of_buffer rfl rfl rfl rfl
  | moved => exact sound.of_buffer rfl rfl rfl rfl
  | closed => exact sound.of_buffer rfl rfl rfl rfl

/-! ## Finalizing -/

theorem Sound.finalization (sound : state.Sound) (settings : Settings)
    (unfinalized : state.buffer.finalized = false) :
    Finalization settings state (state.finalize settings) :=
  finalize_outcome settings (sound.fillable unfinalized) (sound.pending unfinalized)

theorem Sound.pending_wide (sound : state.Sound) {pending : List Row}
    (gathered : state.pending? = some pending) {row : Row} (held : row ∈ pending) :
    state.buffer.visible ≤ row.length := by
  unfold pending? at gathered
  split at gathered
  · obtain ⟨index, present, rfl⟩ := Option.map_eq_some_iff.mp gathered
    exact (sound.projects index present).values_wide held
  · cases gathered
    exact sound.wide row held

theorem Sound.keptIndex_projects (sound : state.Sound) {index : ContentIndex}
    (kept : state.keptIndex = some index) : index.Projects state.buffer.visible := by
  unfold keptIndex at kept
  split at kept
  · cases kept
  · exact sound.projects index kept

theorem Sound.keptIndex_plain (sound : state.Sound) (plain : state.buffer.distinct = false) :
    state.keptIndex = none := by
  rw [keptIndex, if_neg (by simp [plain]), sound.plain plain]

/-- Only two rows or more can fail to be sorted. -/
theorem length_of_arrangement_error {fault : Fault}
    (failed : state.arrangement settings = .error fault) : 2 ≤ state.rows.length := by
  by_contra few
  have trivial : ∀ (order : OrderBy) (count : Nat),
      order.sortLeading settings count state.rows = .ok (state.rows, []) := fun order count =>
    if_pos (.inl (by omega))
  unfold arrangement at failed
  split at failed
  · cases failed
  · unfold orderedRows OrderBy.sort OrderBy.sortWindow at failed
    split at failed
    · rw [trivial] at failed
      cases failed
    · rw [trivial] at failed
      cases failed

theorem eq_of_pending?_materialized {pending rows : List Row}
    (gathered : state.pending? = some pending)
    (regathered : (state.materialized pending).pending? = some rows) : rows = pending := by
  unfold pending? at gathered regathered
  by_cases distinct : state.buffer.distinct = true
  · rw [if_pos distinct] at gathered
    have still : (state.materialized pending).buffer.distinct = true := distinct
    rw [if_pos still] at regathered
    obtain ⟨index, kept, rfl⟩ := Option.map_eq_some_iff.mp regathered
    have kept : state.keptIndex = some index := kept
    unfold keptIndex at kept
    split at kept
    · cases kept
    · rw [kept] at gathered
      exact Option.some.inj gathered
  · have still : ¬ (state.materialized pending).buffer.distinct = true := distinct
    rw [if_neg still] at regathered
    exact (Option.some.inj regathered).symm

theorem Sound.materialized (sound : state.Sound) (unfinalized : state.buffer.finalized = false)
    {pending : List Row} (gathered : state.pending? = some pending) {fault : Fault}
    (failed : (state.materialized pending).arrangement settings = .error fault) :
    (state.materialized pending).Sound where
  wide := fun row held => sound.pending_wide gathered held
  plain := sound.keptIndex_plain
  projects := fun index kept => sound.keptIndex_projects kept
  unshared := sound.unshared
  pending := by
    intro _ rows regathered
    rw [eq_of_pending?_materialized gathered regathered]
    exact sound.pending unfinalized pending gathered
  missing := by
    intro _ _
    have several : 2 ≤ pending.length := length_of_arrangement_error failed
    have counted : (state.materialized pending).buffer.rowCount = pending.length :=
      sound.pending unfinalized pending gathered
    omega
  counted := fun finalized => by
    have still : state.buffer.finalized = true := finalized
    simp [unfinalized] at still

theorem Sound.finished (sound : state.Sound) {pending ordered : List Row}
    (gathered : state.pending? = some pending) (rearranged : ordered.Perm pending) :
    (state.finished ordered).Sound where
  wide := fun _ held => sound.pending_wide gathered
    (rearranged.mem_iff.mp ((window_sublist _ _ ordered).mem held))
  plain := sound.keptIndex_plain
  projects := fun index kept => sound.keptIndex_projects kept
  unshared := fun unfinalized => by cases unfinalized
  pending := fun unfinalized => by cases unfinalized
  missing := fun unfinalized => by cases unfinalized
  counted := fun _ => rfl

/-- The states that commands lead to. Unlike `Effect`, it accounts for finalizing, which can end
after any of its stages. -/
inductive Reached (settings : Settings) (state : ResultState) : Command → ResultState → Prop
  | effected (command : Command) (outcome : Outcome ResultState Answer)
      (unfinalizing : command ≠ .finalize) (effect : state.Effect command outcome) :
      Reached settings state command outcome.state
  | finalizedBefore (finalized : state.buffer.finalized = true) :
      Reached settings state .finalize { state with buffer := state.buffer.rewound }
  | indexMissing (unfinalized : state.buffer.finalized = false) (missing : state.pending? = none) :
      Reached settings state .finalize state
  | unordered (pending : List Row) (fault : Fault) (unfinalized : state.buffer.finalized = false)
      (gathered : state.pending? = some pending)
      (failed : (state.materialized pending).arrangement settings = .error fault) :
      Reached settings state .finalize (state.materialized pending)
  | finished (pending ordered : List Row) (unfinalized : state.buffer.finalized = false)
      (gathered : state.pending? = some pending) (rearranged : ordered.Perm pending) :
      Reached settings state .finalize (state.finished ordered)

theorem Sound.reached (sound : state.Sound) (settings : Settings) (command : Command) :
    Reached settings state command (state.perform settings command).state := by
  by_cases finalizing : command = .finalize
  · subst finalizing
    rw [ResultState.perform, state_mapAnswer]
    cases finalized : state.buffer.finalized with
    | true =>
        rw [finalize, if_pos finalized]
        exact .finalizedBefore finalized
    | false =>
        have outcome := sound.finalization settings finalized
        generalize state.finalize settings = outcome at outcome
        cases outcome with
        | indexMissing missing => exact .indexMissing finalized missing
        | unordered pending fault gathered failed =>
            exact .unordered pending fault finalized gathered failed
        | finished pending ordered events gathered arranged =>
            obtain ⟨sorting, arranged⟩ := arranged
            exact .finished pending ordered finalized gathered (perm_of_arrangement arranged)
  · exact .effected command _ finalizing (state.perform_effect settings finalizing)

/-- Every command keeps a state sound, whether or not it is refused. -/
theorem Sound.perform (sound : state.Sound) (settings : Settings) (command : Command) :
    (state.perform settings command).state.Sound := by
  have reached := sound.reached settings command
  generalize (state.perform settings command).state = after at reached
  cases reached with
  | effected _ outcome _ effect => exact sound.effected effect
  | finalizedBefore => exact sound.of_buffer rfl rfl rfl rfl
  | indexMissing => exact sound
  | unordered pending fault unfinalized gathered failed =>
      exact sound.materialized unfinalized gathered failed
  | finished pending ordered _ gathered rearranged => exact sound.finished gathered rearranged

theorem Sound.performAll (sound : state.Sound) (settings : Settings) (commands : List Command) :
    (state.performAll settings commands).2.Sound :=
  performAll_holds Sound (fun _ => True) (fun _ command _ sound => sound.perform settings command)
    sound fun _ _ => trivial

/-- No command changes how many columns clients see, or which store the buffer has. -/
theorem Sound.shape_perform (sound : state.Sound) (settings : Settings) (command : Command) :
    (state.perform settings command).state.buffer.visible = state.buffer.visible ∧
      (state.perform settings command).state.buffer.store = state.buffer.store := by
  have reached := sound.reached settings command
  generalize (state.perform settings command).state = after at reached
  cases reached with
  | effected _ outcome _ effect => cases effect <;> exact ⟨rfl, rfl⟩
  | _ => exact ⟨rfl, rfl⟩

theorem Sound.shape_performAll (sound : state.Sound) (settings : Settings)
    (commands : List Command) :
    (state.performAll settings commands).2.buffer.visible = state.buffer.visible ∧
      (state.performAll settings commands).2.buffer.store = state.buffer.store := by
  have both : (state.performAll settings commands).2.Sound ∧
      (state.performAll settings commands).2.buffer.visible = state.buffer.visible ∧
      (state.performAll settings commands).2.buffer.store = state.buffer.store :=
    performAll_holds
      (fun after => after.Sound ∧ after.buffer.visible = state.buffer.visible ∧
        after.buffer.store = state.buffer.store)
      (fun _ => True)
      (fun _ command _ ⟨stillSound, visible, store⟩ =>
        have shape := stillSound.shape_perform settings command
        ⟨stillSound.perform settings command, shape.1.trans visible, shape.2.trans store⟩)
      ⟨sound, rfl, rfl⟩ fun _ _ => trivial
  exact both.2

/-- Nothing in a store that is shared can change. -/
theorem Sound.store_perform (sound : state.Sound) (shared : state.store.frozen = true)
    (settings : Settings) (command : Command) :
    (state.perform settings command).state.store = state.store := by
  have finalized : state.buffer.finalized = true := by
    by_contra unfinalized
    simp [sound.unshared (Bool.eq_false_iff.mpr unfinalized)] at shared
  by_cases finalizing : command = .finalize
  · subst finalizing
    simp only [ResultState.perform, finalize, finalized, if_true]
    rfl
  · have effect := state.perform_effect settings finalizing
    generalize state.perform settings command = outcome at effect
    cases effect with
    | madeDistinct noRows unshared => simp [shared] at unshared
    | appended row registered context events fillable => simp [fillable.unfinalized] at finalized
    | put row index registered context events fillable => simp [fillable.unfinalized] at finalized
    | removed row index fillable => simp [fillable.unfinalized] at finalized
    | _ => rfl

theorem Sound.store_performAll (sound : state.Sound) (shared : state.store.frozen = true)
    (settings : Settings) (commands : List Command) :
    (state.performAll settings commands).2.store = state.store := by
  have both : (state.performAll settings commands).2.Sound ∧
      (state.performAll settings commands).2.store = state.store :=
    performAll_holds (fun after => after.Sound ∧ after.store = state.store) (fun _ => True)
      (fun _ command _ ⟨stillSound, same⟩ =>
        ⟨stillSound.perform settings command,
          (stillSound.store_perform (same ▸ shared) settings command).trans same⟩)
      ⟨sound, rfl⟩ fun _ _ => trivial
  exact both.2

end ResultState

end QueryResult
